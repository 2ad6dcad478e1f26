import SereinGateway.Consensus.Adjudication

/-!
`evaluate` as an election.

`successes rs key` is read off the responses without the consensus map: the
successful ones that carry `key`, in the order given. A key is elected by as many
of them as the engine requires, and the result of `evaluate` is a report of the
successes of one key that has the most.
-/

namespace SereinGateway.Consensus

open SereinGateway.Lib

/-- The successful responses with the semantic key `key`. -/
def successes (rs : List ProviderResponse) (key : String) : List ProviderResponse :=
  rs.filter fun r => r.status = .success ∧ r.semanticKey = key

theorem votesFor_eq_successes (rs : List ProviderResponse) {key : String} (hkey : key ≠ "") :
    votesFor rs key = successes rs key := by
  rw [votesFor, successes, List.filter_filter]
  refine List.filter_congr fun r _ => ?_
  rw [ProviderResponse.isVote, Bool.eq_iff_iff]
  simp only [Bool.and_eq_true, decide_eq_true_eq]
  constructor
  · rintro ⟨hk, hs, -⟩
    exact ⟨hs, hk⟩
  · rintro ⟨hs, hk⟩
    exact ⟨hk, hs, hk ▸ hkey⟩

theorem voteCount_eq_successes (rs : List ProviderResponse) {key : String} (hkey : key ≠ "") :
    voteCount rs key = (successes rs key).length := by
  rw [voteCount, votesFor_eq_successes rs hkey]

theorem ne_empty_of_voted {rs : List ProviderResponse} {key : String}
    (h : 0 < voteCount rs key) : key ≠ "" := by
  rintro rfl
  obtain ⟨r, hr⟩ := List.length_pos_iff_exists_mem.mp h
  obtain ⟨-, hvote, hkey⟩ := mem_votesFor.mp hr
  simp [ProviderResponse.isVote, hkey] at hvote

theorem VoteEntry.ofVotes_content_getLast {votes : List ProviderResponse} (h : votes ≠ []) :
    (VoteEntry.ofVotes votes).content = (votes.getLast h).content := by
  induction votes using List.reverseRecOn with
  | nil => exact absurd rfl h
  | append_singleton votes r _ =>
      rw [VoteEntry.ofVotes_concat, List.getLast_append_singleton]
      rfl

/-! ### The maximum of the latencies -/

theorem UInt64.max_cases (a b : UInt64) : max a b = a ∧ b ≤ a ∨ max a b = b ∧ a ≤ b := by
  change (if a ≤ b then b else a) = a ∧ b ≤ a ∨ (if a ≤ b then b else a) = b ∧ a ≤ b
  by_cases h : a ≤ b
  · rw [if_pos h]
    exact .inr ⟨rfl, h⟩
  · rw [if_neg h]
    exact .inl ⟨rfl, UInt64.le_of_lt (UInt64.not_le.mp h)⟩

theorem foldl_latency (rs : List ProviderResponse) (start : UInt64) :
    let total := rs.foldl (fun l r => max l r.latencyMs) start
    start ≤ total ∧ (∀ r ∈ rs, r.latencyMs ≤ total) ∧
      (total = start ∨ ∃ r ∈ rs, total = r.latencyMs) := by
  induction rs generalizing start with
  | nil => exact ⟨UInt64.le_refl _, by simp, .inl rfl⟩
  | cons r rs ih =>
      obtain ⟨hstart, hall, hfrom⟩ := ih (max start r.latencyMs)
      rw [List.foldl_cons]
      rcases UInt64.max_cases start r.latencyMs with ⟨hmax, hle⟩ | ⟨hmax, hle⟩
      · rw [hmax] at hstart hall hfrom ⊢
        refine ⟨hstart, List.forall_mem_cons.mpr ⟨UInt64.le_trans hle hstart, hall⟩, ?_⟩
        exact hfrom.imp_right fun ⟨r', hr', htotal⟩ => ⟨r', List.mem_cons_of_mem r hr', htotal⟩
      · rw [hmax] at hstart hall hfrom ⊢
        refine ⟨UInt64.le_trans hle hstart, List.forall_mem_cons.mpr ⟨hstart, hall⟩, .inr ?_⟩
        rcases hfrom with htotal | ⟨r', hr', htotal⟩
        · exact ⟨r, List.mem_cons_self, htotal⟩
        · exact ⟨r', List.mem_cons_of_mem r hr', htotal⟩

theorem foldl_latency_isMax {rs : List ProviderResponse} (hne : rs ≠ []) :
    (∀ r ∈ rs, r.latencyMs ≤ rs.foldl (fun l r => max l r.latencyMs) 0) ∧
      ∃ r ∈ rs, rs.foldl (fun l r => max l r.latencyMs) 0 = r.latencyMs := by
  obtain ⟨-, hall, hfrom⟩ := foldl_latency rs 0
  refine ⟨hall, ?_⟩
  rcases hfrom with hzero | hmem
  · -- A maximum of zero is the latency of every response.
    obtain ⟨r, hr⟩ := List.exists_mem_of_ne_nil rs hne
    have hle := hall r hr
    rw [hzero] at hle
    exact ⟨r, hr, hzero.trans (UInt64.le_antisymm (UInt64.zero_le) hle)⟩
  · exact hmem

/-! ### The report -/

namespace TmrConsensusEngine

/-- The votes a key needs. -/
def requiredVotes (engine : TmrConsensusEngine) (rs : List ProviderResponse) : ℕ :=
  requiredAgreement engine.config (engine.totalNodes rs)

/-- The cases of the votes required: one vote unless the engine is strict; else those of the
configuration from three nodes on and all of them below, where the nodes are the healthy ones,
or the responses when there is none. -/
theorem requiredVotes_cases (engine : TmrConsensusEngine) (rs : List ProviderResponse) :
    (engine.config.strictMode = false → engine.requiredVotes rs = 1) ∧
    (engine.config.strictMode = true → engine.healthyNodes ≠ [] →
      (3 ≤ engine.healthyNodes.length → engine.requiredVotes rs = engine.config.minAgreement) ∧
      (engine.healthyNodes.length < 3 →
        engine.requiredVotes rs = engine.healthyNodes.length)) ∧
    (engine.config.strictMode = true → engine.healthyNodes = [] →
      (3 ≤ rs.length → engine.requiredVotes rs = engine.config.minAgreement) ∧
      (rs.length < 3 → engine.requiredVotes rs = rs.length)) := by
  unfold requiredVotes requiredAgreement
  refine ⟨fun hlax => ?_, fun hstrict hhealthy => ?_, fun hstrict hnone => ?_⟩
  · rw [hlax, if_neg Bool.false_ne_true]
  · rw [totalNodes, if_neg hhealthy, if_pos hstrict]
    exact ⟨fun hmany => if_pos hmany, fun hfew => if_neg (not_le.mpr hfew)⟩
  · rw [totalNodes, if_pos hnone, if_pos hstrict]
    exact ⟨fun hmany => if_pos hmany, fun hfew => if_neg (not_le.mpr hfew)⟩

/-- `res` reports the successes of `key`, which no other key exceeds. -/
structure Reports (rs : List ProviderResponse) (key : String) (res : ConsensusResult) : Prop where
  key_ne : key ≠ ""
  maximal : ∀ k ≠ "", (successes rs k).length ≤ (successes rs key).length
  winningProviders : res.winningProviders = (successes rs key).map (·.provider)
  content : ∃ last, (successes rs key).getLast? = some last ∧ res.content = last.content
  latency_le : ∀ r ∈ rs, r.latencyMs ≤ res.totalLatencyMs
  latency_mem : ∃ r ∈ rs, res.totalLatencyMs = r.latencyMs
  tokens : res.totalTokensUsed.toNat = tokenTotal rs

variable {engine : TmrConsensusEngine} {iter : Shuffle VoteRow} {rs : List ProviderResponse}

theorem reports_of_ok (hne : rs ≠ []) (htok : tokenTotal rs < 2 ^ 32) {key : String}
    {res : ConsensusResult} (h : engine.evaluateKeyed iter rs = some (.ok (key, res))) :
    Reports rs key res := by
  rw [evaluateKeyed_eq engine iter hne htok] at h
  cases hwin : engine.winningRow iter rs with
  | none =>
      rw [hwin] at h
      simp at h
  | some row =>
      rw [hwin] at h
      simp only [Option.some.injEq, Except.ok.injEq, Prod.mk.injEq] at h
      obtain ⟨rfl, rfl⟩ := h
      obtain ⟨hmem, ⟨hpos, hmax⟩, -⟩ := winningRow_spec hwin
      obtain ⟨-, hentry⟩ := mem_consensusMapOf.mp hmem
      have hkey : row.1 ≠ "" := ne_empty_of_voted hpos
      have hvotes : votesFor rs row.1 = successes rs row.1 := votesFor_eq_successes rs hkey
      have hsuccess : successes rs row.1 ≠ [] := by
        rw [← hvotes]
        exact List.ne_nil_of_length_pos hpos
      rw [hvotes] at hentry
      obtain ⟨hlatency, hreached⟩ := foldl_latency_isMax hne
      refine ⟨hkey, ?_, ?_, ?_, hlatency, hreached, ?_⟩
      · intro k hk
        rw [← voteCount_eq_successes rs hk, ← voteCount_eq_successes rs hkey]
        exact hmax k
      · rw [hentry, VoteEntry.ofVotes_providers]
      · refine ⟨_, List.getLast?_eq_some_getLast hsuccess, ?_⟩
        rw [hentry, VoteEntry.ofVotes_content_getLast hsuccess]
      · exact UInt32.toNat_ofNat_of_lt htok

theorem evaluateKeyed_isOk_iff (iter : Shuffle VoteRow) (htok : tokenTotal rs < 2 ^ 32) :
    (∃ key res, engine.evaluateKeyed iter rs = some (.ok (key, res))) ↔
      ∃ key, 0 < voteCount rs key ∧ engine.requiredVotes rs ≤ voteCount rs key := by
  constructor
  · rintro ⟨key, res, h⟩
    obtain ⟨htop, -, hreq⟩ := evaluateKeyed_ok h
    exact ⟨key, htop.1, hreq⟩
  · rintro ⟨key, hpos, hreq⟩
    exact evaluateKeyed_isOk engine iter htok hpos hreq

theorem exists_voted_iff (n : ℕ) :
    (∃ key, 0 < voteCount rs key ∧ n ≤ voteCount rs key) ↔
      ∃ key ≠ "", n ≤ (successes rs key).length ∧ 1 ≤ (successes rs key).length := by
  constructor
  · rintro ⟨key, hpos, hle⟩
    have hkey : key ≠ "" := ne_empty_of_voted hpos
    rw [voteCount_eq_successes rs hkey] at hpos hle
    exact ⟨key, hkey, hle, hpos⟩
  · rintro ⟨key, hkey, hle, hpos⟩
    rw [← voteCount_eq_successes rs hkey] at hpos hle
    exact ⟨key, hpos, hle⟩

/-- `evaluate` on a non-empty list whose tokens fit: it returns, with `Ok` exactly if a
key has the votes required and at least one, and an `Ok` reports a key with the most. -/
theorem evaluate_isOk_iff (engine : TmrConsensusEngine) (iter : Shuffle VoteRow)
    (rs : List ProviderResponse) (hne : rs ≠ []) (htok : tokenTotal rs < 2 ^ 32) :
    ∃ out, engine.evaluate iter rs = some out ∧
      ((∃ res, out = .ok res) ↔ ∃ key ≠ "",
        engine.requiredVotes rs ≤ (successes rs key).length ∧
          1 ≤ (successes rs key).length) ∧
      ∀ res, out = .ok res → ∃ key, Reports rs key res := by
  obtain ⟨out, hout⟩ := evaluateKeyed_isSome engine iter htok
  refine ⟨out.map Prod.snd, by rw [evaluate, hout, Option.map_some], ?_, ?_⟩
  · rw [← exists_voted_iff, ← evaluateKeyed_isOk_iff iter htok, hout]
    cases out with
    | error e => simp [Except.map]
    | ok pair => exact iff_of_true ⟨pair.2, rfl⟩ ⟨pair.1, pair.2, rfl⟩
  · intro res hres
    cases out with
    | error e => cases hres
    | ok pair =>
        cases hres
        exact ⟨pair.1, reports_of_ok hne htok hout⟩

/-- Two replies that agree, among a failed one and one without a key. -/
def mixedResponses : List ProviderResponse :=
  [⟨.googleGemini, "yes", "YES", 5, 100, .success⟩, ⟨.deepSeek, "", "YES", 30, 0, .timeout⟩,
    ⟨.groq, "?", "", 3, 20, .success⟩, ⟨.deepSeek, "Yes.", "YES", 9, 50, .success⟩]

theorem evaluate_isOk_iff_mixed :
    ∃ out, new.evaluate .id mixedResponses = some out ∧ (∃ res, out = .ok res) ∧
      ∀ res, out = .ok res → ∃ key, Reports mixedResponses key res := by
  obtain ⟨out, hout, hiff, hreports⟩ :=
    evaluate_isOk_iff new .id mixedResponses (by decide) (by decide)
  exact ⟨out, hout, hiff.mpr ⟨"YES", by decide⟩, hreports⟩

end TmrConsensusEngine

end SereinGateway.Consensus
