import SereinGateway.Consensus.Engine

/-!
What the two arbitrations decide, in terms of the votes alone.

`voteCount rs k` is the number of votes for the key `k` among the responses
`rs`. The consensus map is a presentation of this function, so `evaluate`
returns a key of maximal count when that count reaches the threshold, and
`query` returns a key that reached the threshold on a prefix of the arrivals.
The comparison of the two, and the question whether the winner depends on the
order of the scan, are then arithmetic on counts.
-/

namespace SereinGateway.Consensus

open SereinGateway.Lib

/-! ### Votes and the consensus map -/

/-- The votes for `key`, in order of arrival. -/
def votesFor (rs : List ProviderResponse) (key : String) : List ProviderResponse :=
  (rs.filter (·.isVote)).filter (fun r => r.semanticKey = key)

def voteCount (rs : List ProviderResponse) (key : String) : ℕ := (votesFor rs key).length

/-- The map after all of `rs` has been recorded. -/
def consensusMapOf (rs : List ProviderResponse) : ConsensusMap := rs.foldl recordVote ∅

@[simp] theorem consensusMapOf_nil : consensusMapOf [] = ∅ := rfl

theorem consensusMapOf_concat (rs : List ProviderResponse) (r : ProviderResponse) :
    consensusMapOf (rs ++ [r]) = recordVote (consensusMapOf rs) r := by
  simp [consensusMapOf]

theorem mem_votesFor {rs : List ProviderResponse} {key : String} {r : ProviderResponse} :
    r ∈ votesFor rs key ↔ r ∈ rs ∧ r.isVote = true ∧ r.semanticKey = key := by
  simp only [votesFor, List.mem_filter, decide_eq_true_eq, and_assoc]

theorem votesFor_append (rs ss : List ProviderResponse) (key : String) :
    votesFor (rs ++ ss) key = votesFor rs key ++ votesFor ss key := by
  simp [votesFor]

theorem votesFor_perm {rs ss : List ProviderResponse} (h : rs.Perm ss) (key : String) :
    (votesFor rs key).Perm (votesFor ss key) := (h.filter _).filter _

theorem voteCount_perm {rs ss : List ProviderResponse} (h : rs.Perm ss) (key : String) :
    voteCount rs key = voteCount ss key := (votesFor_perm h key).length_eq

theorem voteCount_append (rs ss : List ProviderResponse) (key : String) :
    voteCount (rs ++ ss) key = voteCount rs key + voteCount ss key := by
  simp [voteCount, votesFor_append]

theorem voteCount_cons (r : ProviderResponse) (rs : List ProviderResponse) (key : String) :
    voteCount (r :: rs) key =
      voteCount rs key + if r.isVote = true ∧ r.semanticKey = key then 1 else 0 := by
  by_cases hv : r.isVote = true
  · by_cases hk : r.semanticKey = key <;> simp [voteCount, votesFor, hv, hk]
  · simp [voteCount, votesFor, hv]

/-- Votes for different keys are different responses. -/
theorem voteCount_add_le (rs : List ProviderResponse) {k₁ k₂ : String} (hne : k₁ ≠ k₂) :
    voteCount rs k₁ + voteCount rs k₂ ≤ rs.length := by
  induction rs with
  | nil => simp [voteCount, votesFor]
  | cons r rs ih =>
      rw [voteCount_cons, voteCount_cons, List.length_cons]
      have hboth : ¬((r.isVote = true ∧ r.semanticKey = k₁) ∧
          (r.isVote = true ∧ r.semanticKey = k₂)) := by
        rintro ⟨⟨-, h₁⟩, ⟨-, h₂⟩⟩
        exact hne (h₁.symm.trans h₂)
      by_cases h₁ : r.isVote = true ∧ r.semanticKey = k₁
      · have h₂ : ¬(r.isVote = true ∧ r.semanticKey = k₂) := fun h => hboth ⟨h₁, h⟩
        rw [if_pos h₁, if_neg h₂]
        omega
      · rw [if_neg h₁]
        split <;> omega

/-- The row that a list of votes for one key builds up. -/
def VoteEntry.ofVotes (votes : List ProviderResponse) : VoteEntry :=
  votes.foldl VoteEntry.add ⟨0, "", []⟩

theorem VoteEntry.ofVotes_concat (votes : List ProviderResponse) (r : ProviderResponse) :
    VoteEntry.ofVotes (votes ++ [r]) = (VoteEntry.ofVotes votes).add r := by
  simp [VoteEntry.ofVotes]

@[simp] theorem VoteEntry.ofVotes_count (votes : List ProviderResponse) :
    (VoteEntry.ofVotes votes).count = votes.length := by
  induction votes using List.reverseRecOn with
  | nil => rfl
  | append_singleton votes r ih => simp [VoteEntry.ofVotes_concat, VoteEntry.add, ih]

@[simp] theorem VoteEntry.ofVotes_providers (votes : List ProviderResponse) :
    (VoteEntry.ofVotes votes).providers = votes.map (·.provider) := by
  induction votes using List.reverseRecOn with
  | nil => rfl
  | append_singleton votes r ih => simp [VoteEntry.ofVotes_concat, VoteEntry.add, ih]

theorem VoteEntry.ofVotes_content {votes : List ProviderResponse} (h : votes ≠ []) :
    ∃ r ∈ votes, (VoteEntry.ofVotes votes).content = r.content := by
  induction votes using List.reverseRecOn with
  | nil => exact absurd rfl h
  | append_singleton votes r _ =>
      refine ⟨r, by simp, ?_⟩
      rw [VoteEntry.ofVotes_concat]
      rfl

theorem consensusMapOf_eq_groupFold (rs : List ProviderResponse) :
    consensusMapOf rs =
      groupFold (·.semanticKey) ⟨0, "", []⟩ VoteEntry.add (rs.filter (·.isVote)) := by
  rw [groupFold, List.foldl_filter]
  rfl

/-- The rows of the consensus map: the keys that have a vote, each with the
entry its votes build up. -/
theorem mem_consensusMapOf {rs : List ProviderResponse} {row : VoteRow} :
    row ∈ (consensusMapOf rs).entries ↔
      0 < voteCount rs row.1 ∧ row.2 = VoteEntry.ofVotes (votesFor rs row.1) := by
  rw [consensusMapOf_eq_groupFold, mem_groupFold]
  have hex : (∃ a ∈ rs.filter (·.isVote), a.semanticKey = row.1) ↔ 0 < voteCount rs row.1 := by
    rw [voteCount, List.length_pos_iff_exists_mem]
    simp [mem_votesFor, and_assoc]
  rw [hex]
  rfl

theorem count_of_mem_consensusMapOf {rs : List ProviderResponse} {row : VoteRow}
    (h : row ∈ (consensusMapOf rs).entries) : row.2.count = voteCount rs row.1 := by
  rw [(mem_consensusMapOf.mp h).2, VoteEntry.ofVotes_count, voteCount]

/-! ### Token accounting -/

def tokenTotal (rs : List ProviderResponse) : ℕ := (rs.map (·.tokensUsed.toNat)).sum

theorem tokenTotal_perm {rs ss : List ProviderResponse} (h : rs.Perm ss) :
    tokenTotal rs = tokenTotal ss := (h.map _).sum_eq

theorem tokenTotal_append (rs ss : List ProviderResponse) :
    tokenTotal (rs ++ ss) = tokenTotal rs + tokenTotal ss := by
  simp [tokenTotal]

theorem foldlM_checkedAdd (rs : List ProviderResponse) (acc : UInt32) :
    rs.foldlM (fun a r => checkedAdd a r.tokensUsed) acc =
      if acc.toNat + tokenTotal rs < 2 ^ 32 then
        some (UInt32.ofNat (acc.toNat + tokenTotal rs)) else none := by
  induction rs generalizing acc with
  | nil =>
      have hlt : acc.toNat < 2 ^ 32 := acc.toNat_lt
      simpa [tokenTotal] using hlt
  | cons r rs ih =>
      have hcons : tokenTotal (r :: rs) = r.tokensUsed.toNat + tokenTotal rs := by
        simp [tokenTotal]
      rw [List.foldlM_cons, checkedAdd, hcons]
      by_cases hfit : acc.toNat + r.tokensUsed.toNat < 2 ^ 32
      · have hadd : (acc + r.tokensUsed).toNat = acc.toNat + r.tokensUsed.toNat := by
          rw [UInt32.toNat_add, Nat.mod_eq_of_lt hfit]
        rw [if_pos hfit]
        change rs.foldlM (fun a r => checkedAdd a r.tokensUsed) (acc + r.tokensUsed) = _
        rw [ih, hadd, Nat.add_assoc]
      · rw [if_neg hfit, if_neg (by omega)]
        rfl

theorem sumTokens_eq (rs : List ProviderResponse) :
    sumTokens rs =
      if tokenTotal rs < 2 ^ 32 then some (UInt32.ofNat (tokenTotal rs)) else none := by
  have h := foldlM_checkedAdd rs 0
  simpa [sumTokens] using h

theorem foldlM_tally (rs : List ProviderResponse) (t : Tally) :
    rs.foldlM Tally.step t =
      (rs.foldlM (fun a r => checkedAdd a r.tokensUsed) t.totalTokens).map fun tokens =>
        { consensusMap := rs.foldl recordVote t.consensusMap, totalTokens := tokens,
          totalLatency := rs.foldl (fun l r => max l r.latencyMs) t.totalLatency } := by
  induction rs generalizing t with
  | nil => rfl
  | cons r rs ih =>
      rw [List.foldlM_cons, List.foldlM_cons, Tally.step]
      cases hadd : checkedAdd t.totalTokens r.tokensUsed with
      | none => rfl
      | some tokens => exact ih _

/-! ### Batch arbitration -/

/-- `key` has a vote and no key has more. -/
def TopKey (rs : List ProviderResponse) (key : String) : Prop :=
  0 < voteCount rs key ∧ ∀ k, voteCount rs k ≤ voteCount rs key

theorem TopKey.perm {rs ss : List ProviderResponse} {key : String} (h : rs.Perm ss)
    (htop : TopKey rs key) : TopKey ss key := by
  refine ⟨?_, fun k => ?_⟩
  · rw [← voteCount_perm h]
    exact htop.1
  · rw [← voteCount_perm h, ← voteCount_perm h]
    exact htop.2 k

structure FromVotes (rs : List ProviderResponse) (key : String) (res : ConsensusResult) :
    Prop where
  winners : res.winningProviders = (votesFor rs key).map (·.provider)
  content : ∃ r ∈ votesFor rs key, res.content = r.content

theorem FromVotes.of_row {rs : List ProviderResponse} {row : VoteRow} {res : ConsensusResult}
    (hrow : row ∈ (consensusMapOf rs).entries)
    (hwin : res.winningProviders = row.2.providers) (hcon : res.content = row.2.content) :
    FromVotes rs row.1 res := by
  obtain ⟨hpos, hentry⟩ := mem_consensusMapOf.mp hrow
  have hne : votesFor rs row.1 ≠ [] := List.ne_nil_of_length_pos hpos
  refine ⟨?_, ?_⟩
  · rw [hwin, hentry, VoteEntry.ofVotes_providers]
  · rw [hcon, hentry]
    exact VoteEntry.ofVotes_content hne

namespace TmrConsensusEngine

/-- The row `evaluate` accepts, if any. -/
def winningRow (engine : TmrConsensusEngine) (iter : Shuffle VoteRow)
    (rs : List ProviderResponse) : Option VoteRow :=
  (maxByKey (·.2.count) (iter.order (consensusMapOf rs).entries)).filter
    (fun row => requiredAgreement engine.config (engine.totalNodes rs) ≤ row.2.count)

theorem winningRow_spec {engine : TmrConsensusEngine} {iter : Shuffle VoteRow}
    {rs : List ProviderResponse} {row : VoteRow} (h : engine.winningRow iter rs = some row) :
    row ∈ (consensusMapOf rs).entries ∧ TopKey rs row.1 ∧
      requiredAgreement engine.config (engine.totalNodes rs) ≤ voteCount rs row.1 := by
  obtain ⟨hmax, hreq⟩ := Option.filter_eq_some_iff.mp h
  have hmem : row ∈ (consensusMapOf rs).entries :=
    (iter.mem_order).mp (maxByKey_mem hmax)
  have hcount := count_of_mem_consensusMapOf hmem
  refine ⟨hmem, ⟨(mem_consensusMapOf.mp hmem).1, ?_⟩, ?_⟩
  · intro k
    by_cases hk : 0 < voteCount rs k
    · -- A key with a vote has a row, and no row exceeds the maximum.
      have hrow : (⟨k, VoteEntry.ofVotes (votesFor rs k)⟩ : VoteRow) ∈
          (consensusMapOf rs).entries := mem_consensusMapOf.mpr ⟨hk, rfl⟩
      have hle := maxByKey_ge hmax _ (iter.mem_order.mpr hrow)
      rw [count_of_mem_consensusMapOf hrow, hcount] at hle
      exact hle
    · omega
  · have hle := of_decide_eq_true hreq
    rwa [hcount] at hle

theorem winningRow_isSome {engine : TmrConsensusEngine} (iter : Shuffle VoteRow)
    {rs : List ProviderResponse} {key : String} (hpos : 0 < voteCount rs key)
    (hreq : requiredAgreement engine.config (engine.totalNodes rs) ≤ voteCount rs key) :
    ∃ row, engine.winningRow iter rs = some row := by
  have hrow : (⟨key, VoteEntry.ofVotes (votesFor rs key)⟩ : VoteRow) ∈
      iter.order (consensusMapOf rs).entries :=
    iter.mem_order.mpr (mem_consensusMapOf.mpr ⟨hpos, rfl⟩)
  cases hmax : maxByKey (fun row : VoteRow => row.2.count)
      (iter.order (consensusMapOf rs).entries) with
  | none =>
      rw [maxByKey_eq_none] at hmax
      rw [hmax] at hrow
      simp at hrow
  | some row =>
      have hle := maxByKey_ge hmax _ hrow
      simp only [VoteEntry.ofVotes_count] at hle
      have hkey : requiredAgreement engine.config (engine.totalNodes rs) ≤ row.2.count :=
        hreq.trans hle
      exact ⟨row, by simp [winningRow, hmax, hkey]⟩

/-- `evaluate` on a non-empty list: the accumulators are the consensus map
and the exact token total, which must fit. -/
theorem evaluateKeyed_eq (engine : TmrConsensusEngine) (iter : Shuffle VoteRow)
    {rs : List ProviderResponse} (hne : rs ≠ []) (htok : tokenTotal rs < 2 ^ 32) :
    engine.evaluateKeyed iter rs =
      some (match engine.winningRow iter rs with
        | some row => .ok (row.1,
            { content := row.2.content, winningProviders := row.2.providers,
              totalLatencyMs := rs.foldl (fun l r => max l r.latencyMs) 0,
              degraded := engine.totalNodes rs < 3,
              totalTokensUsed := UInt32.ofNat (tokenTotal rs) })
        | none => .error (.noConsensus
            (noMajorityMessage rs.length (bestAgreement (consensusMapOf rs))
              (requiredAgreement engine.config (engine.totalNodes rs))))) := by
  have htally : rs.foldlM Tally.step Tally.empty =
      some ⟨consensusMapOf rs, UInt32.ofNat (tokenTotal rs),
        rs.foldl (fun l r => max l r.latencyMs) 0⟩ := by
    rw [foldlM_tally]
    change (sumTokens rs).map _ = _
    rw [sumTokens_eq, if_pos htok]
    rfl
  rw [evaluateKeyed, if_neg hne, htally]
  simp only [Option.bind_eq_bind, Option.bind_some]
  cases hwin : engine.winningRow iter rs with
  | none =>
      rw [winningRow] at hwin
      rw [hwin]
      rfl
  | some row =>
      rw [winningRow] at hwin
      rw [hwin]
      rfl

theorem evaluateKeyed_overflow (engine : TmrConsensusEngine) (iter : Shuffle VoteRow)
    {rs : List ProviderResponse} (htok : 2 ^ 32 ≤ tokenTotal rs) :
    engine.evaluateKeyed iter rs = none := by
  have hne : rs ≠ [] := by
    rintro rfl
    simp [tokenTotal] at htok
  have htally : rs.foldlM Tally.step Tally.empty = none := by
    rw [foldlM_tally]
    change (sumTokens rs).map _ = _
    rw [sumTokens_eq, if_neg (by omega)]
    rfl
  rw [evaluateKeyed, if_neg hne, htally]
  rfl

theorem evaluateKeyed_ok {engine : TmrConsensusEngine} {iter : Shuffle VoteRow}
    {rs : List ProviderResponse} {key : String} {res : ConsensusResult}
    (h : engine.evaluateKeyed iter rs = some (.ok (key, res))) :
    TopKey rs key ∧ FromVotes rs key res ∧
      requiredAgreement engine.config (engine.totalNodes rs) ≤ voteCount rs key := by
  have hne : rs ≠ [] := by
    rintro rfl
    simp [evaluateKeyed] at h
  have htok : tokenTotal rs < 2 ^ 32 := by
    by_contra hover
    rw [evaluateKeyed_overflow engine iter (by omega)] at h
    simp at h
  have heq := evaluateKeyed_eq engine iter hne htok
  rw [heq] at h
  cases hwin : engine.winningRow iter rs with
  | none =>
      rw [hwin] at h
      simp at h
  | some row =>
      rw [hwin] at h
      simp only [Option.some.injEq, Except.ok.injEq, Prod.mk.injEq] at h
      obtain ⟨rfl, rfl⟩ := h
      obtain ⟨hmem, htop, hreq⟩ := winningRow_spec hwin
      exact ⟨htop, FromVotes.of_row hmem rfl rfl, hreq⟩

theorem evaluateKeyed_isOk (engine : TmrConsensusEngine) (iter : Shuffle VoteRow)
    {rs : List ProviderResponse} {key : String} (htok : tokenTotal rs < 2 ^ 32)
    (hpos : 0 < voteCount rs key)
    (hreq : requiredAgreement engine.config (engine.totalNodes rs) ≤ voteCount rs key) :
    ∃ winner res, engine.evaluateKeyed iter rs = some (.ok (winner, res)) := by
  have hne : rs ≠ [] := by
    rintro rfl
    simp [voteCount, votesFor] at hpos
  have heq := evaluateKeyed_eq engine iter hne htok
  obtain ⟨row, hrow⟩ := winningRow_isSome iter hpos hreq
  rw [hrow] at heq
  exact ⟨_, _, heq⟩

theorem evaluateKeyed_isSome (engine : TmrConsensusEngine) (iter : Shuffle VoteRow)
    {rs : List ProviderResponse} (htok : tokenTotal rs < 2 ^ 32) :
    ∃ out, engine.evaluateKeyed iter rs = some out := by
  by_cases hne : rs = []
  · subst hne
    exact ⟨_, rfl⟩
  · have heq := evaluateKeyed_eq engine iter hne htok
    exact ⟨_, heq⟩

end TmrConsensusEngine

end SereinGateway.Consensus
