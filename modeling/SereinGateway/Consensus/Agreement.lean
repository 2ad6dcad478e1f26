import SereinGateway.Consensus.Adjudication

/-!
Streaming against batch arbitration, and the dependence of the winner on the
order of the scan.

`query` stops at the first arrival that lifts some key to the threshold, so
its winner has reached the threshold on a prefix of the arrivals. Counts only
grow, hence `query` succeeds exactly when `evaluate` does on the complete
list; and when twice the threshold exceeds the number of nodes no second key
can reach it.
-/

namespace SereinGateway.Consensus

open SereinGateway.Lib

namespace TmrConsensusEngine

/-! ### The arrival loop -/

variable {engine : TmrConsensusEngine} {iter : Shuffle VoteRow} {elapsed : ℕ → UInt64}

def queryThreshold (engine : TmrConsensusEngine) : ℕ :=
  requiredAgreement engine.config engine.healthyNodes.length

/-- One iteration of the arrival loop: either some row of the updated map has
reached the threshold and is returned, or no key has and the loop goes on. -/
theorem queryLoop_cons (engine : TmrConsensusEngine) (iter : Shuffle VoteRow)
    (elapsed : ℕ → UInt64) (received : List ProviderResponse) (r : ProviderResponse)
    (rest : List ProviderResponse) :
    (∃ row ∈ (consensusMapOf (received ++ [r])).entries,
      engine.queryThreshold ≤ row.2.count ∧
      engine.queryLoop iter elapsed received (consensusMapOf received) (r :: rest) =
        (sumTokens (received ++ [r])).map fun tokens =>
          .ok (row.1,
            { content := row.2.content, winningProviders := row.2.providers,
              totalLatencyMs := elapsed (received ++ [r]).length,
              degraded := engine.healthyNodes.length < 3, totalTokensUsed := tokens })) ∨
    ((∀ k, 0 < voteCount (received ++ [r]) k →
        voteCount (received ++ [r]) k < engine.queryThreshold) ∧
      engine.queryLoop iter elapsed received (consensusMapOf received) (r :: rest) =
        engine.queryLoop iter elapsed (received ++ [r])
          (consensusMapOf (received ++ [r])) rest) := by
  rw [queryLoop, ← consensusMapOf_concat]
  cases hfind : (iter.order (consensusMapOf (received ++ [r])).entries).find?
      (fun row => requiredAgreement engine.config engine.healthyNodes.length ≤ row.2.count) with
  | some row =>
      left
      have hmem := iter.mem_order.mp (List.mem_of_find?_eq_some hfind)
      have hreq := List.find?_some hfind
      simp only [decide_eq_true_eq] at hreq
      refine ⟨row, hmem, hreq, ?_⟩
      simp only
      cases sumTokens (received ++ [r]) <;> rfl
  | none =>
      right
      refine ⟨?_, rfl⟩
      intro k hk
      have hrow : (⟨k, VoteEntry.ofVotes (votesFor (received ++ [r]) k)⟩ : VoteRow) ∈
          iter.order (consensusMapOf (received ++ [r])).entries :=
        iter.mem_order.mpr (mem_consensusMapOf.mpr ⟨hk, rfl⟩)
      have hnot := List.find?_eq_none.mp hfind _ hrow
      simp only [VoteEntry.ofVotes_count, decide_eq_true_eq, not_le] at hnot
      exact hnot

/-- A successful `query` returns a key that reached the threshold on a prefix
of the arrivals, with the votes of that prefix. -/
theorem queryLoop_ok (rest : List ProviderResponse) (received : List ProviderResponse)
    {key : String} {res : ConsensusResult}
    (h : engine.queryLoop iter elapsed received (consensusMapOf received) rest =
      some (.ok (key, res))) :
    ∃ pre post, received ++ rest = pre ++ post ∧ 0 < voteCount pre key ∧
      engine.queryThreshold ≤ voteCount pre key ∧ FromVotes pre key res := by
  induction rest generalizing received with
  | nil => simp [queryLoop] at h
  | cons r rest ih =>
      have hsplit : received ++ r :: rest = (received ++ [r]) ++ rest := by simp
      rcases queryLoop_cons engine iter elapsed received r rest with
        ⟨row, hmem, hreq, heq⟩ | ⟨-, heq⟩
      · rw [heq] at h
        obtain ⟨tokens, -, hres⟩ := Option.map_eq_some_iff.mp h
        simp only [Except.ok.injEq, Prod.mk.injEq] at hres
        obtain ⟨rfl, rfl⟩ := hres
        refine ⟨received ++ [r], rest, hsplit, (mem_consensusMapOf.mp hmem).1, ?_,
          FromVotes.of_row hmem rfl rfl⟩
        rwa [← count_of_mem_consensusMapOf hmem]
      · rw [heq] at h
        rw [hsplit]
        exact ih _ h

theorem queryLoop_isOk (engine : TmrConsensusEngine) (iter : Shuffle VoteRow)
    (elapsed : ℕ → UInt64) (rest received : List ProviderResponse)
    {key : String} (htok : tokenTotal (received ++ rest) < 2 ^ 32)
    (hnone : ∀ k, 0 < voteCount received k → voteCount received k < engine.queryThreshold)
    (hpos : 0 < voteCount (received ++ rest) key)
    (hreq : engine.queryThreshold ≤ voteCount (received ++ rest) key) :
    ∃ winner res, engine.queryLoop iter elapsed received (consensusMapOf received) rest =
      some (.ok (winner, res)) := by
  induction rest generalizing received with
  | nil =>
      -- No response is left, and the key that reached the threshold was not noticed.
      rw [List.append_nil] at hpos hreq
      have := hnone key hpos
      omega
  | cons r rest ih =>
      have hsplit : received ++ r :: rest = (received ++ [r]) ++ rest := by simp
      rw [hsplit] at htok hpos hreq
      rcases queryLoop_cons engine iter elapsed received r rest with
        ⟨row, -, -, heq⟩ | ⟨hnone', heq⟩
      · have hfit : tokenTotal (received ++ [r]) < 2 ^ 32 := by
          rw [tokenTotal_append] at htok
          omega
        rw [heq, sumTokens_eq, if_pos hfit]
        exact ⟨_, _, rfl⟩
      · rw [heq]
        exact ih _ htok hnone' hpos hreq

theorem queryLoop_isSome (engine : TmrConsensusEngine) (iter : Shuffle VoteRow)
    (elapsed : ℕ → UInt64) (rest received : List ProviderResponse)
    (htok : tokenTotal (received ++ rest) < 2 ^ 32) :
    ∃ out, engine.queryLoop iter elapsed received (consensusMapOf received) rest = some out := by
  induction rest generalizing received with
  | nil => exact ⟨_, rfl⟩
  | cons r rest ih =>
      have hsplit : received ++ r :: rest = (received ++ [r]) ++ rest := by simp
      rw [hsplit] at htok
      rcases queryLoop_cons engine iter elapsed received r rest with ⟨row, -, -, heq⟩ | ⟨-, heq⟩
      · have hfit : tokenTotal (received ++ [r]) < 2 ^ 32 := by
          rw [tokenTotal_append] at htok
          omega
        rw [heq, sumTokens_eq, if_pos hfit]
        exact ⟨_, rfl⟩
      · rw [heq]
        exact ih _ htok

theorem totalNodes_eq {rs : List ProviderResponse} (h : engine.healthyNodes ≠ []) :
    engine.totalNodes rs = engine.healthyNodes.length := if_neg h

theorem exists_key_of_map_ok {out : Except ConsensusError (String × ConsensusResult)}
    {res : ConsensusResult} (h : out.map Prod.snd = .ok res) : ∃ key, out = .ok (key, res) := by
  cases out with
  | error err => simp [Except.map] at h
  | ok p =>
      simp only [Except.map, Except.ok.injEq] at h
      exact ⟨p.1, by rw [← h]⟩

/-! ### Streaming agrees with batch -/

section Permuted

variable {arrived collected : List ProviderResponse} {iterQ iterE : Shuffle VoteRow}
variable (hne : engine.healthyNodes ≠ []) (hperm : arrived.Perm collected)

include hne hperm

omit hperm in
theorem requiredAgreement_totalNodes (rs : List ProviderResponse) :
    requiredAgreement engine.config (engine.totalNodes rs) = engine.queryThreshold := by
  rw [totalNodes_eq hne, queryThreshold]

/-- What reached the threshold on a prefix has reached it on the whole list. -/
theorem evaluate_ok_of_query_ok (htok : tokenTotal collected < 2 ^ 32) {key : String}
    {res : ConsensusResult}
    (h : engine.queryLoop iterQ elapsed [] (consensusMapOf []) arrived = some (.ok (key, res))) :
    ∃ winner res', engine.evaluateKeyed iterE collected = some (.ok (winner, res')) := by
  obtain ⟨pre, post, hsplit, hpos, hreq, -⟩ := queryLoop_ok arrived [] h
  rw [List.nil_append] at hsplit
  have hle : voteCount pre key ≤ voteCount collected key := by
    rw [← voteCount_perm hperm, hsplit, voteCount_append]
    omega
  apply evaluateKeyed_isOk engine iterE htok (hpos.trans_le hle)
  rw [requiredAgreement_totalNodes hne]
  exact hreq.trans hle

theorem query_ok_of_evaluate_ok (htok : tokenTotal arrived < 2 ^ 32) {key : String}
    {res : ConsensusResult} (h : engine.evaluateKeyed iterE collected = some (.ok (key, res))) :
    ∃ winner res', engine.queryLoop iterQ elapsed [] (consensusMapOf []) arrived =
      some (.ok (winner, res')) := by
  obtain ⟨htop, -, hreq⟩ := evaluateKeyed_ok h
  rw [requiredAgreement_totalNodes hne, ← voteCount_perm hperm] at hreq
  have hpos : 0 < voteCount arrived key := by
    rw [voteCount_perm hperm]
    exact htop.1
  apply queryLoop_isOk engine iterQ elapsed arrived []
  · rwa [List.nil_append]
  · simp [voteCount, votesFor]
  · rwa [List.nil_append]
  · rwa [List.nil_append]

theorem same_winner_of_majority (hmaj : collected.length < 2 * engine.queryThreshold)
    {kq ke : String} {rq re : ConsensusResult}
    (hq : engine.queryLoop iterQ elapsed [] (consensusMapOf []) arrived = some (.ok (kq, rq)))
    (he : engine.evaluateKeyed iterE collected = some (.ok (ke, re))) :
    kq = ke ∧ FromVotes collected ke re ∧ (∃ pre, pre <+: arrived ∧ FromVotes pre ke rq) ∧
      rq.winningProviders.Subperm re.winningProviders := by
  obtain ⟨pre, post, hsplit, hpos, hreq, hfrom⟩ := queryLoop_ok arrived [] hq
  obtain ⟨htop, hfromE, hreqE⟩ := evaluateKeyed_ok he
  rw [List.nil_append] at hsplit
  rw [requiredAgreement_totalNodes hne] at hreqE
  have hle : voteCount pre kq ≤ voteCount collected kq := by
    rw [← voteCount_perm hperm, hsplit, voteCount_append]
    omega
  -- Two different winners would have more votes between them than there are responses.
  have hkey : kq = ke := by
    by_contra hdiff
    have hsum := voteCount_add_le collected hdiff
    omega
  subst hkey
  refine ⟨rfl, hfromE, ⟨pre, ⟨post, hsplit.symm⟩, hfrom⟩, ?_⟩
  have hsub : (votesFor pre kq).Sublist (votesFor arrived kq) := by
    rw [hsplit, votesFor_append]
    exact List.sublist_append_left _ _
  rw [hfrom.winners, hfromE.winners]
  exact (hsub.map _).subperm.trans ((votesFor_perm hperm kq).map _).subperm

end Permuted

/-- Streaming and batch arbitration agree. One response per non-tripped node,
arriving in any order for `query` and collected in any order for `evaluate`,
each scanning its map in an order of its own: both return, both succeed or
both fail, and when twice the threshold exceeds the number of nodes they
select the same key and every winner of `query` is a winner of `evaluate`. -/
theorem query_iff_evaluate (engine : TmrConsensusEngine) (iterQ iterE : Shuffle VoteRow)
    (elapsed : ℕ → UInt64) (outcome : ProviderNode → Option ProviderResponse)
    (arrival collected : List ProviderNode)
    (hne : engine.healthyNodes ≠ [])
    (harr : arrival.Perm engine.healthyNodes) (hcol : collected.Perm engine.healthyNodes)
    (htok : tokenTotal (engine.healthyNodes.map (engine.respond outcome)) < 2 ^ 32) :
    ∃ q e,
      engine.query iterQ elapsed outcome arrival = some q ∧
      engine.evaluate iterE (collected.map (engine.respond outcome)) = some e ∧
      ((∃ rq, q = .ok rq) ↔ ∃ re, e = .ok re) ∧
      (engine.healthyNodes.length < 2 * engine.queryThreshold →
        ∀ rq re, q = .ok rq → e = .ok re → ∃ key,
          engine.queryKeyed iterQ elapsed outcome arrival = some (.ok (key, rq)) ∧
          engine.evaluateKeyed iterE (collected.map (engine.respond outcome)) =
            some (.ok (key, re)) ∧
          FromVotes (collected.map (engine.respond outcome)) key re ∧
          (∃ pre, pre <+: arrival.map (engine.respond outcome) ∧ FromVotes pre key rq) ∧
          rq.winningProviders.Subperm re.winningProviders) := by
  have hperm : (arrival.map (engine.respond outcome)).Perm
      (collected.map (engine.respond outcome)) := (harr.trans hcol.symm).map _
  have htokA : tokenTotal (arrival.map (engine.respond outcome)) < 2 ^ 32 := by
    rwa [tokenTotal_perm (harr.map (engine.respond outcome))]
  have htokC : tokenTotal (collected.map (engine.respond outcome)) < 2 ^ 32 := by
    rwa [← tokenTotal_perm hperm]
  have hquery : engine.queryKeyed iterQ elapsed outcome arrival =
      engine.queryLoop iterQ elapsed [] (consensusMapOf [])
        (arrival.map (engine.respond outcome)) := by
    rw [queryKeyed, if_neg hne, consensusMapOf_nil]
  obtain ⟨q, hq⟩ := queryLoop_isSome engine iterQ elapsed
    (arrival.map (engine.respond outcome)) [] (by simpa using htokA)
  obtain ⟨e, he⟩ := evaluateKeyed_isSome engine iterE htokC
  refine ⟨q.map Prod.snd, e.map Prod.snd, ?_, ?_, ⟨?_, ?_⟩, ?_⟩
  · rw [query, hquery, hq, Option.map_some]
  · rw [evaluate, he, Option.map_some]
  · rintro ⟨rq, hrq⟩
    obtain ⟨key, rfl⟩ := exists_key_of_map_ok hrq
    obtain ⟨winner, res, hok⟩ := evaluate_ok_of_query_ok hne hperm htokC hq
    rw [he, Option.some.injEq] at hok
    exact ⟨res, by rw [hok]; rfl⟩
  · rintro ⟨re, hre⟩
    obtain ⟨key, rfl⟩ := exists_key_of_map_ok hre
    obtain ⟨winner, res, hok⟩ := query_ok_of_evaluate_ok hne hperm htokA he
    rw [hq, Option.some.injEq] at hok
    exact ⟨res, by rw [hok]; rfl⟩
  · intro hmaj rq re hrq hre
    obtain ⟨kq, rfl⟩ := exists_key_of_map_ok hrq
    obtain ⟨ke, rfl⟩ := exists_key_of_map_ok hre
    have hlen : (collected.map (engine.respond outcome)).length < 2 * engine.queryThreshold := by
      rwa [List.length_map, hcol.length_eq]
    obtain ⟨rfl, hrest⟩ := same_winner_of_majority hne hperm hlen hq he
    exact ⟨kq, hquery.trans hq, he, hrest⟩

/-- The replicas of the two-of-three case: two agree, the third differs. -/
def twoOfThree : ProviderNode → Option ProviderResponse
  | .groq => some ⟨.groq, "different_answer", "CHAIN:ETH:ACTION:audit:AMOUNT:180", 5, 100, .success⟩
  | node => some ⟨node, "consensus_answer", "CHAIN:ETH:ACTION:swap:AMOUNT:90", 5, 100, .success⟩

theorem query_iff_evaluate_two_of_three :
    new.healthyNodes.length < 2 * new.queryThreshold ∧
    ∃ q e,
      new.query .id (fun _ => 5) twoOfThree [.deepSeek, .groq, .googleGemini] = some q ∧
      new.evaluate .id ([.groq, .googleGemini, .deepSeek].map (new.respond twoOfThree)) = some e ∧
      ((∃ rq, q = .ok rq) ↔ ∃ re, e = .ok re) := by
  obtain ⟨q, e, hq, he, hiff, -⟩ := query_iff_evaluate new .id .id (fun _ => 5) twoOfThree
    [.deepSeek, .groq, .googleGemini] [.groq, .googleGemini, .deepSeek]
    (by decide) (by decide) (by decide) (by decide)
  exact ⟨by decide, q, e, hq, he, hiff⟩

/-! ### Dependence on the order of the scan -/

/-- The key `evaluate` selects is the same for every permutation of the
responses and every order of the scan. -/
def Determined (engine : TmrConsensusEngine) (rs : List ProviderResponse) : Prop :=
  ∀ rs₁ rs₂ : List ProviderResponse, ∀ iter₁ iter₂ : Shuffle VoteRow,
    rs₁.Perm rs → rs₂.Perm rs →
      engine.selectedKey iter₁ rs₁ = engine.selectedKey iter₂ rs₂

/-- Two different keys share the highest number of votes, at least two. -/
def Tied (rs : List ProviderResponse) : Prop :=
  ∃ k₁ k₂, k₁ ≠ k₂ ∧ TopKey rs k₁ ∧ TopKey rs k₂ ∧ 2 ≤ voteCount rs k₁

theorem selectedKey_eq_some {rs : List ProviderResponse} {key : String}
    (h : engine.selectedKey iter rs = some key) :
    TopKey rs key ∧ tokenTotal rs < 2 ^ 32 ∧
      requiredAgreement engine.config (engine.totalNodes rs) ≤ voteCount rs key := by
  have htok : tokenTotal rs < 2 ^ 32 := by
    by_contra hover
    rw [selectedKey, evaluateKeyed_overflow engine iter (by omega)] at h
    simp at h
  rw [selectedKey] at h
  split at h
  · rename_i key' res hok
    rw [Option.some.injEq] at h
    subst h
    obtain ⟨htop, -, hreq⟩ := evaluateKeyed_ok hok
    exact ⟨htop, htok, hreq⟩
  · simp at h

theorem selectedKey_isSome (engine : TmrConsensusEngine) (iter : Shuffle VoteRow)
    {rs : List ProviderResponse} {key : String} (htok : tokenTotal rs < 2 ^ 32)
    (htop : TopKey rs key)
    (hreq : requiredAgreement engine.config (engine.totalNodes rs) ≤ voteCount rs key) :
    ∃ winner, engine.selectedKey iter rs = some winner := by
  obtain ⟨winner, res, hok⟩ := evaluateKeyed_isOk engine iter htok htop.1 hreq
  exact ⟨winner, by rw [selectedKey, hok]⟩

theorem selectedKey_last (engine : TmrConsensusEngine) {rs : List ProviderResponse} {key : String}
    (htok : tokenTotal rs < 2 ^ 32) (htop : TopKey rs key)
    (hreq : requiredAgreement engine.config (engine.totalNodes rs) ≤ voteCount rs key) :
    engine.selectedKey (Shuffle.last fun row => row.1 = key) rs = some key := by
  set iter : Shuffle VoteRow := Shuffle.last fun row => row.1 = key with hiter
  set rows := (consensusMapOf rs).entries with hrows
  have hmem : (⟨key, VoteEntry.ofVotes (votesFor rs key)⟩ : VoteRow) ∈
      rows.filter (fun row => row.1 = key) := by
    simp only [hrows, List.mem_filter, decide_true, and_true]
    exact mem_consensusMapOf.mpr ⟨htop.1, rfl⟩
  obtain ⟨init, row, hconcat⟩ : ∃ init row, rows.filter (fun row => row.1 = key) =
      init ++ [row] :=
    ⟨_, _, (List.dropLast_append_getLast (List.ne_nil_of_mem hmem)).symm⟩
  have hrow : row ∈ rows.filter (fun row => row.1 = key) := by rw [hconcat]; simp
  have hkey : row.1 = key := of_decide_eq_true (List.mem_filter.mp hrow).2
  have hcount : row.2.count = voteCount rs key := by
    rw [count_of_mem_consensusMapOf (List.mem_filter.mp hrow).1, hkey]
  have horder : iter.order rows =
      (rows.filter (fun row => !decide (row.1 = key)) ++ init) ++ [row] := by
    change rows.filter (fun row => !decide (row.1 = key)) ++
      rows.filter (fun row => row.1 = key) = _
    rw [hconcat, List.append_assoc]
  have hmax : maxByKey (fun row : VoteRow => row.2.count) (iter.order rows) = some row := by
    rw [horder]
    apply maxByKey_concat
    intro x hx
    have hxrows : x ∈ rows := by
      refine iter.mem_order.mp ?_
      rw [horder]
      exact List.mem_append_left _ hx
    rw [count_of_mem_consensusMapOf hxrows, hcount]
    exact htop.2 x.1
  have hwin : engine.winningRow iter rs = some row := by
    rw [winningRow, hmax]
    simp [hcount, hreq]
  have hne : rs ≠ [] := by
    rintro rfl
    simp [TopKey, voteCount, votesFor] at htop
  rw [selectedKey, evaluateKeyed_eq engine iter hne htok, hwin]
  simp only [hkey]

section Default

variable {rs : List ProviderResponse} (hconfig : engine.config = .default)
variable (hhealthy : ∀ e ∈ engine.nodeHealth.entries, e.2 = .healthy)
variable (hone : (rs.map (·.provider)).Perm engine.nodeHealth.keys)

include hconfig hhealthy hone

/-- One response per node: the threshold is computed from their number. -/
theorem requiredAgreement_of_perm {ss : List ProviderResponse} (hss : ss.Perm rs) :
    requiredAgreement engine.config (engine.totalNodes ss) =
      if 3 ≤ rs.length then 2 else rs.length := by
  have hall : engine.nodeHealth.entries.filter (fun e => e.2 ≠ .tripped) =
      engine.nodeHealth.entries := by
    rw [List.filter_eq_self]
    intro e he
    simp [hhealthy e he]
  have hlen : engine.healthyNodes.length = rs.length := by
    have hkeys := hone.length_eq
    rw [List.length_map, AList.keys, List.keys, List.length_map] at hkeys
    rw [healthyNodes, hall, List.length_map, hkeys]
  have htotal : engine.totalNodes ss = rs.length := by
    rw [totalNodes]
    split
    · exact hss.length_eq
    · exact hlen
  rw [htotal, hconfig]
  rfl

/-- A tie at the top is broken by the order of the scan. -/
theorem not_determined_of_tied (htied : Tied rs) (htok : tokenTotal rs < 2 ^ 32) :
    ¬engine.Determined rs := by
  intro hdet
  obtain ⟨k₁, k₂, hne, htop₁, htop₂, htwo⟩ := htied
  have heq : voteCount rs k₁ = voteCount rs k₂ := le_antisymm (htop₂.2 k₁) (htop₁.2 k₂)
  have hsum := voteCount_add_le rs hne
  have hthr := requiredAgreement_of_perm hconfig hhealthy hone (List.Perm.refl rs)
  rw [if_pos (by omega)] at hthr
  have h₁ := selectedKey_last engine htok htop₁ (by omega)
  have h₂ := selectedKey_last engine htok htop₂ (by omega)
  have hsame := hdet rs rs (.last fun row => row.1 = k₁) (.last fun row => row.1 = k₂)
    (List.Perm.refl rs) (List.Perm.refl rs)
  rw [h₁, h₂, Option.some.injEq] at hsame
  exact hne hsame

/-- Without a tie, a success on one permutation is the same success on every other. -/
theorem selectedKey_of_perm (hcond : ¬Tied rs ∨ 2 ^ 32 ≤ tokenTotal rs)
    {ss ts : List ProviderResponse} {i j : Shuffle VoteRow} {k : String} (hss : ss.Perm rs)
    (hts : ts.Perm rs) (hk : engine.selectedKey i ss = some k) :
    engine.selectedKey j ts = some k := by
  obtain ⟨htop, htok, hreq⟩ := selectedKey_eq_some hk
  rw [requiredAgreement_of_perm hconfig hhealthy hone hss, voteCount_perm hss] at hreq
  rw [tokenTotal_perm hss] at htok
  have htopRs := htop.perm hss
  obtain ⟨k', hk'⟩ := selectedKey_isSome engine j (by rwa [tokenTotal_perm hts])
    (htopRs.perm hts.symm)
    (by rwa [requiredAgreement_of_perm hconfig hhealthy hone hts, voteCount_perm hts])
  have htop' := (selectedKey_eq_some hk').1.perm hts
  by_cases hne : k' = k
  · rw [hk', hne]
  · -- Below three nodes the threshold is the number of nodes, which excludes a tie.
    have heq : voteCount rs k' = voteCount rs k := le_antisymm (htopRs.2 k') (htop'.2 k)
    have hsum := voteCount_add_le rs hne
    have hpos := htopRs.1
    have htwo : 2 ≤ voteCount rs k := by
      split at hreq <;> omega
    rcases hcond with hnot | hover
    · exact absurd ⟨k, k', Ne.symm hne, htopRs, htop', htwo⟩ hnot
    · omega

end Default

/-- Under the default configuration, with every node healthy and one response
per node, the winner is determined by the votes exactly when no two keys tie
for the highest count at two votes or more, or the token counter overflows
and no permutation returns at all. -/
theorem determined_iff (engine : TmrConsensusEngine) (rs : List ProviderResponse)
    (hconfig : engine.config = .default)
    (hhealthy : ∀ e ∈ engine.nodeHealth.entries, e.2 = .healthy)
    (hone : (rs.map (·.provider)).Perm engine.nodeHealth.keys) :
    engine.Determined rs ↔ ¬Tied rs ∨ 2 ^ 32 ≤ tokenTotal rs := by
  constructor
  · intro hdet
    by_contra hcon
    obtain ⟨htied, hover⟩ := not_or.mp hcon
    exact not_determined_of_tied hconfig hhealthy hone (not_not.mp htied) (by omega) hdet
  · intro hcond ss ts i j hss hts
    cases hi : engine.selectedKey i ss with
    | some k => rw [selectedKey_of_perm hconfig hhealthy hone hcond hss hts hi]
    | none =>
        cases hj : engine.selectedKey j ts with
        | none => rfl
        | some k =>
            rw [selectedKey_of_perm hconfig hhealthy hone hcond hts hss hj] at hi
            simp at hi

/-- Three healthy nodes, two of which agree. -/
theorem determined_iff_two_of_three :
    new.Determined ([.googleGemini, .deepSeek, .groq].map (new.respond twoOfThree)) ↔
      ¬Tied ([.googleGemini, .deepSeek, .groq].map (new.respond twoOfThree)) ∨
      2 ^ 32 ≤ tokenTotal ([.googleGemini, .deepSeek, .groq].map (new.respond twoOfThree)) :=
  determined_iff new _ rfl (by decide) (by decide)

def fourNodes : TmrConsensusEngine :=
  withNodes [.custom "a", .custom "b", .custom "c", .custom "d"]

/-- Two answers with two votes each. -/
def splitVotes : List ProviderResponse :=
  [⟨.custom "a", "swap", "SWAP", 5, 0, .success⟩,
    ⟨.custom "b", "swap", "SWAP", 5, 0, .success⟩,
    ⟨.custom "c", "stake", "STAKE", 5, 0, .success⟩,
    ⟨.custom "d", "stake", "STAKE", 5, 0, .success⟩]

/-- With four nodes the scan order decides between two keys of two votes. -/
theorem fourNodes_not_determined :
    fourNodes.config = .default ∧ (∀ e ∈ fourNodes.nodeHealth.entries, e.2 = .healthy) ∧
      (splitVotes.map (·.provider)).Perm fourNodes.nodeHealth.keys ∧
      ¬fourNodes.Determined splitVotes := by
  refine ⟨rfl, by decide, by decide, ?_⟩
  intro hdet
  have hsame := hdet splitVotes splitVotes (.last fun row => row.1 = "SWAP")
    (.last fun row => row.1 = "STAKE") (List.Perm.refl _) (List.Perm.refl _)
  revert hsame
  decide

end TmrConsensusEngine

end SereinGateway.Consensus
