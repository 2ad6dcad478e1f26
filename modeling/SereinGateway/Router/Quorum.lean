import SereinGateway.Consensus.Adjudication
import SereinGateway.Router.Orchestrator

/-!
Which configurations enforce the quorum.

The orchestrator counts non-empty answers against `min_agreement`; the engine
counts equal vote keys against a threshold it derives from its own node map
and `strict_mode`. The node map is keyed by provider id, so providers that
share an id count once. The two thresholds agree exactly when the strategy is
strict and the ids are numerous enough, and this decides whether a result
that claims consensus is always backed by `min_agreement` providers.
-/

namespace SereinGateway.Router

open SereinGateway.Lib SereinGateway.Consensus SereinGateway.Interfaces SereinGateway.Worker

/-! ### The node map of the engine -/

theorem lookup_healthyMap (nodes : List ProviderNode) (node : ProviderNode) :
    (TmrConsensusEngine.healthyMap nodes).lookup node =
      if node ∈ nodes then some .healthy else none := by
  induction nodes using List.reverseRecOn with
  | nil => rfl
  | append_singleton nodes last ih =>
      have hfold : TmrConsensusEngine.healthyMap (nodes ++ [last]) =
          (TmrConsensusEngine.healthyMap nodes).insert last .healthy := by
        simp [TmrConsensusEngine.healthyMap]
      rw [hfold]
      by_cases hlast : node = last
      · subst hlast
        simp
      · rw [AList.lookup_insert_ne hlast, ih]
        simp [hlast]

theorem mem_healthyNodes {config : TmrConfig} {nodes : List ProviderNode} {node : ProviderNode} :
    node ∈ (TmrConsensusEngine.withConfigAndNodes config nodes).healthyNodes ↔ node ∈ nodes := by
  simp only [TmrConsensusEngine.healthyNodes, TmrConsensusEngine.withConfigAndNodes, List.mem_map,
    List.mem_filter]
  constructor
  · rintro ⟨⟨n, health⟩, ⟨hmem, -⟩, rfl⟩
    have hlookup := AList.mem_lookup_iff.mpr hmem
    rw [lookup_healthyMap] at hlookup
    by_contra hnot
    simp [hnot] at hlookup
  · intro hmem
    refine ⟨⟨node, .healthy⟩, ⟨?_, rfl⟩, rfl⟩
    rw [← AList.mem_lookup_iff, lookup_healthyMap, if_pos hmem]
    rfl

theorem nodup_healthyNodes (engine : TmrConsensusEngine) : engine.healthyNodes.Nodup := by
  have hkeys : (engine.nodeHealth.entries.map Sigma.fst).Nodup := engine.nodeHealth.nodupKeys
  exact hkeys.sublist (List.filter_sublist.map _)

theorem length_healthyNodes (config : TmrConfig) (nodes : List ProviderNode) :
    (TmrConsensusEngine.withConfigAndNodes config nodes).healthyNodes.length =
      nodes.dedup.length := by
  apply List.Perm.length_eq
  rw [List.perm_ext_iff_of_nodup (nodup_healthyNodes _) (List.nodup_dedup _)]
  intro node
  rw [mem_healthyNodes, List.mem_dedup]

/-! ### Responses and outcomes -/

/-- The provider answered with the vote key `key`. -/
def ProviderOutcome.votesFor (deps : RouterDeps) (key : String) : ProviderOutcome → Bool
  | .answered content _ => deps.voteKey content = key
  | .breakerOpen | .failed _ _ | .elapsed => false

/-- The provider answered with a non-empty text. -/
def ProviderOutcome.hasContent : ProviderOutcome → Bool
  | .answered content _ => content ≠ ""
  | .breakerOpen | .failed _ _ | .elapsed => false

/-- The positions of the adapters that answered with the vote key `key`. -/
def TmrOrchestrator.agreeing (orch : TmrOrchestrator) (deps : RouterDeps) (round : ProviderRound)
    (key : String) : Finset ℕ :=
  (Finset.range orch.adapters.length).filter fun i => (round.outcome i).votesFor deps key

theorem isVote_respond (deps : RouterDeps) {key : String} (hkey : key ≠ "")
    (adapter : ProviderAdapter) (outcome : ProviderOutcome) :
    ((adapter.respond deps outcome).isVote &&
        decide ((adapter.respond deps outcome).semanticKey = key)) =
      outcome.votesFor deps key := by
  cases outcome with
  | breakerOpen => rfl
  | answered content durationMs =>
      by_cases h : deps.voteKey content = key <;>
        simp [ProviderAdapter.respond, ProviderResponse.isVote, ProviderOutcome.votesFor, h, hkey]
  | failed err durationMs =>
      simp [ProviderAdapter.respond, ProviderResponse.isVote, ProviderOutcome.votesFor]
  | elapsed => rfl

theorem hasContent_respond (deps : RouterDeps) (adapter : ProviderAdapter)
    (outcome : ProviderOutcome) :
    (decide ((adapter.respond deps outcome).status = .success) &&
        decide ((adapter.respond deps outcome).content ≠ "")) = outcome.hasContent := by
  cases outcome with
  | breakerOpen => rfl
  | answered content durationMs => rfl
  | failed err durationMs => simp [ProviderAdapter.respond, ProviderOutcome.hasContent]
  | elapsed => rfl

/-- A property of a response that depends on the outcome alone is counted
over the positions of the adapters. -/
theorem countP_responses (deps : RouterDeps) (adapters : List ProviderAdapter)
    (outcome : ℕ → ProviderOutcome) {p : ProviderResponse → Bool} {q : ProviderOutcome → Bool}
    (h : ∀ adapter o, p (ProviderAdapter.respond deps adapter o) = q o) :
    (adapters.mapIdx fun i adapter => adapter.respond deps (outcome i)).countP p =
      ((Finset.range adapters.length).filter fun i => q (outcome i)).card := by
  have hlist : (adapters.mapIdx fun i adapter => adapter.respond deps (outcome i)).countP p =
      (List.range adapters.length).countP fun i => q (outcome i) := by
    induction adapters generalizing outcome with
    | nil => rfl
    | cons adapter adapters ih =>
        rw [List.mapIdx_cons, List.countP_cons, ih, List.length_cons, List.range_succ_eq_map,
          List.countP_cons, List.countP_map, h]
        rfl
  have hdecide : (fun i => q (outcome i)) = fun i => decide (q (outcome i) = true) := by
    ext i
    rw [Bool.decide_eq_true]
  rw [hlist, List.countP_eq_length_filter, hdecide]
  rfl

namespace TmrOrchestrator

variable (orch : TmrOrchestrator) (deps : RouterDeps) (round : ProviderRound)

theorem voteCount_responses {key : String} (hkey : key ≠ "") :
    voteCount (orch.responses deps round) key = (orch.agreeing deps round key).card := by
  rw [voteCount, votesFor, List.filter_filter, ← List.countP_eq_length_filter, responses, agreeing]
  refine countP_responses deps orch.adapters round.outcome ?_
  intro adapter o
  rw [← isVote_respond deps hkey adapter o, Bool.and_comm]

theorem length_successful :
    (successful (orch.responses deps round)).length =
      ((Finset.range orch.adapters.length).filter fun i => (round.outcome i).hasContent).card := by
  rw [successful, ← List.countP_eq_length_filter, responses]
  exact countP_responses deps orch.adapters round.outcome (hasContent_respond deps)

/-- No token is ever counted, so the engine never aborts. -/
theorem tokenTotal_responses : tokenTotal (orch.responses deps round) = 0 := by
  rw [tokenTotal, List.sum_eq_zero]
  intro n hn
  obtain ⟨r, hr, rfl⟩ := List.mem_map.mp hn
  obtain ⟨i, hi, rfl⟩ := List.mem_mapIdx.mp hr
  cases round.outcome i <;> rfl

theorem exists_agreeing_of_vote {key : String} {r : ProviderResponse}
    (h : r ∈ votesFor (orch.responses deps round) key) :
    key ≠ "" ∧ ∃ i ∈ orch.agreeing deps round key, ∃ durationMs,
      round.outcome i = .answered r.content durationMs := by
  obtain ⟨hmem, hvote, hkey⟩ := mem_votesFor.mp h
  have hne : key ≠ "" := by
    rintro rfl
    simp [ProviderResponse.isVote, hkey] at hvote
  refine ⟨hne, ?_⟩
  obtain ⟨i, hi, rfl⟩ := List.mem_mapIdx.mp hmem
  have hagree := isVote_respond deps hne (orch.adapters[i]) (round.outcome i)
  rw [hvote, hkey] at hagree
  refine ⟨i, ?_, ?_⟩
  · rw [agreeing, Finset.mem_filter, Finset.mem_range]
    exact ⟨hi, by simpa using hagree.symm⟩
  · cases ho : round.outcome i with
    | answered content durationMs => exact ⟨durationMs, rfl⟩
    | breakerOpen => simp [ho, ProviderOutcome.votesFor] at hagree
    | failed err durationMs => simp [ho, ProviderOutcome.votesFor] at hagree
    | elapsed => simp [ho, ProviderOutcome.votesFor] at hagree

/-! ### What a verdict of consensus says -/

/-- At least `n` adapters answered with the vote key `key`, and `content` is
the answer of one of them. -/
def Agreed (n : ℕ) (key content : String) : Prop :=
  key ≠ "" ∧ n ≤ (orch.agreeing deps round key).card ∧
    ∃ i ∈ orch.agreeing deps round key, ∃ durationMs,
      round.outcome i = .answered content durationMs

/-- Votes the engine asks of the responses to this orchestrator. -/
def threshold : ℕ :=
  requiredAgreement orch.tmrEngine.config orch.tmrEngine.healthyNodes.length

variable {orch deps round}

theorem evaluate_of_consensus {result : ConsensusResult}
    (h : orch.adjudicate deps round = some (.consensus result)) :
    orch.minAgreement ≤ (successful (orch.responses deps round)).length ∧
      ∃ key, orch.tmrEngine.evaluateKeyed round.scan (orch.responses deps round) =
        some (.ok (key, result)) := by
  simp only [adjudicate] at h
  split at h
  · simp at h
  · rename_i hquorum
    refine ⟨by omega, ?_⟩
    obtain ⟨out, heval, hout⟩ := Option.map_eq_some_iff.mp h
    obtain ⟨keyed, hkeyed, rfl⟩ := Option.map_eq_some_iff.mp heval
    cases keyed with
    | error e => simp [Except.map] at hout
    | ok winner =>
        simp only [Except.map, Verdict.consensus.injEq] at hout
        exact ⟨winner.1, by rw [hkeyed, ← hout]⟩

theorem minAgreement_le_of_consensus {result : ConsensusResult}
    (h : orch.adjudicate deps round = some (.consensus result)) :
    orch.minAgreement ≤ orch.adapters.length := by
  have hsub := (orch.responses deps round).length_filter_le
    fun r => r.status = .success && r.content ≠ ""
  have hlen : (orch.responses deps round).length = orch.adapters.length := List.length_mapIdx
  have hquorum := (evaluate_of_consensus h).1
  rw [successful] at hquorum
  omega

theorem adjudicate_consensus (hnodes : orch.tmrEngine.healthyNodes ≠ [])
    {result : ConsensusResult} (h : orch.adjudicate deps round = some (.consensus result)) :
    ∃ key, orch.Agreed deps round orch.threshold key result.content ∧
      result.winningProviders.length = (orch.agreeing deps round key).card := by
  obtain ⟨-, key, heval⟩ := evaluate_of_consensus h
  obtain ⟨-, hfrom, hreq⟩ := TmrConsensusEngine.evaluateKeyed_ok heval
  rw [TmrConsensusEngine.totalNodes, if_neg hnodes] at hreq
  obtain ⟨r, hr, hcontent⟩ := hfrom.content
  obtain ⟨hkey, hagree⟩ := exists_agreeing_of_vote orch deps round hr
  have hcount := voteCount_responses orch deps round hkey
  refine ⟨key, ⟨hkey, ?_, ?_⟩, ?_⟩
  · rw [← hcount]
    exact hreq
  · rw [hcontent]
    exact hagree
  · rw [hfrom.winners, List.length_map, ← hcount, voteCount]

theorem adjudicate_of_votes (hnodes : orch.tmrEngine.healthyNodes ≠ []) {key : String}
    (hkey : key ≠ "") (hpos : 0 < (orch.agreeing deps round key).card)
    (hreq : orch.threshold ≤ (orch.agreeing deps round key).card)
    (hquorum : orch.minAgreement ≤ (successful (orch.responses deps round)).length) :
    ∃ result, orch.adjudicate deps round = some (.consensus result) := by
  have hcount := voteCount_responses orch deps round hkey
  have htok : tokenTotal (orch.responses deps round) < 2 ^ 32 := by
    rw [tokenTotal_responses]
    omega
  have hreq' : requiredAgreement orch.tmrEngine.config
      (orch.tmrEngine.totalNodes (orch.responses deps round)) ≤
      voteCount (orch.responses deps round) key := by
    rw [TmrConsensusEngine.totalNodes, if_neg hnodes, hcount]
    exact hreq
  obtain ⟨winner, result, heval⟩ := TmrConsensusEngine.evaluateKeyed_isOk _ round.scan htok
    (hcount ▸ hpos) hreq'
  refine ⟨result, ?_⟩
  rw [adjudicate, if_neg (by omega), TmrConsensusEngine.evaluate, heval]
  rfl

end TmrOrchestrator

/-! ### Configurations -/

def distinctIds (providers : List LlmProvider) : ℕ := (providers.map (·.providerId)).dedup.length

section Configuration

variable {lower : Lowercase} {settings : TmrSettings} {fallback : PhysicalFallbackNode}
variable {providers : List LlmProvider} {orch : TmrOrchestrator}
variable (horch : orch = TmrOrchestrator.withProviders lower settings fallback providers)

include horch

theorem length_adapters_withProviders : orch.adapters.length = providers.length := by
  rw [horch, TmrOrchestrator.withProviders, List.length_map]

theorem two_le_minAgreement : 2 ≤ orch.minAgreement := by
  rw [horch]
  exact Nat.le_max_right _ _

theorem length_healthyNodes_withProviders :
    orch.tmrEngine.healthyNodes.length = distinctIds providers := by
  have hnodes : (providers.map TmrOrchestrator.adapterOf).map (·.node) =
      (providers.map (·.providerId)).map ProviderNode.custom := by
    rw [List.map_map, List.map_map]
    rfl
  have hinj : Function.Injective ProviderNode.custom := fun a b h => ProviderNode.custom.inj h
  rw [horch, TmrOrchestrator.withProviders, length_healthyNodes, hnodes,
    List.dedup_map_of_injective hinj, List.length_map, distinctIds]

/-- The threshold of the engine in terms of the configuration. -/
theorem threshold_withProviders :
    orch.threshold =
      if orch.canonicalStrategy = .strict then
        if 3 ≤ distinctIds providers then orch.minAgreement else distinctIds providers
      else 1 := by
  rw [TmrOrchestrator.threshold, length_healthyNodes_withProviders horch, requiredAgreement, horch]
  simp only [TmrOrchestrator.withProviders, TmrConsensusEngine.withConfigAndNodes,
    decide_eq_true_eq]
  congr

omit horch in
theorem distinctIds_pos (h : providers ≠ []) : 0 < distinctIds providers := by
  obtain ⟨p, hp⟩ := List.exists_mem_of_ne_nil _ h
  have hmem : p.providerId ∈ (providers.map (·.providerId)).dedup :=
    List.mem_dedup.mpr (List.mem_map_of_mem hp)
  exact List.length_pos_of_mem hmem

theorem healthyNodes_ne_nil (hne : providers ≠ []) : orch.tmrEngine.healthyNodes ≠ [] := by
  apply List.ne_nil_of_length_pos
  rw [length_healthyNodes_withProviders horch]
  exact distinctIds_pos hne

theorem threshold_pos (hne : providers ≠ []) : 0 < orch.threshold := by
  have hm := two_le_minAgreement horch
  have hd := distinctIds_pos hne
  rw [threshold_withProviders horch]
  split
  · split <;> omega
  · omega

/-- The engine asks for `min_agreement` votes exactly when the strategy is
strict and there are three ids, or as many ids as votes to be asked for. -/
theorem minAgreement_le_threshold_iff :
    orch.minAgreement ≤ orch.threshold ↔
      orch.canonicalStrategy = .strict ∧ min 3 orch.minAgreement ≤ distinctIds providers := by
  have hm := two_le_minAgreement horch
  rw [threshold_withProviders horch]
  by_cases hs : orch.canonicalStrategy = .strict
  · simp only [hs, if_true, true_and]
    split <;> omega
  · simp only [hs, if_false, false_and, iff_false]
    omega

end Configuration

/-! ### The quorum, for every outcome -/

/-- A result is backed by a quorum: `min_agreement` providers answered with
one vote key, they are the ones counted, and the output is the restored
answer of one of them. -/
def TmrOrchestrator.QuorumBacked (orch : TmrOrchestrator) (deps : RouterDeps) (env : DispatchEnv)
    (req : ProviderRequest) (res : TmrConsensusResult) : Prop :=
  ∃ key content, orch.Agreed deps env.round orch.minAgreement key content ∧
    res.agreementCount = (orch.agreeing deps env.round key).card ∧
    res.majorityOutput =
      some (restore env.restoreOrder content (deps.patterns.mask env.counter req.prompt).2.map)

/-- Every consensus that is not the fallback's is backed by a quorum. -/
def TmrOrchestrator.QuorumEnforced (orch : TmrOrchestrator) (deps : RouterDeps) : Prop :=
  ∀ (env : DispatchEnv) (req : ProviderRequest) (res : TmrConsensusResult),
    orch.dispatchConsensusInner deps env req = some res → res.consensusAchieved = true →
    res.fallbackActivated = false → orch.QuorumBacked deps env req res

theorem consensus_of_dispatch {orch : TmrOrchestrator} {deps : RouterDeps} {env : DispatchEnv}
    {req : ProviderRequest} {res : TmrConsensusResult}
    (h : orch.dispatchConsensusInner deps env req = some res)
    (hfallback : res.fallbackActivated = false) :
    ∃ result, orch.adjudicate deps env.round = some (.consensus result) ∧
      res.agreementCount = result.winningProviders.length ∧
      res.majorityOutput = some (restore env.restoreOrder result.content
        (deps.patterns.mask env.counter req.prompt).2.map) := by
  obtain ⟨verdict, hverdict, rfl⟩ := Option.map_eq_some_iff.mp h
  cases verdict with
  | consensus result => exact ⟨result, hverdict, rfl, rfl⟩
  | stasis =>
      rw [TmrOrchestrator.resultOf, TmrOrchestrator.handleConsensusFailureStasis] at hfallback
      split at hfallback <;> simp [TmrOrchestrator.restoreOutput] at hfallback

theorem dispatch_of_consensus {orch : TmrOrchestrator} {deps : RouterDeps} {env : DispatchEnv}
    {result : ConsensusResult} (h : orch.adjudicate deps env.round = some (.consensus result))
    (req : ProviderRequest) :
    ∃ res, orch.dispatchConsensusInner deps env req = some res ∧ res.consensusAchieved = true ∧
      res.fallbackActivated = false := by
  have hres : orch.dispatchConsensusInner deps env req = some (TmrOrchestrator.restoreOutput
      env.restoreOrder (some (deps.patterns.mask env.counter req.prompt).2.map)
      (orch.handleConsensusSuccess result (orch.nodeResults env.round) env.elapsedMs)) := by
    rw [TmrOrchestrator.dispatchConsensusInner, h]
    rfl
  exact ⟨_, hres, rfl, rfl⟩

/-- The round in which the first `v` adapters answer `a` and the others `b`. -/
def splitRound (v : ℕ) (a b : String) : ProviderRound where
  outcome i := if i < v then .answered a 0 else .answered b 0
  completion := .id
  scan := .id

theorem agreeing_splitRound (orch : TmrOrchestrator) (deps : RouterDeps) (v : ℕ) (a : String)
    {b key : String} (hb : deps.voteKey b = "") (hkey : key ≠ "") :
    orch.agreeing deps (splitRound v a b) key ⊆ Finset.range v := by
  intro i hi
  rw [TmrOrchestrator.agreeing, Finset.mem_filter] at hi
  rw [Finset.mem_range]
  by_contra hlt
  have hvote := hi.2
  simp only [splitRound, if_neg hlt, ProviderOutcome.votesFor, hb, decide_eq_true_eq] at hvote
  exact hkey hvote.symm

theorem card_agreeing_splitRound (orch : TmrOrchestrator) (deps : RouterDeps) {v : ℕ}
    {a b : String} (hv : v ≤ orch.adapters.length) (hb : deps.voteKey b = "")
    (ha : deps.voteKey a ≠ "") :
    (orch.agreeing deps (splitRound v a b) (deps.voteKey a)).card = v := by
  have heq : orch.agreeing deps (splitRound v a b) (deps.voteKey a) = Finset.range v := by
    apply Finset.Subset.antisymm (agreeing_splitRound orch deps v a hb ha)
    intro i hi
    rw [Finset.mem_range] at hi
    rw [TmrOrchestrator.agreeing, Finset.mem_filter, Finset.mem_range]
    refine ⟨by omega, ?_⟩
    simp [splitRound, hi, ProviderOutcome.votesFor]
  rw [heq, Finset.card_range]

theorem length_successful_splitRound (orch : TmrOrchestrator) (deps : RouterDeps) (v : ℕ)
    {a b : String} (ha : a ≠ "") (hb : b ≠ "") :
    (TmrOrchestrator.successful (orch.responses deps (splitRound v a b))).length =
      orch.adapters.length := by
  rw [TmrOrchestrator.length_successful, Finset.filter_true_of_mem, Finset.card_range]
  intro i _
  simp only [splitRound]
  split
  · simpa [ProviderOutcome.hasContent] using ha
  · simpa [ProviderOutcome.hasContent] using hb

theorem voteKey_ne_empty {deps : RouterDeps} {a : String} {payload : IntermediatePayload}
    (h : IntermediatePayload.fromLlmOutput deps.parser a = .ok payload) : deps.voteKey a ≠ "" := by
  intro hempty
  rw [RouterDeps.voteKey, h] at hempty
  have hlist := congrArg String.toList hempty
  rw [toList_canonicalKey] at hlist
  simp at hlist

section SplitRound

variable {deps : RouterDeps} {settings : TmrSettings} {fallback : PhysicalFallbackNode}
variable {providers : List LlmProvider} {orch : TmrOrchestrator}
variable (horch : orch = TmrOrchestrator.withProviders deps.lower settings fallback providers)
variable {a b : String} (hane : a ≠ "") (hbne : b ≠ "") (hakey : deps.voteKey a ≠ "")
variable (hbkey : deps.voteKey b = "") (hn : orch.minAgreement ≤ providers.length)
variable {v : ℕ} (hpos : 0 < v) (hv : v ≤ providers.length) (hreq : orch.threshold ≤ v)

include horch hane hbne hakey hbkey hn hpos hv hreq

/-- As many votes as the engine asks for, among answers that are all
non-empty, are a consensus on the answer voted for. -/
theorem adjudicate_splitRound :
    ∃ result, orch.adjudicate deps (splitRound v a b) = some (.consensus result) ∧
      result.content = a ∧ result.winningProviders.length = v := by
  have hlen := length_adapters_withProviders horch
  have hne : providers ≠ [] := List.ne_nil_of_length_pos (by omega)
  have hnodes := healthyNodes_ne_nil horch hne
  have hcard : (orch.agreeing deps (splitRound v a b) (deps.voteKey a)).card = v :=
    card_agreeing_splitRound orch deps (by omega) hbkey hakey
  have hquorum := length_successful_splitRound orch deps v hane hbne
  obtain ⟨result, hresult⟩ : ∃ result, orch.adjudicate deps (splitRound v a b) =
      some (.consensus result) := by
    apply TmrOrchestrator.adjudicate_of_votes hnodes hakey
    · omega
    · omega
    · omega
  obtain ⟨key, ⟨hkey, -, j, hj, durationMs, hanswer⟩, hwinners⟩ :=
    TmrOrchestrator.adjudicate_consensus hnodes hresult
  -- Whoever agrees with the winner is among the first `v`, who all answer `a`.
  have hjv := Finset.mem_range.mp (agreeing_splitRound orch deps v a hbkey hkey hj)
  have hvote : (ProviderOutcome.answered a 0).votesFor deps key = true := by
    have hmem := (Finset.mem_filter.mp hj).2
    simpa only [splitRound, if_pos hjv] using hmem
  simp only [splitRound, if_pos hjv, ProviderOutcome.answered.injEq] at hanswer
  refine ⟨result, hresult, hanswer.1.symm, ?_⟩
  rw [hwinners, ← of_decide_eq_true hvote, hcard]

/-- The engine accepts an answer that fewer than `min_agreement` providers
agree on, if it asks for no more. -/
theorem not_quorumEnforced_of_votes (hlt : v < orch.minAgreement) (env : DispatchEnv)
    (hround : env.round = splitRound v a b) (req : ProviderRequest) :
    ¬orch.QuorumEnforced deps := by
  intro henforced
  obtain ⟨result, hresult, -⟩ :=
    adjudicate_splitRound horch hane hbne hakey hbkey hn hpos hv hreq
  rw [← hround] at hresult
  obtain ⟨res, hres, hachieved, hfallback⟩ := dispatch_of_consensus hresult req
  obtain ⟨key, content, ⟨hkey, hbound, -⟩, -⟩ := henforced env req res hres hachieved hfallback
  have hle := Finset.card_le_card (agreeing_splitRound orch deps v a hbkey hkey)
  rw [Finset.card_range, ← hround] at hle
  omega

end SplitRound

theorem quorumEnforced_of_threshold {deps : RouterDeps} {settings : TmrSettings}
    {fallback : PhysicalFallbackNode} {providers : List LlmProvider} {orch : TmrOrchestrator}
    (horch : orch = TmrOrchestrator.withProviders deps.lower settings fallback providers)
    (h : providers.length < orch.minAgreement ∨ orch.minAgreement ≤ orch.threshold) :
    orch.QuorumEnforced deps := by
  intro env req res hres _ hfallback
  have hm := two_le_minAgreement horch
  obtain ⟨result, hverdict, hcount, houtput⟩ := consensus_of_dispatch hres hfallback
  have hquorum := TmrOrchestrator.minAgreement_le_of_consensus hverdict
  rw [length_adapters_withProviders horch] at hquorum
  have hne : providers ≠ [] := List.ne_nil_of_length_pos (by omega)
  obtain ⟨key, hagreed, hwinners⟩ :=
    TmrOrchestrator.adjudicate_consensus (healthyNodes_ne_nil horch hne) hverdict
  have hle : orch.minAgreement ≤ orch.threshold := by omega
  refine ⟨key, result.content, ⟨hagreed.1, hle.trans hagreed.2.1, hagreed.2.2⟩, ?_, houtput⟩
  rw [hcount, hwinners]

/-- The quorum is enforced exactly when there are fewer providers than
`min_agreement`, so that no dispatch ever claims consensus, or the strategy
is strict and at least three different ids, or as many as `min_agreement`,
are configured. -/
theorem quorumEnforced_iff (deps : RouterDeps) (settings : TmrSettings)
    (fallback : PhysicalFallbackNode) (providers : List LlmProvider)
    (a b e : String) (payload : IntermediatePayload) (hane : a ≠ "") (hbne : b ≠ "")
    (ha : IntermediatePayload.fromLlmOutput deps.parser a = .ok payload)
    (hb : IntermediatePayload.fromLlmOutput deps.parser b = .error e) :
    let orch := TmrOrchestrator.withProviders deps.lower settings fallback providers
    orch.QuorumEnforced deps ↔
      providers.length < orch.minAgreement ∨
        (orch.canonicalStrategy = .strict ∧
          min 3 orch.minAgreement ≤ distinctIds providers) := by
  intro orch
  have horch : orch = TmrOrchestrator.withProviders deps.lower settings fallback providers := rfl
  rw [← minAgreement_le_threshold_iff horch]
  constructor
  · intro henforced
    by_contra hnot
    rw [not_or, Nat.not_lt, Nat.not_le] at hnot
    have hbkey : deps.voteKey b = "" := by rw [RouterDeps.voteKey, hb]
    have hm := two_le_minAgreement horch
    have hpos := threshold_pos horch (List.ne_nil_of_length_pos (by omega))
    let env : DispatchEnv := ⟨0, splitRound orch.threshold a b, .overloaded, 0, .id⟩
    exact not_quorumEnforced_of_votes horch hane hbne (voteKey_ne_empty ha) hbkey hnot.1 hpos
      (by omega) le_rfl hnot.2 env rfl ⟨"", ""⟩ henforced
  · exact quorumEnforced_of_threshold horch

/-- The three providers of the shipped registry, and settings that name the
strategy. -/
def shippedProviders : List LlmProvider :=
  [⟨"moonshot", "Moonshot-v1 (Kimi)", 15000⟩, ⟨"deepseek", "DeepSeek-Chat", 15000⟩,
    ⟨"deepseek", "DeepSeek-Chat", 15000⟩]

def strategySettings (strategy : String) : TmrSettings := ⟨some strategy, some "2", none, none⟩

def stubFallback : PhysicalFallbackNode := ⟨⟨"serein-slm-v1", 30000, 4096, true⟩, false⟩

/-- Requests without personal data, and no cache. -/
def swapRouterDeps : RouterDeps :=
  { swapDeps with
    patterns :=
      { segments := fun s => [.plain s]
        segments_text := fun s => by simp [Segment.text, String.join]
        email := fun _ => false
        financial := fun _ => false
        identity := fun _ => false
        phone := fun _ => false }
    toJson := fun _ => none
    fromJson := fun _ => none }

theorem declined_ne_swapPrompt (network : String) : "Sorry" ≠ swapPrompt network := by
  intro h
  obtain ⟨front, back, heq, -, -⟩ := toList_swapPrompt network
  rw [← h, String.toList_ofList] at heq
  simp at heq

theorem fromLlmOutput_declined_of_simdJson {parser : PayloadParser} {bytes : ByteArray} {e : String}
    (hsimd : parser.simdJson "Sorry".toByteArray = (bytes, none))
    (hserde : parser.serdeJson (parser.fromUtf8Lossy bytes) = .error e) :
    IntermediatePayload.fromLlmOutput parser "Sorry" =
      .error ("Failed to parse payload: " ++ e) := by
  have hlist : "Sorry".toList = 'S' :: (['o', 'r', 'r'] ++ ['y']) := String.toList_ofList
  refine IntermediatePayload.fromLlmOutput_of_error ?_ (trim_eq_self hlist rfl rfl) hsimd hserde
  rw [hlist]
  decide

theorem fromLlmOutput_declined :
    IntermediatePayload.fromLlmOutput swapDeps.parser "Sorry" =
      .error "Failed to parse payload: expected value at line 1 column 1" :=
  fromLlmOutput_declined_of_simdJson (simdJson_of_ne declined_ne_swapPrompt) rfl

def strictOrchestrator : TmrOrchestrator :=
  .withProviders swapRouterDeps.lower (strategySettings "strict") stubFallback shippedProviders

theorem quorumEnforced_iff_shipped :
    strictOrchestrator.QuorumEnforced swapRouterDeps ↔
      shippedProviders.length < strictOrchestrator.minAgreement ∨
        (strictOrchestrator.canonicalStrategy = .strict ∧
          min 3 strictOrchestrator.minAgreement ≤ distinctIds shippedProviders) :=
  quorumEnforced_iff swapRouterDeps _ _ _ (swapPrompt "ETH") "Sorry"
    "Failed to parse payload: expected value at line 1 column 1" ⟨"ETH", "SWAP", 21000, 1, ""⟩
    (swapPrompt_ne_empty "ETH") (by decide) fromLlmOutput_swap fromLlmOutput_declined

def fuzzyOrchestrator : TmrOrchestrator :=
  .withProviders swapRouterDeps.lower (strategySettings "fuzzy") stubFallback shippedProviders

/-- One provider proposes a swap, the other two decline. -/
def oneVoteEnv : DispatchEnv :=
  ⟨0, splitRound 1 (swapPrompt "ETH") "Sorry", .overloaded, 20, .id⟩

/-- Under the fuzzy strategy the answer of one provider out of three is
returned as a consensus. -/
theorem fuzzy_accepts_one_vote : ¬fuzzyOrchestrator.QuorumEnforced swapRouterDeps := by
  have hparser : swapRouterDeps.parser = swapDeps.parser := rfl
  have hdeclined : swapRouterDeps.voteKey "Sorry" = "" := by
    rw [RouterDeps.voteKey, hparser, fromLlmOutput_declined]
  have hthreshold : fuzzyOrchestrator.threshold ≤ 1 := by
    have horch : fuzzyOrchestrator = .withProviders swapRouterDeps.lower
        (strategySettings "fuzzy") stubFallback shippedProviders := rfl
    rw [threshold_withProviders horch, if_neg (by decide +kernel)]
  exact not_quorumEnforced_of_votes rfl (swapPrompt_ne_empty "ETH") (by decide)
    (voteKey_ne_empty fromLlmOutput_swap) hdeclined (by decide) (v := 1) (by decide) (by decide)
    hthreshold (by decide) oneVoteEnv rfl ⟨"Swap now", "acme"⟩

end SereinGateway.Router
