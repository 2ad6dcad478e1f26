import SereinGateway.Router.Quorum
import SereinGateway.Router.Undisturbed

/-!
Where the answers in the semantic cache come from.

A dispatch writes its result to the cache when the result says
`consensus_achieved`, and a later request with the same key is served what it
finds there. The fallback node sets that flag for an answer that nobody
agreed on, and so does the engine where its threshold is one vote. Without
these two, every text in the cache is the result of a dispatch in which two
providers agreed, and so is every answer served from it: the flag is carried
unchanged from the verdict through restoration, serialisation and the cache.
-/

namespace SereinGateway.Router

open SereinGateway.Lib SereinGateway.Worker

def DispatchPc.knownResult : DispatchPc → Option TmrConsensusResult
  | .awaitRefund result | .unmask result | .restored _ result => some result
  | .masking _ _ | .awaitProviders | .awaitFallback _ => none

/-- The result is a consensus of at least two providers in the round of the
request, and not the fallback's. -/
structure FromAgreement (orch : TmrOrchestrator) (deps : RouterDeps) (c : Request)
    (result : TmrConsensusResult) : Prop where
  fallback : result.fallbackActivated = false
  agreed : ∃ round key content, c.round = some round ∧ orch.Agreed deps round 2 key content ∧
    result.agreementCount = (orch.agreeing deps round key).card

/-- The fallback node gives no output when it is asked. -/
def fallbackSilent (orch : TmrOrchestrator) (p : Pool RouterState Request)
    (a : ℕ × RequestAction) : Prop :=
  ∀ attempt elapsedMs, a.2 = .fallback attempt elapsedMs →
    (orch.fallbackNode.invoke (p.task a.1).req.prompt attempt).output = none

/-! ### Results -/

section Results

variable {orch : TmrOrchestrator} {deps : RouterDeps} {c c' : Request}
variable {result result' : TmrConsensusResult}

theorem FromAgreement.congr (h : FromAgreement orch deps c result)
    (hfallback : result'.fallbackActivated = result.fallbackActivated)
    (hcount : result'.agreementCount = result.agreementCount)
    (hround : ∀ round, c.round = some round → c'.round = some round) :
    FromAgreement orch deps c' result' := by
  obtain ⟨round, key, content, hr, hagreed, heq⟩ := h.agreed
  exact ⟨hfallback.trans h.fallback, round, key, content, hround round hr, hagreed,
    hcount.trans heq⟩

theorem result_afterResult (orch : TmrOrchestrator) (result : TmrConsensusResult) :
    (orch.afterResult result).knownResult = some result := by
  rw [TmrOrchestrator.afterResult]
  split <;> rfl

theorem restoreOutput_fields (iter : Shuffle (Σ _ : String, String)) (removed : Option MaskingMap)
    (result : TmrConsensusResult) :
    let restored := TmrOrchestrator.restoreOutput iter removed result
    restored.fallbackActivated = result.fallbackActivated ∧
      restored.agreementCount = result.agreementCount ∧
      restored.consensusAchieved = result.consensusAchieved := by
  cases removed <;> exact ⟨rfl, rfl, rfl⟩

theorem not_achieved_of_silent {fallbackResult : FallbackNodeResult}
    (h : fallbackResult.output = none) (nodeResults : List TmrNodeResult) (elapsedMs : UInt64) :
    (orch.handleConsensusFailureStasis fallbackResult nodeResults elapsedMs).consensusAchieved =
      false := by
  rw [TmrOrchestrator.handleConsensusFailureStasis, h]

theorem toJson_of_cacheWrite {json : String} (h : orch.cacheWrite deps result = some json) :
    result.consensusAchieved = true ∧ deps.toJson result = some json := by
  rw [TmrOrchestrator.cacheWrite] at h
  split at h
  · rename_i hcond
    simp only [Bool.and_eq_true] at hcond
    exact ⟨hcond.2.1, h⟩
  · simp at h

end Results

/-- Below fewer providers than `min_agreement`, or with a strict strategy and
two ids, a verdict of consensus needs two providers. -/
theorem agreed_two_of_consensus {lower : Lowercase} {deps : RouterDeps} {settings : TmrSettings}
    {fallback : PhysicalFallbackNode} {providers : List LlmProvider} {orch : TmrOrchestrator}
    (horch : orch = TmrOrchestrator.withProviders lower settings fallback providers)
    (hconfig : providers.length < orch.minAgreement ∨
      (orch.canonicalStrategy = .strict ∧ 2 ≤ distinctIds providers))
    {round : ProviderRound} {result : Consensus.ConsensusResult}
    (h : orch.adjudicate deps round = some (.consensus result)) :
    ∃ key, orch.Agreed deps round 2 key result.content ∧
      result.winningProviders.length = (orch.agreeing deps round key).card := by
  have hm := two_le_minAgreement horch
  have hquorum := TmrOrchestrator.minAgreement_le_of_consensus h
  rw [length_adapters_withProviders horch] at hquorum
  have hne : providers ≠ [] := List.ne_nil_of_length_pos (by omega)
  obtain ⟨hstrict, htwo⟩ := hconfig.resolve_left (by omega)
  have hthreshold : 2 ≤ orch.threshold := by
    rw [threshold_withProviders horch, if_pos hstrict]
    split <;> omega
  obtain ⟨key, hagreed, hcount⟩ :=
    TmrOrchestrator.adjudicate_consensus (healthyNodes_ne_nil horch hne) h
  exact ⟨key, ⟨hagreed.1, hthreshold.trans hagreed.2.1, hagreed.2.2⟩, hcount⟩

/-! ### Runs -/

/-- What the request itself may still write comes from an agreement. -/
structure RequestInv (orch : TmrOrchestrator) (deps : RouterDeps) (c : Request) : Prop where
  result : ∀ result, c.dispatch.knownResult = some result → result.consensusAchieved = true →
    FromAgreement orch deps c result
  pending : ∀ json, c.pendingWrite = some json →
    ∃ result, deps.toJson result = some json ∧ FromAgreement orch deps c result

/-- What was written and what was served comes from an agreement in the
dispatch of the request that wrote it. -/
structure CacheInv (orch : TmrOrchestrator) (deps : RouterDeps) (p : Pool RouterState Request) :
    Prop where
  cached : ∀ key entry, p.shared.cache key = some entry →
    ∃ result, deps.toJson result = some entry.json ∧
      FromAgreement orch deps (p.task entry.writer) result
  served : ∀ i result writer, (p.task i).stage = .served result writer →
    FromAgreement orch deps (p.task writer) result

section Runs

variable {orch : TmrOrchestrator} {deps : RouterDeps} {i : ℕ} {s s' : RouterState} {c c' : Request}
variable {a : RequestAction}

theorem RequestMove.round_eq (hwf : c.Wf) (h : RequestMove orch deps i s c a s' c')
    {round : ProviderRound} (hround : c.round = some round) : c'.round = some round := by
  cases h with
  -- The providers are heard once: whoever awaits them has no round yet.
  | consensus _ hpc => simp [hwf.round (by rw [hpc]; rfl)] at hround
  | stasis _ hpc => simp [hwf.round (by rw [hpc]; rfl)] at hround
  | miss | served | abandon | flight | mask | store | fallback | refund | unmask | finish | flush
  | lose | expire => exact hround

theorem RequestInv.move (hwf : c.Wf) (h : RequestInv orch deps c)
    (hconsensus : ∀ round result, orch.adjudicate deps round = some (.consensus result) →
      ∃ key, orch.Agreed deps round 2 key result.content ∧
        result.winningProviders.length = (orch.agreeing deps round key).card)
    (hsilent : ∀ attempt elapsedMs, a = .fallback attempt elapsedMs →
      (orch.fallbackNode.invoke c.req.prompt attempt).output = none)
    (hmove : RequestMove orch deps i s c a s' c') : RequestInv orch deps c' := by
  have hround : ∀ round, c.round = some round → c'.round = some round :=
    fun round => hmove.round_eq hwf
  have hpending : c'.pendingWrite = c.pendingWrite → ∀ json, c'.pendingWrite = some json →
      ∃ result, deps.toJson result = some json ∧ FromAgreement orch deps c' result := by
    intro heq json hjson
    obtain ⟨result, hresult, hfrom⟩ := h.pending json (heq ▸ hjson)
    exact ⟨result, hresult, hfrom.congr rfl rfl hround⟩
  have hresult : ∀ d : DispatchPc, d.knownResult = c.dispatch.knownResult →
      ∀ result, d.knownResult = some result → result.consensusAchieved = true →
      FromAgreement orch deps c' result := by
    intro d heq result hres hachieved
    exact (h.result result (heq ▸ hres) hachieved).congr rfl rfl hround
  cases hmove with
  | miss | served | abandon | flight | expire => exact ⟨hresult _ rfl, hpending rfl⟩
  | mask _ hpc => exact ⟨hresult (.masking _ _) (by rw [hpc]; rfl), hpending rfl⟩
  | store _ hpc => exact ⟨hresult .awaitProviders (by rw [hpc]; rfl), hpending rfl⟩
  | @consensus round elapsedMs result _ hpc hverdict =>
      refine ⟨?_, hpending rfl⟩
      intro r hr _
      rw [result_afterResult, Option.some.injEq] at hr
      obtain ⟨key, hagreed, hcount⟩ := hconsensus round result hverdict
      subst hr
      exact ⟨rfl, round, key, result.content, rfl, hagreed, hcount⟩
  | stasis _ hpc => exact ⟨hresult (.awaitFallback _) (by rw [hpc]; rfl), hpending rfl⟩
  | @fallback round attempt elapsedMs _ hpc =>
      refine ⟨?_, hpending rfl⟩
      intro r hr hachieved
      -- A silent fallback node leaves a result that claims no consensus.
      rw [result_afterResult, Option.some.injEq] at hr
      rw [← hr, not_achieved_of_silent (hsilent attempt elapsedMs rfl)] at hachieved
      simp at hachieved
  | @refund result _ hpc => exact ⟨hresult (.unmask result) (by rw [hpc]; rfl), hpending rfl⟩
  | @unmask iter result _ hpc =>
      refine ⟨?_, hpending rfl⟩
      intro r hr hachieved
      simp only [DispatchPc.knownResult, Option.some.injEq] at hr
      obtain ⟨hfallback, hcount, hsame⟩ := restoreOutput_fields iter (s.maskingMaps c.key) result
      subst hr
      have hfrom := h.result result (by rw [hpc]; rfl) (hsame ▸ hachieved)
      exact hfrom.congr hfallback hcount hround
  | @finish removed result _ hpc =>
      refine ⟨hresult _ rfl, ?_⟩
      intro json hjson
      obtain ⟨hachieved, hserialised⟩ := toJson_of_cacheWrite hjson
      exact ⟨result, hserialised,
        (h.result result (by rw [hpc]; rfl) hachieved).congr rfl rfl hround⟩
  | flush | lose => exact ⟨hresult _ rfl, by simp⟩

theorem RequestMove.cache_cases (h : RequestMove orch deps i s c a s' c') :
    s'.cache = s.cache ∨
      (∃ json, c.pendingWrite = some json ∧
        s'.cache = Function.update s.cache c.key (some ⟨json, i⟩)) ∨
      s'.cache = Function.update s.cache c.key none := by
  cases h with
  | flush hjson => exact .inr (.inl ⟨_, hjson, rfl⟩)
  | expire => exact .inr (.inr rfl)
  | miss | served | abandon | flight | mask | store | consensus | stasis | fallback | refund
  | unmask | finish | lose => exact .inl rfl

theorem RequestMove.served_cases (h : RequestMove orch deps i s c a s' c')
    {result : TmrConsensusResult} {writer : ℕ} (hserved : c'.stage = .served result writer) :
    c.stage = .served result writer ∨
      ∃ entry stored, s.cache c.key = some entry ∧ deps.fromJson entry.json = some stored ∧
        result = { stored with cacheHit := true } ∧ writer = entry.writer := by
  cases h with
  | served _ hentry hstored =>
      simp only [RequestStage.served.injEq] at hserved
      exact .inr ⟨_, _, hentry, hstored, hserved.1.symm, hserved.2.symm⟩
  | miss | abandon => simp at hserved
  | flight | mask | store | consensus | stasis | fallback | refund | unmask | finish | flush | lose
  | expire => exact .inl hserved

theorem cacheInv_step {p q : Pool RouterState Request} {a : ℕ × RequestAction}
    (hjson : ∀ result json, deps.toJson result = some json → deps.fromJson json = some result)
    (hwf : ∀ i, (p.task i).Wf) (hreq : ∀ i, RequestInv orch deps (p.task i))
    (h : CacheInv orch deps p) (hstep : p.step (orch.requestStep deps) a = some q) :
    CacheInv orch deps q := by
  obtain ⟨s, c, hact, rfl⟩ := Pool.step_eq_some.mp hstep
  have hmove := requestStep_move hact
  -- What came from an agreement of a request still does after the step.
  have hkeep : ∀ w result, FromAgreement orch deps (p.task w) result →
      FromAgreement orch deps (Function.update p.task a.1 c w) result := by
    intro w result hfrom
    refine hfrom.congr rfl rfl (fun round hround => ?_)
    by_cases hw : w = a.1
    · subst hw
      rw [Function.update_self]
      exact hmove.round_eq (hwf a.1) hround
    · rw [Function.update_of_ne hw]
      exact hround
  have hcached : ∀ key entry, p.shared.cache key = some entry →
      ∃ result, deps.toJson result = some entry.json ∧
        FromAgreement orch deps (Function.update p.task a.1 c entry.writer) result := by
    intro key entry hentry
    obtain ⟨result, hresult, hfrom⟩ := h.cached key entry hentry
    exact ⟨result, hresult, hkeep _ _ hfrom⟩
  refine ⟨?_, ?_⟩
  · intro key entry hentry
    change s.cache key = some entry at hentry
    rcases hmove.cache_cases with hsame | ⟨json, hpending, hflush⟩ | hexpire
    · exact hcached key entry (hsame ▸ hentry)
    · rw [hflush] at hentry
      by_cases hkey : key = (p.task a.1).key
      · rw [hkey, Function.update_self, Option.some.injEq] at hentry
        subst hentry
        obtain ⟨result, hresult, hfrom⟩ := (hreq a.1).pending json hpending
        exact ⟨result, hresult, hkeep _ _ hfrom⟩
      · rw [Function.update_of_ne hkey] at hentry
        exact hcached key entry hentry
    · rw [hexpire] at hentry
      by_cases hkey : key = (p.task a.1).key
      · rw [hkey, Function.update_self] at hentry
        simp at hentry
      · rw [Function.update_of_ne hkey] at hentry
        exact hcached key entry hentry
  · intro i result writer hserved
    change (Function.update p.task a.1 c i).stage = .served result writer at hserved
    by_cases hi : i = a.1
    · subst hi
      rw [Function.update_self] at hserved
      rcases hmove.served_cases hserved with hold | ⟨entry, stored, hentry, hstored, rfl, rfl⟩
      · exact hkeep _ _ (h.served a.1 result writer hold)
      · obtain ⟨written, hwritten, hfrom⟩ := h.cached _ entry hentry
        -- The text that was written determines the result that is read.
        have hsame : written = stored :=
          Option.some.inj ((hjson written entry.json hwritten).symm.trans hstored)
        subst hsame
        exact (hkeep _ _ hfrom).congr rfl rfl (fun _ => id)
    · rw [Function.update_of_ne hi] at hserved
      exact hkeep _ _ (h.served i result writer hserved)

end Runs

/-- With a strict strategy and two ids (or fewer providers than
`min_agreement`), in every run in which the fallback node gives no output,
each text in the cache is the result of a dispatch in which two providers
agreed, and so is each result served from the cache; none of them is the
fallback's. -/
theorem cached_results_agreed (deps : RouterDeps) (settings : TmrSettings)
    (fallback : PhysicalFallbackNode) (providers : List LlmProvider) (finops : Bool)
    (orch : TmrOrchestrator)
    (horch : orch = { TmrOrchestrator.withProviders deps.lower settings fallback providers with
      hasCache := true, hasFinops := finops })
    (hconfig : providers.length < orch.minAgreement ∨
      (orch.canonicalStrategy = .strict ∧ 2 ≤ distinctIds providers))
    (hjson : ∀ result json, deps.toJson result = some json → deps.fromJson json = some result)
    (reqs : ℕ → ProviderRequest) {p : Pool RouterState Request}
    (h : Reach (Pool.step (orch.requestStep deps)) (fallbackSilent orch)
      (requestStart deps reqs) p) :
    (∀ key entry, p.shared.cache key = some entry →
      ∃ result, deps.toJson result = some entry.json ∧
        FromAgreement orch deps (p.task entry.writer) result) ∧
    (∀ i result writer, (p.task i).stage = .served result writer →
      FromAgreement orch deps (p.task writer) result) := by
  have hconsensus : ∀ round result, orch.adjudicate deps round = some (.consensus result) →
      ∃ key, orch.Agreed deps round 2 key result.content ∧
        result.winningProviders.length = (orch.agreeing deps round key).card := by
    intro round result hverdict
    subst horch
    have hbase : TmrOrchestrator.withProviders deps.lower settings fallback providers = _ := rfl
    exact agreed_two_of_consensus hbase hconfig hverdict
  have hinv : (∀ i, (p.task i).Wf) ∧ (∀ i, RequestInv orch deps (p.task i)) ∧
      CacheInv orch deps p := by
    refine h.invariant (I := fun p => (∀ i, (p.task i).Wf) ∧
      (∀ i, RequestInv orch deps (p.task i)) ∧ CacheInv orch deps p) ?_ ?_
    · refine ⟨fun i => Request.wf_new deps (reqs i), fun i => ⟨?_, ?_⟩, ?_, ?_⟩ <;>
        simp [requestStart, Request.new, RouterState.new, DispatchPc.knownResult]
    · rintro t a u ⟨hwf, hreq, hcache⟩ hok hstep
      refine ⟨wf_step hwf hstep, ?_, cacheInv_step hjson hwf hreq hcache hstep⟩
      obtain ⟨s, c, hact, rfl⟩ := Pool.step_eq_some.mp hstep
      exact Pool.forall_task (Q := fun (_ : RouterState) _ c => RequestInv orch deps c) (s := s)
        hreq ((hreq a.1).move (hwf a.1) hconsensus hok (requestStep_move hact))
        (fun _ _ hj => hj)
  exact ⟨hinv.2.2.cached, hinv.2.2.served⟩

/-! ### Served from the cache -/

theorem step_cacheGet {orch : TmrOrchestrator} {deps : RouterDeps} {i : ℕ}
    {p : Pool RouterState Request} {entry : CacheEntry} {stored : TmrConsensusResult}
    (hcache : orch.hasCache = true) (hstage : (p.task i).stage = .cacheGet)
    (hentry : p.shared.cache (p.task i).key = some entry)
    (hstored : deps.fromJson entry.json = some stored) :
    p.step (orch.requestStep deps) (i, .cacheGet true) =
      some ⟨p.shared, Function.update p.task i { p.task i with
        stage := .served { stored with cacheHit := true } entry.writer }⟩ := by
  simp [Pool.step, TmrOrchestrator.requestStep, hcache, hstage, hentry, hstored]

/-- What an undisturbed request writes to the cache is served to the next
request with its prompt. -/
theorem written_result_served (orch : TmrOrchestrator) (deps : RouterDeps)
    {ok : Pool RouterState Request → ℕ × RequestAction → Prop}
    (hok : ∀ p a, a.2.calm = true → ok p a) {req : ProviderRequest} {env : DispatchEnv}
    {res : TmrConsensusResult} {json : String} (hcache : orch.hasCache = true)
    (hcounter : env.counter = 0)
    (hfallback : orch.adjudicate deps env.round = some .stasis →
      ∀ p i, ok p (i, .fallback env.attempt env.elapsedMs))
    (h : orch.dispatchConsensusInner deps env req = some res)
    (hwrite : orch.cacheWrite deps res = some json) (hread : deps.fromJson json = some res) :
    ∃ p, Reach (Pool.step (orch.requestStep deps)) ok (requestStart deps fun _ => req) p ∧
      (p.task 1).stage = .served { res with cacheHit := true } 0 := by
  obtain ⟨s, c, hreach, hflight, -, hpending, -, -⟩ := undisturbed_request orch deps 0
    (fun _ a => ∀ p, ok p (0, a)) (fun _ a ha p => hok p (0, a) ha) (s := .new) rfl hcounter
    (fun hstasis _ p => hfallback hstasis p 0) h
  obtain ⟨p, hp, hshared, htask, hother⟩ := Pool.reach_of_alone
    (p := requestStart deps fun _ => req) (i := 0) hreach (fun q _ _ hq _ _ => hq q)
  rw [hwrite] at hpending
  have hkey : c.key = (Request.new deps req).key := by
    rw [Request.key, hflight]
    rfl
  obtain ⟨q, hflush, hstored, hnext⟩ : ∃ q, p.step (orch.requestStep deps) (0, .flushWrite) =
      some q ∧ q.shared.cache = Function.update s.cache c.key (some ⟨json, 0⟩) ∧
      q.task 1 = .new deps req := by
    refine ⟨⟨{ s with cache := Function.update s.cache c.key (some ⟨json, 0⟩) },
      Function.update p.task 0 { c with pendingWrite := none }⟩, ?_, rfl, ?_⟩
    · simp [Pool.step, TmrOrchestrator.requestStep, htask, hshared, hpending]
    · dsimp only
      rw [Function.update_of_ne one_ne_zero, hother 1 one_ne_zero]
      rfl
  have hentry : q.shared.cache (q.task 1).key = some ⟨json, 0⟩ := by
    rw [hstored, hnext, hkey, Function.update_self]
  have hget := step_cacheGet (i := 1) hcache (by rw [hnext]; rfl) hentry hread
  exact ⟨_, (hp.tail (hok _ _ rfl) hflush).tail (hok _ _ rfl) hget, by simp⟩

/-! ### An outage poisons the cache -/

/-- A JSON string without control characters. -/
def jsonText (s : String) : String := "\"" ++ replace s "\"" "\\\"" ++ "\""

def nodeJson (id name output error : String) (triggered : Bool) : String :=
  "\x7b\"provider_id\":" ++ jsonText id ++ ",\"provider_name\":" ++ jsonText name ++
    ",\"output\":" ++ output ++ ",\"error\":" ++ error ++
    ",\"duration_ms\":0,\"fallback_triggered\":" ++ toString triggered ++ "\x7d"

/-- What three open breakers and the stub of the fallback node lead to. -/
def outageResult : TmrConsensusResult where
  majorityOutput := some mockOutput
  agreementCount := 1
  totalNodes := 4
  fallbackActivated := true
  nodeResults := shippedProviders.map fun p =>
    ⟨p.providerId, p.displayName, none, some .circuitBreakerOpen, 0, true⟩
  fallbackResult := some ⟨some mockOutput, none, 50, "serein-slm-v1"⟩
  consensusAchieved := true
  totalDurationMs := 70
  cacheHit := false

def outageJson : String :=
  "\x7b\"majority_output\":" ++ jsonText mockOutput ++
    ",\"agreement_count\":1,\"total_nodes\":4,\"fallback_activated\":true,\"node_results\":[" ++
    ",".intercalate (shippedProviders.map fun p =>
      nodeJson p.providerId p.displayName "null" "\"CircuitBreakerOpen\"" true) ++
    "],\"fallback_result\":\x7b\"output\":" ++ jsonText mockOutput ++
    ",\"error\":null,\"duration_ms\":50,\"model_id\":\"serein-slm-v1\"\x7d," ++
    "\"consensus_achieved\":true,\"total_duration_ms\":70,\"cache_hit\":false\x7d"

/-- SHA-256 of the prompt `Swap now`. -/
def swapNowDigest : Vector UInt8 32 :=
  #v[0xc1, 0x57, 0x6d, 0x88, 0x06, 0x22, 0xe7, 0x28, 0x1c, 0x60, 0xf9, 0x80, 0xaa, 0x20,
    0x3b, 0x07, 0x53, 0xa5, 0x35, 0x21, 0xc4, 0xc4, 0xea, 0x8c, 0xdb, 0x77, 0x15, 0x26,
    0x85, 0x7f, 0xec, 0x37]

/-- Serialiser, parser and digest as they act on one result and one prompt. -/
def storedDeps (result : TmrConsensusResult) (json : String) : RouterDeps :=
  { swapRouterDeps with
    sha256 := fun _ => swapNowDigest
    toJson := fun r => if r = result then some json else none
    fromJson := fun s => if s = json then some result else none }

def cachedOrchestrator : TmrOrchestrator := strictOrchestrator.withCache

theorem cacheWrite_storedDeps {result : TmrConsensusResult} (json : String)
    (hachieved : result.consensusAchieved = true) (houtput : result.majorityOutput.isSome = true) :
    cachedOrchestrator.cacheWrite (storedDeps result json) result = some json := by
  have hcache : cachedOrchestrator.hasCache = true := rfl
  rw [TmrOrchestrator.cacheWrite, hcache, hachieved, houtput]
  simp only [Bool.and_self, if_true]
  unfold storedDeps
  exact if_pos rfl

theorem fromJson_storedDeps (result : TmrConsensusResult) (json : String) :
    (storedDeps result json).fromJson json = some result := by
  unfold storedDeps
  exact if_pos rfl

/-- Every breaker is open, and the fallback node answers. -/
def outageEnv : DispatchEnv :=
  ⟨0, ⟨fun _ => .breakerOpen, .id, .id⟩, .admitted (.ok "") 50, 70, .id⟩

theorem fallback_served_from_cache :
    ¬∀ p, Reach (Pool.step (cachedOrchestrator.requestStep (storedDeps outageResult outageJson)))
        anyStep (requestStart (storedDeps outageResult outageJson) fun _ =>
          ⟨"Swap now", "acme"⟩) p →
      ∀ i result writer, (p.task i).stage = .served result writer →
        result.consensusAchieved = true →
        FromAgreement cachedOrchestrator (storedDeps outageResult outageJson) (p.task writer)
          result := by
  intro hall
  have houtage : cachedOrchestrator.dispatchConsensusInner (storedDeps outageResult outageJson)
      outageEnv ⟨"Swap now", "acme"⟩ = some outageResult := rfl
  obtain ⟨p, hp, hserved⟩ := written_result_served cachedOrchestrator
    (storedDeps outageResult outageJson) (fun _ _ _ => trivial) rfl rfl (fun _ _ _ => trivial)
    houtage (cacheWrite_storedDeps _ rfl rfl) (fromJson_storedDeps _ _)
  have hfrom := hall p hp 1 _ 0 hserved rfl
  exact absurd hfrom.fallback (by decide)

/-- What two equal answers out of three lead to. -/
def agreedResult : TmrConsensusResult where
  majorityOutput := some (swapPrompt "ETH")
  agreementCount := 2
  totalNodes := 3
  fallbackActivated := false
  nodeResults :=
    [⟨"moonshot", "Moonshot-v1 (Kimi)", some (swapPrompt "ETH"), none, 0, false⟩,
      ⟨"deepseek", "DeepSeek-Chat", some (swapPrompt "ETH"), none, 0, false⟩,
      ⟨"deepseek", "DeepSeek-Chat", some "Sorry", none, 0, false⟩]
  fallbackResult := none
  consensusAchieved := true
  totalDurationMs := 20
  cacheHit := false

def agreedJson : String :=
  "\x7b\"majority_output\":" ++ jsonText (swapPrompt "ETH") ++
    ",\"agreement_count\":2,\"total_nodes\":3,\"fallback_activated\":false,\"node_results\":[" ++
    nodeJson "moonshot" "Moonshot-v1 (Kimi)" (jsonText (swapPrompt "ETH")) "null" false ++ "," ++
    nodeJson "deepseek" "DeepSeek-Chat" (jsonText (swapPrompt "ETH")) "null" false ++ "," ++
    nodeJson "deepseek" "DeepSeek-Chat" "\"Sorry\"" "null" false ++
    "],\"fallback_result\":null,\"consensus_achieved\":true,\"total_duration_ms\":20," ++
    "\"cache_hit\":false\x7d"

/-- Two providers propose a swap, the third declines. -/
def agreedEnv : DispatchEnv :=
  ⟨0, splitRound 2 (swapPrompt "ETH") "Sorry", .overloaded, 20, .id⟩

theorem dispatch_agreed :
    cachedOrchestrator.adjudicate (storedDeps agreedResult agreedJson) agreedEnv.round ≠
        some .stasis ∧
      cachedOrchestrator.dispatchConsensusInner (storedDeps agreedResult agreedJson) agreedEnv
        ⟨"Swap now", "acme"⟩ = some agreedResult := by
  have hparser : (storedDeps agreedResult agreedJson).parser = swapDeps.parser := rfl
  have hswap : (storedDeps agreedResult agreedJson).voteKey (swapPrompt "ETH") ≠ "" :=
    voteKey_ne_empty (hparser ▸ fromLlmOutput_swap)
  have hdeclined : (storedDeps agreedResult agreedJson).voteKey "Sorry" = "" := by
    rw [RouterDeps.voteKey, hparser, fromLlmOutput_declined]
  have horch : strictOrchestrator = .withProviders (storedDeps agreedResult agreedJson).lower
      (strategySettings "strict") stubFallback shippedProviders := rfl
  obtain ⟨result, hverdict, hcontent, hwinners⟩ := adjudicate_splitRound horch
    (swapPrompt_ne_empty "ETH") (by decide) hswap hdeclined (by decide) (v := 2) (by decide)
    (by decide) (by decide +kernel)
  have hagreed : cachedOrchestrator.adjudicate (storedDeps agreedResult agreedJson)
      agreedEnv.round = some (.consensus result) := hverdict
  refine ⟨by simp [hagreed], ?_⟩
  rw [TmrOrchestrator.dispatchConsensusInner, hagreed, Option.map_some]
  simp only [TmrOrchestrator.resultOf, TmrOrchestrator.handleConsensusSuccess, hcontent, hwinners]
  rfl

theorem cached_results_agreed_served :
    ∃ p, Reach (Pool.step (cachedOrchestrator.requestStep (storedDeps agreedResult agreedJson)))
        (fallbackSilent cachedOrchestrator)
        (requestStart (storedDeps agreedResult agreedJson) fun _ => ⟨"Swap now", "acme"⟩) p ∧
      (p.task 1).stage = .served { agreedResult with cacheHit := true } 0 ∧
      FromAgreement cachedOrchestrator (storedDeps agreedResult agreedJson) (p.task 0)
        { agreedResult with cacheHit := true } := by
  obtain ⟨hverdict, hdispatch⟩ := dispatch_agreed
  have hcalm : ∀ p a, a.2.calm = true → fallbackSilent cachedOrchestrator p a := by
    intro p a hcalm attempt elapsedMs heq
    rw [heq] at hcalm
    simp [RequestAction.calm] at hcalm
  obtain ⟨p, hrun, hserved⟩ := written_result_served cachedOrchestrator
    (storedDeps agreedResult agreedJson) hcalm rfl rfl (fun hstasis => absurd hstasis hverdict)
    hdispatch (cacheWrite_storedDeps _ rfl rfl) (fromJson_storedDeps _ _)
  refine ⟨p, hrun, hserved, ?_⟩
  have hagreed := cached_results_agreed (storedDeps agreedResult agreedJson)
    (strategySettings "strict") stubFallback shippedProviders false cachedOrchestrator rfl
    (by decide +kernel) ?_ (fun _ => ⟨"Swap now", "acme"⟩) hrun
  · exact hagreed.2 1 _ 0 hserved
  · intro result json hjson
    simp only [storedDeps, Option.ite_none_right_eq_some, Option.some.injEq] at hjson
    simp [storedDeps, hjson.1, hjson.2]

end SereinGateway.Router
