import SereinGateway.Router.Requests

/-!
A request that nobody disturbs.

The machine of interleaved requests takes `dispatch_consensus_inner` apart at
its await points. Put together again without another request in between, its
steps compute `dispatchConsensusInner`: the request that finds its key absent
leads, masks, stores its map, hears from its providers, takes its own map out
of the table and returns the restored result. What is proved about the one
function is thereby a statement about runs of the machine.
-/

namespace SereinGateway.Router

open SereinGateway.Lib SereinGateway.Worker

/-- The step neither drops a request nor asks the fallback node. -/
def RequestAction.calm : RequestAction → Bool
  | .dropFuture | .fallback _ _ => false
  | .cacheGet _ | .proceed | .timeout | .mask | .store | .providers _ _ | .refund | .unmask _
  | .finish | .flushWrite | .loseWrite | .expire => true

section Phases

variable (orch : TmrOrchestrator) (deps : RouterDeps) (i : ℕ)
variable {ok : RouterState × Request → RequestAction → Prop} {s : RouterState} {c : Request}
variable (hok : ∀ x a, a.calm = true → ok x a)

include hok

theorem reach_lead (hstage : c.stage = .cacheGet) (hpc : c.flight.pc = .lookup)
    (hfree : s.singleflight.inflight c.key = none) :
    Reach (Pool.alone (orch.requestStep deps) i) ok (s, c)
      ({ s with singleflight :=
          ⟨Function.update s.singleflight.inflight c.key (some i),
            Function.update s.singleflight.entry i .new⟩ },
        { c with stage := .dedup, flight := { c.flight with pc := .running } }) := by
  rw [Request.key] at hfree
  have hget : Pool.alone (orch.requestStep deps) i (s, c) (.cacheGet false) =
      some (s, { c with stage := .dedup }) := by
    simp [Pool.alone, TmrOrchestrator.requestStep, hstage]
  have hlookup : Pool.alone (orch.requestStep deps) i (s, { c with stage := .dedup }) .proceed =
      some (s, { c with stage := .dedup, flight := { c.flight with pc := .insert } }) := by
    simp [Pool.alone, TmrOrchestrator.requestStep, TmrOrchestrator.flightStep, dedupStep, hpc,
      hfree]
  exact ((Reach.refl.tail (hok _ _ rfl) hget).tail (hok _ _ rfl) hlookup).tail
    (hok _ .proceed rfl) rfl

theorem reach_mask (segments : List Segment) (m : Masking) (hrun : c.dispatching)
    (hpc : c.dispatch = .masking segments m) :
    let masked := segments.foldl (fun acc seg => deps.patterns.maskSegment acc.1 acc.2 seg)
      (s.counter, m)
    Reach (Pool.alone (orch.requestStep deps) i) ok (s, c)
      ({ s with counter := masked.1 }, { c with dispatch := .masking [] masked.2 }) := by
  induction segments generalizing s c m with
  | nil =>
      dsimp only [List.foldl_nil]
      rw [← hpc]
      exact .refl
  | cons seg segments ih =>
      set r := deps.patterns.maskSegment s.counter m seg with hr
      have hstep : Pool.alone (orch.requestStep deps) i (s, c) .mask =
          some ({ s with counter := r.1 }, { c with dispatch := .masking segments r.2 }) := by
        simp [Pool.alone, TmrOrchestrator.requestStep, TmrOrchestrator.dispatchStep, hrun, hpc, hr]
      exact (Reach.refl.tail (hok _ _ rfl) hstep).trans (ih r.2 hrun rfl)

theorem reach_refund (result : TmrConsensusResult) (hrun : c.dispatching) :
    Reach (Pool.alone (orch.requestStep deps) i) ok
      (s, { c with dispatch := orch.afterResult result })
      (s, { c with dispatch := .unmask result }) := by
  have hpc : c.flight.pc = .running := hrun
  rw [TmrOrchestrator.afterResult]
  split
  · refine Reach.refl.tail (hok _ .refund rfl) ?_
    simp [Pool.alone, TmrOrchestrator.requestStep, TmrOrchestrator.dispatchStep,
      Request.dispatching, hpc]
  · exact .refl

theorem reach_answer {round : ProviderRound} {verdict : Verdict} (attempt : FallbackAttempt)
    (elapsedMs : UInt64) (hrun : c.dispatching) (hpc : c.dispatch = .awaitProviders)
    (hverdict : orch.adjudicate deps round = some verdict)
    (hfallback : verdict = .stasis → ∀ x, ok x (.fallback attempt elapsedMs)) :
    Reach (Pool.alone (orch.requestStep deps) i) ok (s, c)
      (s, { c with
        round := some round
        dispatch := .unmask (orch.resultOf c.req.prompt round attempt elapsedMs verdict) }) := by
  have hheard : ({ c with round := some round } : Request).dispatching := hrun
  have hresult := reach_refund orch deps i hok (s := s)
    (orch.resultOf c.req.prompt round attempt elapsedMs verdict) hheard
  -- Either verdict leads to `afterResult` of its result, one await earlier or later.
  refine Reach.trans ?_ hresult
  cases verdict with
  | consensus result =>
      refine Reach.refl.tail (hok _ (.providers round elapsedMs) rfl) ?_
      simp only [Pool.alone, TmrOrchestrator.requestStep, TmrOrchestrator.dispatchStep, hrun, hpc,
        hverdict, if_true, Option.map_some, TmrOrchestrator.resultOf]
  | stasis =>
      have hproviders : Pool.alone (orch.requestStep deps) i (s, c) (.providers round elapsedMs) =
          some (s, { c with round := some round, dispatch := .awaitFallback round }) := by
        simp only [Pool.alone, TmrOrchestrator.requestStep, TmrOrchestrator.dispatchStep, hrun,
          hpc, hverdict, if_true, Option.map_some]
      refine (Reach.refl.tail (hok _ _ rfl) hproviders).tail (hfallback rfl _) ?_
      have hwait : ({ c with round := some round, dispatch := .awaitFallback round } :
        Request).dispatching := hrun
      simp only [Pool.alone, TmrOrchestrator.requestStep, TmrOrchestrator.dispatchStep, hwait,
        if_true, TmrOrchestrator.resultOf]

/-- The dispatch up to the moment its map is taken out of the table. -/
theorem reach_unmask {env : DispatchEnv} {verdict : Verdict} (hrun : c.dispatching)
    (hpc : c.dispatch = .masking (deps.patterns.segments c.req.prompt) .start)
    (hcounter : env.counter = s.counter)
    (hverdict : orch.adjudicate deps env.round = some verdict)
    (hfallback : verdict = .stasis → ∀ x, ok x (.fallback env.attempt env.elapsedMs)) :
    let masked := deps.patterns.mask env.counter c.req.prompt
    Reach (Pool.alone (orch.requestStep deps) i) ok (s, c)
      ({ s with
          counter := masked.1
          maskingMaps := Function.update s.maskingMaps c.key (some masked.2.map) },
        { c with
          ownMap := some masked.2.map
          round := some env.round
          dispatch := .unmask
            (orch.resultOf c.req.prompt env.round env.attempt env.elapsedMs verdict) }) := by
  intro masked
  have hmask := reach_mask orch deps i hok (s := s) _ _ hrun hpc
  rw [← hcounter] at hmask
  change Reach _ _ _ ({ s with counter := masked.1 }, { c with dispatch := .masking [] masked.2 })
    at hmask
  have hmasked : ({ c with dispatch := .masking [] masked.2 } : Request).dispatching := hrun
  have hstore : Pool.alone (orch.requestStep deps) i
      ({ s with counter := masked.1 }, { c with dispatch := .masking [] masked.2 }) .store =
      some ({ s with
          counter := masked.1
          maskingMaps := Function.update s.maskingMaps c.key (some masked.2.map) },
        { c with ownMap := some masked.2.map, dispatch := .awaitProviders }) := by
    simp only [Pool.alone, TmrOrchestrator.requestStep, TmrOrchestrator.dispatchStep, hmasked,
      if_true]
    rfl
  have hstored : ({ c with ownMap := some masked.2.map, dispatch := .awaitProviders } :
    Request).dispatching := hrun
  exact (hmask.tail (hok _ _ rfl) hstore).trans
    (reach_answer orch deps i hok env.attempt env.elapsedMs hstored rfl hverdict hfallback)

omit hok in
theorem step_unmask (iter : Shuffle (Σ _ : String, String)) {result : TmrConsensusResult}
    (hrun : c.dispatching) (hpc : c.dispatch = .unmask result) :
    Pool.alone (orch.requestStep deps) i (s, c) (.unmask iter) =
      some ({ s with maskingMaps := Function.update s.maskingMaps c.key none },
        { c with
          dispatch := .restored (s.maskingMaps c.key)
            (TmrOrchestrator.restoreOutput iter (s.maskingMaps c.key) result) }) := by
  simp only [Pool.alone, TmrOrchestrator.requestStep, TmrOrchestrator.dispatchStep, hrun, hpc,
    if_true]

theorem reach_restored {env : DispatchEnv} {res : TmrConsensusResult} (hrun : c.dispatching)
    (hpc : c.dispatch = .masking (deps.patterns.segments c.req.prompt) .start)
    (hcounter : env.counter = s.counter)
    (hfallback : orch.adjudicate deps env.round = some .stasis →
      ∀ x, ok x (.fallback env.attempt env.elapsedMs))
    (h : orch.dispatchConsensusInner deps env c.req = some res) :
    let masked := deps.patterns.mask env.counter c.req.prompt
    Reach (Pool.alone (orch.requestStep deps) i) ok (s, c)
      ({ s with
          counter := masked.1
          maskingMaps := Function.update s.maskingMaps c.key none },
        { c with
          ownMap := some masked.2.map
          round := some env.round
          dispatch := .restored (some masked.2.map) res }) := by
  intro masked
  obtain ⟨verdict, hverdict, rfl⟩ := Option.map_eq_some_iff.mp h
  have hunmask := reach_unmask orch deps i hok (s := s) hrun hpc hcounter hverdict
    (fun hstasis => hfallback (hstasis ▸ hverdict))
  refine hunmask.tail (hok _ (.unmask env.restoreOrder) rfl)
    (Eq.trans (step_unmask orch deps i env.restoreOrder ?_ rfl) ?_)
  · exact hrun
  · simp only [Request.key, Function.update_self, Function.update_idem]
    rfl

omit hok in
theorem step_flight {sf : CacheSingleFlight TmrConsensusResult}
    {f : DedupCall TmrConsensusResult} (hstage : c.stage = .dedup)
    (hflight : dedupStep i s.singleflight c.flight .proceed = some (sf, f)) :
    Pool.alone (orch.requestStep deps) i (s, c) .proceed =
      some ({ s with singleflight := sf }, { c with flight := f }) := by
  simp only [Pool.alone, TmrOrchestrator.requestStep, hstage, if_true, TmrOrchestrator.flightStep,
    hflight, Option.map_some]

theorem reach_return {x : RouterState × Request} {removed : Option MaskingMap}
    {res : TmrConsensusResult}
    (hreach : Reach (Pool.alone (orch.requestStep deps) i) ok x (s, c))
    (hstage : c.stage = .dedup) (hrun : c.dispatching) (hpc : c.dispatch = .restored removed res) :
    ∃ sf, Reach (Pool.alone (orch.requestStep deps) i) ok x
      ({ s with singleflight := sf },
        { c with
          flight := { c.flight with pc := .leaderReturned res }
          pendingWrite := orch.cacheWrite deps res }) := by
  have hpc' : c.flight.pc = .running := hrun
  have hfinish : Pool.alone (orch.requestStep deps) i (s, c) .finish =
      some (s, { c with
        flight := { c.flight with pc := .publish res }
        pendingWrite := orch.cacheWrite deps res }) := by
    simp [Pool.alone, TmrOrchestrator.requestStep, TmrOrchestrator.flightStep, dedupStep,
      Request.dispatching, hpc', hpc]
  have hpublish := (hreach.tail (hok _ _ rfl) hfinish).tail (hok _ .proceed rfl)
    (step_flight orch deps i hstage rfl)
  exact ⟨_, hpublish.tail (hok _ .proceed rfl) (step_flight orch deps i hstage rfl)⟩

end Phases

/-- A request that finds its key absent and is not disturbed returns what
`dispatchConsensusInner` computes; it leaves no map in the table under its
key, and what it hands to the cache is that result. -/
theorem undisturbed_request (orch : TmrOrchestrator) (deps : RouterDeps) (i : ℕ)
    (ok : RouterState × Request → RequestAction → Prop) (hok : ∀ x a, a.calm = true → ok x a)
    {s : RouterState} {req : ProviderRequest} {env : DispatchEnv} {res : TmrConsensusResult}
    (hfree : s.singleflight.inflight (deps.computeRequestCanonicalKey req.tenantId req.prompt) =
      none)
    (hcounter : env.counter = s.counter)
    (hfallback : orch.adjudicate deps env.round = some .stasis →
      ∀ x, ok x (.fallback env.attempt env.elapsedMs))
    (h : orch.dispatchConsensusInner deps env req = some res) :
    ∃ s' c', Reach (Pool.alone (orch.requestStep deps) i) ok (s, .new deps req) (s', c') ∧
      c'.flight = ⟨deps.computeRequestCanonicalKey req.tenantId req.prompt, .leaderReturned res⟩ ∧
      c'.round = some env.round ∧ c'.pendingWrite = orch.cacheWrite deps res ∧
      s'.maskingMaps = Function.update s.maskingMaps
        (deps.computeRequestCanonicalKey req.tenantId req.prompt) none ∧
      s'.cache = s.cache := by
  have hlead := reach_lead orch deps i hok (s := s) (c := .new deps req) rfl rfl hfree
  have hdispatch := hlead.trans (reach_restored orch deps i hok rfl rfl hcounter hfallback h)
  obtain ⟨sf, hreturn⟩ := reach_return orch deps i hok hdispatch rfl rfl rfl
  exact ⟨_, _, hreturn, rfl, rfl, rfl, rfl, rfl⟩

end SereinGateway.Router
