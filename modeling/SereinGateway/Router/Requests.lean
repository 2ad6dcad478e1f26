import SereinGateway.Router.SingleFlight

/-!
`execute_consensus_providers` as a machine of interleaved requests.

A request asks the cache, enters `dedup`, and if it becomes a leader runs the
phases of its dispatch: it masks the prompt, stores the masking map in the
shared table under its request key, awaits the providers, perhaps the
fallback node and the refund, takes the map out of the table and restores the
output. Each access to shared state is one step, each await point a place
where the future may be dropped, and the cache write that a dispatch spawns
is carried out, or lost, at any later time.

Two things are recorded that the program forgets: `ownMap`, the map that the
request's own `mask` call produced, and with every text in the cache the
request that wrote it.
-/

namespace SereinGateway.Router

open SereinGateway.Lib SereinGateway.Worker

/-- A text in the cache and the request that wrote it. -/
structure CacheEntry where
  json : String
  writer : ℕ
  deriving DecidableEq, Repr

/-- State shared by all requests to one orchestrator. -/
structure RouterState where
  singleflight : CacheSingleFlight TmrConsensusResult
  maskingMaps : String → Option MaskingMap
  counter : UInt64
  cache : String → Option CacheEntry

/-- Where a dispatch stands. -/
inductive DispatchPc where
  | masking (segments : List Segment) (masking : Masking)
  | awaitProviders
  | awaitFallback (round : ProviderRound)
  | awaitRefund (result : TmrConsensusResult)
  | unmask (result : TmrConsensusResult)
  | restored (removed : Option MaskingMap) (result : TmrConsensusResult)

/-- Where a request stands outside of `dedup`. -/
inductive RequestStage where
  | cacheGet
  | dedup
  | served (result : TmrConsensusResult) (writer : ℕ)
  | dropped
  deriving DecidableEq, Repr

structure Request where
  req : ProviderRequest
  stage : RequestStage
  flight : DedupCall TmrConsensusResult
  dispatch : DispatchPc
  ownMap : Option MaskingMap
  round : Option ProviderRound
  pendingWrite : Option String

def Request.key (c : Request) : String := c.flight.key

/-- The closure of the request is running: its dispatch is in progress. -/
def Request.dispatching (c : Request) : Prop := c.flight.pc = .running

instance (c : Request) : Decidable c.dispatching := inferInstanceAs (Decidable (_ = _))

def DispatchPc.awaits : DispatchPc → Bool
  | .awaitProviders | .awaitFallback _ | .awaitRefund _ => true
  | .masking _ _ | .unmask _ | .restored _ _ => false

inductive RequestAction where
  | cacheGet (hit : Bool)
  | proceed
  | timeout
  | mask
  | store
  | providers (round : ProviderRound) (elapsedMs : UInt64)
  | fallback (attempt : FallbackAttempt) (elapsedMs : UInt64)
  | refund
  | unmask (iter : Shuffle (Σ _ : String, String))
  | finish
  | dropFuture
  | flushWrite
  | loseWrite
  | expire

namespace TmrOrchestrator

variable (orch : TmrOrchestrator) (deps : RouterDeps)

/-- The phase after a result is known: a failed one is refunded first. -/
def afterResult (result : TmrConsensusResult) : DispatchPc :=
  if !result.consensusAchieved && orch.hasFinops then .awaitRefund result else .unmask result

/-- A step of `dedup` in the request `i`. -/
def flightStep (i : ℕ) (s : RouterState) (c : Request) (a : DedupAction TmrConsensusResult) :
    Option (RouterState × Request) :=
  (dedupStep i s.singleflight c.flight a).map fun r =>
    ({ s with singleflight := r.1 }, { c with flight := r.2 })

def dispatchStep (s : RouterState) (c : Request) : RequestAction → Option (RouterState × Request)
  | .mask =>
      match c.dispatch with
      | .masking (seg :: segments) m =>
          let r := deps.patterns.maskSegment s.counter m seg
          some ({ s with counter := r.1 }, { c with dispatch := .masking segments r.2 })
      | _ => none
  | .store =>
      match c.dispatch with
      | .masking [] m =>
          -- The insertion overwrites what another request stored under the key.
          some ({ s with maskingMaps := Function.update s.maskingMaps c.key (some m.map) },
            { c with ownMap := some m.map, dispatch := .awaitProviders })
      | _ => none
  | .providers round elapsedMs =>
      match c.dispatch with
      | .awaitProviders =>
          (orch.adjudicate deps round).map fun
            | .consensus result =>
                (s, { c with
                  round := some round
                  dispatch := orch.afterResult (orch.handleConsensusSuccess result
                    (orch.nodeResults round) elapsedMs) })
            | .stasis => (s, { c with round := some round, dispatch := .awaitFallback round })
      | _ => none
  | .fallback attempt elapsedMs =>
      match c.dispatch with
      | .awaitFallback round =>
          some (s, { c with
            dispatch := orch.afterResult (orch.handleConsensusFailureStasis
              (orch.fallbackNode.invoke c.req.prompt attempt) (orch.nodeResults round) elapsedMs) })
      | _ => none
  | .refund =>
      match c.dispatch with
      | .awaitRefund result => some (s, { c with dispatch := .unmask result })
      | _ => none
  | .unmask iter =>
      match c.dispatch with
      | .unmask result =>
          -- What is under the key goes, whoever stored it.
          let removed := s.maskingMaps c.key
          some ({ s with maskingMaps := Function.update s.maskingMaps c.key none },
            { c with dispatch := .restored removed (restoreOutput iter removed result) })
      | _ => none
  | _ => none

/-- One atomic step of the request `i`. -/
def requestStep (i : ℕ) (s : RouterState) (c : Request) :
    RequestAction → Option (RouterState × Request)
  | .cacheGet hit =>
      if c.stage = .cacheGet then
        if orch.hasCache && hit then
          (s.cache c.key).map fun entry =>
            match deps.fromJson entry.json with
            | some result =>
                (s, { c with stage := .served { result with cacheHit := true } entry.writer })
            -- A cached text that does not parse is a miss.
            | none => (s, { c with stage := .dedup })
        else some (s, { c with stage := .dedup })
      else none
  | .proceed => if c.stage = .dedup then flightStep i s c .proceed else none
  | .timeout => if c.stage = .dedup then flightStep i s c .timeout else none
  | .finish =>
      if c.dispatching then
        match c.dispatch with
        | .restored _ result =>
            flightStep i s { c with pendingWrite := orch.cacheWrite deps result }
              (.complete result)
        | _ => none
      else none
  | .dropFuture =>
      match c.stage with
      | .cacheGet => some (s, { c with stage := .dropped })
      | .dedup =>
          -- A future is dropped only where it awaits.
          if c.dispatching ∧ c.dispatch.awaits = false then none
          else flightStep i s c .dropFuture
      | .served _ _ | .dropped => none
  | .flushWrite =>
      c.pendingWrite.map fun json =>
        ({ s with cache := Function.update s.cache c.key (some ⟨json, i⟩) },
          { c with pendingWrite := none })
  | .loseWrite => c.pendingWrite.map fun _ => (s, { c with pendingWrite := none })
  | .expire => some ({ s with cache := Function.update s.cache c.key none }, c)
  | a => if c.dispatching then orch.dispatchStep deps s c a else none

end TmrOrchestrator

/-- A request before its first step. -/
def Request.new (deps : RouterDeps) (req : ProviderRequest) : Request where
  req := req
  stage := .cacheGet
  flight := ⟨deps.computeRequestCanonicalKey req.tenantId req.prompt, .lookup⟩
  dispatch := .masking (deps.patterns.segments req.prompt) .start
  ownMap := none
  round := none
  pendingWrite := none

def RouterState.new : RouterState := ⟨.new, fun _ => none, 0, fun _ => none⟩

/-- No request has taken a step; the request `i` is `reqs i`. -/
def requestStart (deps : RouterDeps) (reqs : ℕ → ProviderRequest) : Pool RouterState Request :=
  ⟨.new, fun i => .new deps (reqs i)⟩

/-! ### What a step can do -/

/-- The steps of `dedup` that a request takes as they are. -/
def RequestAction.flight : RequestAction → Option (DedupAction TmrConsensusResult)
  | .proceed => some .proceed
  | .timeout => some .timeout
  | .dropFuture => some .dropFuture
  | _ => none

/-- The steps of the request `i`, with the states after each of them. -/
inductive RequestMove (orch : TmrOrchestrator) (deps : RouterDeps) (i : ℕ) (s : RouterState)
    (c : Request) : RequestAction → RouterState → Request → Prop
  | miss {hit : Bool} : c.stage = .cacheGet →
      RequestMove orch deps i s c (.cacheGet hit) s { c with stage := .dedup }
  | served {hit : Bool} {entry : CacheEntry} {result : TmrConsensusResult} :
      c.stage = .cacheGet → s.cache c.key = some entry → deps.fromJson entry.json = some result →
      RequestMove orch deps i s c (.cacheGet hit) s
        { c with stage := .served { result with cacheHit := true } entry.writer }
  | abandon : c.stage = .cacheGet →
      RequestMove orch deps i s c .dropFuture s { c with stage := .dropped }
  | flight {a : RequestAction} {b : DedupAction TmrConsensusResult}
      {sf : CacheSingleFlight TmrConsensusResult} {pc : DedupPc TmrConsensusResult} :
      a.flight = some b → (a = .dropFuture → c.dispatching → c.dispatch.awaits = true) →
      DedupMove i s.singleflight c.flight b sf pc →
      RequestMove orch deps i s c a { s with singleflight := sf }
        { c with flight := { c.flight with pc := pc } }
  | mask {seg : Segment} {segments : List Segment} {m : Masking} : c.dispatching →
      c.dispatch = .masking (seg :: segments) m →
      RequestMove orch deps i s c .mask
        { s with counter := (deps.patterns.maskSegment s.counter m seg).1 }
        { c with dispatch := .masking segments (deps.patterns.maskSegment s.counter m seg).2 }
  | store {m : Masking} : c.dispatching → c.dispatch = .masking [] m →
      RequestMove orch deps i s c .store
        { s with maskingMaps := Function.update s.maskingMaps c.key (some m.map) }
        { c with ownMap := some m.map, dispatch := .awaitProviders }
  | consensus {round : ProviderRound} {elapsedMs : UInt64} {result : Consensus.ConsensusResult} :
      c.dispatching → c.dispatch = .awaitProviders →
      orch.adjudicate deps round = some (.consensus result) →
      RequestMove orch deps i s c (.providers round elapsedMs) s
        { c with
          round := some round
          dispatch := orch.afterResult (orch.handleConsensusSuccess result
            (orch.nodeResults round) elapsedMs) }
  | stasis {round : ProviderRound} {elapsedMs : UInt64} : c.dispatching →
      c.dispatch = .awaitProviders → orch.adjudicate deps round = some .stasis →
      RequestMove orch deps i s c (.providers round elapsedMs) s
        { c with round := some round, dispatch := .awaitFallback round }
  | fallback {round : ProviderRound} {attempt : FallbackAttempt} {elapsedMs : UInt64} :
      c.dispatching → c.dispatch = .awaitFallback round →
      RequestMove orch deps i s c (.fallback attempt elapsedMs) s
        { c with
          dispatch := orch.afterResult (orch.handleConsensusFailureStasis
            (orch.fallbackNode.invoke c.req.prompt attempt) (orch.nodeResults round) elapsedMs) }
  | refund {result : TmrConsensusResult} : c.dispatching → c.dispatch = .awaitRefund result →
      RequestMove orch deps i s c .refund s { c with dispatch := .unmask result }
  | unmask {iter : Shuffle (Σ _ : String, String)} {result : TmrConsensusResult} :
      c.dispatching → c.dispatch = .unmask result →
      RequestMove orch deps i s c (.unmask iter)
        { s with maskingMaps := Function.update s.maskingMaps c.key none }
        { c with
          dispatch := .restored (s.maskingMaps c.key)
            (TmrOrchestrator.restoreOutput iter (s.maskingMaps c.key) result) }
  | finish {removed : Option MaskingMap} {result : TmrConsensusResult} : c.dispatching →
      c.dispatch = .restored removed result →
      RequestMove orch deps i s c .finish s
        { c with
          flight := { c.flight with pc := .publish result }
          pendingWrite := orch.cacheWrite deps result }
  | flush {json : String} : c.pendingWrite = some json →
      RequestMove orch deps i s c .flushWrite
        { s with cache := Function.update s.cache c.key (some ⟨json, i⟩) }
        { c with pendingWrite := none }
  | lose : RequestMove orch deps i s c .loseWrite s { c with pendingWrite := none }
  | expire : RequestMove orch deps i s c .expire
      { s with cache := Function.update s.cache c.key none } c

section Inversion

variable {orch : TmrOrchestrator} {deps : RouterDeps} {i : ℕ} {s s' : RouterState} {c c' : Request}

theorem flightStep_move {b : DedupAction TmrConsensusResult}
    (h : TmrOrchestrator.flightStep i s c b = some (s', c')) :
    ∃ sf pc, DedupMove i s.singleflight c.flight b sf pc ∧ s' = { s with singleflight := sf } ∧
      c' = { c with flight := { c.flight with pc := pc } } := by
  obtain ⟨⟨sf, flight⟩, hstep, heq⟩ := Option.map_eq_some_iff.mp h
  obtain ⟨pc, rfl, hmove⟩ := dedupStep_move hstep
  simp only [Prod.mk.injEq] at heq
  exact ⟨sf, pc, hmove, heq.1.symm, heq.2.symm⟩

theorem flightStep_requestMove {a : RequestAction} {b : DedupAction TmrConsensusResult}
    (hab : a.flight = some b) (hdrop : a = .dropFuture → c.dispatching → c.dispatch.awaits = true)
    (h : TmrOrchestrator.flightStep i s c b = some (s', c')) :
    RequestMove orch deps i s c a s' c' := by
  obtain ⟨sf, pc, hmove, rfl, rfl⟩ := flightStep_move h
  exact .flight hab hdrop hmove

theorem dispatchStep_move {a : RequestAction} (hrun : c.dispatching)
    (h : orch.dispatchStep deps s c a = some (s', c')) : RequestMove orch deps i s c a s' c' := by
  cases a with
  | mask =>
      simp only [TmrOrchestrator.dispatchStep] at h
      split at h
      · rename_i hpc
        simp only [Option.some.injEq, Prod.mk.injEq] at h
        obtain ⟨rfl, rfl⟩ := h
        exact .mask hrun hpc
      · simp at h
  | store =>
      simp only [TmrOrchestrator.dispatchStep] at h
      split at h
      · rename_i hpc
        simp only [Option.some.injEq, Prod.mk.injEq] at h
        obtain ⟨rfl, rfl⟩ := h
        exact .store hrun hpc
      · simp at h
  | providers round elapsedMs =>
      simp only [TmrOrchestrator.dispatchStep] at h
      split at h
      · rename_i hpc
        obtain ⟨verdict, hverdict, heq⟩ := Option.map_eq_some_iff.mp h
        cases verdict with
        | consensus result =>
            simp only [Prod.mk.injEq] at heq
            obtain ⟨rfl, rfl⟩ := heq
            exact .consensus hrun hpc hverdict
        | stasis =>
            simp only [Prod.mk.injEq] at heq
            obtain ⟨rfl, rfl⟩ := heq
            exact .stasis hrun hpc hverdict
      · simp at h
  | fallback attempt elapsedMs =>
      simp only [TmrOrchestrator.dispatchStep] at h
      split at h
      · rename_i hpc
        simp only [Option.some.injEq, Prod.mk.injEq] at h
        obtain ⟨rfl, rfl⟩ := h
        exact .fallback hrun hpc
      · simp at h
  | refund =>
      simp only [TmrOrchestrator.dispatchStep] at h
      split at h
      · rename_i hpc
        simp only [Option.some.injEq, Prod.mk.injEq] at h
        obtain ⟨rfl, rfl⟩ := h
        exact .refund hrun hpc
      · simp at h
  | unmask iter =>
      simp only [TmrOrchestrator.dispatchStep] at h
      split at h
      · rename_i hpc
        simp only [Option.some.injEq, Prod.mk.injEq] at h
        obtain ⟨rfl, rfl⟩ := h
        exact .unmask hrun hpc
      · simp at h
  | cacheGet | proceed | timeout | finish | dropFuture | flushWrite | loseWrite | expire =>
      simp [TmrOrchestrator.dispatchStep] at h

theorem requestStep_move {a : RequestAction} (h : orch.requestStep deps i s c a = some (s', c')) :
    RequestMove orch deps i s c a s' c' := by
  cases a with
  | cacheGet hit =>
      simp only [TmrOrchestrator.requestStep, Option.ite_none_right_eq_some] at h
      obtain ⟨hstage, h⟩ := h
      split at h
      · obtain ⟨entry, hentry, heq⟩ := Option.map_eq_some_iff.mp h
        split at heq
        · rename_i result hresult
          simp only [Prod.mk.injEq] at heq
          obtain ⟨rfl, rfl⟩ := heq
          exact .served hstage hentry hresult
        · simp only [Prod.mk.injEq] at heq
          obtain ⟨rfl, rfl⟩ := heq
          exact .miss hstage
      · simp only [Option.some.injEq, Prod.mk.injEq] at h
        obtain ⟨rfl, rfl⟩ := h
        exact .miss hstage
  | proceed =>
      simp only [TmrOrchestrator.requestStep, Option.ite_none_right_eq_some] at h
      exact flightStep_requestMove rfl (by simp) h.2
  | timeout =>
      simp only [TmrOrchestrator.requestStep, Option.ite_none_right_eq_some] at h
      exact flightStep_requestMove rfl (by simp) h.2
  | finish =>
      simp only [TmrOrchestrator.requestStep, Option.ite_none_right_eq_some] at h
      obtain ⟨hrun, h⟩ := h
      split at h
      · rename_i hpc
        obtain ⟨sf, pc, hmove, rfl, rfl⟩ := flightStep_move h
        cases hmove
        exact .finish hrun hpc
      · simp at h
  | dropFuture =>
      simp only [TmrOrchestrator.requestStep] at h
      split at h
      · rename_i hstage
        simp only [Option.some.injEq, Prod.mk.injEq] at h
        obtain ⟨rfl, rfl⟩ := h
        exact .abandon hstage
      · split at h
        · simp at h
        · rename_i hawait
          exact flightStep_requestMove rfl (fun _ hrun => by simpa [hrun] using hawait) h
      · simp at h
      · simp at h
  | flushWrite =>
      obtain ⟨json, hjson, heq⟩ := Option.map_eq_some_iff.mp h
      simp only [Prod.mk.injEq] at heq
      obtain ⟨rfl, rfl⟩ := heq
      exact .flush hjson
  | loseWrite =>
      obtain ⟨json, hjson, heq⟩ := Option.map_eq_some_iff.mp h
      simp only [Prod.mk.injEq] at heq
      obtain ⟨rfl, rfl⟩ := heq
      exact .lose
  | expire =>
      simp only [TmrOrchestrator.requestStep, Option.some.injEq, Prod.mk.injEq] at h
      obtain ⟨rfl, rfl⟩ := h
      exact .expire
  | mask | store | providers | fallback | refund | unmask =>
      simp only [TmrOrchestrator.requestStep, Option.ite_none_right_eq_some] at h
      exact dispatchStep_move h.1 h.2

end Inversion

/-! ### A dispatch begins once -/

/-- The dispatch has not stored its map yet. -/
def DispatchPc.beforeStore : DispatchPc → Bool
  | .masking _ _ => true
  | .awaitProviders | .awaitFallback _ | .awaitRefund _ | .unmask _ | .restored _ _ => false

def DispatchPc.beforeRound : DispatchPc → Bool
  | .masking _ _ | .awaitProviders => true
  | .awaitFallback _ | .awaitRefund _ | .unmask _ | .restored _ _ => false

/-- A request that does not lead yet has not begun its dispatch, and one that
has not heard from its providers has no round. -/
structure Request.Wf (c : Request) : Prop where
  idle : c.flight.pc = .lookup ∨ c.flight.pc = .insert → c.dispatch.beforeStore = true
  round : c.dispatch.beforeRound = true → c.round = none

theorem DedupMove.ne_lookup {ρ : Type} [Inhabited ρ] {i : ℕ} {sf sf' : CacheSingleFlight ρ}
    {c : DedupCall ρ} {a : DedupAction ρ} {pc : DedupPc ρ} (h : DedupMove i sf c a sf' pc)
    (hpc : pc = .lookup ∨ pc = .insert) : c.pc = .lookup := by
  cases h with
  | absent hlookup => exact hlookup
  | firstCheck _ =>
      exact absurd hpc (checkEntry_of (P := fun pc => ¬(pc = .lookup ∨ pc = .insert)) _ _
        (by simp) (by simp))
  | secondCheck _ =>
      exact absurd hpc (checkEntry_of (P := fun pc => ¬(pc = .lookup ∨ pc = .insert)) _ _
        (by simp) (by simp))
  | @dropGuard result _ => cases result <;> simp at hpc
  | found | register | wake | woken | insert | publish | complete | timeout | dropLeader
  | dropWatcher => simp at hpc

theorem beforeRound_afterResult (orch : TmrOrchestrator) (result : TmrConsensusResult) :
    (orch.afterResult result).beforeRound = false := by
  rw [TmrOrchestrator.afterResult]
  split <;> rfl

theorem Request.Wf.move {orch : TmrOrchestrator} {deps : RouterDeps} {i : ℕ} {s s' : RouterState}
    {c c' : Request} {a : RequestAction} (h : c.Wf) (hmove : RequestMove orch deps i s c a s' c') :
    c'.Wf := by
  have hidle : c.dispatching → ¬(c.flight.pc = .lookup ∨ c.flight.pc = .insert) := by
    intro hrun
    rw [Request.dispatching] at hrun
    simp [hrun]
  cases hmove with
  | miss | served | abandon | flush | lose | expire => exact ⟨h.idle, h.round⟩
  | flight hab hdrop hflight =>
      exact ⟨fun hpc => h.idle (.inl (hflight.ne_lookup hpc)), h.round⟩
  | mask hrun hpc =>
      exact ⟨fun hpc' => absurd hpc' (hidle hrun), fun _ => h.round (by rw [hpc]; rfl)⟩
  | store hrun hpc =>
      exact ⟨fun hpc' => absurd hpc' (hidle hrun), fun _ => h.round (by rw [hpc]; rfl)⟩
  | consensus hrun =>
      exact ⟨fun hpc' => absurd hpc' (hidle hrun), by simp [beforeRound_afterResult]⟩
  | stasis hrun => exact ⟨fun hpc' => absurd hpc' (hidle hrun), by simp [DispatchPc.beforeRound]⟩
  | fallback hrun =>
      exact ⟨fun hpc' => absurd hpc' (hidle hrun), by simp [beforeRound_afterResult]⟩
  | refund hrun => exact ⟨fun hpc' => absurd hpc' (hidle hrun), by simp [DispatchPc.beforeRound]⟩
  | unmask hrun => exact ⟨fun hpc' => absurd hpc' (hidle hrun), by simp [DispatchPc.beforeRound]⟩
  | finish hrun hpc => exact ⟨by simp, h.round⟩

theorem Request.wf_new (deps : RouterDeps) (req : ProviderRequest) : (Request.new deps req).Wf :=
  ⟨fun _ => rfl, fun _ => rfl⟩

theorem wf_step {orch : TmrOrchestrator} {deps : RouterDeps} {p q : Pool RouterState Request}
    {a : ℕ × RequestAction} (h : ∀ i, (p.task i).Wf)
    (hstep : p.step (orch.requestStep deps) a = some q) : ∀ i, (q.task i).Wf := by
  obtain ⟨s, c, hact, rfl⟩ := Pool.step_eq_some.mp hstep
  exact Pool.forall_task (Q := fun (_ : RouterState) _ c => Request.Wf c) (s := s) h
    ((h a.1).move (requestStep_move hact)) (fun _ _ hj => hj)

end SereinGateway.Router
