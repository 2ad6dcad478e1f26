import Mathlib
import SereinGateway.Lib.Census
import SereinGateway.TrafficControl.CircuitBreaker
import SereinGateway.Router.Orchestrator

/-!
Dispatches that share the circuit breaker of a provider, and may be dropped.

The future of a dispatch for one provider asks `allow_request`, awaits the
provider, and records the outcome. The only point at which it gives control
back is the wait for the provider; there it may be dropped, because the
handler times out or the client goes away, and a future may also be dropped
before its first poll or after it has returned. It holds no `ProbeGuard`.

The calls of the breaker go through the atomic steps of `breakerStep`. Two
counters are added to the shared memory that are not in the program: how
often `allow_request` returned `Ok`, and how many outcomes were recorded. The
difference is the number of invocations in progress and of those that were
dropped: `Books`.
-/

namespace SereinGateway.Router

open SereinGateway.Lib
open SereinGateway.TrafficControl

/-- The future of a dispatch for one provider: its calls of the breaker, what
the provider did, and whether the future was dropped. -/
structure ProviderFuture where
  task : BreakerTask
  outcome : Option ProviderOutcome
  dropped : Bool

/-- The breaker, and the two counters. -/
structure DispatchMemory where
  breaker : BreakerMemory
  allowed : ℕ
  recorded : ℕ

inductive FutureAction where
  | poll
  | answer (outcome : ProviderOutcome)
  | proceed
  | drop
  | tick (elapsed : ℕ)
  deriving DecidableEq, Repr

/-- What the future records when the provider is done with it: a success for
an answer, and a failure for an error and for a timeout. -/
def recordOf : ProviderOutcome → Option BreakerAction
  | .breakerOpen => none
  | .answered _ _ => some .succeed
  | .failed _ _ => some .fail
  | .elapsed => some .fail

/-- Where a future can be dropped: before the first poll, in its `await`, and
after its end. -/
def Suspended (c : BreakerTask) : Prop :=
  c.pc = .idle ∨ c.pc = .inFlight ∨ c.pc = .rejected ∨ c.pc = .resolved

instance (c : BreakerTask) : Decidable (Suspended c) :=
  inferInstanceAs (Decidable (_ ∨ _))

def futureStep (config : CircuitBreakerConfig) (i : ℕ) (m : DispatchMemory) (f : ProviderFuture) :
    FutureAction → Option (DispatchMemory × ProviderFuture)
  | .poll =>
      if f.dropped then none
      else (breakerStep config i m.breaker f.task .allow).map fun r =>
        ({ m with breaker := r.1 }, { f with task := r.2 })
  | .answer outcome =>
      if f.dropped ∨ f.task.pc ≠ .inFlight then none
      else (recordOf outcome).bind fun call =>
        (breakerStep config i m.breaker f.task call).map fun r =>
          ({ m with breaker := r.1, recorded := m.recorded + 1 },
            { f with task := r.2, outcome := some outcome })
  | .proceed =>
      if f.dropped then none
      else (breakerStep config i m.breaker f.task .proceed).map fun r =>
        ({ m with
            breaker := r.1
            allowed := if r.2.pc = .inFlight then m.allowed + 1 else m.allowed },
          { f with
            task := r.2
            outcome := if r.2.pc = .rejected then some .breakerOpen else f.outcome })
  | .drop =>
      if f.dropped ∨ ¬Suspended f.task then none else some (m, { f with dropped := true })
  | .tick elapsed =>
      some ({ m with breaker := { m.breaker with now := m.breaker.now + elapsed } }, f)

/-- No dispatch made yet. -/
def dispatchStart : Pool DispatchMemory ProviderFuture :=
  ⟨⟨.start, 0, 0⟩, fun _ => ⟨.start, none, false⟩⟩

/-- The provider is being invoked. -/
def ProviderFuture.InProgress (f : ProviderFuture) : Prop :=
  f.dropped = false ∧ f.task.pc = .inFlight

/-- The future was dropped while the provider was being invoked. -/
def ProviderFuture.Cancelled (f : ProviderFuture) : Prop :=
  f.dropped = true ∧ f.task.pc = .inFlight

/-- The step does not drop a future in its `await`. -/
def NotCancelled (p : Pool DispatchMemory ProviderFuture) (e : ℕ × FutureAction) : Prop :=
  e.2 = .drop → (p.task e.1).task.pc ≠ .inFlight

instance (p : Pool DispatchMemory ProviderFuture) (e : ℕ × FutureAction) :
    Decidable (NotCancelled p e) :=
  inferInstanceAs (Decidable (_ → _))

/-- Every admission is accounted for by an outcome, by an invocation that is
in progress, or by one that was dropped. -/
def Books (p : Pool DispatchMemory ProviderFuture) (cancelled : ℕ) : Prop :=
  Census (fun i => (p.task i).Cancelled) cancelled ∧
    ∃ inProgress, Census (fun i => (p.task i).InProgress) inProgress ∧
      p.shared.allowed = p.shared.recorded + inProgress + cancelled

section Steps

variable {config : CircuitBreakerConfig} {p q : Pool DispatchMemory ProviderFuture} {i k : ℕ}
  {m : DispatchMemory} {f : ProviderFuture}

/-- A step that neither admits nor ends an invocation. -/
theorem Books.stay (h : Books p k) (hallowed : m.allowed = p.shared.allowed)
    (hrecorded : m.recorded = p.shared.recorded) (hdropped : f.dropped = (p.task i).dropped)
    (hpc : f.task.pc = .inFlight ↔ (p.task i).task.pc = .inFlight) :
    Books ⟨m, Function.update p.task i f⟩ k := by
  obtain ⟨hcancelled, n, hprogress, hsum⟩ := h
  refine ⟨?_, n, ?_, ?_⟩
  · refine Census.update_stay (P := ProviderFuture.Cancelled) hcancelled ?_
    rw [ProviderFuture.Cancelled, ProviderFuture.Cancelled, hdropped, hpc]
  · refine Census.update_stay (P := ProviderFuture.InProgress) hprogress ?_
    rw [ProviderFuture.InProgress, ProviderFuture.InProgress, hdropped, hpc]
  · show m.allowed = m.recorded + n + k
    rw [hallowed, hrecorded, hsum]

/-- `allow_request` returns `Ok`. -/
theorem Books.allow (h : Books p k) (hallowed : m.allowed = p.shared.allowed + 1)
    (hrecorded : m.recorded = p.shared.recorded) (hold : (p.task i).task.pc ≠ .inFlight)
    (hdropped : f.dropped = false) (hpc : f.task.pc = .inFlight) :
    Books ⟨m, Function.update p.task i f⟩ k := by
  obtain ⟨hcancelled, n, hprogress, hsum⟩ := h
  refine ⟨?_, n + 1, ?_, ?_⟩
  · refine Census.update_stay (P := ProviderFuture.Cancelled) hcancelled ?_
    simp [ProviderFuture.Cancelled, hdropped, hold]
  · refine Census.update_enter (P := ProviderFuture.InProgress) hprogress ?_ ⟨hdropped, hpc⟩
    exact fun hin => hold hin.2
  · show m.allowed = m.recorded + (n + 1) + k
    omega

theorem Books.record (h : Books p k) (hallowed : m.allowed = p.shared.allowed)
    (hrecorded : m.recorded = p.shared.recorded + 1) (hold : (p.task i).InProgress)
    (hpc : f.task.pc ≠ .inFlight) : Books ⟨m, Function.update p.task i f⟩ k := by
  obtain ⟨hcancelled, n, hprogress, hsum⟩ := h
  obtain ⟨n', rfl, hprogress'⟩ := Census.update_leave (P := ProviderFuture.InProgress) (c := f)
    hprogress hold fun hin => hpc hin.2
  refine ⟨?_, n', hprogress', ?_⟩
  · refine Census.update_stay (P := ProviderFuture.Cancelled) hcancelled ?_
    simp [ProviderFuture.Cancelled, hpc, hold.1]
  · show m.allowed = m.recorded + n' + k
    omega

theorem Books.cancel (h : Books p k) (hold : (p.task i).InProgress) :
    Books ⟨p.shared, Function.update p.task i { p.task i with dropped := true }⟩ (k + 1) := by
  obtain ⟨hcancelled, n, hprogress, hsum⟩ := h
  obtain ⟨n', rfl, hprogress'⟩ := Census.update_leave (P := ProviderFuture.InProgress)
    (c := { p.task i with dropped := true }) hprogress hold (by simp [ProviderFuture.InProgress])
  refine ⟨?_, n', hprogress', ?_⟩
  · refine Census.update_enter (P := ProviderFuture.Cancelled) hcancelled ?_ ⟨rfl, hold.2⟩
    simp [ProviderFuture.Cancelled, hold.1]
  · show p.shared.allowed = p.shared.recorded + n' + (k + 1)
    omega

theorem Books.discard (h : Books p k) (hold : (p.task i).task.pc ≠ .inFlight) :
    Books ⟨p.shared, Function.update p.task i { p.task i with dropped := true }⟩ k := by
  obtain ⟨hcancelled, n, hprogress, hsum⟩ := h
  refine ⟨?_, n, ?_, hsum⟩
  · refine Census.update_stay (P := ProviderFuture.Cancelled) hcancelled ?_
    simp [ProviderFuture.Cancelled, hold]
  · refine Census.update_stay (P := ProviderFuture.InProgress) hprogress ?_
    simp [ProviderFuture.InProgress, hold]

theorem Books.step {e : ℕ × FutureAction} (h : Books p k)
    (hstep : p.step (futureStep config) e = some q) :
    (NotCancelled p e ∧ Books q k) ∨ (¬NotCancelled p e ∧ Books q (k + 1)) := by
  obtain ⟨m, f, hact, rfl⟩ := Pool.step_eq_some.mp hstep
  obtain ⟨i, action⟩ := e
  cases action with
  | poll =>
      rw [futureStep, Option.ite_none_left_eq_some] at hact
      obtain ⟨-, hcall⟩ := hact
      obtain ⟨⟨b, c⟩, hbreaker, heq⟩ := Option.map_eq_some_iff.mp hcall
      obtain ⟨rfl, rfl⟩ := Prod.mk.inj heq
      rw [breakerStep, Option.ite_none_right_eq_some] at hbreaker
      obtain ⟨hidle, hnext⟩ := hbreaker
      obtain ⟨rfl, rfl⟩ := Prod.mk.inj (Option.some.inj hnext)
      exact .inl ⟨by simp [NotCancelled], h.stay rfl rfl rfl (by simp [hidle])⟩
  | answer outcome =>
      rw [futureStep, Option.ite_none_left_eq_some, not_or, not_not] at hact
      obtain ⟨⟨hdropped, hpc⟩, hcall⟩ := hact
      obtain ⟨call, hrecord, hcall⟩ := Option.bind_eq_some_iff.mp hcall
      obtain ⟨⟨b, c⟩, hbreaker, heq⟩ := Option.map_eq_some_iff.mp hcall
      obtain ⟨rfl, rfl⟩ := Prod.mk.inj heq
      have hmoved : c.pc ≠ .inFlight := by
        cases outcome <;> simp only [recordOf, reduceCtorEq, Option.some.injEq] at hrecord <;>
          subst hrecord <;>
          simp only [breakerStep, hpc, or_true, if_true, Option.some.injEq,
            Prod.mk.injEq] at hbreaker <;>
          simp [← hbreaker.2]
      refine .inl ⟨by simp [NotCancelled], h.record rfl rfl ⟨?_, hpc⟩ hmoved⟩
      simpa using hdropped
  | proceed =>
      rw [futureStep, Option.ite_none_left_eq_some] at hact
      obtain ⟨hdropped, hcall⟩ := hact
      obtain ⟨⟨b, c⟩, hbreaker, heq⟩ := Option.map_eq_some_iff.mp hcall
      obtain ⟨rfl, rfl⟩ := Prod.mk.inj heq
      have hold : (p.task i).task.pc ≠ .inFlight := by
        intro hpc
        simp [breakerStep, BreakerTask.proceed, hpc] at hbreaker
      refine .inl ⟨by simp [NotCancelled], ?_⟩
      by_cases hpc : c.pc = .inFlight
      · exact h.allow (by simp [hpc]) rfl hold (by simpa using hdropped) hpc
      · exact h.stay (by simp [hpc]) rfl rfl (iff_of_false hpc hold)
  | drop =>
      rw [futureStep, Option.ite_none_left_eq_some, not_or] at hact
      obtain ⟨⟨hdropped, -⟩, hnext⟩ := hact
      obtain ⟨rfl, rfl⟩ := Prod.mk.inj (Option.some.inj hnext)
      by_cases hpc : (p.task i).task.pc = .inFlight
      · refine .inr ⟨by simp [NotCancelled, hpc], h.cancel ⟨?_, hpc⟩⟩
        simpa using hdropped
      · exact .inl ⟨fun _ => hpc, h.discard hpc⟩
  | tick elapsed =>
      obtain ⟨rfl, rfl⟩ := Prod.mk.inj (Option.some.inj hact)
      exact .inl ⟨by simp [NotCancelled], h.stay rfl rfl rfl Iff.rfl⟩

theorem books_dispatchStart : Books dispatchStart 0 := by
  refine ⟨Census.zero fun i => ?_, 0, Census.zero fun i => ?_, rfl⟩
  · simp [dispatchStart, ProviderFuture.Cancelled]
  · simp [dispatchStart, ProviderFuture.InProgress, BreakerTask.start]

theorem books_of_reach
    (h : Reach (Pool.step (futureStep config)) anyStep dispatchStart p) : ∃ k, Books p k := by
  refine h.invariant (I := fun p => ∃ k, Books p k) ⟨0, books_dispatchStart⟩ ?_
  rintro q e r ⟨k, hbooks⟩ _ hstep
  obtain ⟨-, hnext⟩ | ⟨-, hnext⟩ := hbooks.step hstep
  · exact ⟨k, hnext⟩
  · exact ⟨k + 1, hnext⟩

end Steps

/-- The number of `Ok` results of `allow_request` is the number of outcomes
recorded and of invocations in progress. -/
def Accounted (p : Pool DispatchMemory ProviderFuture) : Prop :=
  ∃ inProgress, Census (fun i => (p.task i).InProgress) inProgress ∧
    p.shared.allowed = p.shared.recorded + inProgress

/-- In runs in which no future is dropped in its `await` all admissions are
accounted for, whatever else is dropped. -/
theorem dispatches_accounted (config : CircuitBreakerConfig)
    (p : Pool DispatchMemory ProviderFuture)
    (hreach : Reach (Pool.step (futureStep config)) NotCancelled dispatchStart p) :
    Accounted p := by
  have hbooks : Books p 0 := by
    refine hreach.invariant (I := fun p => Books p 0) books_dispatchStart ?_
    intro q e r hq hok hstep
    obtain ⟨-, hnext⟩ | ⟨hcancelled, -⟩ := hq.step hstep
    · exact hnext
    · exact absurd hok hcancelled
  obtain ⟨-, n, hprogress, hsum⟩ := hbooks
  exact ⟨n, hprogress, hsum⟩

/-- A state of any run is accounted for exactly when it has no future that was
dropped in its `await`. -/
theorem accounted_iff_not_cancelled (config : CircuitBreakerConfig)
    {p : Pool DispatchMemory ProviderFuture}
    (hreach : Reach (Pool.step (futureStep config)) anyStep dispatchStart p) :
    Accounted p ↔ ∀ i, ¬(p.task i).Cancelled := by
  obtain ⟨k, hcancelled, n, hprogress, hsum⟩ := books_of_reach hreach
  constructor
  · rintro ⟨n', hprogress', hsum'⟩
    obtain rfl := hprogress.unique hprogress'
    obtain rfl : k = 0 := by omega
    intro i hi
    have hle := hcancelled.card_le (S := {i}) (by simpa using hi)
    simp at hle
  · intro hnone
    obtain rfl := hcancelled.unique (Census.zero hnone)
    exact ⟨n, hprogress, hsum⟩

/-- A dispatch that is answered and dropped afterwards, one whose provider times out, one
that is dropped before it begins, and one that is in progress. -/
def fourDispatches : List (ℕ × FutureAction) :=
  [(0, .poll), (1, .poll), (0, .proceed), (1, .proceed), (2, .drop),
    (0, .answer (.answered "Yes" 12)), (1, .answer .elapsed), (0, .proceed), (1, .proceed),
    (0, .proceed), (1, .proceed), (0, .proceed), (1, .proceed), (0, .drop), (3, .poll),
    (3, .proceed)]

theorem dispatches_accounted_four :
    ∃ p, Reach (Pool.step (futureStep .default)) NotCancelled dispatchStart p ∧
      p.shared.allowed = 3 ∧ p.shared.recorded = 2 ∧ (p.task 0).dropped = true ∧ Accounted p := by
  have hrun : (exec (guarded (Pool.step (futureStep .default)) NotCancelled) dispatchStart
      fourDispatches).map (fun p => decide (p.shared.allowed = 3 ∧ p.shared.recorded = 2 ∧
        (p.task 0).dropped = true)) = some true := by
    decide +kernel
  obtain ⟨p, hexec, hdecide⟩ := Option.map_eq_some_iff.mp hrun
  obtain ⟨hallowed, hrecorded, hdropped⟩ := of_decide_eq_true hdecide
  have hreach := Reach.of_exec_guarded _ hexec
  exact ⟨p, hreach, hallowed, hrecorded, hdropped, dispatches_accounted _ p hreach⟩

/-- A dispatch that is dropped while the provider is invoked is never
recorded. -/
theorem dropped_dispatch_not_accounted :
    ¬∀ (config : CircuitBreakerConfig) (p : Pool DispatchMemory ProviderFuture),
      Reach (Pool.step (futureStep config)) anyStep dispatchStart p → Accounted p := by
  intro hall
  have hrun : (exec (Pool.step (futureStep .default)) dispatchStart
      [(0, .poll), (0, .proceed), (0, .drop)]).map
      (fun p => decide ((p.task 0).dropped = true ∧ (p.task 0).task.pc = .inFlight)) =
        some true := by
    decide +kernel
  obtain ⟨p, hexec, hdecide⟩ := Option.map_eq_some_iff.mp hrun
  obtain ⟨hdropped, hpc⟩ := of_decide_eq_true hdecide
  have hreach := Reach.of_exec _ hexec
  exact (accounted_iff_not_cancelled _ hreach).mp (hall _ p hreach) 0 ⟨hdropped, hpc⟩

end SereinGateway.Router
