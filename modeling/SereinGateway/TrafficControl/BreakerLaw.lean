import Mathlib
import SereinGateway.Lib.Transition
import SereinGateway.TrafficControl.CircuitBreaker

/-!
The circuit breaker under sequential calls.

The first part says what each call can do. The second reads the three states
off the history of the calls: what the counters mean between two changes of
the state, and hence at which call the circuit opens, is tried again and
closes.
-/

namespace SereinGateway.TrafficControl

open SereinGateway.Lib

/-! ### What a call can do -/

section Calls

variable {config : CircuitBreakerConfig} {nodeId : String} {now : ℕ} {cb cb' : CircuitBreaker}

theorem allowRequest_closed (h : cb.state = .closed) :
    cb.allowRequest config nodeId now = (.ok (), cb) := by
  simp [CircuitBreaker.allowRequest, h]

theorem allowRequest_opened (config : CircuitBreakerConfig) (nodeId : String) (now : ℕ)
    (h : cb.state = .opened) :
    ((cb.allowRequest config nodeId now).1.isOk = true ∧
      (∃ t, cb.status.lastFailureTime = some t ∧ config.openDuration ≤ now - t) ∧
      (cb.allowRequest config nodeId now).2 = cb.transitionTo .halfOpen) ∨
    ((cb.allowRequest config nodeId now).1.isOk = false ∧
      (∀ t, cb.status.lastFailureTime = some t → now - t < config.openDuration) ∧
      (cb.allowRequest config nodeId now).2 = cb) := by
  cases htime : cb.status.lastFailureTime with
  | none => simp [CircuitBreaker.allowRequest, h, htime, Except.isOk, Except.toBool]
  | some t =>
      by_cases hwait : config.openDuration ≤ now - t
      · simp [CircuitBreaker.allowRequest, h, htime, hwait, Except.isOk, Except.toBool]
      · have hearly : now - t < config.openDuration := not_le.mp hwait
        simp [CircuitBreaker.allowRequest, h, htime, hwait, hearly, Except.isOk, Except.toBool]

theorem allowRequest_halfOpen (config : CircuitBreakerConfig) (nodeId : String) (now : ℕ)
    (h : cb.state = .halfOpen) :
    ((cb.allowRequest config nodeId now).1.isOk = true ∧
      cb.probesInFlight.toNat < config.halfOpenMaxAttempts.toNat ∧
      (cb.allowRequest config nodeId now).2 =
        { cb with probesInFlight := cb.probesInFlight + 1 }) ∨
    ((cb.allowRequest config nodeId now).1.isOk = false ∧
      config.halfOpenMaxAttempts.toNat ≤ cb.probesInFlight.toNat ∧
      (cb.allowRequest config nodeId now).2 = cb) := by
  by_cases hfull : config.halfOpenMaxAttempts.toNat ≤ cb.probesInFlight.toNat
  · refine .inr ⟨?_, hfull, ?_⟩
    · simp [CircuitBreaker.allowRequest, h, hfull, Except.isOk, Except.toBool]
    · simp [CircuitBreaker.allowRequest, h, hfull]
  · refine .inl ⟨?_, not_le.mp hfull, ?_⟩
    · simp [CircuitBreaker.allowRequest, h, hfull, Except.isOk, Except.toBool]
    · simp [CircuitBreaker.allowRequest, h, hfull]

theorem recordSuccess_of_ne (h : cb.state ≠ .halfOpen) :
    cb.recordSuccess config =
      { cb with successCount := cb.successCount + 1, failureCount := 0 } := by
  simp only [CircuitBreaker.recordSuccess]
  rw [if_neg]
  exact h

theorem recordSuccess_halfOpen (config : CircuitBreakerConfig) (h : cb.state = .halfOpen) :
    (config.halfOpenMaxAttempts.toNat ≤ (cb.halfOpenSuccesses + 1).toNat ∧
      cb.recordSuccess config = ⟨⟨.closed, cb.status.lastFailureTime⟩, 0, cb.successCount + 1,
        0, 0⟩) ∨
    ((cb.halfOpenSuccesses + 1).toNat < config.halfOpenMaxAttempts.toNat ∧
      cb.recordSuccess config = { cb with
        failureCount := 0
        successCount := cb.successCount + 1
        halfOpenSuccesses := cb.halfOpenSuccesses + 1
        probesInFlight := cb.probesInFlight - 1 }) := by
  have hstate : cb.status.state = .halfOpen := h
  by_cases hlast : config.halfOpenMaxAttempts.toNat ≤ (cb.halfOpenSuccesses + 1).toNat
  · refine .inl ⟨hlast, ?_⟩
    simp [CircuitBreaker.recordSuccess, CircuitBreaker.state, hstate, hlast,
      CircuitBreaker.transitionTo, -UInt64.toNat_add]
  · refine .inr ⟨not_le.mp hlast, ?_⟩
    simp [CircuitBreaker.recordSuccess, CircuitBreaker.state, hstate, hlast, -UInt64.toNat_add]

/-- A failure opens the circuit, by the threshold or because the circuit was
half-open, or leaves the state as it is. -/
theorem recordFailure_cases (h : cb.recordFailure config now = some cb') :
    cb.failureCount.toNat + 1 < 2 ^ 64 ∧ cb'.failureCount = cb.failureCount + 1 ∧
    cb'.status.lastFailureTime = some now ∧
    ((config.failureThreshold.toNat ≤ cb.failureCount.toNat + 1 ∧ cb'.state = .opened ∧
        cb'.halfOpenSuccesses = 0 ∧ cb'.probesInFlight = cb.probesInFlight) ∨
      (cb.failureCount.toNat + 1 < config.failureThreshold.toNat ∧ cb.state = .halfOpen ∧
        cb'.state = .opened ∧ cb'.halfOpenSuccesses = 0 ∧
        cb'.probesInFlight = cb.probesInFlight - 1) ∨
      (cb.failureCount.toNat + 1 < config.failureThreshold.toNat ∧ cb.state ≠ .halfOpen ∧
        cb'.state = cb.state ∧ cb'.halfOpenSuccesses = cb.halfOpenSuccesses ∧
        cb'.probesInFlight = cb.probesInFlight)) := by
  rw [CircuitBreaker.recordFailure] at h
  split at h
  next hroom =>
    rw [Option.some.injEq] at h
    refine ⟨hroom, ?_⟩
    by_cases hmany : config.failureThreshold.toNat ≤ cb.failureCount.toNat + 1
    · subst h
      simp [hmany, CircuitBreaker.reopen, CircuitBreaker.transitionTo, CircuitBreaker.state]
    · have hfew : cb.failureCount.toNat + 1 < config.failureThreshold.toNat := not_le.mp hmany
      by_cases hhalf : cb.status.state = .halfOpen
      · subst h
        simp [hmany, hfew, hhalf, CircuitBreaker.reopen, CircuitBreaker.transitionTo,
          CircuitBreaker.state]
      · subst h
        simp [hmany, hfew, hhalf, CircuitBreaker.reopen, CircuitBreaker.state]
  next => simp at h

theorem state_allowRequest_halfOpen (h : cb.state = .halfOpen) :
    (cb.allowRequest config nodeId now).2.state = .halfOpen := by
  rcases allowRequest_halfOpen config nodeId now h with
    ⟨-, -, hnext⟩ | ⟨-, -, hnext⟩
  · rw [hnext]
    exact h
  · rw [hnext]
    exact h

theorem state_recordFailure_halfOpen (hstate : cb.state = .halfOpen)
    (h : cb.recordFailure config now = some cb') : cb'.state = .opened := by
  obtain ⟨-, -, -, ⟨-, hopened, -, -⟩ | ⟨-, -, hopened, -⟩ | ⟨-, hhalf, -⟩⟩ :=
    recordFailure_cases h
  · exact hopened
  · exact hopened
  · exact absurd hstate hhalf

theorem exists_recordFailure (config : CircuitBreakerConfig) (now : ℕ) (cb : CircuitBreaker)
    (h : cb.failureCount.toNat + 1 < 2 ^ 64) :
    ∃ cb', cb.recordFailure config now = some cb' := by
  rw [CircuitBreaker.recordFailure, if_pos h]
  exact ⟨_, rfl⟩

end Calls

/-! ### The states and the history -/

inductive BreakerCall where
  | allowRequest
  | recordSuccess
  | recordFailure
  deriving DecidableEq, Repr

/-- The breaker after a call at the time `now`. -/
def BreakerCall.run (config : CircuitBreakerConfig) (nodeId : String) (now : ℕ)
    (cb : CircuitBreaker) : BreakerCall → Option CircuitBreaker
  | .allowRequest => some (cb.allowRequest config nodeId now).2
  | .recordSuccess => some (cb.recordSuccess config)
  | .recordFailure => cb.recordFailure config now

/-- The breaker, and what an observer of the calls remembers: the time of the
latest call, the times of the failures and the calls since the state last
changed, the latest first. -/
structure Observed where
  breaker : CircuitBreaker
  now : ℕ
  failures : List ℕ
  phase : List BreakerCall
  deriving DecidableEq, Repr

def Observed.start : Observed := ⟨.new, 0, [], []⟩

/-- A call at a time that is not before the one of the latest call. -/
def observe (config : CircuitBreakerConfig) (nodeId : String) (o : Observed)
    (call : ℕ × BreakerCall) : Option Observed :=
  if o.now ≤ call.1 then
    (call.2.run config nodeId call.1 o.breaker).map fun cb =>
      { breaker := cb
        now := call.1
        failures := if call.2 = .recordFailure then call.1 :: o.failures else o.failures
        phase := if cb.state = o.breaker.state then call.2 :: o.phase else [] }
  else none

/-- The failures since the latest success of the phase. -/
def Observed.failuresInARow (o : Observed) : ℕ :=
  (o.phase.takeWhile (· ≠ .recordSuccess)).count .recordFailure

/-- The law of the three states, for the state reached and any next call. -/
structure BreakerLaw (config : CircuitBreakerConfig) (nodeId : String) (o : Observed) : Prop where
  lastFailureTime : o.breaker.status.lastFailureTime = o.failures.head?
  failed_of_opened : o.breaker.state = .opened → o.failures ≠ []
  /-- While open, a request passes only after the open duration, and the
  circuit is half-open then. -/
  allowed_of_opened : ∀ now, o.breaker.state = .opened → o.now ≤ now →
    (o.breaker.allowRequest config nodeId now).1.isOk = true →
    (∃ t, o.failures.head? = some t ∧ t + config.openDuration ≤ now) ∧
      (o.breaker.allowRequest config nodeId now).2.state = .halfOpen
  opens_iff : ∀ (now : ℕ) (call : BreakerCall) (cb : CircuitBreaker),
    o.breaker.state = .closed →
    call.run config nodeId now o.breaker = some cb →
    (cb.state = .opened ↔
      call = .recordFailure ∧ o.failuresInARow + 1 = config.failureThreshold.toNat)
  noFailure_of_halfOpen : o.breaker.state = .halfOpen → .recordFailure ∉ o.phase
  closes_iff : ∀ (now : ℕ) (call : BreakerCall) (cb : CircuitBreaker),
    o.breaker.state = .halfOpen →
    call.run config nodeId now o.breaker = some cb →
    (cb.state = .closed ↔ call = .recordSuccess ∧
      o.phase.count .recordSuccess + 1 = max 1 config.halfOpenMaxAttempts.toNat)
  reopens_iff : ∀ (now : ℕ) (call : BreakerCall) (cb : CircuitBreaker),
    o.breaker.state = .halfOpen →
    call.run config nodeId now o.breaker = some cb →
    (cb.state = .opened ↔ call = .recordFailure)

/-- What the counters mean: the invariant behind the law. -/
structure CountersMean (config : CircuitBreakerConfig) (calls : ℕ) (o : Observed) : Prop where
  lastFailureTime : o.breaker.status.lastFailureTime = o.failures.head?
  failed_of_opened : o.breaker.state = .opened → o.failures ≠ []
  failures_le : ∀ t ∈ o.failures, t ≤ o.now
  failureCount_le : o.breaker.failureCount.toNat ≤ calls
  failureCount_eq : o.breaker.state = .closed →
    o.breaker.failureCount.toNat = o.failuresInARow ∧
      o.failuresInARow < config.failureThreshold.toNat
  successes_eq_zero : o.breaker.state ≠ .halfOpen → o.breaker.halfOpenSuccesses = 0
  successes_eq : o.breaker.state = .halfOpen → .recordFailure ∉ o.phase ∧
    o.breaker.halfOpenSuccesses.toNat = o.phase.count .recordSuccess ∧
      o.phase.count .recordSuccess < max 1 config.halfOpenMaxAttempts.toNat

section Law

variable {config : CircuitBreakerConfig} {nodeId : String} {calls : ℕ} {o o' : Observed}

theorem observe_eq_some {call : ℕ × BreakerCall} (h : observe config nodeId o call = some o') :
    o.now ≤ call.1 ∧ ∃ cb, call.2.run config nodeId call.1 o.breaker = some cb ∧
      o' = ⟨cb, call.1, if call.2 = .recordFailure then call.1 :: o.failures else o.failures,
        if cb.state = o.breaker.state then call.2 :: o.phase else []⟩ := by
  rw [observe] at h
  split at h
  next hlater =>
    obtain ⟨cb, hrun, rfl⟩ := Option.map_eq_some_iff.mp h
    exact ⟨hlater, cb, hrun, rfl⟩
  next => simp at h

theorem toNat_add_one_of_lt {n : UInt64} {k : UInt32} (h : n.toNat < max 1 k.toNat) :
    (n + 1).toNat = n.toNat + 1 := by
  have hk := k.toNat_lt
  rw [UInt64.toNat_add, UInt64.toNat_one]
  omega

/-! The invariant in each of the states. -/

theorem CountersMean.of_closed (hstate : o.breaker.state = .closed)
    (htime : o.breaker.status.lastFailureTime = o.failures.head?)
    (hfailures : ∀ t ∈ o.failures, t ≤ o.now) (hcalls : o.breaker.failureCount.toNat ≤ calls)
    (hcount : o.breaker.failureCount.toNat = o.failuresInARow)
    (hfew : o.failuresInARow < config.failureThreshold.toNat)
    (hsuccesses : o.breaker.halfOpenSuccesses = 0) : CountersMean config calls o where
  lastFailureTime := htime
  failed_of_opened h := by simp [hstate] at h
  failures_le := hfailures
  failureCount_le := hcalls
  failureCount_eq _ := ⟨hcount, hfew⟩
  successes_eq_zero _ := hsuccesses
  successes_eq h := by simp [hstate] at h

theorem CountersMean.of_opened (hstate : o.breaker.state = .opened)
    (htime : o.breaker.status.lastFailureTime = o.failures.head?) (hfailed : o.failures ≠ [])
    (hfailures : ∀ t ∈ o.failures, t ≤ o.now) (hcalls : o.breaker.failureCount.toNat ≤ calls)
    (hsuccesses : o.breaker.halfOpenSuccesses = 0) : CountersMean config calls o where
  lastFailureTime := htime
  failed_of_opened _ := hfailed
  failures_le := hfailures
  failureCount_le := hcalls
  failureCount_eq h := by simp [hstate] at h
  successes_eq_zero _ := hsuccesses
  successes_eq h := by simp [hstate] at h

theorem CountersMean.of_halfOpen (hstate : o.breaker.state = .halfOpen)
    (htime : o.breaker.status.lastFailureTime = o.failures.head?)
    (hfailures : ∀ t ∈ o.failures, t ≤ o.now) (hcalls : o.breaker.failureCount.toNat ≤ calls)
    (hphase : .recordFailure ∉ o.phase)
    (hcount : o.breaker.halfOpenSuccesses.toNat = o.phase.count .recordSuccess)
    (hfew : o.phase.count .recordSuccess < max 1 config.halfOpenMaxAttempts.toNat) :
    CountersMean config calls o where
  lastFailureTime := htime
  failed_of_opened h := by simp [hstate] at h
  failures_le := hfailures
  failureCount_le := hcalls
  failureCount_eq h := by simp [hstate] at h
  successes_eq_zero h := absurd hstate h
  successes_eq _ := ⟨hphase, hcount, hfew⟩

theorem CountersMean.allowRequest (h : CountersMean config calls o) {now : ℕ} (hnow : o.now ≤ now)
    {cb : CircuitBreaker} (hcb : (o.breaker.allowRequest config nodeId now).2 = cb) :
    CountersMean config (calls + 1) ⟨cb, now, o.failures,
      if cb.state = o.breaker.state then .allowRequest :: o.phase else []⟩ := by
  have hfailures : ∀ t ∈ o.failures, t ≤ now := fun t ht => (h.failures_le t ht).trans hnow
  have hcalls : o.breaker.failureCount.toNat ≤ calls + 1 := h.failureCount_le.trans (Nat.le_succ _)
  cases hstate : o.breaker.state with
  | closed =>
      rw [allowRequest_closed hstate] at hcb
      subst hcb
      obtain ⟨hcount, hfew⟩ := h.failureCount_eq hstate
      refine .of_closed hstate h.lastFailureTime hfailures hcalls ?_ ?_
        (h.successes_eq_zero (by simp [hstate]))
      · simpa [hstate, Observed.failuresInARow] using hcount
      · simpa [hstate, Observed.failuresInARow] using hfew
  | opened =>
      have hzero := h.successes_eq_zero (by simp [hstate])
      rcases allowRequest_opened config nodeId now hstate with
        ⟨-, -, hnext⟩ | ⟨-, -, hnext⟩
      · obtain rfl := hcb.symm.trans hnext
        refine .of_halfOpen rfl h.lastFailureTime hfailures hcalls ?_ ?_ ?_
        · simp [CircuitBreaker.transitionTo, CircuitBreaker.state]
        · show o.breaker.halfOpenSuccesses.toNat = _
          simp [CircuitBreaker.transitionTo, CircuitBreaker.state, hzero]
        · simp [CircuitBreaker.transitionTo, CircuitBreaker.state]
      · obtain rfl := hcb.symm.trans hnext
        exact .of_opened hstate h.lastFailureTime (h.failed_of_opened hstate) hfailures hcalls hzero
  | halfOpen =>
      have hstate' : o.breaker.status.state = .halfOpen := hstate
      obtain ⟨hphase, hcount, hfew⟩ := h.successes_eq hstate
      rcases allowRequest_halfOpen config nodeId now hstate with
        ⟨-, -, hnext⟩ | ⟨-, -, hnext⟩
      all_goals
        obtain rfl := hcb.symm.trans hnext
        refine .of_halfOpen hstate h.lastFailureTime hfailures hcalls ?_ ?_ ?_
        · simpa [CircuitBreaker.state, hstate'] using hphase
        · simpa [CircuitBreaker.state, hstate'] using hcount
        · simpa [CircuitBreaker.state, hstate'] using hfew

theorem CountersMean.recordSuccess (hthreshold : 1 ≤ config.failureThreshold.toNat)
    (h : CountersMean config calls o) {now : ℕ} (hnow : o.now ≤ now) {cb : CircuitBreaker}
    (hcb : o.breaker.recordSuccess config = cb) :
    CountersMean config (calls + 1) ⟨cb, now, o.failures,
      if cb.state = o.breaker.state then .recordSuccess :: o.phase else []⟩ := by
  have hfailures : ∀ t ∈ o.failures, t ≤ now := fun t ht => (h.failures_le t ht).trans hnow
  cases hstate : o.breaker.state with
  | closed =>
      have hstate' : o.breaker.status.state = .closed := hstate
      rw [recordSuccess_of_ne (by simp [hstate])] at hcb
      subst hcb
      refine .of_closed hstate h.lastFailureTime hfailures (Nat.zero_le _) ?_ ?_
        (h.successes_eq_zero (by simp [hstate]))
      · simp [CircuitBreaker.state, hstate', Observed.failuresInARow]
      · simpa [CircuitBreaker.state, hstate', Observed.failuresInARow] using
          Nat.lt_of_succ_le hthreshold
  | opened =>
      rw [recordSuccess_of_ne (by simp [hstate])] at hcb
      subst hcb
      exact .of_opened hstate h.lastFailureTime (h.failed_of_opened hstate) hfailures
        (Nat.zero_le _) (h.successes_eq_zero (by simp [hstate]))
  | halfOpen =>
      have hstate' : o.breaker.status.state = .halfOpen := hstate
      obtain ⟨hphase, hcount, hfew⟩ := h.successes_eq hstate
      have hadd : (o.breaker.halfOpenSuccesses + 1).toNat = o.breaker.halfOpenSuccesses.toNat + 1 :=
        toNat_add_one_of_lt (hcount ▸ hfew)
      rcases recordSuccess_halfOpen config hstate with ⟨-, hnext⟩ | ⟨hmore, hnext⟩
      · obtain rfl := hcb.symm.trans hnext
        refine .of_closed rfl h.lastFailureTime hfailures (Nat.zero_le _) ?_ ?_ rfl
        · simp [CircuitBreaker.state, Observed.failuresInARow]
        · simpa [CircuitBreaker.state, Observed.failuresInARow] using Nat.lt_of_succ_le hthreshold
      · obtain rfl := hcb.symm.trans hnext
        rw [hadd, hcount] at hmore
        refine .of_halfOpen hstate h.lastFailureTime hfailures (Nat.zero_le _) ?_ ?_ ?_
        · simpa [CircuitBreaker.state, hstate'] using hphase
        · show (o.breaker.halfOpenSuccesses + 1).toNat = _
          simp [CircuitBreaker.state, hstate', hadd, hcount, -UInt64.toNat_add]
        · simp only [CircuitBreaker.state, hstate', if_true, List.count_cons_self]
          omega

theorem CountersMean.recordFailure (h : CountersMean config calls o) {now : ℕ}
    (hnow : o.now ≤ now) {cb : CircuitBreaker}
    (hcb : o.breaker.recordFailure config now = some cb) :
    CountersMean config (calls + 1) ⟨cb, now, now :: o.failures,
      if cb.state = o.breaker.state then .recordFailure :: o.phase else []⟩ := by
  obtain ⟨hroom, hcount, htime, hcases⟩ := recordFailure_cases hcb
  have hadd : cb.failureCount.toNat = o.breaker.failureCount.toNat + 1 := by
    rw [hcount, UInt64.toNat_add, UInt64.toNat_one]
    omega
  have hfailures : ∀ t ∈ now :: o.failures, t ≤ now := by
    intro t ht
    rcases List.mem_cons.mp ht with rfl | ht
    · exact le_rfl
    · exact (h.failures_le t ht).trans hnow
  have hcalls : cb.failureCount.toNat ≤ calls + 1 := by
    have := h.failureCount_le
    omega
  rcases hcases with ⟨-, hopened, hzero, -⟩ | ⟨-, -, hopened, hzero, -⟩ |
    ⟨hfew, hhalf, hsame, hzero, -⟩
  · exact .of_opened hopened htime (by simp) hfailures hcalls hzero
  · exact .of_opened hopened htime (by simp) hfailures hcalls hzero
  · have hzero' := hzero.trans (h.successes_eq_zero hhalf)
    cases hstate : o.breaker.state with
    | closed =>
        rw [hstate] at hsame
        obtain ⟨hrow, -⟩ := h.failureCount_eq hstate
        refine .of_closed hsame htime hfailures hcalls ?_ ?_ hzero'
        · simp [hsame, Observed.failuresInARow, hadd, hrow]
        · simpa [hsame, Observed.failuresInARow, hrow] using hfew
    | opened => exact .of_opened (hsame.trans hstate) htime (by simp) hfailures hcalls hzero'
    | halfOpen => exact absurd hstate hhalf

theorem CountersMean.step (hthreshold : 1 ≤ config.failureThreshold.toNat)
    (h : CountersMean config calls o) {call : ℕ × BreakerCall}
    (hstep : observe config nodeId o call = some o') : CountersMean config (calls + 1) o' := by
  obtain ⟨hnow, cb, hrun, rfl⟩ := observe_eq_some hstep
  obtain ⟨now, kind⟩ := call
  cases kind with
  | allowRequest => exact h.allowRequest hnow (Option.some.inj hrun)
  | recordSuccess => exact h.recordSuccess hthreshold hnow (Option.some.inj hrun)
  | recordFailure => exact h.recordFailure hnow hrun

theorem CountersMean.exists_observe (nodeId : String) (h : CountersMean config calls o)
    (hcalls : calls + 1 < 2 ^ 64) {call : ℕ × BreakerCall} (hnow : o.now ≤ call.1) :
    ∃ o', observe config nodeId o call = some o' ∧ o'.now = call.1 := by
  have hrun : ∃ cb, call.2.run config nodeId call.1 o.breaker = some cb := by
    cases call.2 with
    | allowRequest => exact ⟨_, rfl⟩
    | recordSuccess => exact ⟨_, rfl⟩
    | recordFailure =>
        have := h.failureCount_le
        exact exists_recordFailure _ _ _ (by omega)
  obtain ⟨cb, hcb⟩ := hrun
  rw [observe, if_pos hnow, hcb]
  exact ⟨_, rfl, rfl⟩

theorem CountersMean.law (h : CountersMean config calls o) : BreakerLaw config nodeId o where
  lastFailureTime := h.lastFailureTime
  failed_of_opened := h.failed_of_opened
  allowed_of_opened now hstate hnow hok := by
    rcases allowRequest_opened config nodeId now hstate with
      ⟨-, ⟨t, htime, hwait⟩, hnext⟩ | ⟨hrejected, -, -⟩
    · have hhead : o.failures.head? = some t := h.lastFailureTime.symm.trans htime
      have ht := h.failures_le t (List.mem_of_head? hhead)
      refine ⟨⟨t, hhead, by omega⟩, ?_⟩
      rw [hnext]
      rfl
    · rw [hrejected] at hok
      simp at hok
  opens_iff now call cb hstate hrun := by
    obtain ⟨hrow, hfew⟩ := h.failureCount_eq hstate
    cases call with
    | allowRequest =>
        rw [BreakerCall.run, allowRequest_closed hstate, Option.some.injEq] at hrun
        simp [← hrun, hstate]
    | recordSuccess =>
        rw [BreakerCall.run, recordSuccess_of_ne (by simp [hstate]), Option.some.injEq] at hrun
        have hsame : cb.state = o.breaker.state := by rw [← hrun]; rfl
        simp [hsame, hstate]
    | recordFailure =>
        obtain ⟨-, -, -, ⟨hmany, hopened, -, -⟩ | ⟨-, hhalf, -⟩ | ⟨hmore, -, hsame, -, -⟩⟩ :=
          recordFailure_cases hrun
        · rw [hrow] at hmany
          simp only [hopened, true_and, true_iff]
          omega
        · simp [hstate] at hhalf
        · rw [hrow] at hmore
          simp only [hsame, hstate, true_and, reduceCtorEq, false_iff]
          omega
  noFailure_of_halfOpen hstate := (h.successes_eq hstate).1
  closes_iff now call cb hstate hrun := by
    obtain ⟨-, hcount, hfew⟩ := h.successes_eq hstate
    cases call with
    | allowRequest =>
        rw [BreakerCall.run, Option.some.injEq] at hrun
        have hsame : cb.state = .halfOpen := hrun ▸ state_allowRequest_halfOpen hstate
        simp [hsame]
    | recordSuccess =>
        rw [BreakerCall.run, Option.some.injEq] at hrun
        have hadd := toNat_add_one_of_lt (hcount ▸ hfew)
        rcases recordSuccess_halfOpen config hstate with ⟨hlast, hnext⟩ | ⟨hmore, hnext⟩
        · have hclosed : cb.state = .closed := by rw [← hrun, hnext]; rfl
          rw [hadd, hcount] at hlast
          simp only [hclosed, true_and, true_iff]
          omega
        · have hsame : cb.state = o.breaker.state := by rw [← hrun, hnext]; rfl
          rw [hadd, hcount] at hmore
          simp only [hsame, hstate, true_and, reduceCtorEq, false_iff]
          omega
    | recordFailure =>
        simp [state_recordFailure_halfOpen hstate hrun]
  reopens_iff now call cb hstate hrun := by
    cases call with
    | allowRequest =>
        rw [BreakerCall.run, Option.some.injEq] at hrun
        have hsame : cb.state = .halfOpen := hrun ▸ state_allowRequest_halfOpen hstate
        simp [hsame]
    | recordSuccess =>
        rw [BreakerCall.run, Option.some.injEq] at hrun
        rcases recordSuccess_halfOpen config hstate with ⟨-, hnext⟩ | ⟨-, hnext⟩
        · have hclosed : cb.state = .closed := by rw [← hrun, hnext]; rfl
          simp [hclosed]
        · have hsame : cb.state = o.breaker.state := by rw [← hrun, hnext]; rfl
          simp [hsame, hstate]
    | recordFailure =>
        simp [state_recordFailure_halfOpen hstate hrun]

/-- A history of calls at times that do not decrease can be executed, and the
counters keep their meaning. -/
theorem CountersMean.exec_history (nodeId : String)
    (hthreshold : 1 ≤ config.failureThreshold.toNat) (history : List (ℕ × BreakerCall))
    (h : CountersMean config calls o)
    (hlen : calls + history.length < 2 ^ 64)
    (hclock : (history.map Prod.fst).Pairwise (· ≤ ·)) (hnow : ∀ call ∈ history, o.now ≤ call.1) :
    ∃ o', exec (observe config nodeId) o history = some o' ∧
      CountersMean config (calls + history.length) o' := by
  induction history generalizing o calls with
  | nil => exact ⟨o, rfl, h⟩
  | cons call history ih =>
      rw [List.length_cons] at hlen
      rw [List.map_cons, List.pairwise_cons] at hclock
      obtain ⟨o₁, hstep, hnow₁⟩ :=
        h.exists_observe nodeId (by omega) (hnow call List.mem_cons_self)
      have hlater : ∀ later ∈ history, o₁.now ≤ later.1 := by
        intro later hmem
        rw [hnow₁]
        exact hclock.1 later.1 (List.mem_map_of_mem hmem)
      obtain ⟨o', hexec, hmean⟩ := ih (h.step hthreshold hstep) (by omega) hclock.2 hlater
      refine ⟨o', by rw [exec, hstep, Option.bind_some, hexec], ?_⟩
      have hcalls : calls + (call :: history).length = calls + 1 + history.length := by
        rw [List.length_cons]
        omega
      rw [hcalls]
      exact hmean

/-- After every history of fewer than `2 ^ 64` calls, at times that do not
decrease, the state and the next call obey the law. -/
theorem breaker_law (config : CircuitBreakerConfig) (nodeId : String)
    (hthreshold : 1 ≤ config.failureThreshold.toNat) (history : List (ℕ × BreakerCall))
    (hlen : history.length < 2 ^ 64) (hclock : (history.map Prod.fst).Pairwise (· ≤ ·)) :
    ∃ o, exec (observe config nodeId) .start history = some o ∧ BreakerLaw config nodeId o := by
  have hstart : CountersMean config 0 .start :=
    .of_closed rfl rfl (by simp [Observed.start]) le_rfl rfl hthreshold rfl
  obtain ⟨o, hexec, hmean⟩ := hstart.exec_history nodeId hthreshold history
    (by omega) hclock (fun _ _ => Nat.zero_le _)
  exact ⟨o, hexec, hmean.law⟩

end Law

/-- Two failures open the circuit, and a request after the open duration takes
it to half-open. -/
theorem breaker_law_two_failures :
    ∃ o, exec (observe ⟨2, 30, 1⟩ "node") .start
        [(0, .recordFailure), (5, .recordFailure), (40, .allowRequest)] = some o ∧
      o.breaker.state = .halfOpen ∧ BreakerLaw ⟨2, 30, 1⟩ "node" o := by
  obtain ⟨o, hexec, hlaw⟩ := breaker_law ⟨2, 30, 1⟩ "node" (by decide)
    [(0, .recordFailure), (5, .recordFailure), (40, .allowRequest)] (by simp) (by simp)
  have hcheck : (exec (observe ⟨2, 30, 1⟩ "node") .start
      [(0, .recordFailure), (5, .recordFailure), (40, .allowRequest)]).map
        (fun o => o.breaker.state) = some .halfOpen := by
    decide +kernel
  rw [hexec, Option.map_some, Option.some.injEq] at hcheck
  exact ⟨o, hexec, hcheck, hlaw⟩

end SereinGateway.TrafficControl
