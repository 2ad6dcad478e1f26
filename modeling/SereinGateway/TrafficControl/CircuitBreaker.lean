import Mathlib
import SereinGateway.Lib.Transition

/-!
The circuit breaker of one provider: its functions as a single caller sees
them, and the atomic steps that concurrent callers interleave.

The counters are 64-bit atomics with wrapping addition and subtraction; only
the `+ 1` that `record_failure` applies to the value it fetched is a checked
addition, and one that does not fit aborts the process. Times are the
readings of the monotonic clock in nanoseconds. The configuration and the
node id never change and are arguments.

`breakerStep` takes the functions apart at their accesses to shared memory:
one section of the read or write lock, one operation on an atomic. The
counters are not protected by the lock, so the stores that a transition makes
while it holds the write lock are steps of their own. Put together again
without another task in between, the steps of a call compute the function
(`reach_allowRequest`, `reach_recordSuccess`, `reach_recordFailure`,
`reach_dropGuard`).
-/

namespace SereinGateway.TrafficControl

open SereinGateway.Lib

inductive CircuitState where
  | closed
  | opened
  | halfOpen
  deriving DecidableEq, Repr

structure CircuitBreakerConfig where
  failureThreshold : UInt32
  openDuration : ℕ
  halfOpenMaxAttempts : UInt32
  deriving DecidableEq, Repr

def CircuitBreakerConfig.default : CircuitBreakerConfig where
  failureThreshold := 3
  openDuration := 30 * 10 ^ 9
  halfOpenMaxAttempts := 1

/-- State and time of the latest failure, behind one lock. -/
structure CircuitStatus where
  state : CircuitState
  lastFailureTime : Option ℕ
  deriving DecidableEq, Repr

structure CircuitBreaker where
  status : CircuitStatus
  failureCount : UInt64
  successCount : UInt64
  halfOpenSuccesses : UInt64
  probesInFlight : UInt64
  deriving DecidableEq, Repr

inductive CircuitBreakerError where
  | circuitOpen (node reason : String)
  | internal (message : String)
  deriving DecidableEq, Repr

namespace CircuitBreaker

def new : CircuitBreaker := ⟨⟨.closed, none⟩, 0, 0, 0, 0⟩

def state (cb : CircuitBreaker) : CircuitState := cb.status.state

def transitionTo (cb : CircuitBreaker) (newState : CircuitState) : CircuitBreaker :=
  let cb := { cb with status := { cb.status with state := newState } }
  match newState with
  | .closed => { cb with failureCount := 0, halfOpenSuccesses := 0, probesInFlight := 0 }
  | .opened => { cb with halfOpenSuccesses := 0 }
  | .halfOpen => cb

/-- `allow_request`, called at the time `now`. -/
def allowRequest (config : CircuitBreakerConfig) (nodeId : String) (now : ℕ)
    (cb : CircuitBreaker) : Except CircuitBreakerError Unit × CircuitBreaker :=
  match cb.state with
  | .closed => (.ok (), cb)
  | .opened =>
      match cb.status.lastFailureTime with
      | some t =>
          if config.openDuration ≤ now - t then (.ok (), cb.transitionTo .halfOpen)
          else (.error (.circuitOpen nodeId "Failure threshold exceeded"), cb)
      | none => (.error (.circuitOpen nodeId "Failure threshold exceeded"), cb)
  | .halfOpen =>
      let currentProbes := cb.probesInFlight
      let cb := { cb with probesInFlight := cb.probesInFlight + 1 }
      if config.halfOpenMaxAttempts.toNat ≤ currentProbes.toNat then
        (.error (.circuitOpen nodeId "HalfOpen probe slot exhausted"),
          { cb with probesInFlight := cb.probesInFlight - 1 })
      else (.ok (), cb)

def recordSuccess (config : CircuitBreakerConfig) (cb : CircuitBreaker) : CircuitBreaker :=
  let cb := { cb with successCount := cb.successCount + 1, failureCount := 0 }
  if cb.state = .halfOpen then
    let cb := { cb with
      probesInFlight := cb.probesInFlight - 1
      halfOpenSuccesses := cb.halfOpenSuccesses + 1 }
    if config.halfOpenMaxAttempts.toNat ≤ cb.halfOpenSuccesses.toNat then
      cb.transitionTo .closed
    else cb
  else cb

/-- The end of `record_failure`: a failure in the half-open state opens the circuit. -/
def reopen (cb : CircuitBreaker) : CircuitBreaker :=
  if cb.state = .halfOpen then
    { cb with probesInFlight := cb.probesInFlight - 1 }.transitionTo .opened
  else cb

/-- `record_failure`, called at the time `now`. -/
def recordFailure (config : CircuitBreakerConfig) (now : ℕ) (cb : CircuitBreaker) :
    Option CircuitBreaker :=
  -- `fetch_add(1) + 1`: the counter wraps, the sum is checked.
  if cb.failureCount.toNat + 1 < 2 ^ 64 then
    let failures := cb.failureCount.toNat + 1
    let cb := { cb with
      failureCount := cb.failureCount + 1
      status := { cb.status with lastFailureTime := some now } }
    let cb := if config.failureThreshold.toNat ≤ failures then cb.transitionTo .opened else cb
    some cb.reopen
  else none

/-- `ProbeGuard::drop` of a guard that was not resolved. -/
def dropGuard (config : CircuitBreakerConfig) (now : ℕ) (cb : CircuitBreaker) :
    Option CircuitBreaker :=
  let current := cb.probesInFlight
  let cb := if 0 < current then { cb with probesInFlight := cb.probesInFlight - 1 } else cb
  cb.recordFailure config now

end CircuitBreaker

/-! ### Atomic steps -/

/-- The atomics that a transition stores zero to. -/
inductive Counter where
  | failureCount
  | halfOpenSuccesses
  | probesInFlight
  deriving DecidableEq, Repr

/-- The stores of `transition_to`, in order. -/
def CircuitState.stores : CircuitState → List Counter
  | .closed => [.failureCount, .halfOpenSuccesses, .probesInFlight]
  | .opened => [.halfOpenSuccesses]
  | .halfOpen => []

/-- Where a task stands after a transition. -/
inductive AfterTransition where
  | admitted
  | recheck
  | resolved
  deriving DecidableEq, Repr

/-- Where a task stands: outside of a call, in `allow_request`, between its
admission and its outcome, or in a call that records the outcome. -/
inductive BreakerPc where
  | idle
  | readStatus
  | countProbe
  | uncountProbe
  | rejected
  | inFlight
  | addSuccess
  | clearFailures
  | successReadState
  | successSubProbe
  | addHalfOpenSuccess
  | loadHalfOpenSuccesses
  | guardLoad
  | guardSubProbe
  | addFailure
  | stampFailure (failures : ℕ)
  | failureReadState
  | failureSubProbe
  | enter (target : CircuitState) (after : AfterTransition)
  | storing (stores : List Counter) (after : AfterTransition)
  | resolved
  deriving DecidableEq, Repr

def AfterTransition.pc : AfterTransition → BreakerPc
  | .admitted => .inFlight
  | .recheck => .failureReadState
  | .resolved => .resolved

/-- Memory shared by the tasks. The last three fields are not in the program:
how often the circuit has left the open state, how often `probes_in_flight`
has been set to zero, and how often since then it was decremented by a task
that it did not count. -/
structure BreakerMemory where
  breaker : CircuitBreaker
  writer : Option ℕ
  now : ℕ
  epoch : ℕ
  resets : ℕ
  missed : ℕ
  deriving DecidableEq, Repr

/-- A request. The last two fields are not in the program: the epoch in which
it was admitted, and the value of `resets` at which it was counted, as long
as it has not taken its increment back. -/
structure BreakerTask where
  pc : BreakerPc
  admittedIn : ℕ
  slot : Option ℕ
  deriving DecidableEq, Repr

def BreakerMemory.start : BreakerMemory := ⟨.new, none, 0, 0, 0, 0⟩

def BreakerTask.start : BreakerTask := ⟨.idle, 0, none⟩

/-- A task begins a call, takes its next atomic step, or time passes. -/
inductive BreakerAction where
  | allow
  | succeed
  | fail
  | dropGuard
  | proceed
  | tick (elapsed : ℕ)
  deriving DecidableEq, Repr

namespace BreakerMemory

def store (m : BreakerMemory) : Counter → BreakerMemory
  | .failureCount => { m with breaker := { m.breaker with failureCount := 0 } }
  | .halfOpenSuccesses => { m with breaker := { m.breaker with halfOpenSuccesses := 0 } }
  | .probesInFlight =>
      { m with
        breaker := { m.breaker with probesInFlight := 0 }
        resets := m.resets + 1
        missed := 0 }

def setState (m : BreakerMemory) (target : CircuitState) : BreakerMemory :=
  { m with
    breaker := { m.breaker with status := { m.breaker.status with state := target } }
    epoch := if m.breaker.state = .opened ∧ target ≠ .opened then m.epoch + 1 else m.epoch }

/-- `fetch_sub` on `probes_in_flight` by a task. -/
def subProbe (m : BreakerMemory) (c : BreakerTask) (pc : BreakerPc) :
    BreakerMemory × BreakerTask :=
  let m' := { m with
    breaker := { m.breaker with probesInFlight := m.breaker.probesInFlight - 1 } }
  if c.slot = some m.resets then (m', { c with pc := pc, slot := none })
  else ({ m' with missed := m.missed + 1 }, { c with pc := pc })

/-- `fetch_add` on `probes_in_flight` by a task, which admits it or not. -/
def addProbe (m : BreakerMemory) (pc : BreakerPc) : BreakerMemory × BreakerTask :=
  ({ m with breaker := { m.breaker with probesInFlight := m.breaker.probesInFlight + 1 } },
    { pc := pc, admittedIn := m.epoch, slot := some m.resets })

end BreakerMemory

/-- The section of the read lock in `allow_request`. -/
def readStatus (config : CircuitBreakerConfig) (m : BreakerMemory) : BreakerPc :=
  match m.breaker.state with
  | .closed => .inFlight
  | .opened =>
      match m.breaker.status.lastFailureTime with
      | some t => if config.openDuration ≤ m.now - t then .enter .halfOpen .admitted else .rejected
      | none => .rejected
  | .halfOpen => .countProbe

/-- The next atomic step of the task `i`. -/
def BreakerTask.proceed (config : CircuitBreakerConfig) (i : ℕ) (m : BreakerMemory)
    (c : BreakerTask) : Option (BreakerMemory × BreakerTask) :=
  match c.pc with
  | .readStatus =>
      if m.writer = none then
        some (m, { c with pc := readStatus config m, admittedIn := m.epoch })
      else none
  | .countProbe =>
      if config.halfOpenMaxAttempts.toNat ≤ m.breaker.probesInFlight.toNat then
        some (m.addProbe .uncountProbe)
      else some (m.addProbe .inFlight)
  | .uncountProbe => some (m.subProbe c .rejected)
  | .addSuccess =>
      some ({ m with breaker := { m.breaker with successCount := m.breaker.successCount + 1 } },
        { c with pc := .clearFailures })
  | .clearFailures =>
      some ({ m with breaker := { m.breaker with failureCount := 0 } },
        { c with pc := .successReadState })
  | .successReadState =>
      if m.writer = none then
        if m.breaker.state = .halfOpen then some (m, { c with pc := .successSubProbe })
        else some (m, { c with pc := .resolved })
      else none
  | .successSubProbe => some (m.subProbe c .addHalfOpenSuccess)
  | .addHalfOpenSuccess =>
      some ({ m with
          breaker := { m.breaker with halfOpenSuccesses := m.breaker.halfOpenSuccesses + 1 } },
        { c with pc := .loadHalfOpenSuccesses })
  | .loadHalfOpenSuccesses =>
      if config.halfOpenMaxAttempts.toNat ≤ m.breaker.halfOpenSuccesses.toNat then
        some (m, { c with pc := .enter .closed .resolved })
      else some (m, { c with pc := .resolved })
  | .guardLoad =>
      if 0 < m.breaker.probesInFlight then some (m, { c with pc := .guardSubProbe })
      else some (m, { c with pc := .addFailure })
  | .guardSubProbe => some (m.subProbe c .addFailure)
  | .addFailure =>
      if m.breaker.failureCount.toNat + 1 < 2 ^ 64 then
        some ({ m with breaker := { m.breaker with failureCount := m.breaker.failureCount + 1 } },
          { c with pc := .stampFailure (m.breaker.failureCount.toNat + 1) })
      else none
  | .stampFailure failures =>
      if m.writer = none then
        some ({ m with
            breaker := { m.breaker with
              status := { m.breaker.status with lastFailureTime := some m.now } } },
          { c with
            pc := if config.failureThreshold.toNat ≤ failures then .enter .opened .recheck
              else .failureReadState })
      else none
  | .failureReadState =>
      if m.writer = none then
        if m.breaker.state = .halfOpen then some (m, { c with pc := .failureSubProbe })
        else some (m, { c with pc := .resolved })
      else none
  | .failureSubProbe => some (m.subProbe c (.enter .opened .resolved))
  | .enter target after =>
      if m.writer = none then
        match target.stores with
        | [] =>
            some (m.setState target,
              { c with pc := after.pc, admittedIn := (m.setState target).epoch })
        | stores =>
            some ({ m.setState target with writer := some i },
              { c with pc := .storing stores after })
      else none
  | .storing [] _ => none
  -- The last store ends the section of the write lock.
  | .storing [counter] after =>
      some ({ m.store counter with writer := none }, { c with pc := after.pc })
  | .storing (counter :: stores) after =>
      some (m.store counter, { c with pc := .storing stores after })
  | .idle | .rejected | .inFlight | .resolved => none

/-- One atomic step of the task `i`. An outcome may also be recorded by a task
that was never admitted. -/
def breakerStep (config : CircuitBreakerConfig) (i : ℕ) (m : BreakerMemory) (c : BreakerTask) :
    BreakerAction → Option (BreakerMemory × BreakerTask)
  | .allow => if c.pc = .idle then some (m, { c with pc := .readStatus }) else none
  | .succeed =>
      if c.pc = .idle ∨ c.pc = .inFlight then some (m, { c with pc := .addSuccess }) else none
  | .fail =>
      if c.pc = .idle ∨ c.pc = .inFlight then some (m, { c with pc := .addFailure }) else none
  | .dropGuard => if c.pc = .inFlight then some (m, { c with pc := .guardLoad }) else none
  | .proceed => c.proceed config i m
  | .tick elapsed => some ({ m with now := m.now + elapsed }, c)

/-- No request made yet. -/
def breakerStart : Pool BreakerMemory BreakerTask := ⟨.start, fun _ => .start⟩

/-! ### Undisturbed calls -/

section Undisturbed

variable (config : CircuitBreakerConfig) (i : ℕ) {m : BreakerMemory} {c : BreakerTask}

/-- The task `i` goes on its own from one memory and position to another. -/
def RunsTo (m : BreakerMemory) (c : BreakerTask) (cb : CircuitBreaker) (pc : BreakerPc) : Prop :=
  ∃ m' c', Reach (Pool.alone (breakerStep config) i) anyStep (m, c) (m', c') ∧
    m'.breaker = cb ∧ m'.writer = none ∧ m'.now = m.now ∧ c'.pc = pc

variable {config i}

theorem RunsTo.of_exec (as : List BreakerAction) {cb : CircuitBreaker} {pc : BreakerPc}
    (h : ∃ m' c', exec (Pool.alone (breakerStep config) i) (m, c) as = some (m', c') ∧
      m'.breaker = cb ∧ m'.writer = none ∧ m'.now = m.now ∧ c'.pc = pc) :
    RunsTo config i m c cb pc := by
  obtain ⟨m', c', hexec, hend⟩ := h
  exact ⟨m', c', .of_exec as hexec, hend⟩

theorem RunsTo.head {a : BreakerAction} {m' : BreakerMemory} {c' : BreakerTask}
    {cb : CircuitBreaker} {pc : BreakerPc} (hstep : breakerStep config i m c a = some (m', c'))
    (hnow : m'.now = m.now) (h : RunsTo config i m' c' cb pc) : RunsTo config i m c cb pc := by
  obtain ⟨m₁, c₁, hreach, hcb, hwriter, hnow₁, hpc⟩ := h
  have hfirst : Reach (Pool.alone (breakerStep config) i) anyStep (m, c) (m', c') :=
    Reach.refl.tail trivial hstep
  exact ⟨m₁, c₁, hfirst.trans hreach, hcb, hwriter, hnow₁.trans hnow, hpc⟩

theorem RunsTo.trans {cb : CircuitBreaker} {pc : BreakerPc} {cb' : CircuitBreaker}
    {pc' : BreakerPc} (h : RunsTo config i m c cb pc)
    (h' : ∀ m' c', m'.breaker = cb → m'.writer = none → m'.now = m.now → c'.pc = pc →
      RunsTo config i m' c' cb' pc') : RunsTo config i m c cb' pc' := by
  obtain ⟨m₁, c₁, hreach₁, hcb, hwriter, hnow, hpc⟩ := h
  obtain ⟨m₂, c₂, hreach₂, hcb', hwriter', hnow', hpc'⟩ := h' m₁ c₁ hcb hwriter hnow hpc
  exact ⟨m₂, c₂, hreach₁.trans hreach₂, hcb', hwriter', hnow'.trans hnow, hpc'⟩

variable (config i)

theorem reach_transitionTo (target : CircuitState) (after : AfterTransition)
    (hwriter : m.writer = none) (hpc : c.pc = .enter target after) :
    RunsTo config i m c (m.breaker.transitionTo target) after.pc := by
  cases target with
  | closed =>
      refine RunsTo.of_exec [.proceed, .proceed, .proceed, .proceed] ?_
      simp [exec, Pool.alone, breakerStep, BreakerTask.proceed, hpc, hwriter, CircuitState.stores,
        BreakerMemory.store, BreakerMemory.setState, CircuitBreaker.transitionTo]
  | opened =>
      refine RunsTo.of_exec [.proceed, .proceed] ?_
      simp [exec, Pool.alone, breakerStep, BreakerTask.proceed, hpc, hwriter, CircuitState.stores,
        BreakerMemory.store, BreakerMemory.setState, CircuitBreaker.transitionTo]
  | halfOpen =>
      refine RunsTo.of_exec [.proceed] ?_
      simp [exec, Pool.alone, breakerStep, BreakerTask.proceed, hpc, hwriter, CircuitState.stores,
        BreakerMemory.setState, CircuitBreaker.transitionTo]

theorem breaker_subProbe (m : BreakerMemory) (c : BreakerTask) (pc : BreakerPc) :
    (m.subProbe c pc).1.breaker =
      { m.breaker with probesInFlight := m.breaker.probesInFlight - 1 } ∧
    (m.subProbe c pc).1.writer = m.writer ∧ (m.subProbe c pc).1.now = m.now ∧
      (m.subProbe c pc).2.pc = pc := by
  rw [BreakerMemory.subProbe]
  split <;> exact ⟨rfl, rfl, rfl, rfl⟩

theorem reach_allowRequest (nodeId : String) (hwriter : m.writer = none) (hpc : c.pc = .idle) :
    RunsTo config i m c (m.breaker.allowRequest config nodeId m.now).2
      (if (m.breaker.allowRequest config nodeId m.now).1.isOk then .inFlight else .rejected) := by
  cases hstate : m.breaker.state with
  | closed =>
      refine RunsTo.of_exec [.allow, .proceed] ?_
      simp [exec, Pool.alone, breakerStep, BreakerTask.proceed, hpc, hwriter, readStatus, hstate,
        CircuitBreaker.allowRequest, Except.isOk, Except.toBool]
  | opened =>
      cases htime : m.breaker.status.lastFailureTime with
      | none =>
          refine RunsTo.of_exec [.allow, .proceed] ?_
          simp [exec, Pool.alone, breakerStep, BreakerTask.proceed, hpc, hwriter, readStatus,
            hstate, htime, CircuitBreaker.allowRequest, Except.isOk, Except.toBool]
      | some t =>
          by_cases hwait : config.openDuration ≤ m.now - t
          · have hread : RunsTo config i m c m.breaker (.enter .halfOpen .admitted) := by
              refine RunsTo.of_exec [.allow, .proceed] ?_
              simp [exec, Pool.alone, breakerStep, BreakerTask.proceed, hpc, hwriter, readStatus,
                hstate, htime, hwait]
            simp only [CircuitBreaker.allowRequest, hstate, htime, hwait, if_true, Except.isOk,
              Except.toBool]
            refine hread.trans fun m' c' hcb hwriter' _ hpc' => ?_
            rw [← hcb]
            exact reach_transitionTo config i .halfOpen .admitted hwriter' hpc'
          · refine RunsTo.of_exec [.allow, .proceed] ?_
            simp [exec, Pool.alone, breakerStep, BreakerTask.proceed, hpc, hwriter, readStatus,
              hstate, htime, hwait, CircuitBreaker.allowRequest, Except.isOk, Except.toBool]
  | halfOpen =>
      by_cases hfull : config.halfOpenMaxAttempts.toNat ≤ m.breaker.probesInFlight.toNat
      · refine RunsTo.of_exec [.allow, .proceed, .proceed, .proceed] ?_
        simp [exec, Pool.alone, breakerStep, BreakerTask.proceed, hpc, hwriter, readStatus, hstate,
          hfull, CircuitBreaker.allowRequest, Except.isOk, Except.toBool, BreakerMemory.addProbe,
          BreakerMemory.subProbe]
      · refine RunsTo.of_exec [.allow, .proceed, .proceed] ?_
        simp [exec, Pool.alone, breakerStep, BreakerTask.proceed, hpc, hwriter, readStatus, hstate,
          hfull, CircuitBreaker.allowRequest, Except.isOk, Except.toBool, BreakerMemory.addProbe]

theorem reach_subProbe {pc : BreakerPc} (hwriter : m.writer = none)
    (hstep : breakerStep config i m c .proceed = some (m.subProbe c pc)) :
    RunsTo config i m c { m.breaker with probesInFlight := m.breaker.probesInFlight - 1 } pc := by
  obtain ⟨hbreaker, hwriter', hnow, hpc⟩ := breaker_subProbe m c pc
  refine RunsTo.of_exec [.proceed] ⟨_, _, ?_, hbreaker, hwriter'.trans hwriter, hnow, hpc⟩
  simp [exec, Pool.alone, hstep]

theorem reach_recordSuccess (hwriter : m.writer = none) (hpc : c.pc = .idle ∨ c.pc = .inFlight) :
    RunsTo config i m c (m.breaker.recordSuccess config) .resolved := by
  by_cases hhalf : m.breaker.status.state = .halfOpen
  · have hread : RunsTo config i m c
        { m.breaker with successCount := m.breaker.successCount + 1, failureCount := 0 }
        .successSubProbe := by
      refine RunsTo.of_exec [.succeed, .proceed, .proceed, .proceed] ?_
      simp [exec, Pool.alone, breakerStep, BreakerTask.proceed, hpc, hwriter, hhalf,
        CircuitBreaker.state]
    refine hread.trans fun m₁ c₁ hcb₁ hwriter₁ _ hpc₁ => ?_
    have hsub := reach_subProbe config i hwriter₁
      (by simp [breakerStep, BreakerTask.proceed, hpc₁] : breakerStep config i m₁ c₁ .proceed =
        some (m₁.subProbe c₁ .addHalfOpenSuccess))
    refine hsub.trans fun m₂ c₂ hcb₂ hwriter₂ _ hpc₂ => ?_
    rw [hcb₁] at hcb₂
    by_cases hlast : config.halfOpenMaxAttempts.toNat ≤ (m.breaker.halfOpenSuccesses + 1).toNat
    · have hload : RunsTo config i m₂ c₂
          { m₂.breaker with halfOpenSuccesses := m₂.breaker.halfOpenSuccesses + 1 }
          (.enter .closed .resolved) := by
        refine RunsTo.of_exec [.proceed, .proceed] ?_
        simp [exec, Pool.alone, breakerStep, BreakerTask.proceed, hpc₂, hwriter₂, hcb₂, hlast,
          -UInt64.toNat_add]
      refine hload.trans fun m₃ c₃ hcb₃ hwriter₃ _ hpc₃ => ?_
      have hclose := reach_transitionTo config i .closed .resolved hwriter₃ hpc₃
      simp only [CircuitBreaker.recordSuccess, CircuitBreaker.state, hhalf, if_true, hlast]
      rw [hcb₃, hcb₂] at hclose
      exact hclose
    · refine RunsTo.of_exec [.proceed, .proceed] ?_
      simp [exec, Pool.alone, breakerStep, BreakerTask.proceed, hpc₂, hwriter₂, hcb₂, hlast,
        CircuitBreaker.recordSuccess, CircuitBreaker.state, hhalf, -UInt64.toNat_add]
  · refine RunsTo.of_exec [.succeed, .proceed, .proceed, .proceed] ?_
    simp [exec, Pool.alone, breakerStep, BreakerTask.proceed, hpc, hwriter, hhalf,
      CircuitBreaker.state, CircuitBreaker.recordSuccess]

theorem reach_reopen (hwriter : m.writer = none) (hpc : c.pc = .failureReadState) :
    RunsTo config i m c m.breaker.reopen .resolved := by
  by_cases hhalf : m.breaker.status.state = .halfOpen
  · have hread : RunsTo config i m c m.breaker .failureSubProbe := by
      refine RunsTo.of_exec [.proceed] ?_
      simp [exec, Pool.alone, breakerStep, BreakerTask.proceed, hpc, hwriter, hhalf,
        CircuitBreaker.state]
    refine hread.trans fun m₁ c₁ hcb₁ hwriter₁ _ hpc₁ => ?_
    have hsub := reach_subProbe config i hwriter₁
      (by simp [breakerStep, BreakerTask.proceed, hpc₁] : breakerStep config i m₁ c₁ .proceed =
        some (m₁.subProbe c₁ (.enter .opened .resolved)))
    refine hsub.trans fun m₂ c₂ hcb₂ hwriter₂ _ hpc₂ => ?_
    have hopen := reach_transitionTo config i .opened .resolved hwriter₂ hpc₂
    rw [hcb₂, hcb₁] at hopen
    simp only [CircuitBreaker.reopen, CircuitBreaker.state, hhalf, if_true]
    exact hopen
  · refine RunsTo.of_exec [.proceed] ?_
    simp [exec, Pool.alone, breakerStep, BreakerTask.proceed, hpc, hwriter, hhalf,
      CircuitBreaker.state, CircuitBreaker.reopen]

theorem reach_addFailure {cb : CircuitBreaker} (hwriter : m.writer = none)
    (hpc : c.pc = .addFailure) (hcb : m.breaker.recordFailure config m.now = some cb) :
    RunsTo config i m c cb .resolved := by
  rw [CircuitBreaker.recordFailure] at hcb
  split at hcb
  next hroom =>
    rw [Option.some.injEq] at hcb
    subst hcb
    by_cases hmany : config.failureThreshold.toNat ≤ m.breaker.failureCount.toNat + 1
    · have hstamp : RunsTo config i m c
          { m.breaker with
            failureCount := m.breaker.failureCount + 1
            status := { m.breaker.status with lastFailureTime := some m.now } }
          (.enter .opened .recheck) := by
        refine RunsTo.of_exec [.proceed, .proceed] ?_
        simp [exec, Pool.alone, breakerStep, BreakerTask.proceed, hpc, hwriter, hroom, hmany,
          -Nat.reducePow]
      refine hstamp.trans fun m₁ c₁ hcb₁ hwriter₁ _ hpc₁ => ?_
      have hopen := reach_transitionTo config i .opened .recheck hwriter₁ hpc₁
      refine hopen.trans fun m₂ c₂ hcb₂ hwriter₂ _ hpc₂ => ?_
      have hend := reach_reopen config i hwriter₂ hpc₂
      rw [hcb₂, hcb₁] at hend
      simp only [hmany, if_true]
      exact hend
    · have hstamp : RunsTo config i m c
          { m.breaker with
            failureCount := m.breaker.failureCount + 1
            status := { m.breaker.status with lastFailureTime := some m.now } }
          .failureReadState := by
        refine RunsTo.of_exec [.proceed, .proceed] ?_
        simp [exec, Pool.alone, breakerStep, BreakerTask.proceed, hpc, hwriter, hroom, hmany,
          -Nat.reducePow]
      refine hstamp.trans fun m₁ c₁ hcb₁ hwriter₁ _ hpc₁ => ?_
      have hend := reach_reopen config i hwriter₁ hpc₁
      rw [hcb₁] at hend
      simp only [hmany, if_false]
      exact hend
  next => simp at hcb

theorem reach_recordFailure {cb : CircuitBreaker} (hwriter : m.writer = none)
    (hpc : c.pc = .idle ∨ c.pc = .inFlight)
    (hcb : m.breaker.recordFailure config m.now = some cb) :
    RunsTo config i m c cb .resolved := by
  have hcall : breakerStep config i m c .fail = some (m, { c with pc := .addFailure }) := by
    simp [breakerStep, hpc]
  exact .head hcall rfl (reach_addFailure config i hwriter rfl hcb)

theorem reach_dropGuard {cb : CircuitBreaker} (hwriter : m.writer = none)
    (hpc : c.pc = .inFlight) (hcb : m.breaker.dropGuard config m.now = some cb) :
    RunsTo config i m c cb .resolved := by
  have hcall : breakerStep config i m c .dropGuard = some (m, { c with pc := .guardLoad }) := by
    simp [breakerStep, hpc]
  refine .head hcall rfl ?_
  rw [CircuitBreaker.dropGuard] at hcb
  by_cases hprobes : 0 < m.breaker.probesInFlight
  · have hload : breakerStep config i m { c with pc := .guardLoad } .proceed =
        some (m, { c with pc := .guardSubProbe }) := by
      simp [breakerStep, BreakerTask.proceed, hprobes]
    refine .head hload rfl ?_
    have hsub := reach_subProbe (c := { c with pc := .guardSubProbe }) config i hwriter
      (by simp [breakerStep, BreakerTask.proceed] : breakerStep config i m _ .proceed =
        some (m.subProbe _ .addFailure))
    refine hsub.trans fun m₁ c₁ hcb₁ hwriter₁ hnow hpc₁ => ?_
    simp only [hprobes, if_true] at hcb
    rw [← hcb₁, ← hnow] at hcb
    exact reach_addFailure config i hwriter₁ hpc₁ hcb
  · have hload : breakerStep config i m { c with pc := .guardLoad } .proceed =
        some (m, { c with pc := .addFailure }) := by
      simp [breakerStep, BreakerTask.proceed, hprobes]
    refine .head hload rfl ?_
    simp only [hprobes, if_false] at hcb
    exact reach_addFailure config i hwriter rfl hcb

end Undisturbed

end SereinGateway.TrafficControl
