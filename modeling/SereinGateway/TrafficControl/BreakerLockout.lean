import Mathlib
import SereinGateway.Lib.Transition
import SereinGateway.TrafficControl.BreakerLaw

/-!
Whether an idle breaker can stay locked.

It can: the request that takes the circuit to half-open is not counted when
it is admitted but is subtracted when it succeeds, and the half-open state is
left by outcomes only. With a limit of one, any outcome ends the half-open
state and closing the circuit resets the counter; with a larger limit the
first successful probe takes the counter below zero and nobody is admitted
any more.
-/

namespace SereinGateway.TrafficControl

open SereinGateway.Lib

/-- The breaker with the requests that were admitted and are not resolved. -/
structure Service where
  breaker : CircuitBreaker
  unresolved : ℕ
  now : ℕ
  deriving DecidableEq, Repr

def Service.start : Service := ⟨.new, 0, 0⟩

/-- A request asks for admission, an admitted request is resolved, or time
passes. -/
inductive ServiceCall where
  | allow
  | succeed
  | fail
  | dropGuard
  | tick (elapsed : ℕ)
  deriving DecidableEq, Repr

/-- Each admitted request is resolved at most once. -/
def serviceStep (config : CircuitBreakerConfig) (nodeId : String) (s : Service) :
    ServiceCall → Option Service
  | .allow =>
      match s.breaker.allowRequest config nodeId s.now with
      | (.ok (), cb) => some { s with breaker := cb, unresolved := s.unresolved + 1 }
      | (.error _, cb) => some { s with breaker := cb }
  | .succeed =>
      if 0 < s.unresolved then
        some { s with
          breaker := s.breaker.recordSuccess config
          unresolved := s.unresolved - 1 }
      else none
  | .fail =>
      if 0 < s.unresolved then
        (s.breaker.recordFailure config s.now).map fun cb =>
          { s with breaker := cb, unresolved := s.unresolved - 1 }
      else none
  | .dropGuard =>
      if 0 < s.unresolved then
        (s.breaker.dropGuard config s.now).map fun cb =>
          { s with breaker := cb, unresolved := s.unresolved - 1 }
      else none
  | .tick elapsed => some { s with now := s.now + elapsed }

/-- An idle breaker lets a request through once the open duration has passed
since the last failure. -/
def NoLockout (config : CircuitBreakerConfig) (nodeId : String) (s : Service) : Prop :=
  s.unresolved = 0 →
  (∀ t, s.breaker.status.lastFailureTime = some t → t + config.openDuration ≤ s.now) →
  (s.breaker.allowRequest config nodeId s.now).1.isOk = true

/-- The calls that take `probes_in_flight` below zero and leave it there. -/
def underflows (config : CircuitBreakerConfig) (s : Service) : ServiceCall → Bool
  | .succeed =>
      s.breaker.state = .halfOpen && s.breaker.probesInFlight.toNat < 1 &&
        (s.breaker.halfOpenSuccesses + 1).toNat < config.halfOpenMaxAttempts.toNat
  | .fail =>
      s.breaker.state = .halfOpen && s.breaker.probesInFlight.toNat < 1 &&
        s.breaker.failureCount.toNat + 1 < config.failureThreshold.toNat
  -- A dropped guard subtracts twice, but the first time only above zero.
  | .dropGuard =>
      s.breaker.state = .halfOpen && s.breaker.probesInFlight.toNat < 2 &&
        s.breaker.failureCount.toNat + 1 < config.failureThreshold.toNat
  | _ => false

section Lockout

variable {config : CircuitBreakerConfig} {nodeId : String} {s s' : Service}
  {cb cb' : CircuitBreaker} {now : ℕ}

theorem toNat_sub_one {n : UInt64} (h : 1 ≤ n.toNat) : (n - 1).toNat = n.toNat - 1 := by
  have := n.toNat_lt
  rw [UInt64.toNat_sub, UInt64.toNat_one]
  omega

theorem recordFailure_spec (h : cb.recordFailure config now = some cb') :
    cb'.state ≠ .halfOpen ∧ cb'.status.lastFailureTime = some now ∧
      (cb.halfOpenSuccesses = 0 → cb'.halfOpenSuccesses = 0) ∧
      (¬(cb.state = .halfOpen ∧ cb.probesInFlight.toNat < 1 ∧
          cb.failureCount.toNat + 1 < config.failureThreshold.toNat) →
        cb'.probesInFlight.toNat ≤ cb.probesInFlight.toNat) := by
  obtain ⟨-, -, htime, ⟨-, hopened, hzero, hprobes⟩ | ⟨hfew, hhalf, hopened, hzero, hprobes⟩ |
    ⟨-, hhalf, hsame, hkept, hprobes⟩⟩ := recordFailure_cases h
  · exact ⟨by simp [hopened], htime, fun _ => hzero, fun _ => by rw [hprobes]⟩
  · refine ⟨by simp [hopened], htime, fun _ => hzero, fun hno => ?_⟩
    have hsome : 1 ≤ cb.probesInFlight.toNat := by
      by_contra hlt
      exact hno ⟨hhalf, by omega, hfew⟩
    rw [hprobes, toNat_sub_one hsome]
    omega
  · exact ⟨hsame ▸ hhalf, htime, fun h0 => hkept.trans h0, fun _ => by rw [hprobes]⟩

theorem dropGuard_spec (h : cb.dropGuard config now = some cb') :
    cb'.state ≠ .halfOpen ∧ cb'.status.lastFailureTime = some now ∧
      (cb.halfOpenSuccesses = 0 → cb'.halfOpenSuccesses = 0) ∧
      (¬(cb.state = .halfOpen ∧ cb.probesInFlight.toNat < 2 ∧
          cb.failureCount.toNat + 1 < config.failureThreshold.toNat) →
        cb'.probesInFlight.toNat ≤ cb.probesInFlight.toNat) := by
  rw [CircuitBreaker.dropGuard] at h
  by_cases hprobes : 0 < cb.probesInFlight
  · have hpos : 1 ≤ cb.probesInFlight.toNat := hprobes
    simp only [hprobes, if_true] at h
    obtain ⟨hstate, htime, hzero, hle⟩ := recordFailure_spec h
    refine ⟨hstate, htime, hzero, fun hno => (hle ?_).trans ?_⟩
    · rintro ⟨hhalf, hlt, hfew⟩
      simp only [toNat_sub_one hpos] at hlt
      exact hno ⟨hhalf, by omega, hfew⟩
    · simp only [toNat_sub_one hpos]
      omega
  · simp only [hprobes, if_false] at h
    obtain ⟨hstate, htime, hzero, hle⟩ := recordFailure_spec h
    refine ⟨hstate, htime, hzero, fun hno => hle ?_⟩
    rintro ⟨hhalf, hlt, hfew⟩
    exact hno ⟨hhalf, by omega, hfew⟩

/-- A service call: an admission, a rejection, a success, a failure of either
kind, or time. -/
theorem serviceStep_cases {a : ServiceCall} (h : serviceStep config nodeId s a = some s') :
    (a = .allow ∧ s'.now = s.now ∧
      s'.breaker = (s.breaker.allowRequest config nodeId s.now).2 ∧
      s'.unresolved = if (s.breaker.allowRequest config nodeId s.now).1.isOk then s.unresolved + 1
        else s.unresolved) ∨
    (a = .succeed ∧ s'.now = s.now ∧ s'.breaker = s.breaker.recordSuccess config ∧
      s.unresolved = s'.unresolved + 1) ∨
    ((a = .fail ∨ a = .dropGuard) ∧ s.unresolved = s'.unresolved + 1 ∧
      s'.breaker.state ≠ .halfOpen ∧ s'.breaker.status.lastFailureTime = some s.now ∧
      (s.breaker.halfOpenSuccesses = 0 → s'.breaker.halfOpenSuccesses = 0) ∧
      (underflows config s a = false →
        s'.breaker.probesInFlight.toNat ≤ s.breaker.probesInFlight.toNat)) ∨
    ((∃ elapsed, a = .tick elapsed) ∧ s'.breaker = s.breaker ∧ s'.unresolved = s.unresolved) := by
  cases a with
  | allow =>
      refine .inl ⟨rfl, ?_⟩
      simp only [serviceStep] at h
      split at h
      next hallow =>
        cases h
        simp [hallow, Except.isOk, Except.toBool]
      next hallow =>
        cases h
        simp [hallow, Except.isOk, Except.toBool]
  | succeed =>
      simp only [serviceStep, Option.ite_none_right_eq_some, Option.some.injEq] at h
      obtain ⟨hsome, rfl⟩ := h
      exact .inr (.inl ⟨rfl, rfl, rfl, by simp only; omega⟩)
  | fail =>
      simp only [serviceStep, Option.ite_none_right_eq_some, Option.map_eq_some_iff] at h
      obtain ⟨hsome, cb, hcb, rfl⟩ := h
      obtain ⟨hstate, htime, hzero, hle⟩ := recordFailure_spec hcb
      refine .inr (.inr (.inl ⟨.inl rfl, by simp only; omega, hstate, htime, hzero, ?_⟩))
      intro hno
      exact hle (by simpa [underflows] using hno)
  | dropGuard =>
      simp only [serviceStep, Option.ite_none_right_eq_some, Option.map_eq_some_iff] at h
      obtain ⟨hsome, cb, hcb, rfl⟩ := h
      obtain ⟨hstate, htime, hzero, hle⟩ := dropGuard_spec hcb
      refine .inr (.inr (.inl ⟨.inr rfl, by simp only; omega, hstate, htime, hzero, ?_⟩))
      intro hno
      exact hle (by simpa [underflows] using hno)
  | tick elapsed =>
      cases h
      exact .inr (.inr (.inr ⟨⟨elapsed, rfl⟩, rfl, rfl⟩))

/-- With a limit of one, any outcome ends the half-open state. -/
structure SingleProbe (s : Service) : Prop where
  stamped : s.breaker.state = .opened → s.breaker.status.lastFailureTime ≠ none
  successes : s.breaker.halfOpenSuccesses = 0
  unresolved : s.breaker.state = .halfOpen → 0 < s.unresolved

theorem SingleProbe.step {a : ServiceCall} (hmax : config.halfOpenMaxAttempts.toNat = 1)
    (h : SingleProbe s) (hstep : serviceStep config nodeId s a = some s') : SingleProbe s' := by
  rcases serviceStep_cases hstep with ⟨-, -, hcb, hunresolved⟩ | ⟨-, -, hcb, hunresolved⟩ |
    ⟨-, -, hhalf, htime, hzero, -⟩ | ⟨-, hcb, hunresolved⟩
  · cases hstate : s.breaker.state with
    | closed =>
        rw [allowRequest_closed hstate] at hcb
        exact ⟨by simp [hcb, hstate], hcb ▸ h.successes, by simp [hcb, hstate]⟩
    | opened =>
        rcases allowRequest_opened config nodeId s.now hstate with
          ⟨hok, -, hnext⟩ | ⟨-, -, hnext⟩
        · rw [hnext] at hcb
          refine ⟨?_, hcb ▸ h.successes, fun _ => ?_⟩
          · simp [hcb, CircuitBreaker.transitionTo, CircuitBreaker.state]
          · rw [hunresolved, hok]
            simp
        · rw [hnext] at hcb
          exact ⟨hcb ▸ h.stamped, hcb ▸ h.successes, by simp [hcb, hstate]⟩
    | halfOpen =>
        have hpos := h.unresolved hstate
        have hstill : s'.breaker.state = .halfOpen := hcb ▸ state_allowRequest_halfOpen hstate
        refine ⟨by simp [hstill], ?_, fun _ => ?_⟩
        · rcases allowRequest_halfOpen config nodeId s.now hstate
            with ⟨-, -, hnext⟩ | ⟨-, -, hnext⟩
          · rw [hcb, hnext]
            exact h.successes
          · rw [hcb, hnext]
            exact h.successes
        · rw [hunresolved]
          split <;> omega
  · by_cases hstate : s.breaker.state = .halfOpen
    · have hone : (s.breaker.halfOpenSuccesses + 1).toNat = 1 := by rw [h.successes]; rfl
      rcases recordSuccess_halfOpen config hstate with ⟨-, hnext⟩ | ⟨hmore, -⟩
      · rw [hnext] at hcb
        exact ⟨by simp [hcb, CircuitBreaker.state], by rw [hcb],
          by simp [hcb, CircuitBreaker.state]⟩
      · omega
    · rw [recordSuccess_of_ne hstate] at hcb
      have hsame : s'.breaker.state = s.breaker.state := by rw [hcb]; rfl
      refine ⟨fun hopened => ?_, ?_, fun hhalf => absurd (hsame.symm.trans hhalf) hstate⟩
      · rw [hcb]
        exact h.stamped (hsame.symm.trans hopened)
      · rw [hcb]
        exact h.successes
  · exact ⟨fun _ => by simp [htime], hzero h.successes, fun h => absurd h hhalf⟩
  · exact ⟨hcb ▸ h.stamped, hcb ▸ h.successes, by rw [hcb, hunresolved]; exact h.unresolved⟩

/-- As long as the counter does not underflow, what it counts is unresolved. -/
structure ProbesCovered (config : CircuitBreakerConfig) (s : Service) : Prop where
  stamped : s.breaker.state = .opened → s.breaker.status.lastFailureTime ≠ none
  probes_le : s.breaker.probesInFlight.toNat ≤ config.halfOpenMaxAttempts.toNat
  unresolved : s.breaker.state = .halfOpen →
    s.breaker.probesInFlight.toNat < config.halfOpenMaxAttempts.toNat + s.unresolved

theorem ProbesCovered.step {a : ServiceCall} (h : ProbesCovered config s)
    (hno : underflows config s a = false) (hstep : serviceStep config nodeId s a = some s') :
    ProbesCovered config s' := by
  have hle := h.probes_le
  rcases serviceStep_cases hstep with ⟨-, -, hcb, hunresolved⟩ | ⟨ha, -, hcb, hunresolved⟩ |
    ⟨-, -, hhalf, htime, -, hprobes⟩ | ⟨-, hcb, hunresolved⟩
  · cases hstate : s.breaker.state with
    | closed =>
        rw [allowRequest_closed hstate] at hcb
        exact ⟨by simp [hcb, hstate], hcb ▸ hle, by simp [hcb, hstate]⟩
    | opened =>
        rcases allowRequest_opened config nodeId s.now hstate with
          ⟨hok, -, hnext⟩ | ⟨-, -, hnext⟩
        · rw [hnext] at hcb
          refine ⟨?_, hcb ▸ hle, fun _ => ?_⟩
          · simp [hcb, CircuitBreaker.transitionTo, CircuitBreaker.state]
          · rw [hunresolved, hok, hcb]
            show s.breaker.probesInFlight.toNat < _
            simp only [if_true]
            omega
        · rw [hnext] at hcb
          exact ⟨hcb ▸ h.stamped, hcb ▸ hle, by simp [hcb, hstate]⟩
    | halfOpen =>
        have hcovered := h.unresolved hstate
        have hstill : s'.breaker.state = .halfOpen := hcb ▸ state_allowRequest_halfOpen hstate
        rcases allowRequest_halfOpen config nodeId s.now hstate
          with ⟨hok, hroom, hnext⟩ | ⟨hrejected, -, hnext⟩
        · have hadd : s'.breaker.probesInFlight.toNat = s.breaker.probesInFlight.toNat + 1 := by
            rw [hcb, hnext]
            exact toNat_add_one_of_lt (hroom.trans_le (le_max_right 1 _))
          rw [hok, if_pos rfl] at hunresolved
          exact ⟨by simp [hstill], by omega, fun _ => by omega⟩
        · rw [hnext] at hcb
          rw [hrejected, if_neg (by simp)] at hunresolved
          exact ⟨by simp [hstill], hcb ▸ hle, fun _ => by rw [hcb, hunresolved]; exact hcovered⟩
  · by_cases hstate : s.breaker.state = .halfOpen
    · rcases recordSuccess_halfOpen config hstate with ⟨-, hnext⟩ | ⟨hmore, hnext⟩
      · rw [hnext] at hcb
        exact ⟨by simp [hcb, CircuitBreaker.state], by simp [hcb],
          by simp [hcb, CircuitBreaker.state]⟩
      · have hpos : 1 ≤ s.breaker.probesInFlight.toNat := by
          by_contra hlt
          have hzero : s.breaker.probesInFlight.toNat < 1 := by omega
          rw [ha] at hno
          simp [underflows, hstate, hzero, hmore, -UInt64.toNat_add] at hno
        have hsub : s'.breaker.probesInFlight.toNat = s.breaker.probesInFlight.toNat - 1 := by
          rw [hcb, hnext]
          exact toNat_sub_one hpos
        have hcovered := h.unresolved hstate
        have hstill : s'.breaker.state = .halfOpen := by rw [hcb, hnext]; exact hstate
        exact ⟨by simp [hstill], by omega, fun _ => by omega⟩
    · rw [recordSuccess_of_ne hstate] at hcb
      have hsame : s'.breaker.state = s.breaker.state := by rw [hcb]; rfl
      refine ⟨fun hopened => ?_, ?_, fun hhalf => absurd (hsame.symm.trans hhalf) hstate⟩
      · rw [hcb]
        exact h.stamped (hsame.symm.trans hopened)
      · rw [hcb]
        exact hle
  · exact ⟨fun _ => by simp [htime], (hprobes hno).trans hle, fun h => absurd h hhalf⟩
  · exact ⟨hcb ▸ h.stamped, hcb ▸ hle, by rw [hcb, hunresolved]; exact h.unresolved⟩

/-- An idle breaker answers by its state, and in the half-open state by the
counter. -/
theorem noLockout_of_halfOpen
    (hstamped : s.breaker.state = .opened → s.breaker.status.lastFailureTime ≠ none)
    (hhalf : s.unresolved = 0 → s.breaker.state = .halfOpen →
      s.breaker.probesInFlight.toNat < config.halfOpenMaxAttempts.toNat) :
    NoLockout config nodeId s := by
  intro hidle hwaited
  cases hstate : s.breaker.state with
  | closed =>
      rw [allowRequest_closed hstate]
      rfl
  | opened =>
      rcases allowRequest_opened config nodeId s.now hstate with
        ⟨hok, -, -⟩ | ⟨-, hearly, -⟩
      · exact hok
      · obtain ⟨t, ht⟩ := Option.ne_none_iff_exists'.mp (hstamped hstate)
        have := hwaited t ht
        have := hearly t ht
        omega
  | halfOpen =>
      rcases allowRequest_halfOpen config nodeId s.now hstate with
        ⟨hok, -, -⟩ | ⟨-, hfull, -⟩
      · exact hok
      · have := hhalf hidle hstate
        omega

theorem exists_failures (config : CircuitBreakerConfig) (nodeId : String) (n : ℕ)
    (hn : n < config.failureThreshold.toNat) :
    ∃ s, Reach (serviceStep config nodeId) anyStep .start s ∧ s.breaker.state = .closed ∧
      s.breaker.failureCount.toNat = n ∧ s.breaker.probesInFlight = 0 ∧
      s.breaker.halfOpenSuccesses = 0 ∧ s.unresolved = 0 := by
  induction n with
  | zero => exact ⟨.start, .refl, rfl, rfl, rfl, rfl, rfl⟩
  | succ n ih =>
      obtain ⟨s, hreach, hstate, hcount, hprobes, hsuccesses, hidle⟩ := ih (by omega)
      have hlt := config.failureThreshold.toNat_lt
      have hallow : serviceStep config nodeId s .allow = some { s with unresolved := 1 } := by
        simp [serviceStep, allowRequest_closed hstate, hidle]
      obtain ⟨cb, hcb⟩ := exists_recordFailure config s.now s.breaker (by omega)
      have hfail : serviceStep config nodeId { s with unresolved := 1 } .fail =
          some { s with breaker := cb, unresolved := 0 } := by
        simp [serviceStep, hcb]
      refine ⟨_, (hreach.tail trivial hallow).tail trivial hfail, ?_⟩
      obtain ⟨hroom, hadd, -, ⟨hmany, -⟩ | ⟨-, hhalf, -⟩ | ⟨-, -, hsame, hkept, hsub⟩⟩ :=
        recordFailure_cases hcb
      · omega
      · simp [hstate] at hhalf
      · refine ⟨hsame.trans hstate, ?_, hsub.trans hprobes, hkept.trans hsuccesses, rfl⟩
        show cb.failureCount.toNat = n + 1
        rw [hadd, UInt64.toNat_add, UInt64.toNat_one]
        omega

/-- With a limit above one, a single successful probe locks the breaker. -/
theorem exists_lockout (config : CircuitBreakerConfig) (nodeId : String)
    (hthreshold : 1 ≤ config.failureThreshold.toNat)
    (hmax : 2 ≤ config.halfOpenMaxAttempts.toNat) :
    ∃ s, Reach (serviceStep config nodeId) anyStep .start s ∧ ¬NoLockout config nodeId s := by
  obtain ⟨s, hreach, hstate, hcount, hprobes, hsuccesses, hidle⟩ :=
    exists_failures config nodeId (config.failureThreshold.toNat - 1) (by omega)
  have hlt := config.failureThreshold.toNat_lt
  -- The failure that opens the circuit.
  have hallow : serviceStep config nodeId s .allow = some { s with unresolved := 1 } := by
    simp [serviceStep, allowRequest_closed hstate, hidle]
  obtain ⟨cb, hcb⟩ := exists_recordFailure config s.now s.breaker (by omega)
  have hfail : serviceStep config nodeId { s with unresolved := 1 } .fail =
      some { s with breaker := cb, unresolved := 0 } := by
    simp [serviceStep, hcb]
  obtain ⟨-, -, htime, ⟨-, hopened, hzero, hkept⟩ | ⟨hfew, -⟩ | ⟨hfew, -⟩⟩ :=
    recordFailure_cases hcb
  rotate_left
  · omega
  · omega
  -- The probe, which is not counted, and its success, which is subtracted.
  have hwait : serviceStep config nodeId { s with breaker := cb, unresolved := 0 }
      (.tick config.openDuration) =
      some ⟨cb, 0, s.now + config.openDuration⟩ := rfl
  have hprobe : serviceStep config nodeId ⟨cb, 0, s.now + config.openDuration⟩ .allow =
      some ⟨cb.transitionTo .halfOpen, 1, s.now + config.openDuration⟩ := by
    simp [serviceStep, CircuitBreaker.allowRequest, hopened, htime]
  have hsuccess : serviceStep config nodeId
      ⟨cb.transitionTo .halfOpen, 1, s.now + config.openDuration⟩ .succeed =
      some ⟨(cb.transitionTo .halfOpen).recordSuccess config, 0, s.now + config.openDuration⟩ := by
    simp [serviceStep]
  refine ⟨_, ((((hreach.tail trivial hallow).tail trivial hfail).tail trivial hwait).tail trivial
    hprobe).tail trivial hsuccess, ?_⟩
  have hhalf : (cb.transitionTo .halfOpen).state = .halfOpen := rfl
  have hone : ((cb.transitionTo .halfOpen).halfOpenSuccesses + 1).toNat = 1 := by
    show (cb.halfOpenSuccesses + 1).toNat = 1
    rw [hzero]
    rfl
  rcases recordSuccess_halfOpen config hhalf with ⟨hlast, -⟩ | ⟨-, hnext⟩
  · omega
  · intro hopen
    rw [NoLockout, hnext] at hopen
    have hok := hopen rfl ?_
    · have hbig : ((cb.transitionTo .halfOpen).probesInFlight - 1).toNat = 2 ^ 64 - 1 := by
        show (cb.probesInFlight - 1).toNat = 2 ^ 64 - 1
        rw [hkept, hprobes]
        rfl
      have hlimit := config.halfOpenMaxAttempts.toNat_lt
      have hstill : CircuitBreaker.state { cb.transitionTo .halfOpen with
          failureCount := 0
          successCount := (cb.transitionTo .halfOpen).successCount + 1
          halfOpenSuccesses := (cb.transitionTo .halfOpen).halfOpenSuccesses + 1
          probesInFlight := (cb.transitionTo .halfOpen).probesInFlight - 1 } = .halfOpen := rfl
      rcases allowRequest_halfOpen config nodeId (s.now + config.openDuration) hstill with
        ⟨-, hroom, -⟩ | ⟨hrejected, -, -⟩
      · rw [hbig] at hroom
        omega
      · rw [hrejected] at hok
        simp at hok
    · intro t ht
      have ht' : cb.status.lastFailureTime = some t := ht
      rw [htime, Option.some.injEq] at ht'
      show t + config.openDuration ≤ s.now + config.openDuration
      omega

/-- An idle breaker is never locked in runs without underflow, and in all runs
exactly when the limit is one. -/
theorem noLockout_iff (config : CircuitBreakerConfig) (nodeId : String)
    (hthreshold : 1 ≤ config.failureThreshold.toNat)
    (hmax : 1 ≤ config.halfOpenMaxAttempts.toNat) :
    (∀ s, Reach (serviceStep config nodeId)
        (fun s a => config.halfOpenMaxAttempts.toNat = 1 ∨ underflows config s a = false) .start s →
      NoLockout config nodeId s) ∧
    ((∀ s, Reach (serviceStep config nodeId) anyStep .start s → NoLockout config nodeId s) ↔
      config.halfOpenMaxAttempts.toNat = 1) := by
  have hsingle : config.halfOpenMaxAttempts.toNat = 1 → ∀ ok s,
      Reach (serviceStep config nodeId) ok .start s → NoLockout config nodeId s := by
    intro hone ok s hreach
    have hinv : SingleProbe s :=
      hreach.invariant ⟨by simp [Service.start, CircuitBreaker.new, CircuitBreaker.state], rfl,
        by simp [Service.start, CircuitBreaker.new, CircuitBreaker.state]⟩
        fun t a u ht _ hstep => ht.step hone hstep
    refine noLockout_of_halfOpen hinv.stamped fun hidle hhalf => ?_
    have := hinv.unresolved hhalf
    omega
  refine ⟨fun s hreach => ?_, fun hall => ?_, fun hone s => hsingle hone anyStep s⟩
  · by_cases hone : config.halfOpenMaxAttempts.toNat = 1
    · exact hsingle hone _ s hreach
    · have hinv : ProbesCovered config s :=
        hreach.invariant ⟨by simp [Service.start, CircuitBreaker.new, CircuitBreaker.state],
          Nat.zero_le _, by simp [Service.start, CircuitBreaker.new, CircuitBreaker.state]⟩
          fun t a u ht hok hstep => ht.step (hok.resolve_left hone) hstep
      refine noLockout_of_halfOpen hinv.stamped fun hidle hhalf => ?_
      have := hinv.unresolved hhalf
      omega
  · by_contra hne
    obtain ⟨s, hreach, hlocked⟩ := exists_lockout config nodeId hthreshold (by omega)
    exact hlocked (hall s hreach)

/-- The default configuration cannot be locked. -/
theorem noLockout_default :
    1 ≤ CircuitBreakerConfig.default.failureThreshold.toNat ∧
      ∀ s, Reach (serviceStep .default "node") anyStep .start s → NoLockout .default "node" s :=
  ⟨by decide, (noLockout_iff .default "node" (by decide) (by decide)).2.mpr rfl⟩

/-- One failure, and with a limit of two one successful probe: the next request
is rejected although nobody is unresolved. -/
theorem locked_after_successful_probe :
    ¬∀ (config : CircuitBreakerConfig) (nodeId : String),
      1 ≤ config.failureThreshold.toNat → 1 ≤ config.halfOpenMaxAttempts.toNat →
      ∀ s, Reach (serviceStep config nodeId) anyStep .start s → NoLockout config nodeId s := by
  intro hall
  have hcheck : (exec (serviceStep ⟨1, 30, 2⟩ "node") .start
      [.allow, .fail, .tick 30, .allow, .succeed]).map
        (fun s => decide (s.unresolved = 0 ∧ s.breaker.status.lastFailureTime = some 0 ∧
          s.now = 30 ∧ (s.breaker.allowRequest ⟨1, 30, 2⟩ "node" s.now).1.isOk = false)) =
      some true := by
    decide +kernel
  obtain ⟨s, hs, hend⟩ := Option.map_eq_some_iff.mp hcheck
  obtain ⟨hidle, htime, hnow, hrejected⟩ := of_decide_eq_true hend
  have hok := hall ⟨1, 30, 2⟩ "node" (by decide) (by decide) s (Reach.of_exec _ hs) hidle
    (by simp [htime, hnow])
  rw [hrejected] at hok
  exact absurd hok (by decide)

end Lockout

end SereinGateway.TrafficControl
