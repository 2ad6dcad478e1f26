import Mathlib
import SereinGateway.Lib.Latch

/-!
The fuel monitor: a counter, and a state that every call stores.

`fuel_consumed` wraps, while the total that a call compares saturates, so a
counter that has gone around forgets what was consumed. The state is stored
after the addition, by every call and whatever its level, and `reset` clears
the counter before it clears the state. The utilisation is compared as an
exact fraction.

Runs in which the counter does not wrap and the stores do not overtake each
other keep the trap until a reset: `FuelOrderly`.
-/

namespace SereinGateway.Core

open SereinGateway.Lib

inductive EsdState where
  | normal
  | warning
  | critical
  | emergencyShutdown
  deriving DecidableEq, Repr

/-- `as u8`. -/
def EsdState.code : EsdState → UInt8
  | .normal => 0
  | .warning => 1
  | .critical => 2
  | .emergencyShutdown => 3

/-- `Trap::Interrupt`. -/
inductive Trap where
  | interrupt
  deriving DecidableEq, Repr

structure FuelMonitor where
  fuelConsumed : UInt64
  fuelQuota : UInt64
  state : UInt8
  deriving DecidableEq, Repr

def preShutdownThreshold : ℚ := 9 / 10

def criticalThreshold : ℚ := 19 / 20

def computeState (fuelQuota : UInt64) (consumed : ℕ) : EsdState :=
  let utilization : ℚ := consumed / fuelQuota.toNat
  if 1 ≤ utilization then .emergencyShutdown
  else if criticalThreshold ≤ utilization then .critical
  else if preShutdownThreshold ≤ utilization then .warning
  else .normal

namespace FuelMonitor

def new (fuelQuota : UInt64) : FuelMonitor := ⟨0, fuelQuota, EsdState.normal.code⟩

def consume (fuel : UInt64) (monitor : FuelMonitor) : Except Trap Unit × FuelMonitor :=
  let total := monitor.fuelConsumed
  let newTotal := min (total.toNat + fuel.toNat) (2 ^ 64 - 1)
  let newState := computeState monitor.fuelQuota newTotal
  let monitor := { monitor with
    fuelConsumed := monitor.fuelConsumed + fuel
    state := newState.code }
  match newState with
  | .emergencyShutdown => (.error .interrupt, monitor)
  | .critical | .warning | .normal => (.ok (), monitor)

def currentState (monitor : FuelMonitor) : EsdState :=
  if monitor.state = 0 then .normal
  else if monitor.state = 1 then .warning
  else if monitor.state = 2 then .critical
  else if monitor.state = 3 then .emergencyShutdown
  else .normal

/-- `fuel_remaining`, a saturating subtraction. -/
def fuelRemaining (monitor : FuelMonitor) : ℕ :=
  monitor.fuelQuota.toNat - monitor.fuelConsumed.toNat

def reset (monitor : FuelMonitor) : FuelMonitor :=
  { monitor with fuelConsumed := 0, state := EsdState.normal.code }

def isEsdActive (monitor : FuelMonitor) : Bool :=
  decide (monitor.currentState = .emergencyShutdown)

end FuelMonitor

/-- What a call that found a state returns. -/
def EsdState.result : EsdState → Except Trap Unit
  | .emergencyShutdown => .error .interrupt
  | .critical | .warning | .normal => .ok ()

/-! ### The accesses as steps -/

def fuelGauge (fuelQuota : UInt64) : Gauge UInt64 EsdState where
  zero := 0
  add := fun total fuel => total + fuel
  judge := fun total fuel =>
    some (computeState fuelQuota (min (total.toNat + fuel.toNat) (2 ^ 64 - 1)))
  publishes := fun _ => true
  rest := .normal
  top := .emergencyShutdown

/-- The memory of a monitor that no call is using. -/
def FuelMonitor.memory (monitor : FuelMonitor) (shut : Bool) : GaugeMemory UInt64 EsdState :=
  ⟨monitor.fuelConsumed, monitor.currentState, shut⟩

theorem FuelMonitor.currentState_code (fuelConsumed fuelQuota : UInt64) (s : EsdState) :
    FuelMonitor.currentState ⟨fuelConsumed, fuelQuota, s.code⟩ = s := by
  cases s <;> rfl

/-- A call adds, and stores and returns what it found. -/
theorem FuelMonitor.consume_eq (fuel : UInt64) (monitor : FuelMonitor) :
    monitor.consume fuel =
      let s := computeState monitor.fuelQuota
        (min (monitor.fuelConsumed.toNat + fuel.toNat) (2 ^ 64 - 1))
      (s.result, { monitor with
        fuelConsumed := monitor.fuelConsumed + fuel
        state := s.code }) := by
  unfold consume
  dsimp only
  generalize computeState monitor.fuelQuota _ = s
  cases s <;> rfl

theorem reach_consume (i : ℕ) (monitor : FuelMonitor) (fuel : UInt64) (shut : Bool) :
    ∃ shut' s, s.result = (monitor.consume fuel).1 ∧
      Reach (Pool.alone (fuelGauge monitor.fuelQuota).step i) anyStep
        (monitor.memory shut, ⟨.idle, false⟩)
        ((monitor.consume fuel).2.memory shut', ⟨.returned s, shut⟩) := by
  rw [FuelMonitor.consume_eq]
  set s := computeState monitor.fuelQuota
    (min (monitor.fuelConsumed.toNat + fuel.toNat) (2 ^ 64 - 1)) with hs
  refine ⟨shut || decide (s = .emergencyShutdown), s, rfl,
    Reach.of_exec [.consume fuel, .proceed] ?_⟩
  simp only [exec, Pool.alone, Gauge.step, fuelGauge, FuelMonitor.memory, Gauge.judged,
    Gauge.publish, FuelMonitor.currentState_code, ← hs, if_true, Option.bind_some]
  rfl

/-! ### The trap -/

theorem computeState_eq_esd {fuelQuota : UInt64} (hquota : 1 ≤ fuelQuota.toNat) {consumed : ℕ} :
    computeState fuelQuota consumed = .emergencyShutdown ↔ fuelQuota.toNat ≤ consumed := by
  have hpos : (0 : ℚ) < fuelQuota.toNat := by exact_mod_cast hquota
  have hone : (1 : ℚ) ≤ consumed / fuelQuota.toNat ↔ fuelQuota.toNat ≤ consumed := by
    rw [le_div_iff₀ hpos, one_mul, Nat.cast_le]
  rw [← hone, computeState]
  split
  · simp_all
  · rename_i hbelow
    split
    · simp_all
    · split <;> simp_all

section Trap

variable {fuelQuota : UInt64} {p q : Pool (GaugeMemory UInt64 EsdState) (GaugeTask EsdState)}
  {e : ℕ × GaugeAction UInt64}

/-- The steps of the runs in question: calls of `consume` and of `reset`. -/
def MonitorStep (_ : Pool (GaugeMemory UInt64 EsdState) (GaugeTask EsdState)) :
    ℕ × GaugeAction UInt64 → Prop
  | (_, .consume _) => True
  | (_, .reset) => True
  | (_, .raise) => False
  | (_, .proceed) => True

instance (e : ℕ × GaugeAction UInt64) : Decidable (MonitorStep p e) :=
  match e with
  | (_, .consume _) => inferInstanceAs (Decidable True)
  | (_, .reset) => inferInstanceAs (Decidable True)
  | (_, .raise) => inferInstanceAs (Decidable False)
  | (_, .proceed) => inferInstanceAs (Decidable True)

/-- The addition does not wrap. -/
def NoWrap (p : Pool (GaugeMemory UInt64 EsdState) (GaugeTask EsdState)) :
    ℕ × GaugeAction UInt64 → Prop
  | (_, .consume fuel) => p.shared.counter.toNat + fuel.toNat < 2 ^ 64
  | (_, .reset) => True
  | (_, .raise) => True
  | (_, .proceed) => True

instance (e : ℕ × GaugeAction UInt64) : Decidable (NoWrap p e) :=
  match e with
  | (_, .consume _) => inferInstanceAs (Decidable (_ < _))
  | (_, .reset) => inferInstanceAs (Decidable True)
  | (_, .raise) => inferInstanceAs (Decidable True)
  | (_, .proceed) => inferInstanceAs (Decidable True)

/-- The call has judged a state below `EmergencyShutdown` and not stored it yet,
or has cleared the counter and not the state. -/
def StoresLower (c : GaugeTask EsdState) : Prop :=
  (∃ s, c.pc = .store s ∧ s ≠ .emergencyShutdown) ∨ c.pc = .clear

/-- The counter does not wrap; `EmergencyShutdown` is stored only when no call
is about to store less; and `reset` does not come between the addition and
the store of a call that found it. -/
structure FuelOrderly (p : Pool (GaugeMemory UInt64 EsdState) (GaugeTask EsdState))
    (e : ℕ × GaugeAction UInt64) : Prop where
  admitted : MonitorStep p e
  noWrap : NoWrap p e
  quiet : e.2 = .proceed → (p.task e.1).pc = .store .emergencyShutdown →
    ∀ j, ¬StoresLower (p.task j)
  settled : e.2 = .reset → ∀ j, (p.task j).pc ≠ .store .emergencyShutdown

/-- Once a call has returned the trap, and until `reset` is called, the
shutdown is active and the calls after it return the trap. -/
structure TrapLatched (p : Pool (GaugeMemory UInt64 EsdState) (GaugeTask EsdState)) : Prop where
  active : p.shared.shut = true → p.shared.level = .emergencyShutdown
  traps : ∀ i s, (p.task i).late = true → (p.task i).pc = .returned s →
    s.result = .error .interrupt

/-- The counter is at the quota once the shutdown was found. -/
structure Exhausted (fuelQuota : UInt64)
    (p : Pool (GaugeMemory UInt64 EsdState) (GaugeTask EsdState)) : Prop where
  shut : p.shared.shut = true → fuelQuota.toNat ≤ p.shared.counter.toNat
  found : ∀ j, (p.task j).pc = .store .emergencyShutdown →
    fuelQuota.toNat ≤ p.shared.counter.toNat

theorem FuelOrderly.orderly (hquota : 1 ≤ fuelQuota.toNat) (h : FuelOrderly p e)
    (hexhausted : Exhausted fuelQuota p) : (fuelGauge fuelQuota).Orderly p e where
  quiet htop := by
    obtain ⟨i, action⟩ := e
    obtain rfl | ⟨hproceed, hpc⟩ := htop
    · exact absurd h.admitted id
    · exact h.quiet hproceed hpc
  reached fuel heq hshut := by
    obtain ⟨i, action⟩ := e
    obtain rfl : action = .consume fuel := heq
    have hwrap : p.shared.counter.toNat + fuel.toNat < 2 ^ 64 := h.noWrap
    have hfull := hexhausted.shut hshut
    refine congrArg some ((computeState_eq_esd hquota).mpr ?_)
    omega

theorem Exhausted.move {i : ℕ} {m : GaugeMemory UInt64 EsdState} {c : GaugeTask EsdState}
    (h : Exhausted fuelQuota p) (hcounter : p.shared.counter.toNat ≤ m.counter.toNat)
    (hshut : m.shut = true → p.shared.shut = true ∨ fuelQuota.toNat ≤ m.counter.toNat)
    (hfound : c.pc = .store .emergencyShutdown → fuelQuota.toNat ≤ m.counter.toNat) :
    Exhausted fuelQuota ⟨m, Function.update p.task i c⟩ where
  shut hm := (hshut hm).elim (fun hold => (h.shut hold).trans hcounter) id
  found := by
    refine Pool.forall_task (p := p) (s := m) (Q := fun m _ (c : GaugeTask EsdState) =>
      c.pc = .store .emergencyShutdown → fuelQuota.toNat ≤ m.counter.toNat) h.found hfound ?_
    exact fun j _ hj hpc => (hj hpc).trans hcounter

theorem Exhausted.step (hquota : 1 ≤ fuelQuota.toNat) (h : Exhausted fuelQuota p)
    (hok : FuelOrderly p e) (hstep : p.step (fuelGauge fuelQuota).step e = some q) :
    Exhausted fuelQuota q := by
  obtain ⟨m, c, hact, rfl⟩ := Pool.step_eq_some.mp hstep
  obtain ⟨i, action⟩ := e
  cases action with
  | consume fuel =>
      rw [Gauge.step, Option.ite_none_right_eq_some] at hact
      obtain ⟨-, hnext⟩ := hact
      obtain ⟨rfl, rfl⟩ := Prod.mk.inj (Option.some.inj hnext)
      have hwrap : p.shared.counter.toNat + fuel.toNat < 2 ^ 64 := hok.noWrap
      have hsum : (p.shared.counter + fuel).toNat = p.shared.counter.toNat + fuel.toNat := by
        rw [UInt64.toNat_add]
        omega
      refine h.move ?_ .inl ?_
      · show _ ≤ (p.shared.counter + fuel).toNat
        omega
      · intro hpc
        have hesd : computeState fuelQuota (min (p.shared.counter.toNat + fuel.toNat)
            (2 ^ 64 - 1)) = .emergencyShutdown := by
          simpa [fuelGauge, Gauge.judged] using hpc
        have hfull := (computeState_eq_esd hquota).mp hesd
        show _ ≤ (p.shared.counter + fuel).toNat
        omega
  | raise => exact absurd hok.admitted id
  | reset =>
      rw [Gauge.step, Option.ite_none_right_eq_some] at hact
      obtain ⟨-, hnext⟩ := hact
      obtain ⟨rfl, rfl⟩ := Prod.mk.inj (Option.some.inj hnext)
      refine ⟨by simp, ?_⟩
      intro j hpc
      by_cases hj : j = i
      · subst hj
        simp at hpc
      · simp only [Function.update_of_ne hj] at hpc
        exact absurd hpc (hok.settled rfl j)
  | proceed =>
      cases hpc : (p.task i).pc with
      | store s =>
          simp only [Gauge.step, hpc, Option.some.injEq, Prod.mk.injEq] at hact
          obtain ⟨rfl, rfl⟩ := hact
          refine h.move le_rfl ?_ (by simp)
          intro hshut
          by_cases htop : s = .emergencyShutdown
          · exact .inr (h.found i (htop ▸ hpc))
          · exact .inl (by simpa [Gauge.publish, fuelGauge, htop] using hshut)
      | clear =>
          simp only [Gauge.step, hpc, Option.some.injEq, Prod.mk.injEq] at hact
          obtain ⟨rfl, rfl⟩ := hact
          exact h.move le_rfl .inl (by simp)
      | idle => simp [Gauge.step, hpc] at hact
      | returned s => simp [Gauge.step, hpc] at hact
      | done => simp [Gauge.step, hpc] at hact
      | aborted => simp [Gauge.step, hpc] at hact

/-- The monitor latches in orderly runs. -/
theorem trap_latched (fuelQuota : UInt64) (hquota : 1 ≤ fuelQuota.toNat)
    (p : Pool (GaugeMemory UInt64 EsdState) (GaugeTask EsdState))
    (hreach : Reach (Pool.step (fuelGauge fuelQuota).step) FuelOrderly
      (fuelGauge fuelQuota).start p) : TrapLatched p := by
  have hinv : Exhausted fuelQuota p ∧ (fuelGauge fuelQuota).Latched p := by
    refine hreach.invariant
      (I := fun p => Exhausted fuelQuota p ∧ (fuelGauge fuelQuota).Latched p)
      ⟨⟨by simp [Gauge.start], by simp [Gauge.start]⟩, Gauge.latched_start⟩ ?_
    intro q e r hq hok hstep
    exact ⟨hq.1.step hquota hok hstep, hq.2.step (hok.orderly hquota hq.1) hstep⟩
  obtain ⟨-, hlatched⟩ := hinv
  refine ⟨hlatched.level, fun i s hlate hpc => ?_⟩
  obtain rfl : s = .emergencyShutdown := hlatched.late i s hlate (.inr hpc)
  rfl

/-- A call that reaches the quota and one that comes after it. -/
theorem trap_latched_twice :
    ∃ p, Reach (Pool.step (fuelGauge 1000).step) FuelOrderly (fuelGauge 1000).start p ∧
      p.shared.shut = true ∧ (p.task 1).late = true ∧ TrapLatched p := by
  let schedule : List (ℕ × GaugeAction UInt64) :=
    [(0, .consume 1000), (0, .proceed), (1, .consume 5), (1, .proceed)]
  have hrun : (exec (guarded (Pool.step (fuelGauge 1000).step) fun p e =>
      (MonitorStep p e ∧ NoWrap p e) ∧ e.2 ≠ .reset ∧ ∀ j : Fin 2,
        (p.task j).pc ≠ .store .normal ∧ (p.task j).pc ≠ .store .warning ∧
          (p.task j).pc ≠ .store .critical ∧ (p.task j).pc ≠ .clear)
      (fuelGauge 1000).start schedule).map
      (fun p => decide (p.shared.shut = true ∧ (p.task 1).late = true)) = some true := by
    decide +kernel
  obtain ⟨p, hexec, hdecide⟩ := Option.map_eq_some_iff.mp hrun
  obtain ⟨hshut, hlate⟩ := of_decide_eq_true hdecide
  have hreach : Reach (Pool.step (fuelGauge 1000).step) FuelOrderly (fuelGauge 1000).start p := by
    refine Pool.reach_of_exec_below 2 (t := ⟨.idle, false⟩) schedule (fun j _ => rfl)
      (by decide) ?_ hexec
    rintro q e hidle ⟨⟨hstep, hwrap⟩, hreset, hquiet⟩
    refine ⟨hstep, hwrap, fun _ _ j => ?_, fun heq => absurd heq hreset⟩
    by_cases hj : j < 2
    · obtain ⟨hnormal, hwarning, hcritical, hclear⟩ := hquiet ⟨j, hj⟩
      rintro (⟨s, hpc, hne⟩ | hpc)
      · cases s <;> simp_all
      · exact hclear hpc
    · simp [StoresLower, hidle j (not_lt.mp hj)]
  exact ⟨p, hreach, hshut, hlate, trap_latched 1000 (by decide) p hreach⟩

/-- A counter that has wrapped lets calls through again. -/
theorem trap_forgotten :
    ¬∀ (fuelQuota : UInt64), 1 ≤ fuelQuota.toNat →
      ∀ p : Pool (GaugeMemory UInt64 EsdState) (GaugeTask EsdState),
      Reach (Pool.step (fuelGauge fuelQuota).step) MonitorStep (fuelGauge fuelQuota).start p →
      TrapLatched p := by
  intro hall
  have hrun : (exec (guarded (Pool.step (fuelGauge 1000).step) MonitorStep)
      (fuelGauge 1000).start
      [(0, .consume 1000), (0, .proceed), (1, .consume 18446744073709551116), (1, .proceed),
        (2, .consume 100), (2, .proceed)]).map
      (fun p => decide ((p.task 2).late = true ∧ (p.task 2).pc = .returned .normal)) =
        some true := by
    decide +kernel
  obtain ⟨p, hexec, hdecide⟩ := Option.map_eq_some_iff.mp hrun
  obtain ⟨hlate, hpc⟩ := of_decide_eq_true hdecide
  have htrap := (hall 1000 (by decide) p (Reach.of_exec_guarded _ hexec)).traps 2 _ hlate hpc
  simp [EsdState.result] at htrap

end Trap

end SereinGateway.Core
