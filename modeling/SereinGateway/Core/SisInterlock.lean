import Mathlib
import SereinGateway.Lib.Latch

/-!
The safety interlock of the kernel: a fuel counter and a state that is stored
when a threshold is passed.

`fuel_consumed` is a 64-bit atomic that wraps, but the sum that a call
compares is a checked addition and so is the product `fuel_limit * 9`; one
that does not fit aborts the process. `consumeFuel` is a call that nothing
interrupts. Between its addition and its store other calls may run, and the
gauge `sisGauge` has the two as separate steps.

The state is an emergency shutdown for good if no call is about to store
`PreShutdown` when it is reached, nothing is consumed below the limit once it
was triggered, and the threshold fits: `SisOrderly`.
-/

namespace SereinGateway.Core

open SereinGateway.Lib

inductive SisInterlockState where
  | normal
  | preShutdown
  | emergencyShutdown
  | locked
  deriving DecidableEq, Repr

/-- `as u8`. -/
def SisInterlockState.code : SisInterlockState → UInt8
  | .normal => 0
  | .preShutdown => 1
  | .emergencyShutdown => 2
  | .locked => 3

structure SisInterlock where
  state : UInt8
  fuelConsumed : UInt64
  fuelLimit : UInt64
  deriving DecidableEq, Repr

def sisFuelQuota : UInt64 := 10000000000

namespace SisInterlock

def new (fuelLimit : UInt64) : SisInterlock := ⟨SisInterlockState.normal.code, 0, fuelLimit⟩

def default : SisInterlock := new sisFuelQuota

def transitionTo (newState : SisInterlockState) (sis : SisInterlock) : SisInterlock :=
  { sis with state := newState.code }

def triggerEsd (sis : SisInterlock) : SisInterlock := sis.transitionTo .emergencyShutdown

def currentState (sis : SisInterlock) : SisInterlockState :=
  if sis.state = 0 then .normal
  else if sis.state = 1 then .preShutdown
  else if sis.state = 2 then .emergencyShutdown
  else if sis.state = 3 then .locked
  else .normal

def consumeFuel (amount : UInt64) (sis : SisInterlock) :
    Option (SisInterlockState × SisInterlock) :=
  let total := sis.fuelConsumed
  let sis := { sis with fuelConsumed := sis.fuelConsumed + amount }
  if total.toNat + amount.toNat < 2 ^ 64 then
    let newTotal := total.toNat + amount.toNat
    if sis.fuelLimit.toNat ≤ newTotal then some (.emergencyShutdown, sis.triggerEsd)
    else if sis.fuelLimit.toNat * 9 < 2 ^ 64 then
      if sis.fuelLimit.toNat * 9 / 10 ≤ newTotal then
        some (.preShutdown, sis.transitionTo .preShutdown)
      else some (.normal, sis)
    else none
  else none

/-- `fuel_remaining`, a saturating subtraction. -/
def fuelRemaining (sis : SisInterlock) : ℕ := sis.fuelLimit.toNat - sis.fuelConsumed.toNat

def reset (sis : SisInterlock) : SisInterlock :=
  { sis with fuelConsumed := 0 }.transitionTo .normal

@[simp] theorem currentState_transitionTo (newState : SisInterlockState) (sis : SisInterlock) :
    (sis.transitionTo newState).currentState = newState := by
  cases newState <;> rfl

end SisInterlock

/-! ### The accesses as steps -/

/-- The state that a call finds: it is `none` if the call overflows. -/
def sisJudge (fuelLimit total amount : UInt64) : Option SisInterlockState :=
  if total.toNat + amount.toNat < 2 ^ 64 then
    if fuelLimit.toNat ≤ total.toNat + amount.toNat then some .emergencyShutdown
    else if fuelLimit.toNat * 9 < 2 ^ 64 then
      if fuelLimit.toNat * 9 / 10 ≤ total.toNat + amount.toNat then some .preShutdown
      else some .normal
    else none
  else none

/-- A call adds, and stores what it found unless that is `Normal`. -/
theorem SisInterlock.consumeFuel_eq (amount : UInt64) (sis : SisInterlock) :
    sis.consumeFuel amount = (sisJudge sis.fuelLimit sis.fuelConsumed amount).map fun s =>
      let sis := { sis with fuelConsumed := sis.fuelConsumed + amount }
      (s, if s = .normal then sis else sis.transitionTo s) := by
  unfold consumeFuel sisJudge
  dsimp only
  split
  · split
    · rfl
    · split
      · split <;> rfl
      · rfl
  · rfl

/-- A call that overflows nowhere records what it was given. -/
theorem SisInterlock.exists_consumeFuel (amount : UInt64) {sis : SisInterlock}
    (hfits : sis.fuelConsumed.toNat + amount.toNat < 2 ^ 64)
    (hlimit : sis.fuelLimit.toNat * 9 < 2 ^ 64) :
    ∃ s sis', sis.consumeFuel amount = some (s, sis') ∧ sis'.fuelLimit = sis.fuelLimit ∧
      sis'.fuelConsumed.toNat = sis.fuelConsumed.toNat + amount.toNat := by
  obtain ⟨s, hs⟩ : ∃ s, sisJudge sis.fuelLimit sis.fuelConsumed amount = some s := by
    unfold sisJudge
    rw [if_pos hfits, if_pos hlimit]
    split
    · exact ⟨_, rfl⟩
    · split <;> exact ⟨_, rfl⟩
  have hsum : (sis.fuelConsumed + amount).toNat = sis.fuelConsumed.toNat + amount.toNat := by
    rw [UInt64.toNat_add]
    omega
  rw [consumeFuel_eq, hs]
  refine ⟨s, _, rfl, ?_, ?_⟩
  · split <;> rfl
  · split <;> exact hsum

/-- Only a state above `Normal` is stored. -/
def sisGauge (fuelLimit : UInt64) : Gauge UInt64 SisInterlockState where
  zero := 0
  add := fun total amount => total + amount
  judge := sisJudge fuelLimit
  publishes := fun s => decide (s ≠ .normal)
  rest := .normal
  top := .emergencyShutdown

/-- The memory of an interlock that no call is using. -/
def SisInterlock.memory (sis : SisInterlock) (shut : Bool) :
    GaugeMemory UInt64 SisInterlockState :=
  ⟨sis.fuelConsumed, sis.currentState, shut⟩

theorem reach_consumeFuel (i : ℕ) {sis sis' : SisInterlock} {amount : UInt64}
    {s : SisInterlockState} (shut : Bool) (h : sis.consumeFuel amount = some (s, sis')) :
    ∃ shut', Reach (Pool.alone (sisGauge sis.fuelLimit).step i) anyStep
      (sis.memory shut, ⟨.idle, false⟩) (sis'.memory shut', ⟨.returned s, shut⟩) := by
  rw [SisInterlock.consumeFuel_eq] at h
  obtain ⟨found, hjudge, heq⟩ := Option.map_eq_some_iff.mp h
  obtain ⟨rfl, rfl⟩ := Prod.mk.inj heq
  by_cases hnormal : found = .normal
  · refine ⟨shut, Reach.of_exec [.consume amount] ?_⟩
    simp [exec, Pool.alone, Gauge.step, sisGauge, SisInterlock.memory, hjudge, hnormal,
      Gauge.judged]
    rfl
  · refine ⟨shut || decide (found = .emergencyShutdown),
      Reach.of_exec [.consume amount, .proceed] ?_⟩
    simp [exec, Pool.alone, Gauge.step, sisGauge, SisInterlock.memory, hjudge, hnormal,
      Gauge.judged, Gauge.publish]
    rfl

/-! ### Emergency shutdown -/

section Irreversible

variable {fuelLimit : UInt64} {p q : Pool (GaugeMemory UInt64 SisInterlockState)
  (GaugeTask SisInterlockState)} {e : ℕ × GaugeAction UInt64}

/-- The steps of the runs in question: there is no reset, and the amounts
consumed do not add up to `2 ^ 64`. -/
def SisStep (p : Pool (GaugeMemory UInt64 SisInterlockState) (GaugeTask SisInterlockState)) :
    ℕ × GaugeAction UInt64 → Prop
  | (_, .consume amount) => p.shared.counter.toNat + amount.toNat < 2 ^ 64
  | (_, .reset) => False
  | (_, .raise) => True
  | (_, .proceed) => True

instance (e : ℕ × GaugeAction UInt64) : Decidable (SisStep p e) :=
  match e with
  | (_, .consume _) => inferInstanceAs (Decidable (_ < _))
  | (_, .reset) => inferInstanceAs (Decidable False)
  | (_, .raise) => inferInstanceAs (Decidable True)
  | (_, .proceed) => inferInstanceAs (Decidable True)

/-- The step stores `EmergencyShutdown`. -/
def StoresEsd (p : Pool (GaugeMemory UInt64 SisInterlockState) (GaugeTask SisInterlockState))
    (e : ℕ × GaugeAction UInt64) : Prop :=
  e.2 = .raise ∨ e.2 = .proceed ∧ (p.task e.1).pc = .store .emergencyShutdown

instance : Decidable (StoresEsd p e) := inferInstanceAs (Decidable (_ ∨ _))

/-- What is consumed leaves the total below the limit only before the
shutdown, and if the threshold of that limit fits. -/
def BelowBeforeEsd (fuelLimit : UInt64)
    (p : Pool (GaugeMemory UInt64 SisInterlockState) (GaugeTask SisInterlockState)) :
    ℕ × GaugeAction UInt64 → Prop
  | (_, .consume amount) => p.shared.counter.toNat + amount.toNat < fuelLimit.toNat →
      p.shared.shut = false ∧ fuelLimit.toNat * 9 < 2 ^ 64
  | (_, .reset) => True
  | (_, .raise) => True
  | (_, .proceed) => True

instance (e : ℕ × GaugeAction UInt64) : Decidable (BelowBeforeEsd fuelLimit p e) :=
  match e with
  | (_, .consume _) => inferInstanceAs (Decidable (_ → _))
  | (_, .reset) => inferInstanceAs (Decidable True)
  | (_, .raise) => inferInstanceAs (Decidable True)
  | (_, .proceed) => inferInstanceAs (Decidable True)

/-- `EmergencyShutdown` is stored only when no call is about to store
`PreShutdown`, and nothing is consumed below the limit after it. -/
structure SisOrderly (fuelLimit : UInt64)
    (p : Pool (GaugeMemory UInt64 SisInterlockState) (GaugeTask SisInterlockState))
    (e : ℕ × GaugeAction UInt64) : Prop where
  admitted : SisStep p e
  quiet : StoresEsd p e → ∀ j, (p.task j).pc ≠ .store .preShutdown
  below : BelowBeforeEsd fuelLimit p e

/-- Once `trigger_esd` has run or a call that reached the limit has ended, the
state is `EmergencyShutdown` and the calls after it return that; and no call
overflows. -/
structure Irreversible
    (p : Pool (GaugeMemory UInt64 SisInterlockState) (GaugeTask SisInterlockState)) : Prop where
  state : p.shared.shut = true → p.shared.level = .emergencyShutdown
  reports : ∀ i s, (p.task i).late = true → (p.task i).pc = .returned s → s = .emergencyShutdown
  fits : ∀ i, (p.task i).pc ≠ .aborted

/-- Where a call stands in such a run: it has not overflowed, and it is not
about to store `Normal` or to reset. -/
structure SisCall (c : GaugeTask SisInterlockState) : Prop where
  fits : c.pc ≠ .aborted
  storing : ∀ s, c.pc = .store s → s = .preShutdown ∨ s = .emergencyShutdown
  noReset : c.pc ≠ .clear

theorem sisJudge_of_admitted (fuelLimit : UInt64) {total amount : UInt64}
    (hfits : total.toNat + amount.toNat < 2 ^ 64)
    (hbelow : total.toNat + amount.toNat < fuelLimit.toNat → fuelLimit.toNat * 9 < 2 ^ 64) :
    ∃ s, sisJudge fuelLimit total amount = some s ∧
      (s = .normal ∨ s = .preShutdown ∨ s = .emergencyShutdown) := by
  unfold sisJudge
  rw [if_pos hfits]
  split
  · exact ⟨_, rfl, .inr (.inr rfl)⟩
  · rename_i hlimit
    rw [if_pos (hbelow (not_le.mp hlimit))]
    split
    · exact ⟨_, rfl, .inr (.inl rfl)⟩
    · exact ⟨_, rfl, .inl rfl⟩

theorem SisCall.step (h : ∀ i, SisCall (p.task i)) (hok : SisOrderly fuelLimit p e)
    (hstep : p.step (sisGauge fuelLimit).step e = some q) : ∀ i, SisCall (q.task i) := by
  obtain ⟨m, c, hact, rfl⟩ := Pool.step_eq_some.mp hstep
  obtain ⟨i, action⟩ := e
  refine Pool.forall_task (p := p) (s := m) (Q := fun _ _ c => SisCall c) h ?_ fun _ _ hj => hj
  cases action with
  | consume amount =>
      rw [Gauge.step, Option.ite_none_right_eq_some] at hact
      obtain ⟨-, hnext⟩ := hact
      obtain ⟨s, hjudge, hs⟩ := sisJudge_of_admitted fuelLimit hok.admitted
        fun hbelow => (hok.below hbelow).2
      have hjudge' : (sisGauge fuelLimit).judge p.shared.counter amount = some s := hjudge
      rw [hjudge'] at hnext
      obtain ⟨rfl, rfl⟩ := Prod.mk.inj (Option.some.inj hnext)
      obtain rfl | rfl | rfl := hs
      all_goals exact ⟨by simp [Gauge.judged, sisGauge], by simp [Gauge.judged, sisGauge],
        by simp [Gauge.judged, sisGauge]⟩
  | raise =>
      rw [Gauge.step, Option.ite_none_right_eq_some] at hact
      obtain ⟨-, hnext⟩ := hact
      obtain ⟨rfl, rfl⟩ := Prod.mk.inj (Option.some.inj hnext)
      exact ⟨by simp, by simp, by simp⟩
  | reset => exact absurd hok.admitted id
  | proceed =>
      cases hpc : (p.task i).pc with
      | store s =>
          simp only [Gauge.step, hpc, Option.some.injEq, Prod.mk.injEq] at hact
          obtain ⟨rfl, rfl⟩ := hact
          exact ⟨by simp, by simp, by simp⟩
      | clear => exact absurd hpc (h i).noReset
      | idle => simp [Gauge.step, hpc] at hact
      | returned s => simp [Gauge.step, hpc] at hact
      | done => simp [Gauge.step, hpc] at hact
      | aborted => simp [Gauge.step, hpc] at hact

theorem SisOrderly.orderly (h : SisOrderly fuelLimit p e) (hcalls : ∀ i, SisCall (p.task i)) :
    (sisGauge fuelLimit).Orderly p e where
  quiet htop j := by
    rintro (⟨s, hpc, hne⟩ | hpc)
    · obtain rfl | rfl := (hcalls j).storing s hpc
      · exact h.quiet htop j hpc
      · exact hne rfl
    · exact (hcalls j).noReset hpc
  reached amount heq hshut := by
    obtain ⟨i, action⟩ := e
    obtain rfl : action = .consume amount := heq
    have hfits : p.shared.counter.toNat + amount.toNat < 2 ^ 64 := h.admitted
    have hlimit : fuelLimit.toNat ≤ p.shared.counter.toNat + amount.toNat := by
      by_contra hbelow
      have hopen := (h.below (not_le.mp hbelow)).1
      rw [hshut] at hopen
      simp at hopen
    show sisJudge fuelLimit p.shared.counter amount = some .emergencyShutdown
    rw [sisJudge, if_pos hfits, if_pos hlimit]

/-- An emergency shutdown is irreversible in orderly runs. -/
theorem shutdown_irreversible (fuelLimit : UInt64)
    (p : Pool (GaugeMemory UInt64 SisInterlockState) (GaugeTask SisInterlockState))
    (hreach : Reach (Pool.step (sisGauge fuelLimit).step) (SisOrderly fuelLimit)
      (sisGauge fuelLimit).start p) : Irreversible p := by
  have hinv : (∀ i, SisCall (p.task i)) ∧ (sisGauge fuelLimit).Latched p := by
    refine hreach.invariant
      (I := fun p => (∀ i, SisCall (p.task i)) ∧ (sisGauge fuelLimit).Latched p)
      ⟨fun i => ⟨?_, ?_, ?_⟩, Gauge.latched_start⟩ ?_
    · simp [Gauge.start]
    · simp [Gauge.start]
    · simp [Gauge.start]
    · intro q e r hq hok hstep
      exact ⟨SisCall.step hq.1 hok hstep, hq.2.step (hok.orderly hq.1) hstep⟩
  obtain ⟨hcalls, hlatched⟩ := hinv
  exact ⟨hlatched.level, fun i s hlate hpc => hlatched.late i s hlate (.inr hpc),
    fun i => (hcalls i).fits⟩

/-- Two calls, of which the first reaches the limit and the second comes after
it. -/
theorem shutdown_irreversible_twice :
    ∃ p, Reach (Pool.step (sisGauge 1000).step) (SisOrderly 1000) (sisGauge 1000).start p ∧
      p.shared.shut = true ∧ (p.task 1).late = true ∧ Irreversible p := by
  let schedule : List (ℕ × GaugeAction UInt64) :=
    [(0, .consume 1000), (0, .proceed), (1, .consume 5), (1, .proceed)]
  have hrun : (exec (guarded (Pool.step (sisGauge 1000).step) fun p e =>
      (SisStep p e ∧ BelowBeforeEsd 1000 p e) ∧
        ∀ j : Fin 2, (p.task j).pc ≠ .store .preShutdown) (sisGauge 1000).start schedule).map
      (fun p => decide (p.shared.shut = true ∧ (p.task 1).late = true)) = some true := by
    decide +kernel
  obtain ⟨p, hexec, hdecide⟩ := Option.map_eq_some_iff.mp hrun
  obtain ⟨hshut, hlate⟩ := of_decide_eq_true hdecide
  have hreach : Reach (Pool.step (sisGauge 1000).step) (SisOrderly 1000)
      (sisGauge 1000).start p := by
    refine Pool.reach_of_exec_below 2 (t := ⟨.idle, false⟩) schedule (fun j _ => rfl)
      (by decide) ?_ hexec
    rintro q e hidle ⟨⟨hstep, hbelow⟩, hquiet⟩
    refine ⟨hstep, fun _ j => ?_, hbelow⟩
    by_cases hj : j < 2
    · exact hquiet ⟨j, hj⟩
    · simp [hidle j (not_lt.mp hj)]
  exact ⟨p, hreach, hshut, hlate, shutdown_irreversible 1000 p hreach⟩

/-- A shutdown that was triggered below the limit is taken back by the next
call that reaches the threshold. -/
theorem shutdown_reversed :
    ¬∀ (fuelLimit : UInt64)
      (p : Pool (GaugeMemory UInt64 SisInterlockState) (GaugeTask SisInterlockState)),
      Reach (Pool.step (sisGauge fuelLimit).step) SisStep (sisGauge fuelLimit).start p →
      Irreversible p := by
  intro hall
  have hrun : (exec (guarded (Pool.step (sisGauge 1000).step) SisStep) (sisGauge 1000).start
      [(0, .raise), (1, .consume 950), (1, .proceed)]).map
      (fun p => decide (p.shared.shut = true ∧ p.shared.level = .preShutdown)) = some true := by
    decide +kernel
  obtain ⟨p, hexec, hdecide⟩ := Option.map_eq_some_iff.mp hrun
  obtain ⟨hshut, hlevel⟩ := of_decide_eq_true hdecide
  have hesd := (hall 1000 p (Reach.of_exec_guarded _ hexec)).state hshut
  rw [hlevel] at hesd
  simp at hesd

end Irreversible

end SereinGateway.Core
