import Mathlib
import SereinGateway.Lib.Census
import SereinGateway.TrafficControl.CircuitBreaker

/-!
How many unresolved requests there are in the half-open state.

`allow_request` compares `probes_in_flight` with the limit, so the limit holds
as far as the counter counts what it stands for. It does not count the
request that takes the circuit from open to half-open, and it is decremented
for requests that it never counted. `Roomy` is the condition on a step under
which this does no harm: where a request is admitted into the half-open
state, the limit leaves room for the unresolved requests that the counter
misses. The accounting is in `ProbesCounted`: the counter and the decrements
that it took without reason add up to the number of requests that hold a
slot, modulo the width of the counter.
-/

namespace SereinGateway.TrafficControl

open SereinGateway.Lib

/-! ### What a step does to the slots -/

/-- A task that has not been counted yet. -/
def BreakerPc.Fresh (pc : BreakerPc) : Prop :=
  pc = .idle ∨ pc = .readStatus ∨ pc = .countProbe

/-- Only the transition to the half-open state is on the way of an admission. -/
def BreakerPc.Sane : BreakerPc → Prop
  | .enter target after => after = .admitted ↔ target = .halfOpen
  | .storing _ after => after ≠ .admitted
  | _ => True

inductive ProbeMove (config : CircuitBreakerConfig) (m : BreakerMemory) (c : BreakerTask)
    (a : BreakerAction) : BreakerMemory → BreakerTask → Prop
  /-- The counter stays, and nobody is admitted into the half-open state. -/
  | quiet {m' : BreakerMemory} {c' : BreakerTask}
      (hprobes : m'.breaker.probesInFlight = m.breaker.probesInFlight)
      (hresets : m'.resets = m.resets) (hmissed : m'.missed = m.missed)
      (hepoch : m.epoch ≤ m'.epoch)
      (hhalf : m'.breaker.state = .halfOpen →
        m.breaker.state = .halfOpen ∧ m'.epoch = m.epoch)
      (hslot : c'.slot = c.slot) (hfresh : c'.pc.Fresh → c.pc.Fresh)
      (hadmitted : c'.admittedIn = c.admittedIn ∨ c'.admittedIn = m.epoch)
      (hflight : c'.pc = .inFlight → m.breaker.state ≠ .closed →
        c.pc = .inFlight ∧ c'.admittedIn = c.admittedIn) : ProbeMove config m c a m' c'
  /-- The task takes a slot and is admitted. -/
  | count (ha : a = .proceed) (hpc : c.pc = .countProbe)
      (hroom : m.breaker.probesInFlight.toNat < config.halfOpenMaxAttempts.toNat) :
      ProbeMove config m c a (m.addProbe .inFlight).1 (m.addProbe .inFlight).2
  /-- The task takes a slot, to give it back with its next step. -/
  | overcount (ha : a = .proceed) (hpc : c.pc = .countProbe) :
      ProbeMove config m c a (m.addProbe .uncountProbe).1 (m.addProbe .uncountProbe).2
  | release {pc : BreakerPc} (hfresh : ¬pc.Fresh) (hflight : pc ≠ .inFlight) :
      ProbeMove config m c a (m.subProbe c pc).1 (m.subProbe c pc).2
  | reset {m' : BreakerMemory} {c' : BreakerTask} (hm : m' = { m.store .probesInFlight with
        writer := m'.writer })
      (hc : c' = { c with pc := c'.pc }) (hfresh : ¬c'.pc.Fresh) (hflight : c'.pc ≠ .inFlight) :
      ProbeMove config m c a m' c'
  /-- The circuit becomes half-open. -/
  | enter {after : AfterTransition} (ha : a = .proceed) (hpc : c.pc = .enter .halfOpen after) :
      ProbeMove config m c a (m.setState .halfOpen)
        { c with pc := after.pc, admittedIn := (m.setState .halfOpen).epoch }

variable {config : CircuitBreakerConfig} {i : ℕ} {m m' : BreakerMemory} {c c' : BreakerTask}
  {a : BreakerAction}

/-- A step that leaves the memory alone up to the parts that no request is
counted in, and does not let the task in. -/
theorem ProbeMove.of_pc {cb : CircuitBreaker} {writer : Option ℕ} {now : ℕ} {pc : BreakerPc}
    (hprobes : cb.probesInFlight = m.breaker.probesInFlight)
    (hstate : cb.status.state = m.breaker.status.state) (hfresh : pc.Fresh → c.pc.Fresh)
    (hflight : pc ≠ .inFlight) :
    ProbeMove config m c a { m with breaker := cb, writer := writer, now := now }
      { c with pc := pc } :=
  .quiet hprobes rfl rfl le_rfl (fun h => ⟨hstate.symm.trans h, rfl⟩) rfl hfresh (.inl rfl)
    (fun h => absurd h hflight)

theorem not_fresh_after (after : AfterTransition) : ¬after.pc.Fresh := by
  cases after <;> simp [AfterTransition.pc, BreakerPc.Fresh]

theorem after_ne_inFlight {after : AfterTransition} (h : after ≠ .admitted) :
    after.pc ≠ .inFlight := by
  cases after <;> simp_all [AfterTransition.pc]

theorem sane_after (after : AfterTransition) : after.pc.Sane := by
  cases after <;> trivial

theorem ProbeMove.of_store (counter : Counter) {writer : Option ℕ} {pc : BreakerPc}
    (hfresh : ¬pc.Fresh) (hflight : pc ≠ .inFlight) :
    ProbeMove config m c a { m.store counter with writer := writer } { c with pc := pc } := by
  cases counter with
  | failureCount => exact .of_pc rfl rfl (fun h => absurd h hfresh) hflight
  | halfOpenSuccesses => exact .of_pc rfl rfl (fun h => absurd h hfresh) hflight
  | probesInFlight => exact .reset rfl rfl hfresh hflight

theorem ProbeMove.of_setState {target : CircuitState} {pc : BreakerPc}
    (htarget : target ≠ .halfOpen) (hfresh : ¬pc.Fresh) (hflight : pc ≠ .inFlight) :
    ProbeMove config m c a { m.setState target with writer := some i } { c with pc := pc } := by
  refine .quiet rfl rfl rfl ?_ (fun h => absurd h htarget) rfl (fun h => absurd h hfresh)
    (.inl rfl) (fun h => absurd h hflight)
  show m.epoch ≤ (m.setState target).epoch
  simp only [BreakerMemory.setState]
  split <;> omega

/-- The section of the read lock in `allow_request` admits in the closed state only. -/
theorem ProbeMove.of_readStatus (hpc : c.pc = .readStatus) :
    ProbeMove config m c a m { c with pc := readStatus config m, admittedIn := m.epoch } := by
  refine .quiet rfl rfl rfl le_rfl (fun h => ⟨h, rfl⟩) rfl (fun _ => .inr (.inl hpc))
    (.inr rfl) ?_
  intro hflight hclosed
  exfalso
  show False
  revert hflight
  simp only [readStatus]
  split
  · contradiction
  · split
    · split <;> simp
    · simp
  · simp

theorem sane_readStatus (config : CircuitBreakerConfig) (m : BreakerMemory) :
    (readStatus config m).Sane := by
  rw [readStatus]
  split
  · trivial
  · split
    · split
      · simp [BreakerPc.Sane]
      · trivial
    · trivial
  · trivial

theorem ProbeMove.of_subProbe {pc : BreakerPc} (hstep : some (m.subProbe c pc) = some (m', c'))
    (hfresh : ¬pc.Fresh) (hflight : pc ≠ .inFlight) (hsane : pc.Sane) :
    ProbeMove config m c a m' c' ∧ c'.pc.Sane := by
  have hpair : m.subProbe c pc = (m', c') := Option.some.inj hstep
  have hpc : c'.pc = pc := by
    have h := (breaker_subProbe m c pc).2.2.2
    rwa [hpair] at h
  have hmove : ProbeMove config m c a (m.subProbe c pc).1 (m.subProbe c pc).2 :=
    .release hfresh hflight
  rw [hpair] at hmove
  exact ⟨hmove, hpc ▸ hsane⟩

/-- One atomic step, according to where the task stands. -/
theorem proceed_cases (hstep : c.proceed config i m = some (m', c')) (hsane : c.pc.Sane) :
    ProbeMove config m c .proceed m' c' ∧ c'.pc.Sane := by
  obtain ⟨pc, admittedIn, slot⟩ := c
  cases pc with
  | idle | rejected | inFlight | resolved => simp [BreakerTask.proceed] at hstep
  | readStatus =>
      simp only [BreakerTask.proceed, Option.ite_none_right_eq_some, Option.some.injEq,
        Prod.mk.injEq] at hstep
      obtain ⟨-, rfl, rfl⟩ := hstep
      exact ⟨.of_readStatus rfl, sane_readStatus config m⟩
  | countProbe =>
      simp only [BreakerTask.proceed] at hstep
      split at hstep
      · cases hstep
        exact ⟨.overcount rfl rfl, trivial⟩
      next hroom =>
        cases hstep
        exact ⟨.count rfl rfl (not_le.mp hroom), trivial⟩
  | uncountProbe | successSubProbe | guardSubProbe =>
      exact ProbeMove.of_subProbe hstep (by simp [BreakerPc.Fresh]) (by simp) trivial
  | failureSubProbe =>
      exact ProbeMove.of_subProbe hstep (by simp [BreakerPc.Fresh]) (by simp)
        (by simp [BreakerPc.Sane])
  | addSuccess | clearFailures | addHalfOpenSuccess =>
      simp only [BreakerTask.proceed, Option.some.injEq, Prod.mk.injEq] at hstep
      obtain ⟨rfl, rfl⟩ := hstep
      exact ⟨.of_pc rfl rfl (by simp [BreakerPc.Fresh]) (by simp), trivial⟩
  | addFailure =>
      simp only [BreakerTask.proceed, Option.ite_none_right_eq_some, Option.some.injEq,
        Prod.mk.injEq] at hstep
      obtain ⟨-, rfl, rfl⟩ := hstep
      exact ⟨.of_pc rfl rfl (by simp [BreakerPc.Fresh]) (by simp), trivial⟩
  | stampFailure failures =>
      simp only [BreakerTask.proceed, Option.ite_none_right_eq_some, Option.some.injEq,
        Prod.mk.injEq] at hstep
      obtain ⟨-, rfl, rfl⟩ := hstep
      refine ⟨.of_pc rfl rfl ?_ ?_, ?_⟩
      · split <;> simp [BreakerPc.Fresh]
      · split <;> simp
      · show BreakerPc.Sane (if _ then _ else _)
        split <;> simp [BreakerPc.Sane]
  -- A look at the state or at a counter, and a jump.
  | successReadState | failureReadState =>
      simp only [BreakerTask.proceed, Option.ite_none_right_eq_some] at hstep
      obtain ⟨-, hstep⟩ := hstep
      split at hstep <;> cases hstep <;>
        exact ⟨.of_pc rfl rfl (by simp [BreakerPc.Fresh]) (by simp), trivial⟩
  | loadHalfOpenSuccesses | guardLoad =>
      simp only [BreakerTask.proceed] at hstep
      split at hstep <;> cases hstep <;>
        exact ⟨.of_pc rfl rfl (by simp [BreakerPc.Fresh]) (by simp), by simp [BreakerPc.Sane]⟩
  | enter target after =>
      simp only [BreakerTask.proceed, Option.ite_none_right_eq_some] at hstep
      obtain ⟨-, hstep⟩ := hstep
      cases target with
      | halfOpen =>
          cases hstep
          exact ⟨.enter rfl rfl, sane_after after⟩
      | closed | opened =>
          cases hstep
          refine ⟨.of_setState (by simp) (by simp [BreakerPc.Fresh]) (by simp), ?_⟩
          simpa [BreakerPc.Sane] using hsane
  | storing stores after =>
      rcases stores with _ | ⟨counter, _ | ⟨next, stores⟩⟩
      · simp [BreakerTask.proceed] at hstep
      · cases hstep
        exact ⟨.of_store counter (not_fresh_after after) (after_ne_inFlight hsane),
          sane_after after⟩
      · cases hstep
        exact ⟨.of_store counter (by simp [BreakerPc.Fresh]) (by simp), hsane⟩

theorem breakerStep_cases (hstep : breakerStep config i m c a = some (m', c'))
    (hsane : c.pc.Sane) : ProbeMove config m c a m' c' ∧ c'.pc.Sane := by
  cases a with
  | allow =>
      simp only [breakerStep, Option.ite_none_right_eq_some, Option.some.injEq,
        Prod.mk.injEq] at hstep
      obtain ⟨hpc, rfl, rfl⟩ := hstep
      exact ⟨.of_pc rfl rfl (fun _ => .inl hpc) (by simp), trivial⟩
  | succeed | fail | dropGuard =>
      simp only [breakerStep, Option.ite_none_right_eq_some, Option.some.injEq,
        Prod.mk.injEq] at hstep
      obtain ⟨-, rfl, rfl⟩ := hstep
      exact ⟨.of_pc rfl rfl (by simp [BreakerPc.Fresh]) (by simp), trivial⟩
  | proceed => exact proceed_cases hstep hsane
  | tick elapsed =>
      cases hstep
      exact ⟨.quiet rfl rfl rfl le_rfl (fun h => ⟨h, rfl⟩) rfl id (.inl rfl)
        (fun h _ => ⟨h, rfl⟩), hsane⟩

/-! ### The accounting -/

/-- A request admitted since the circuit last left the open state that is not
resolved. A request counts as resolved from the moment on at which the call
that records its outcome begins, as a guard's flag says. -/
def Outstanding (m : BreakerMemory) (c : BreakerTask) : Prop :=
  c.pc = .inFlight ∧ c.admittedIn = m.epoch

instance (m : BreakerMemory) (c : BreakerTask) : Decidable (Outstanding m c) :=
  inferInstanceAs (Decidable (_ ∧ _))

/-- The task's increment is in the counter. -/
def HoldsSlot (m : BreakerMemory) (c : BreakerTask) : Prop :=
  c.slot = some m.resets

/-- What is true of each task. -/
structure ProbeTask (m : BreakerMemory) (c : BreakerTask) : Prop where
  slot_le : ∀ r, c.slot = some r → r ≤ m.resets
  admittedIn_le : c.admittedIn ≤ m.epoch
  slot_of_fresh : c.pc.Fresh → c.slot = none
  sane : c.pc.Sane

/-- The counter and the decrements without a slot are the tasks with a slot. -/
structure ProbesCounted (p : Pool BreakerMemory BreakerTask) : Prop where
  tasks : ∀ j, ProbeTask p.shared (p.task j)
  holders : Census (fun j => HoldsSlot p.shared (p.task j))
    ((p.shared.breaker.probesInFlight.toNat + p.shared.missed) % 2 ^ 64)

/-- The limit leaves room for one more request next to the unresolved ones,
counted or not. -/
def Room (config : CircuitBreakerConfig) (p : Pool BreakerMemory BreakerTask) : Prop :=
  ∀ S : Finset ℕ,
    (∀ j ∈ S, Outstanding p.shared (p.task j) ∧ ¬HoldsSlot p.shared (p.task j)) →
    p.shared.breaker.probesInFlight.toNat + S.card + p.shared.missed <
      config.halfOpenMaxAttempts.toNat

/-- The condition on a step: a request is admitted into the half-open state
only when there is room, and the counter has room for one more task. -/
structure Roomy (config : CircuitBreakerConfig) (p : Pool BreakerMemory BreakerTask)
    (e : ℕ × BreakerAction) : Prop where
  fits : e.2 = .proceed → (p.task e.1).pc = .countProbe →
    ∀ S : Finset ℕ, (∀ j ∈ S, HoldsSlot p.shared (p.task j)) → S.card + 1 < 2 ^ 64
  count : e.2 = .proceed → (p.task e.1).pc = .countProbe →
    p.shared.breaker.probesInFlight.toNat < config.halfOpenMaxAttempts.toNat →
    p.shared.breaker.state = .halfOpen → Room config p
  enter : e.2 = .proceed → ∀ after, (p.task e.1).pc = .enter .halfOpen after →
    p.shared.breaker.state ≠ .opened → Room config p

/-- No more unresolved requests than the limit in the half-open state. -/
def ProbeBound (config : CircuitBreakerConfig) (p : Pool BreakerMemory BreakerTask) : Prop :=
  p.shared.breaker.state = .halfOpen →
    ∀ S : Finset ℕ, (∀ j ∈ S, Outstanding p.shared (p.task j)) →
      S.card ≤ config.halfOpenMaxAttempts.toNat

/-- With room there are fewer unresolved requests than the limit, since those
with a slot are in the counter. -/
theorem card_lt_of_room {p : Pool BreakerMemory BreakerTask} (hcounted : ProbesCounted p)
    (hroom : Room config p) {S : Finset ℕ} (hS : ∀ j ∈ S, Outstanding p.shared (p.task j)) :
    S.card < config.halfOpenMaxAttempts.toNat := by
  classical
  have hsplit := Finset.card_filter_add_card_filter_not (s := S)
    (fun j => HoldsSlot p.shared (p.task j))
  have hheld : (S.filter fun j => HoldsSlot p.shared (p.task j)).card ≤
      (p.shared.breaker.probesInFlight.toNat + p.shared.missed) % 2 ^ 64 :=
    hcounted.holders.card_le fun j hj => (Finset.mem_filter.mp hj).2
  have hfree := hroom (S.filter fun j => ¬HoldsSlot p.shared (p.task j)) fun j hj =>
    ⟨hS j (Finset.mem_filter.mp hj).1, (Finset.mem_filter.mp hj).2⟩
  have hmod := Nat.mod_le (p.shared.breaker.probesInFlight.toNat + p.shared.missed) (2 ^ 64)
  omega

/-- A task keeps its properties under a step of another task. -/
theorem ProbeTask.mono (h : ProbeTask m c) (hresets : m.resets ≤ m'.resets)
    (hepoch : m.epoch ≤ m'.epoch) : ProbeTask m' c where
  slot_le r hr := (h.slot_le r hr).trans hresets
  admittedIn_le := h.admittedIn_le.trans hepoch
  slot_of_fresh := h.slot_of_fresh
  sane := h.sane

theorem epoch_le_setState (m : BreakerMemory) (target : CircuitState) :
    m.epoch ≤ (m.setState target).epoch := by
  simp only [BreakerMemory.setState]
  split <;> omega

theorem ProbeMove.grows (h : ProbeMove config m c a m' c') :
    m.resets ≤ m'.resets ∧ m.epoch ≤ m'.epoch := by
  cases h with
  | quiet _ hresets _ hepoch _ _ _ _ _ => exact ⟨hresets.ge, hepoch⟩
  | count | overcount => exact ⟨le_rfl, le_rfl⟩
  | release =>
      rw [BreakerMemory.subProbe]
      split <;> exact ⟨le_rfl, le_rfl⟩
  | reset hm =>
      rw [hm]
      exact ⟨Nat.le_succ _, le_rfl⟩
  | enter => exact ⟨le_rfl, epoch_le_setState m .halfOpen⟩

theorem ProbeTask.move (h : ProbeTask m c) (hmove : ProbeMove config m c a m' c')
    (hsane : c'.pc.Sane) : ProbeTask m' c' := by
  have hslot_le : ∀ r, c'.slot = c.slot → c'.slot = some r → r ≤ m'.resets := by
    intro r hsame hr
    exact (h.slot_le r (hsame ▸ hr)).trans hmove.grows.1
  cases hmove with
  | quiet _ _ _ hepoch _ hslot hfresh hadmitted _ =>
      refine ⟨fun r => hslot_le r hslot, ?_, fun hf => hslot.trans (h.slot_of_fresh (hfresh hf)),
        hsane⟩
      rcases hadmitted with hsame | hnow
      · exact hsame ▸ h.admittedIn_le.trans hepoch
      · exact hnow ▸ hepoch
  | count | overcount =>
      refine ⟨?_, le_rfl, ?_, hsane⟩
      · simp [BreakerMemory.addProbe]
      · simp [BreakerMemory.addProbe, BreakerPc.Fresh]
  | release hfresh _ =>
      refine ⟨?_, ?_, ?_, hsane⟩
      · rw [BreakerMemory.subProbe]
        split
        · simp
        · exact h.slot_le
      · rw [BreakerMemory.subProbe]
        split <;> exact h.admittedIn_le
      · rw [(breaker_subProbe m c _).2.2.2]
        exact fun hf => absurd hf hfresh
  | reset hm hc hfresh _ =>
      refine ⟨fun r => hslot_le r (by rw [hc]), ?_, fun hf => absurd hf hfresh, hsane⟩
      rw [hm, hc]
      exact h.admittedIn_le
  | enter =>
      exact ⟨fun r => hslot_le r rfl, le_rfl, fun hf => absurd hf (not_fresh_after _), hsane⟩

section Step

variable {p : Pool BreakerMemory BreakerTask}

theorem holders_addProbe (hcounted : ProbesCounted p)
    (hfits : ∀ S : Finset ℕ, (∀ j ∈ S, HoldsSlot p.shared (p.task j)) → S.card + 1 < 2 ^ 64)
    (hpc : (p.task i).pc = .countProbe) (pc : BreakerPc) :
    Census (fun j => HoldsSlot (p.shared.addProbe pc).1
        (Function.update p.task i (p.shared.addProbe pc).2 j))
      (((p.shared.addProbe pc).1.breaker.probesInFlight.toNat +
        (p.shared.addProbe pc).1.missed) % 2 ^ 64) := by
  have hfree : ¬HoldsSlot p.shared (p.task i) := by
    rw [HoldsSlot, (hcounted.tasks i).slot_of_fresh (.inr (.inr hpc))]
    simp
  obtain ⟨S, hS, hcard⟩ := hcounted.holders.exists_card
  have hlt := hfits S hS
  have hnew : ((p.shared.breaker.probesInFlight + 1).toNat + p.shared.missed) % 2 ^ 64 =
      (p.shared.breaker.probesInFlight.toNat + p.shared.missed) % 2 ^ 64 + 1 := by
    rw [UInt64.toNat_add, UInt64.toNat_one]
    omega
  show Census _ (((p.shared.breaker.probesInFlight + 1).toNat + p.shared.missed) % 2 ^ 64)
  rw [hnew]
  exact hcounted.holders.update_enter hfree rfl

theorem holders_subProbe (hcounted : ProbesCounted p) (pc : BreakerPc) :
    Census (fun j => HoldsSlot (p.shared.subProbe (p.task i) pc).1
        (Function.update p.task i (p.shared.subProbe (p.task i) pc).2 j))
      (((p.shared.subProbe (p.task i) pc).1.breaker.probesInFlight.toNat +
        (p.shared.subProbe (p.task i) pc).1.missed) % 2 ^ 64) := by
  rw [BreakerMemory.subProbe]
  split
  next hheld =>
    obtain ⟨n, hn, hleft⟩ := hcounted.holders.update_leave
      (c := { p.task i with pc := pc, slot := none }) hheld (by simp [HoldsSlot])
    have hnew : ((p.shared.breaker.probesInFlight - 1).toNat + p.shared.missed) % 2 ^ 64 = n := by
      rw [UInt64.toNat_sub, UInt64.toNat_one]
      omega
    show Census _ (((p.shared.breaker.probesInFlight - 1).toNat + p.shared.missed) % 2 ^ 64)
    rw [hnew]
    exact hleft
  next hfree =>
    have hnew : ((p.shared.breaker.probesInFlight - 1).toNat + (p.shared.missed + 1)) % 2 ^ 64 =
        (p.shared.breaker.probesInFlight.toNat + p.shared.missed) % 2 ^ 64 := by
      rw [UInt64.toNat_sub, UInt64.toNat_one]
      omega
    show Census _ (((p.shared.breaker.probesInFlight - 1).toNat + (p.shared.missed + 1)) % 2 ^ 64)
    rw [hnew]
    exact hcounted.holders.update_stay Iff.rfl

theorem holders_step (hcounted : ProbesCounted p) (hok : Roomy config p (i, a))
    (hmove : ProbeMove config p.shared (p.task i) a m' c') :
    Census (fun j => HoldsSlot m' (Function.update p.task i c' j))
      ((m'.breaker.probesInFlight.toNat + m'.missed) % 2 ^ 64) := by
  cases hmove with
  | quiet hprobes hresets hmissed _ _ hslot _ _ _ =>
      rw [hprobes, hmissed]
      simp only [HoldsSlot, hresets]
      exact hcounted.holders.update_stay (by rw [HoldsSlot, HoldsSlot, hslot])
  | count ha hpc _ => exact holders_addProbe hcounted (hok.fits ha hpc) hpc .inFlight
  | overcount ha hpc => exact holders_addProbe hcounted (hok.fits ha hpc) hpc .uncountProbe
  | @release pc _ _ => exact holders_subProbe hcounted pc
  | reset hm hc _ _ =>
      -- Every slot is older than the new value of `resets`.
      have hprobes : m'.breaker.probesInFlight = 0 := by rw [hm]; rfl
      have hmissed : m'.missed = 0 := by rw [hm]; rfl
      have hresets : m'.resets = p.shared.resets + 1 := by rw [hm]; rfl
      rw [hprobes, hmissed]
      refine Census.zero ?_
      intro j hj
      rw [HoldsSlot, hresets] at hj
      have hold : (p.task j).slot = some (p.shared.resets + 1) := by
        by_cases hji : j = i
        · subst hji
          rw [Function.update_self, hc] at hj
          exact hj
        · rwa [Function.update_of_ne hji] at hj
      have := (hcounted.tasks j).slot_le _ hold
      omega
  | enter => exact hcounted.holders.update_stay Iff.rfl

theorem ProbesCounted.step {q : Pool BreakerMemory BreakerTask} {e : ℕ × BreakerAction}
    (hcounted : ProbesCounted p) (hok : Roomy config p e)
    (hstep : p.step (breakerStep config) e = some q) : ProbesCounted q := by
  obtain ⟨m', c', hact, rfl⟩ := Pool.step_eq_some.mp hstep
  obtain ⟨hmove, hsane⟩ := breakerStep_cases hact (hcounted.tasks e.1).sane
  refine ⟨?_, holders_step hcounted hok hmove⟩
  refine Pool.forall_task (Q := fun m _ c => ProbeTask m c) hcounted.tasks
    ((hcounted.tasks e.1).move hmove hsane) ?_
  intro j _ hj
  exact hj.mono hmove.grows.1 hmove.grows.2

/-- Unresolved requests after a step were unresolved before, the moving task
apart. -/
theorem outstanding_of_update {S : Finset ℕ} (hepoch : m'.epoch = p.shared.epoch)
    (hS : ∀ j ∈ S, Outstanding m' (Function.update p.task i c' j)) :
    ∀ j ∈ S.erase i, Outstanding p.shared (p.task j) := by
  intro j hj
  obtain ⟨hji, hmem⟩ := Finset.mem_erase.mp hj
  have h := hS j hmem
  rwa [Function.update_of_ne hji, Outstanding, hepoch] at h

/-- A step that admits nobody. -/
theorem card_le_of_kept {S : Finset ℕ} (hbound : ProbeBound config p)
    (hhalf : p.shared.breaker.state = .halfOpen) (hepoch : m'.epoch = p.shared.epoch)
    (hkept : Outstanding m' c' → Outstanding p.shared (p.task i))
    (hS : ∀ j ∈ S, Outstanding m' (Function.update p.task i c' j)) :
    S.card ≤ config.halfOpenMaxAttempts.toNat := by
  refine hbound hhalf S ?_
  intro j hj
  by_cases hji : j = i
  · subst hji
    have h := hS j hj
    rw [Function.update_self] at h
    exact hkept h
  · exact outstanding_of_update hepoch hS j (Finset.mem_erase.mpr ⟨hji, hj⟩)

theorem card_le_of_room {S : Finset ℕ} (hcounted : ProbesCounted p) (hroom : Room config p)
    (hepoch : m'.epoch = p.shared.epoch)
    (hS : ∀ j ∈ S, Outstanding m' (Function.update p.task i c' j)) :
    S.card ≤ config.halfOpenMaxAttempts.toNat := by
  have hlt := card_lt_of_room hcounted hroom (outstanding_of_update hepoch hS)
  have herase : S.card - 1 ≤ (S.erase i).card := Finset.pred_card_le_card_erase
  omega

/-- The request that takes the circuit out of the open state is the first of
its epoch. -/
theorem card_le_of_opened {S : Finset ℕ} (hmax : 1 ≤ config.halfOpenMaxAttempts.toNat)
    (hcounted : ProbesCounted p) (hepoch : m'.epoch = p.shared.epoch + 1)
    (hS : ∀ j ∈ S, Outstanding m' (Function.update p.task i c' j)) :
    S.card ≤ config.halfOpenMaxAttempts.toNat := by
  have honly : S ⊆ {i} := by
    intro j hj
    by_contra hji
    rw [Finset.mem_singleton] at hji
    have hadmitted := (hS j hj).2
    rw [Function.update_of_ne hji, hepoch] at hadmitted
    have := (hcounted.tasks j).admittedIn_le
    omega
  calc
    S.card ≤ ({i} : Finset ℕ).card := Finset.card_le_card honly
    _ = 1 := Finset.card_singleton i
    _ ≤ config.halfOpenMaxAttempts.toNat := hmax

theorem ProbeBound.step {q : Pool BreakerMemory BreakerTask} {e : ℕ × BreakerAction}
    (hmax : 1 ≤ config.halfOpenMaxAttempts.toNat) (hcounted : ProbesCounted p)
    (hbound : ProbeBound config p) (hok : Roomy config p e)
    (hstep : p.step (breakerStep config) e = some q) : ProbeBound config q := by
  obtain ⟨i, a⟩ := e
  obtain ⟨m', c', hact, rfl⟩ := Pool.step_eq_some.mp hstep
  obtain ⟨hmove, -⟩ := breakerStep_cases hact (hcounted.tasks i).sane
  intro hhalf S hS
  cases hmove with
  | quiet _ _ _ _ hhalf' _ _ _ hflight =>
      obtain ⟨hbefore, hepoch⟩ := hhalf' hhalf
      refine card_le_of_kept hbound hbefore hepoch ?_ hS
      rintro ⟨hpc, hadmitted⟩
      obtain ⟨hpc', hsame⟩ := hflight hpc (by rw [hbefore]; simp)
      exact ⟨hpc', hsame.symm.trans (hadmitted.trans hepoch)⟩
  | count ha hpc hroom =>
      exact card_le_of_room hcounted (hok.count ha hpc hroom hhalf) rfl hS
  | overcount =>
      refine card_le_of_kept hbound hhalf rfl ?_ hS
      rintro ⟨hpc, -⟩
      simp [BreakerMemory.addProbe] at hpc
  | @release pc _ hflight =>
      have hbefore : (p.shared.subProbe (p.task i) pc).1.breaker.state = .halfOpen := hhalf
      rw [(breaker_subProbe p.shared (p.task i) pc).1] at hbefore
      refine card_le_of_kept hbound hbefore ?_ ?_ hS
      · rw [BreakerMemory.subProbe]
        split <;> rfl
      · rintro ⟨hpc, -⟩
        rw [(breaker_subProbe p.shared (p.task i) pc).2.2.2] at hpc
        exact absurd hpc hflight
  | reset hm _ _ hflight =>
      have hbefore : m'.breaker.state = .halfOpen := hhalf
      rw [hm] at hbefore
      refine card_le_of_kept hbound hbefore (by rw [hm]; rfl) ?_ hS
      rintro ⟨hpc, -⟩
      exact absurd hpc hflight
  | @enter after ha hpc =>
      by_cases hopened : p.shared.breaker.state = .opened
      · refine card_le_of_opened hmax hcounted ?_ hS
        simp [BreakerMemory.setState, hopened]
      · refine card_le_of_room hcounted (hok.enter ha after hpc hopened) ?_ hS
        simp [BreakerMemory.setState, hopened]

end Step

theorem probesCounted_start : ProbesCounted breakerStart where
  tasks j := ⟨by simp [breakerStart, BreakerTask.start], le_rfl, fun _ => rfl, trivial⟩
  holders := Census.zero fun j h => by simp [HoldsSlot, breakerStart, BreakerTask.start] at h

/-- In every run in which requests are admitted into the half-open state only
when there is room, no more requests than the limit are unresolved there. -/
theorem outstanding_le_of_roomy (config : CircuitBreakerConfig)
    (hmax : 1 ≤ config.halfOpenMaxAttempts.toNat) {p : Pool BreakerMemory BreakerTask}
    (hreach : Reach (Pool.step (breakerStep config)) (Roomy config) breakerStart p)
    (hhalf : p.shared.breaker.state = .halfOpen) (S : Finset ℕ)
    (hS : ∀ j ∈ S, Outstanding p.shared (p.task j)) :
    S.card ≤ config.halfOpenMaxAttempts.toNat := by
  have hinv : ProbesCounted p ∧ ProbeBound config p := by
    refine hreach.invariant (I := fun p => ProbesCounted p ∧ ProbeBound config p)
      ⟨probesCounted_start, ?_⟩ ?_
    · intro h
      simp [breakerStart, BreakerMemory.start, CircuitBreaker.new, CircuitBreaker.state] at h
    · intro p e q hp hok hstep
      exact ⟨hp.1.step hok hstep, ProbeBound.step hmax hp.1 hp.2 hok hstep⟩
  exact hinv.2 hhalf S hS

/-- A step at which no counted admission and no late transition happens. -/
def uncontended (p : Pool BreakerMemory BreakerTask) (e : ℕ × BreakerAction) : Bool :=
  match (p.task e.1).pc with
  | .countProbe => false
  | .enter .halfOpen _ => p.shared.breaker.state = .opened
  | _ => true

theorem roomy_of_uncontended (config : CircuitBreakerConfig)
    {p : Pool BreakerMemory BreakerTask} {e : ℕ × BreakerAction}
    (h : uncontended p e = true) : Roomy config p e where
  fits _ hpc := by simp [uncontended, hpc] at h
  count _ hpc := by simp [uncontended, hpc] at h
  enter _ after hpc hopened := by simp [uncontended, hpc, hopened] at h

/-- One failure opens the circuit, and one success closes it again. -/
def singleProbe : CircuitBreakerConfig := ⟨1, 30, 1⟩

/-- Task 0 fails; after the open duration task 1 takes the circuit to half-open. -/
def recovery : List (ℕ × BreakerAction) :=
  [(0, .fail), (0, .proceed), (0, .proceed), (0, .proceed), (0, .proceed), (0, .proceed),
    (0, .tick 30), (1, .allow), (1, .proceed), (1, .proceed)]

theorem outstanding_le_recovery :
    ∃ p, Reach (Pool.step (breakerStep singleProbe)) (Roomy singleProbe) breakerStart p ∧
      p.shared.breaker.state = .halfOpen ∧ Outstanding p.shared (p.task 1) ∧
      ∀ S : Finset ℕ, (∀ j ∈ S, Outstanding p.shared (p.task j)) → S.card ≤ 1 := by
  have hcheck : (exec (guarded (Pool.step (breakerStep singleProbe))
      (fun p e => uncontended p e = true)) breakerStart recovery).map
        (fun p => decide (p.shared.breaker.state = .halfOpen ∧
          Outstanding p.shared (p.task 1))) = some true := by
    decide +kernel
  obtain ⟨p, hp, hend⟩ := Option.map_eq_some_iff.mp hcheck
  obtain ⟨hhalf, hfirst⟩ := of_decide_eq_true hend
  have hroomy := (Reach.of_exec_guarded recovery hp).mono fun _ _ =>
    roomy_of_uncontended singleProbe
  exact ⟨p, hroomy, hhalf, hfirst,
    outstanding_le_of_roomy singleProbe (by decide) hroomy hhalf⟩

/-- With a limit of one, the request that takes the circuit to half-open and a
second one are in flight together. -/
theorem two_probes_in_flight :
    ¬∀ (config : CircuitBreakerConfig), 1 ≤ config.halfOpenMaxAttempts.toNat →
      ∀ p, Reach (Pool.step (breakerStep config)) anyStep breakerStart p →
        p.shared.breaker.state = .halfOpen →
        ∀ S : Finset ℕ, (∀ j ∈ S, Outstanding p.shared (p.task j)) →
          S.card ≤ config.halfOpenMaxAttempts.toNat := by
  intro hall
  have hcheck : (exec (Pool.step (breakerStep singleProbe)) breakerStart
      (recovery ++ [(2, .allow), (2, .proceed), (2, .proceed)])).map
        (fun p => decide (p.shared.breaker.state = .halfOpen ∧
          Outstanding p.shared (p.task 1) ∧ Outstanding p.shared (p.task 2))) = some true := by
    decide +kernel
  obtain ⟨p, hp, hend⟩ := Option.map_eq_some_iff.mp hcheck
  obtain ⟨hhalf, hfirst, hsecond⟩ := of_decide_eq_true hend
  have hboth := hall singleProbe (by decide) p (Reach.of_exec _ hp) hhalf {1, 2} ?_
  · exact absurd hboth (by decide)
  · intro j hj
    rcases Finset.mem_insert.mp hj with rfl | hj
    · exact hfirst
    · obtain rfl := Finset.mem_singleton.mp hj
      exact hsecond

end SereinGateway.TrafficControl
