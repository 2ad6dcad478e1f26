import Mathlib.Data.Option.Basic
import SereinGateway.Lib.Transition

/-!
A counter and a level that is published from it, without a lock around them.

A call adds to the counter, judges from the value that it found which level
has been reached, and stores that level as a second step, or leaves it alone.
The highest level is meant to be a latch: once it has been published it stays
until a reset. Two things can break it. A slower call may still store the
lower level that it judged before, and a later call may judge a lower level
although the counter should have kept what was added.

`Orderly` excludes both at the steps where they would happen, and `Latched`
is the invariant of the runs that are left. A call is late when its addition
comes after the latch was set; it must find the highest level.
-/

namespace SereinGateway.Lib

/-- How calls add to a counter, and what they judge from it. A call that
judges `none` ends the program. -/
structure Gauge (κ L : Type*) where
  zero : κ
  add : κ → κ → κ
  judge : κ → κ → Option L
  publishes : L → Bool
  rest : L
  top : L

/-- Where a call stands: before its first access, before its store, or after
its end. -/
inductive GaugePc (L : Type*) where
  | idle
  | store (level : L)
  | clear
  | returned (level : L)
  | done
  | aborted
  deriving DecidableEq, Repr

/-- The shared memory. Whether the latch was set since the latest reset is not
in the program. -/
structure GaugeMemory (κ L : Type*) where
  counter : κ
  level : L
  shut : Bool
  deriving DecidableEq, Repr

/-- A call. Whether the latch was set before its addition is not in the
program. -/
structure GaugeTask (L : Type*) where
  pc : GaugePc L
  late : Bool
  deriving DecidableEq, Repr

inductive GaugeAction (κ : Type*) where
  | consume (amount : κ)
  | raise
  | reset
  | proceed
  deriving DecidableEq, Repr

namespace Gauge

variable {κ L : Type*} (g : Gauge κ L)

def publish [DecidableEq L] (m : GaugeMemory κ L) (level : L) : GaugeMemory κ L :=
  { m with level := level, shut := m.shut || decide (level = g.top) }

/-- Where a call goes that has judged a level. -/
def judged (level : L) : GaugePc L := if g.publishes level then .store level else .returned level

def step [DecidableEq L] (_ : ℕ) (m : GaugeMemory κ L) (c : GaugeTask L) :
    GaugeAction κ → Option (GaugeMemory κ L × GaugeTask L)
  | .consume amount =>
      if c.pc = .idle then
        some ({ m with counter := g.add m.counter amount },
          match g.judge m.counter amount with
          | some level => ⟨g.judged level, m.shut⟩
          | none => ⟨.aborted, m.shut⟩)
      else none
  | .raise => if c.pc = .idle then some (g.publish m g.top, { c with pc := .done }) else none
  | .reset =>
      if c.pc = .idle then
        some ({ m with counter := g.zero, shut := false }, { c with pc := .clear })
      else none
  | .proceed =>
      match c.pc with
      | .store level => some (g.publish m level, { c with pc := .returned level })
      | .clear => some ({ m with level := g.rest }, { c with pc := .done })
      | .idle | .returned _ | .done | .aborted => none

def start : Pool (GaugeMemory κ L) (GaugeTask L) :=
  ⟨⟨g.zero, g.rest, false⟩, fun _ => ⟨.idle, false⟩⟩

/-- The call is about to store something below the highest level. -/
def Lowers (c : GaugeTask L) : Prop :=
  (∃ level, c.pc = .store level ∧ level ≠ g.top) ∨ c.pc = .clear

/-- The step stores the highest level. -/
def StoresTop (p : Pool (GaugeMemory κ L) (GaugeTask L)) (e : ℕ × GaugeAction κ) : Prop :=
  e.2 = .raise ∨ e.2 = .proceed ∧ (p.task e.1).pc = .store g.top

/-- The highest level is stored only when no call is about to store a lower
one, and the calls that come after it find it reached. -/
structure Orderly (p : Pool (GaugeMemory κ L) (GaugeTask L)) (e : ℕ × GaugeAction κ) : Prop where
  quiet : g.StoresTop p e → ∀ j, ¬g.Lowers (p.task j)
  reached : ∀ amount, e.2 = .consume amount → p.shared.shut = true →
    g.judge p.shared.counter amount = some g.top

structure Latched (p : Pool (GaugeMemory κ L) (GaugeTask L)) : Prop where
  level : p.shared.shut = true → p.shared.level = g.top
  quiet : p.shared.shut = true → ∀ j, ¬g.Lowers (p.task j)
  late : ∀ j level, (p.task j).late = true →
    (p.task j).pc = .store level ∨ (p.task j).pc = .returned level → level = g.top

variable {g} {p q : Pool (GaugeMemory κ L) (GaugeTask L)}

theorem latched_start : g.Latched g.start where
  level h := by simp [start] at h
  quiet h := by simp [start] at h
  late j level h := by simp [start] at h

/-- A step of the call `i`, after which it is as good as before. -/
theorem Latched.move {i : ℕ} {m : GaugeMemory κ L} {c : GaugeTask L} (h : g.Latched p)
    (hlevel : m.shut = true → m.level = g.top)
    (hshut : m.shut = true → (∀ j, j ≠ i → ¬g.Lowers (p.task j)) ∧ ¬g.Lowers c)
    (hlate : ∀ level, c.late = true → c.pc = .store level ∨ c.pc = .returned level →
      level = g.top) : g.Latched ⟨m, Function.update p.task i c⟩ where
  level := hlevel
  quiet hm j := by
    obtain ⟨hothers, hown⟩ := hshut hm
    by_cases hj : j = i
    · subst hj
      simpa using hown
    · simpa [Function.update_of_ne hj] using hothers j hj
  late := Pool.forall_task (p := p) (s := m)
    (Q := fun _ _ (c : GaugeTask L) => ∀ level, c.late = true →
      c.pc = .store level ∨ c.pc = .returned level → level = g.top) h.late hlate
    fun _ _ hj => hj

theorem Latched.step [DecidableEq L] {e : ℕ × GaugeAction κ} (h : g.Latched p) (hok : g.Orderly p e)
    (hstep : p.step g.step e = some q) : g.Latched q := by
  obtain ⟨m, c, hact, rfl⟩ := Pool.step_eq_some.mp hstep
  obtain ⟨i, action⟩ := e
  cases action with
  | consume amount =>
      rw [Gauge.step, Option.ite_none_right_eq_some] at hact
      obtain ⟨-, hnext⟩ := hact
      obtain ⟨rfl, rfl⟩ := Prod.mk.inj (Option.some.inj hnext)
      have hown : p.shared.shut = true → ∀ level, g.judge p.shared.counter amount = some level →
          level = g.top := by
        intro hshut level hjudge
        exact Option.some.inj (hjudge.symm.trans (hok.reached amount rfl hshut))
      refine h.move h.level (fun hshut => ⟨fun j _ => h.quiet hshut j, ?_⟩) ?_
      · rw [hok.reached amount rfl hshut]
        simp only [Lowers, judged]
        split <;> simp
      · intro level hlate hpc
        cases hjudge : g.judge p.shared.counter amount with
        | none => simp [hjudge] at hpc
        | some found =>
            simp only [hjudge] at hlate hpc
            have htop := hown hlate found hjudge
            simp only [judged] at hpc
            split at hpc <;> simp_all
  | raise =>
      rw [Gauge.step, Option.ite_none_right_eq_some] at hact
      obtain ⟨-, hnext⟩ := hact
      obtain ⟨rfl, rfl⟩ := Prod.mk.inj (Option.some.inj hnext)
      refine h.move (fun _ => rfl) (fun _ => ⟨fun j _ => hok.quiet (.inl rfl) j, ?_⟩) (by simp)
      simp [Lowers]
  | reset =>
      rw [Gauge.step, Option.ite_none_right_eq_some] at hact
      obtain ⟨-, hnext⟩ := hact
      obtain ⟨rfl, rfl⟩ := Prod.mk.inj (Option.some.inj hnext)
      exact h.move (by simp) (by simp) (by simp)
  | proceed =>
      cases hpc : (p.task i).pc with
      | store level =>
          simp only [Gauge.step, hpc, Option.some.injEq, Prod.mk.injEq] at hact
          obtain ⟨rfl, rfl⟩ := hact
          have hlate : (p.task i).late = true → level = g.top :=
            fun hlate => h.late i level hlate (.inl hpc)
          have hreturned : ¬g.Lowers { p.task i with pc := .returned level } := by
            simp [Lowers]
          by_cases htop : level = g.top
          · have hquiet := hok.quiet (.inr ⟨rfl, htop ▸ hpc⟩)
            refine h.move (fun _ => htop) (fun _ => ⟨fun j _ => hquiet j, hreturned⟩) ?_
            intro level' _ hpc'
            simp_all
          · -- A call with a lower level to store means that the latch is not set.
            have hopen : ¬p.shared.shut = true :=
              fun hshut => h.quiet hshut i (.inl ⟨level, hpc, htop⟩)
            refine h.move ?_ ?_ fun level' hlate' => absurd (hlate hlate') htop
            all_goals
              intro hshut
              simp [publish, htop, hopen] at hshut
      | clear =>
          simp only [Gauge.step, hpc, Option.some.injEq, Prod.mk.injEq] at hact
          obtain ⟨rfl, rfl⟩ := hact
          have hopen : ¬p.shared.shut = true := fun hshut => h.quiet hshut i (.inr hpc)
          exact h.move (fun hshut => absurd hshut hopen) (fun hshut => absurd hshut hopen) (by simp)
      | idle => simp [Gauge.step, hpc] at hact
      | returned level => simp [Gauge.step, hpc] at hact
      | done => simp [Gauge.step, hpc] at hact
      | aborted => simp [Gauge.step, hpc] at hact

end Gauge

end SereinGateway.Lib
