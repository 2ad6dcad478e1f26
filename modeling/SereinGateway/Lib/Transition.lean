import Mathlib.Data.Nat.Notation
import Mathlib.Data.Option.Basic
import Mathlib.Logic.Function.Basic

/-!
Runs of a state machine, and pools of tasks over shared memory.

A machine is a partial step function: `step s a = some s'` when the step `a`
is enabled in `s` and leads to `s'`. `Reach step ok s t` says that some run
leads from `s` to `t` and that every step of it satisfied `ok` in the state
in which it was taken; with the trivial `ok` it is reachability. A property
that holds initially and is kept by every admitted step holds in every state
reached, which is `Reach.invariant`.

`Pool` is the machine of any number of tasks that interleave their atomic
steps: a step of a task reads and writes the shared state and the task's own
local state and leaves the other tasks alone. An invariant of a pool is
usually a property `Q` of the shared state and one task, and `Pool.forall_task`
splits its preservation in two: the task that moves establishes it, and the
others keep it although the shared state changed under them.
-/

namespace SereinGateway.Lib

section Runs

variable {σ ℓ : Type*}

/-- Some run from `s` to `t`, each step of which satisfied `ok` when taken. -/
inductive Reach (step : σ → ℓ → Option σ) (ok : σ → ℓ → Prop) (s : σ) : σ → Prop
  | refl : Reach step ok s s
  | tail {t u : σ} {a : ℓ} : Reach step ok s t → ok t a → step t a = some u →
      Reach step ok s u

/-- No condition on the steps. -/
def anyStep (_ : σ) (_ : ℓ) : Prop := True

def exec (step : σ → ℓ → Option σ) : σ → List ℓ → Option σ
  | s, [] => some s
  | s, a :: as => (step s a).bind fun t => exec step t as

/-- The machine that refuses a step that does not satisfy `ok`. -/
def guarded (step : σ → ℓ → Option σ) (ok : σ → ℓ → Prop) [∀ s a, Decidable (ok s a)]
    (s : σ) (a : ℓ) : Option σ :=
  if ok s a then step s a else none

theorem exec_of_guarded {step : σ → ℓ → Option σ} {ok : σ → ℓ → Prop}
    [∀ s a, Decidable (ok s a)] (as : List ℓ) {s t : σ}
    (h : exec (guarded step ok) s as = some t) : exec step s as = some t := by
  induction as generalizing s with
  | nil => exact h
  | cons a as ih =>
      obtain ⟨u, hu, hrest⟩ := Option.bind_eq_some_iff.mp h
      rw [guarded, Option.ite_none_right_eq_some] at hu
      rw [exec, hu.2]
      exact ih hrest

theorem exec_concat {step : σ → ℓ → Option σ} {s t : σ} {as : List ℓ} {a : ℓ}
    (h : exec step s (as ++ [a]) = some t) :
    ∃ u, exec step s as = some u ∧ step u a = some t := by
  induction as generalizing s with
  | nil =>
      obtain ⟨u, hu, hrest⟩ := Option.bind_eq_some_iff.mp h
      cases hrest
      exact ⟨s, rfl, hu⟩
  | cons b as ih =>
      obtain ⟨u, hu, hrest⟩ := Option.bind_eq_some_iff.mp h
      obtain ⟨v, hv, hstep⟩ := ih hrest
      exact ⟨v, Option.bind_eq_some_iff.mpr ⟨u, hu, hv⟩, hstep⟩

/-- An invariant that looks at the schedule executed so far. -/
theorem exec_history {step : σ → ℓ → Option σ} {I : List ℓ → σ → Prop}
    (hstep : ∀ bs u a v, I bs u → step u a = some v → I (bs ++ [a]) v) (as : List ℓ)
    {bs : List ℓ} {s t : σ} (hs : I bs s) (h : exec step s as = some t) : I (bs ++ as) t := by
  induction as generalizing bs s with
  | nil =>
      rw [exec, Option.some.injEq] at h
      rw [List.append_nil]
      exact h ▸ hs
  | cons a as ih =>
      obtain ⟨u, hu, hrest⟩ := Option.bind_eq_some_iff.mp h
      have hfirst := hstep bs s a u hs hu
      have hlast := ih hfirst hrest
      rwa [List.append_assoc, List.singleton_append] at hlast

namespace Reach

variable {step : σ → ℓ → Option σ} {ok : σ → ℓ → Prop}

theorem trans {s t u : σ} (h₁ : Reach step ok s t) (h₂ : Reach step ok t u) :
    Reach step ok s u := by
  induction h₂ with
  | refl => exact h₁
  | tail _ hok hstep ih => exact ih.tail hok hstep

theorem mono {ok' : σ → ℓ → Prop} {s t : σ} (h : Reach step ok s t)
    (hok : ∀ s a, ok s a → ok' s a) : Reach step ok' s t := by
  induction h with
  | refl => exact refl
  | tail _ hadmitted hstep ih => exact ih.tail (hok _ _ hadmitted) hstep

/-- What holds initially and is kept by every admitted step holds throughout. -/
theorem invariant {I : σ → Prop} {s t : σ} (h : Reach step ok s t) (hinit : I s)
    (hstep : ∀ t a u, I t → ok t a → step t a = some u → I u) : I t := by
  induction h with
  | refl => exact hinit
  | tail _ hok hnext ih => exact hstep _ _ _ ih hok hnext

theorem and_invariant {I : σ → Prop} {s t : σ} (h : Reach step ok s t) (hinit : I s)
    (hstep : ∀ t a u, I t → ok t a → step t a = some u → I u) :
    Reach step (fun s a => ok s a ∧ I s) s t := by
  induction h with
  | refl => exact refl
  | tail hreach hok hnext ih => exact ih.tail ⟨hok, hreach.invariant hinit hstep⟩ hnext

/-- A schedule that executes under the guard is an admitted run. -/
theorem of_exec_guarded [∀ s a, Decidable (ok s a)] (as : List ℓ) {s t : σ}
    (h : exec (guarded step ok) s as = some t) : Reach step ok s t := by
  induction as generalizing s with
  | nil =>
      rw [exec, Option.some.injEq] at h
      exact h ▸ refl
  | cons a as ih =>
      obtain ⟨u, hu, hrest⟩ := Option.bind_eq_some_iff.mp h
      rw [guarded] at hu
      split at hu
      · rename_i hok
        exact (refl.tail hok hu).trans (ih hrest)
      · simp at hu

/-- A schedule whose steps are admitted in every state. -/
theorem of_exec_forall (as : List ℓ) {s t : σ} (h : exec step s as = some t)
    (hok : ∀ a ∈ as, ∀ u, ok u a) : Reach step ok s t := by
  induction as generalizing s with
  | nil =>
      rw [exec, Option.some.injEq] at h
      exact h ▸ refl
  | cons a as ih =>
      obtain ⟨u, hu, hrest⟩ := Option.bind_eq_some_iff.mp h
      have hfirst : Reach step ok s u := refl.tail (hok a List.mem_cons_self s) hu
      exact hfirst.trans (ih hrest fun b hb => hok b (List.mem_cons_of_mem a hb))

theorem of_exec (as : List ℓ) {s t : σ} (h : exec step s as = some t) :
    Reach step anyStep s t :=
  of_exec_forall as h fun _ _ _ => trivial

end Reach

/-- `P` holds in every state of the run, the first one included. -/
def Throughout (step : σ → ℓ → Option σ) (P : σ → Prop) : σ → List ℓ → Prop
  | s, [] => P s
  | s, a :: as => P s ∧ ∀ t, step s a = some t → Throughout step P t as

/-- Every step of the run satisfies `ok` in the state in which it is taken. -/
def EachStep (step : σ → ℓ → Option σ) (ok : σ → ℓ → Prop) : σ → List ℓ → Prop
  | _, [] => True
  | s, a :: as => ∀ t, step s a = some t → ok s a ∧ EachStep step ok t as

/-- A property that the admitted steps keep, and that the others break at once. -/
theorem throughout_iff_eachStep {step : σ → ℓ → Option σ} {P : σ → Prop} {ok : σ → ℓ → Prop}
    (hkeeps : ∀ s a t, P s → ok s a → step s a = some t → P t)
    (hbreaks : ∀ s a t, ¬ok s a → step s a = some t → ¬P t) {s : σ} (hs : P s) (as : List ℓ) :
    Throughout step P s as ↔ EachStep step ok s as := by
  induction as generalizing s with
  | nil => exact iff_of_true hs trivial
  | cons a as ih =>
      rw [Throughout, EachStep, and_iff_right hs]
      refine forall_congr' fun t => imp_congr_right fun ht => ?_
      constructor
      · intro h
        have hfirst : P t := by
          cases as with
          | nil => exact h
          | cons b bs => exact h.1
        have hok : ok s a := by_contra fun hnot => hbreaks s a t hnot ht hfirst
        exact ⟨hok, (ih hfirst).mp h⟩
      · rintro ⟨hok, hrest⟩
        exact (ih (hkeeps s a t hs hok ht)).mpr hrest

end Runs

/-- Tasks, numbered by the naturals, over a shared state. -/
structure Pool (σ τ : Type*) where
  shared : σ
  task : ℕ → τ

namespace Pool

variable {σ τ ℓ : Type*}

/-- Task `e.1` takes the atomic step `e.2`. -/
def step (act : ℕ → σ → τ → ℓ → Option (σ × τ)) (p : Pool σ τ) (e : ℕ × ℓ) :
    Option (Pool σ τ) :=
  (act e.1 p.shared (p.task e.1) e.2).map fun r =>
    ⟨r.1, Function.update p.task e.1 r.2⟩

variable {act : ℕ → σ → τ → ℓ → Option (σ × τ)}

theorem step_eq_some {p q : Pool σ τ} {e : ℕ × ℓ} :
    p.step act e = some q ↔ ∃ s t, act e.1 p.shared (p.task e.1) e.2 = some (s, t) ∧
      q = ⟨s, Function.update p.task e.1 t⟩ := by
  rw [step, Option.map_eq_some_iff]
  constructor
  · rintro ⟨⟨s, t⟩, hact, rfl⟩
    exact ⟨s, t, hact, rfl⟩
  · rintro ⟨s, t, hact, rfl⟩
    exact ⟨(s, t), hact, rfl⟩

/-- The task `i` and the shared state, undisturbed by the other tasks. -/
def alone (act : ℕ → σ → τ → ℓ → Option (σ × τ)) (i : ℕ) (x : σ × τ) (a : ℓ) : Option (σ × τ) :=
  act i x.1 x.2 a

theorem reach_of_alone {p : Pool σ τ} {i : ℕ} {ok : σ × τ → ℓ → Prop}
    {ok' : Pool σ τ → ℕ × ℓ → Prop} {x : σ × τ}
    (h : Reach (alone act i) ok (p.shared, p.task i) x)
    (hok : ∀ q a r, ok (q.shared, q.task i) a → (∀ j, j ≠ i → q.task j = p.task j) →
      q.step act (i, a) = some r → ok' q (i, a)) :
    ∃ q, Reach (step act) ok' p q ∧ q.shared = x.1 ∧ q.task i = x.2 ∧
      ∀ j, j ≠ i → q.task j = p.task j := by
  induction h with
  | refl => exact ⟨p, .refl, rfl, rfl, fun _ _ => rfl⟩
  | @tail y z a _ hadmitted hnext ih =>
      obtain ⟨q, hreach, hshared, htask, hother⟩ := ih
      have hstep : q.step act (i, a) = some ⟨z.1, Function.update q.task i z.2⟩ := by
        refine step_eq_some.mpr ⟨z.1, z.2, ?_, rfl⟩
        rw [hshared, htask]
        exact hnext
      have hok' : ok' q (i, a) := hok q a _ (by rwa [hshared, htask]) hother hstep
      refine ⟨_, hreach.tail hok' hstep, rfl, Function.update_self .., ?_⟩
      intro j hj
      rw [← hother j hj]
      exact Function.update_of_ne hj ..

/-- A property of the shared state and each task is kept by a step when the
moving task establishes it and the others are not disturbed. -/
theorem forall_task {Q : σ → ℕ → τ → Prop} {p : Pool σ τ} {i : ℕ} {s : σ} {t : τ}
    (h : ∀ j, Q p.shared j (p.task j)) (hown : Q s i t)
    (hother : ∀ j, j ≠ i → Q p.shared j (p.task j) → Q s j (p.task j)) :
    ∀ j, Q s j (Function.update p.task i t j) := by
  intro j
  by_cases hj : j = i
  · subst hj
    rw [Function.update_self]
    exact hown
  · rw [Function.update_of_ne hj]
    exact hother j hj (h j)

theorem exec_task_of_ne {p q : Pool σ τ} {as : List (ℕ × ℓ)} {j : ℕ}
    (h : exec (step act) p as = some q) (hj : ∀ e ∈ as, e.1 ≠ j) : q.task j = p.task j := by
  induction as generalizing p with
  | nil =>
      rw [exec, Option.some.injEq] at h
      rw [h]
  | cons e as ih =>
      obtain ⟨r, hr, hrest⟩ := Option.bind_eq_some_iff.mp h
      obtain ⟨s, t, -, rfl⟩ := step_eq_some.mp hr
      rw [ih hrest (fun e he => hj e (List.mem_cons_of_mem _ he))]
      exact Function.update_of_ne (hj e List.mem_cons_self).symm ..

/-- A schedule of the first `n` tasks is an admitted run when the guard looks at
those and admits what `ok` does while the others have not moved. -/
theorem reach_of_exec_below {ok guard : Pool σ τ → ℕ × ℓ → Prop}
    [∀ p e, Decidable (guard p e)] (n : ℕ) {t : τ} {p q : Pool σ τ} (as : List (ℕ × ℓ))
    (hidle : ∀ j, n ≤ j → p.task j = t) (has : ∀ e ∈ as, e.1 < n)
    (hok : ∀ r e, (∀ j, n ≤ j → r.task j = t) → guard r e → ok r e)
    (h : exec (guarded (step act) guard) p as = some q) : Reach (step act) ok p q := by
  induction as generalizing p with
  | nil =>
      rw [exec, Option.some.injEq] at h
      exact h ▸ .refl
  | cons e as ih =>
      obtain ⟨r, hr, hrest⟩ := Option.bind_eq_some_iff.mp h
      rw [guarded, Option.ite_none_right_eq_some] at hr
      obtain ⟨hguard, hstep⟩ := hr
      have hfirst : Reach (step act) ok p r := Reach.refl.tail (hok p e hidle hguard) hstep
      refine hfirst.trans (ih ?_ (fun e he => has e (List.mem_cons_of_mem _ he)) hrest)
      intro j hj
      obtain ⟨s, c, -, rfl⟩ := step_eq_some.mp hstep
      have hlt := has e List.mem_cons_self
      rw [← hidle j hj]
      exact Function.update_of_ne (by omega) ..

end Pool

end SereinGateway.Lib
