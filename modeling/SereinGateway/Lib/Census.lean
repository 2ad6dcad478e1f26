import Mathlib
import SereinGateway.Lib.Transition

/-!
Counting the tasks of a pool that are in a given situation.

A pool has infinitely many tasks, of which a run moves only finitely many.
`Census Q n` says that exactly `n` naturals satisfy `Q`. A step of a pool
updates one task, and then a census changes by at most one: the three lemmas
about `Function.update` say how, according to whether the task entered the
situation, left it, or did neither. `update_of_imp` is for a task of which it is
only known that it did not enter.
-/

namespace SereinGateway.Lib

/-- Exactly `n` naturals satisfy `Q`. -/
def Census (Q : ℕ → Prop) (n : ℕ) : Prop :=
  ∃ S : Finset ℕ, (∀ i, i ∈ S ↔ Q i) ∧ S.card = n

namespace Census

variable {Q Q' : ℕ → Prop} {n : ℕ}

theorem zero (h : ∀ i, ¬Q i) : Census Q 0 :=
  ⟨∅, fun i => by simp [h i], rfl⟩

theorem congr (h : Census Q n) (hQ : ∀ i, Q' i ↔ Q i) : Census Q' n := by
  obtain ⟨S, hS, hcard⟩ := h
  exact ⟨S, fun i => (hS i).trans (hQ i).symm, hcard⟩

/-- A finite set of naturals that satisfy `Q` is no larger than the census. -/
theorem card_le (h : Census Q n) {S : Finset ℕ} (hS : ∀ i ∈ S, Q i) : S.card ≤ n := by
  obtain ⟨T, hT, rfl⟩ := h
  exact Finset.card_le_card fun i hi => (hT i).mpr (hS i hi)

theorem exists_card (h : Census Q n) : ∃ S : Finset ℕ, (∀ i ∈ S, Q i) ∧ S.card = n := by
  obtain ⟨S, hS, hcard⟩ := h
  exact ⟨S, fun i hi => (hS i).mp hi, hcard⟩

theorem unique {m : ℕ} (h : Census Q n) (h' : Census Q m) : n = m := by
  obtain ⟨S, hS, rfl⟩ := h
  obtain ⟨T, hT, rfl⟩ := h'
  congr 1
  ext i
  rw [hS, hT]

section Update

variable {τ : Type*} {P : τ → Prop} {task : ℕ → τ} {i : ℕ} {c : τ}

/-- The task that moves is in the situation afterwards if it was before. -/
theorem update_stay (h : Census (fun j => P (task j)) n) (hc : P c ↔ P (task i)) :
    Census (fun j => P (Function.update task i c j)) n := by
  refine h.congr fun j => ?_
  by_cases hj : j = i
  · subst hj
    rw [Function.update_self, hc]
  · rw [Function.update_of_ne hj]

theorem update_enter (h : Census (fun j => P (task j)) n) (hi : ¬P (task i)) (hc : P c) :
    Census (fun j => P (Function.update task i c j)) (n + 1) := by
  obtain ⟨S, hS, rfl⟩ := h
  have hnot : i ∉ S := fun hmem => hi ((hS i).mp hmem)
  refine ⟨insert i S, fun j => ?_, Finset.card_insert_of_notMem hnot⟩
  by_cases hj : j = i
  · subst hj
    simp [hc]
  · show j ∈ insert i S ↔ P (Function.update task i c j)
    rw [Finset.mem_insert, Function.update_of_ne hj, hS]
    simp [hj]

theorem update_leave (h : Census (fun j => P (task j)) n) (hi : P (task i)) (hc : ¬P c) :
    ∃ m, n = m + 1 ∧ Census (fun j => P (Function.update task i c j)) m := by
  obtain ⟨S, hS, rfl⟩ := h
  have hmem : i ∈ S := (hS i).mpr hi
  refine ⟨(S.erase i).card, (Finset.card_erase_add_one hmem).symm, S.erase i, fun j => ?_, rfl⟩
  by_cases hj : j = i
  · subst hj
    simp [hc]
  · show j ∈ S.erase i ↔ P (Function.update task i c j)
    rw [Finset.mem_erase, Function.update_of_ne hj, hS]
    simp [hj]

/-- The task that moves does not enter the situation. -/
theorem update_of_imp (h : Census (fun j => P (task j)) n) (hc : P c → P (task i)) :
    ∃ m ≤ n, Census (fun j => P (Function.update task i c j)) m := by
  by_cases hnew : P c
  · exact ⟨n, le_rfl, h.update_stay (iff_of_true hnew (hc hnew))⟩
  · by_cases hold : P (task i)
    · obtain ⟨m, rfl, hm⟩ := h.update_leave hold hnew
      exact ⟨m, Nat.le_succ m, hm⟩
    · exact ⟨n, le_rfl, h.update_stay (iff_of_false hnew hold)⟩

end Update

end Census

end SereinGateway.Lib
