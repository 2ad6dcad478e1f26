import Mathlib

/-!
Lines of a sequence that only grows.

A line ends with the separator, which belongs to it. `nextLine` is the line
that a reader gets at the beginning of a sequence: up to the first separator,
or everything that is left. A position is a boundary if a line begins there.
A reader that starts at a boundary and finds a separator reads exactly a line
and stands at a boundary again; growth changes neither.
-/

namespace SereinGateway.Lib

variable {α : Type*} {sep : α} {f g : List α} {a b c d : ℕ}

@[grind =] def nextLine [DecidableEq α] (sep : α) : List α → List α
  | [] => []
  | x :: l => if x = sep then [x] else x :: nextLine sep l

def Boundary (sep : α) (f : List α) (a : ℕ) : Prop := a = 0 ∨ f[a - 1]? = some sep

/-- A complete line begins at `a` and ends before `b`. -/
structure IsLine (sep : α) (f : List α) (a b : ℕ) : Prop where
  boundary : Boundary sep f a
  lt : a < b
  last : f[b - 1]? = some sep
  inner : ∀ i, a ≤ i → i + 1 < b → f[i]? ≠ some sep

/-- The part of a sequence between two positions. -/
def slice (f : List α) (a b : ℕ) : List α := (f.drop a).take (b - a)

namespace Boundary

theorem append (h : Boundary sep f a) : Boundary sep (f ++ g) a := by
  rcases h with rfl | hlast
  · exact .inl rfl
  · right
    rw [List.getElem?_append_left (List.getElem?_eq_some_iff.mp hlast).1, hlast]

end Boundary

namespace IsLine

theorem boundary_right (h : IsLine sep f a b) : Boundary sep f b := .inr h.last

theorem of_append (h : IsLine sep (f ++ g) a b) (hb : b ≤ f.length) : IsLine sep f a b := by
  obtain ⟨hboundary, hlt, hlast, hinner⟩ := h
  refine ⟨?_, hlt, ?_, fun i hi hib => ?_⟩
  · rcases hboundary with rfl | hbefore
    · exact .inl rfl
    · rw [List.getElem?_append_left (by omega)] at hbefore
      exact .inr hbefore
  · rwa [List.getElem?_append_left (by omega)] at hlast
  · have := hinner i hi hib
    rwa [List.getElem?_append_left (by omega)] at this

theorem le_of_boundary (h : IsLine sep f a b) (hc : Boundary sep f c) (hac : a < c) : b ≤ c := by
  rcases hc with rfl | hbefore
  · omega
  · by_contra hlt
    exact h.inner (c - 1) (by omega) (by omega) hbefore

/-- Two lines are the same, or one ends before the other begins. -/
theorem le_or_eq (h : IsLine sep f a b) (h' : IsLine sep f c d) (hle : b ≤ d) :
    b ≤ c ∨ a = c ∧ b = d := by
  rcases lt_trichotomy a c with hac | rfl | hca
  · exact .inl (h.le_of_boundary h'.boundary hac)
  · exact .inr ⟨rfl, le_antisymm hle (h'.le_of_boundary h.boundary_right h.lt)⟩
  · have := h'.le_of_boundary h.boundary hca
    have := h.lt
    omega

end IsLine

theorem slice_append (hb : b ≤ f.length) : slice (f ++ g) a b = slice f a b := by
  rcases Nat.lt_or_ge b a with hlt | hle
  · simp [slice, Nat.sub_eq_zero_of_le hlt.le]
  · rw [slice, slice, List.drop_append_of_le_length (by omega),
      List.take_append_of_le_length (by rw [List.length_drop]; omega)]

section Reader

variable [DecidableEq α]

theorem nextLine_eq_nil {l : List α} : nextLine sep l = [] ↔ l = [] := by
  cases l with
  | nil => simp [nextLine]
  | cons x l =>
      simp only [nextLine, reduceCtorEq, iff_false]
      split <;> simp

theorem nextLine_of_notMem {l : List α} (h : sep ∉ l) : nextLine sep l = l := by
  induction l with
  | nil => rfl
  | cons x l ih =>
      rw [List.mem_cons, not_or] at h
      rw [nextLine, if_neg (Ne.symm h.1), ih h.2]

theorem nextLine_eq_take (sep : α) (l : List α) :
    nextLine sep l = l.take (nextLine sep l).length := by
  induction l with
  | nil => rfl
  | cons x l ih =>
      rw [nextLine]
      split
      · simp
      · rw [List.length_cons, List.take_succ_cons, ← ih]

theorem nextLine_last {l : List α} (h : sep ∈ l) :
    l[(nextLine sep l).length - 1]? = some sep := by
  induction l with
  | nil => simp at h
  | cons x l ih =>
      rw [nextLine]
      split
      · rename_i hx
        simp [hx]
      · rename_i hx
        have hmem : sep ∈ l := (List.mem_cons.mp h).resolve_left (Ne.symm hx)
        have hne : nextLine sep l ≠ [] := fun hnil => by
          rw [nextLine_eq_nil] at hnil
          simp [hnil] at hmem
        have hpos : 0 < (nextLine sep l).length := List.length_pos_iff.mpr hne
        rw [← ih hmem, List.length_cons, Nat.add_sub_cancel,
          List.getElem?_cons, if_neg (by omega)]

theorem nextLine_inner {l : List α} {i : ℕ} (h : i + 1 < (nextLine sep l).length) :
    l[i]? ≠ some sep := by
  induction l generalizing i with
  | nil => simp
  | cons x l ih =>
      rw [nextLine] at h
      split at h
      · simp at h
      · rename_i hx
        cases i with
        | zero => simpa using hx
        | succ i =>
            rw [List.getElem?_cons_succ]
            exact ih (by simpa using h)

theorem length_nextLine_le (sep : α) (l : List α) : (nextLine sep l).length ≤ l.length := by
  rw [nextLine_eq_take]
  exact List.length_take_le' _ _

theorem isLine_nextLine (ha : Boundary sep f a) (hmem : sep ∈ f.drop a) :
    IsLine sep f a (a + (nextLine sep (f.drop a)).length) := by
  have hne : nextLine sep (f.drop a) ≠ [] := fun hnil => by
    rw [nextLine_eq_nil] at hnil
    simp [hnil] at hmem
  have hpos : 0 < (nextLine sep (f.drop a)).length := List.length_pos_iff.mpr hne
  refine ⟨ha, by omega, ?_, fun i hi hlt => ?_⟩
  · have hlast := nextLine_last hmem
    rwa [List.getElem?_drop, ← Nat.add_sub_assoc hpos] at hlast
  · have hinner : (f.drop a)[i - a]? ≠ some sep := nextLine_inner (by omega)
    rwa [List.getElem?_drop, Nat.add_sub_cancel' hi] at hinner

theorem slice_nextLine (sep : α) (f : List α) (a : ℕ) :
    slice f a (a + (nextLine sep (f.drop a)).length) = nextLine sep (f.drop a) := by
  rw [slice, Nat.add_sub_cancel_left, ← nextLine_eq_take]

end Reader

end SereinGateway.Lib
