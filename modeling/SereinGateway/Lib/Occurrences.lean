import Mathlib
import SereinGateway.Lib.Replace
import SereinGateway.Lib.Search

/-!
Putting back what has been replaced.

A text is cut into characters and places, and something is written in each place. A
search for what was written finds the places, from left to right, and perhaps more: it
finds no more exactly if what was written begins nowhere outside of them. For the places
at which a search has found a pattern this is also necessary for the pattern to be put
back, since the pattern does not begin between them.
-/

namespace SereinGateway.Lib

variable {α β : Type*} [DecidableEq α]

/-- The text with `w` in each place. -/
def filled (w : List α) (ps : List (Chunk α β)) : List α := ps.flatMap (Chunk.replaced fun _ => w)

/-- With `w` in the places, it begins nowhere else. -/
def BeginsInPlace (w : List α) : List (Chunk α β) → Prop
  | [] => True
  | .plain c :: ps => ¬w <+: c :: filled w ps ∧ BeginsInPlace w ps
  | .hit _ :: ps => BeginsInPlace w ps

def decidableBeginsInPlace (w : List α) :
    (ps : List (Chunk α β)) → Decidable (BeginsInPlace w ps)
  | [] => .isTrue trivial
  | .plain c :: ps =>
      have := decidableBeginsInPlace w ps
      inferInstanceAs (Decidable (¬w <+: c :: filled w ps ∧ BeginsInPlace w ps))
  | .hit _ :: ps => decidableBeginsInPlace w ps

instance (w : List α) (ps : List (Chunk α β)) : Decidable (BeginsInPlace w ps) :=
  decidableBeginsInPlace w ps

/-- `skip` counts the characters of an occurrence that are still to be dropped. -/
def cutSkip (pat : List α) : ℕ → List α → List (Chunk α Unit)
  | _, [] => []
  | skip + 1, _ :: s => cutSkip pat skip s
  | 0, c :: s =>
      if pat.isPrefixOf (c :: s) then .hit () :: cutSkip pat (pat.length - 1) s
      else .plain c :: cutSkip pat 0 s

/-- The text cut at the occurrences of a pattern. -/
def cutAt (pat s : List α) : List (Chunk α Unit) := cutSkip pat 0 s

variable {w o s t : List α} {c : α} {ps : List (Chunk α β)}

omit [DecidableEq α] in
@[simp] theorem filled_nil : filled w ([] : List (Chunk α β)) = [] := rfl

omit [DecidableEq α] in
@[simp] theorem filled_plain : filled w (.plain c :: ps) = c :: filled w ps := rfl

omit [DecidableEq α] in
@[simp] theorem filled_hit (b : β) : filled w (.hit b :: ps) = w ++ filled w ps :=
  List.flatMap_cons

omit [DecidableEq α] in
omit [DecidableEq α] in
theorem filled_map_plain (s : List α) : filled w (s.map (.plain : α → Chunk α β)) = s := by
  rw [filled, List.flatMap_map]
  exact List.flatMap_singleton' s

theorem replaceAll_filled (hw : w ≠ []) (h : BeginsInPlace w ps) (o : List α) :
    replaceAll w o (filled w ps) = filled o ps := by
  induction ps with
  | nil => rfl
  | cons piece ps ih =>
      cases piece with
      | plain c =>
          rw [filled_plain, replaceAll_cons h.1, ih h.2]
          rfl
      | hit b => rw [filled_hit, replaceAll_append hw, ih h, filled_hit]

theorem cutSkip_eq_drop (pat : List α) (skip : ℕ) (s : List α) :
    cutSkip pat skip s = cutAt pat (s.drop skip) := by
  induction s generalizing skip with
  | nil => cases skip <;> simp [cutAt, cutSkip]
  | cons c s ih =>
      cases skip with
      | zero => rfl
      | succ skip => exact ih skip

theorem cutAt_append (ho : o ≠ []) (t : List α) : cutAt o (o ++ t) = .hit () :: cutAt o t := by
  obtain ⟨c, pat, rfl⟩ := List.exists_cons_of_ne_nil ho
  rw [cutAt, List.cons_append, cutSkip, if_pos (List.isPrefixOf_iff_prefix.mpr ⟨t, by simp⟩),
    cutSkip_eq_drop]
  simp

theorem cutAt_cons (h : ¬o <+: c :: s) : cutAt o (c :: s) = .plain c :: cutAt o s := by
  rw [cutAt, cutSkip, if_neg (by rwa [List.isPrefixOf_iff_prefix])]
  rfl

/-- A replacement fills the places at which the pattern is found. -/
theorem filled_cutAt (ho : o ≠ []) (w s : List α) : filled w (cutAt o s) = replaceAll o w s := by
  induction s using replaceAll_induct ho with
  | nil => rfl
  | found t ih => rw [cutAt_append ho, filled_hit, ih, replaceAll_append ho]
  | copied c s hc ih => rw [cutAt_cons hc, filled_plain, ih, replaceAll_cons hc]

theorem filled_cutAt_self (ho : o ≠ []) (s : List α) : filled o (cutAt o s) = s := by
  induction s using replaceAll_induct ho with
  | nil => rfl
  | found t ih => rw [cutAt_append ho, filled_hit, ih]
  | copied c s hc ih => rw [cutAt_cons hc, filled_plain, ih]

/-- A pattern comes back exactly if what was written for it begins in its places only. -/
theorem replaceAll_replaceAll_iff (ho : o ≠ []) (hw : w ≠ []) (s : List α) :
    replaceAll w o (replaceAll o w s) = s ↔ BeginsInPlace w (cutAt o s) := by
  constructor
  · rw [← filled_cutAt ho]
    intro h
    induction s using replaceAll_induct ho with
    | nil => trivial
    | found t ih =>
        rw [cutAt_append ho, filled_hit, replaceAll_append hw, List.append_cancel_left_eq] at h
        rw [cutAt_append ho]
        exact ih h
    | copied c s hc ih =>
        rw [cutAt_cons hc, filled_plain] at h
        rw [cutAt_cons hc]
        by_cases hbegins : w <+: c :: filled w (cutAt o s)
        · -- the pattern would be put where it is not
          obtain ⟨t, ht⟩ := hbegins
          rw [← ht, replaceAll_append hw] at h
          exact absurd ⟨_, h⟩ hc
        · rw [replaceAll_cons hbegins] at h
          exact ⟨hbegins, ih (List.cons.inj h).2⟩
  · intro h
    rw [← filled_cutAt ho, replaceAll_filled hw h, filled_cutAt_self ho]

end SereinGateway.Lib
