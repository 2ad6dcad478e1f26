import Mathlib

/-!
Sequences joined with a separator.

`a ++ sep :: b` is `a`, the separator, and `b`. When two such sequences are
equal, the cut is at the same place in both or one of the left parts goes on
beyond the cut of the other; a part without the separator can not go on. The
lemmas say so, for reading back fields from a text in which they were joined
without escaping.
-/

namespace SereinGateway.Lib

variable {α : Type*} {sep : α} {a a' b b' : List α}

theorem append_sep_cases (h : a ++ sep :: b = a' ++ sep :: b') :
    (a = a' ∧ b = b') ∨ (∃ m, a' = a ++ sep :: m ∧ b = m ++ sep :: b') ∨
      ∃ m, a = a' ++ sep :: m ∧ b' = m ++ sep :: b := by
  have hside : ∀ {x y z w : List α}, (∃ m, y = x ++ m ∧ sep :: z = m ++ sep :: w) →
      (x = y ∧ z = w) ∨ ∃ m, y = x ++ sep :: m ∧ z = m ++ sep :: w := by
    rintro x y z w ⟨m, rfl, heq⟩
    cases m with
    | nil => exact .inl (by simpa using heq)
    | cons c m =>
        rw [List.cons_append, List.cons.injEq] at heq
        obtain ⟨rfl, hz⟩ := heq
        exact .inr ⟨m, rfl, hz⟩
  rcases List.append_eq_append_iff.mp h with hleft | ⟨m, hm, heq⟩
  · rcases hside hleft with hsame | hlonger
    · exact .inl hsame
    · exact .inr (.inl hlonger)
  · rcases hside ⟨m, hm, heq⟩ with ⟨rfl, rfl⟩ | hlonger
    · exact .inl ⟨rfl, rfl⟩
    · exact .inr (.inr hlonger)

theorem append_sep_of_notMem (ha : sep ∉ a) (h : a ++ sep :: b = a' ++ sep :: b') :
    (a = a' ∧ b = b') ∨ ∃ m, a' = a ++ sep :: m ∧ b = m ++ sep :: b' := by
  rcases append_sep_cases h with hsame | hlonger | ⟨m, rfl, -⟩
  · exact .inl hsame
  · exact .inr hlonger
  · simp at ha

theorem append_sep_inj (ha : sep ∉ a) (ha' : sep ∉ a') (h : a ++ sep :: b = a' ++ sep :: b') :
    a = a' ∧ b = b' := by
  rcases append_sep_of_notMem ha h with hsame | ⟨m, rfl, -⟩
  · exact hsame
  · simp at ha'

/-- The last part is what follows the last separator. -/
theorem append_sep_inj_right (hb : sep ∉ b) (hb' : sep ∉ b')
    (h : a ++ sep :: b = a' ++ sep :: b') : a = a' ∧ b = b' := by
  rcases append_sep_cases h with hsame | ⟨m, -, rfl⟩ | ⟨m, -, rfl⟩
  · exact hsame
  · simp at hb
  · simp at hb'

/-- Of three fields, of which only the first may hold the separator, the others
can be read back unless the first field is shorter in the other reading. -/
theorem append_sep_three {n n' k k' : List α} (hn : sep ∉ n) (hk : sep ∉ k)
    (h : a ++ sep :: (n ++ sep :: k) = a' ++ sep :: (n' ++ sep :: k')) :
    (a = a' ∧ n = n' ∧ k = k') ∨ ∃ m, a = a' ++ sep :: m := by
  rcases append_sep_cases h with ⟨rfl, heq⟩ | ⟨m, rfl, heq⟩ | ⟨m, hm, -⟩
  · rcases append_sep_of_notMem hn heq with ⟨rfl, rfl⟩ | ⟨m, -, rfl⟩
    · exact .inl ⟨rfl, rfl, rfl⟩
    · simp at hk
  · rcases append_sep_of_notMem hn heq with ⟨-, rfl⟩ | ⟨m', -, rfl⟩
    · simp at hk
    · simp at hk
  · exact .inr ⟨m, hm⟩

end SereinGateway.Lib
