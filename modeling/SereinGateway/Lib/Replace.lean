import Mathlib
import SereinGateway.Lib.Text

/-!
Replacement of a text by another, left to right, over any alphabet.

What is proved about a replacement follows its own recursion: nothing is left,
the pattern comes next, or it does not and one character is copied. This is
`replaceAll_induct`. A character that the pattern does not contain cuts a text
in two parts in which the pattern is replaced independently.
-/

namespace SereinGateway.Lib

variable {α : Type*} [DecidableEq α]

/-- `skip` counts the characters of an occurrence that are still to be dropped. -/
@[grind =] def replaceSkip (pat new : List α) : ℕ → List α → List α
  | _, [] => []
  | skip + 1, _ :: s => replaceSkip pat new skip s
  | 0, c :: s =>
      if pat.isPrefixOf (c :: s) then new ++ replaceSkip pat new (pat.length - 1) s
      else c :: replaceSkip pat new 0 s

def replaceAll (pat new s : List α) : List α := replaceSkip pat new 0 s

theorem replaceChars_eq (pat new : List Char) (skip : ℕ) (s : List Char) :
    replaceChars pat new skip s = replaceSkip pat new skip s := by
  induction s generalizing skip with
  | nil => cases skip <;> rfl
  | cons c s ih =>
      cases skip with
      | zero => simp only [replaceChars, replaceSkip, ih]
      | succ skip => exact ih skip

theorem replaceSkip_eq_drop (pat new : List α) (skip : ℕ) (s : List α) :
    replaceSkip pat new skip s = replaceAll pat new (s.drop skip) := by
  induction s generalizing skip with
  | nil => cases skip <;> simp [replaceAll, replaceSkip]
  | cons c s ih =>
      cases skip with
      | zero => rfl
      | succ skip => exact ih skip

variable {pat new s : List α} {c : α}

theorem replaceAll_nil : replaceAll pat new [] = [] := rfl

theorem replaceAll_append (hpat : pat ≠ []) (t : List α) :
    replaceAll pat new (pat ++ t) = new ++ replaceAll pat new t := by
  obtain ⟨c, pat, rfl⟩ := List.exists_cons_of_ne_nil hpat
  rw [replaceAll, List.cons_append, replaceSkip,
    if_pos (List.isPrefixOf_iff_prefix.mpr ⟨t, by simp⟩), replaceSkip_eq_drop]
  simp

theorem replaceAll_cons (h : ¬pat <+: c :: s) :
    replaceAll pat new (c :: s) = c :: replaceAll pat new s := by
  rw [replaceAll, replaceSkip, if_neg (by rwa [List.isPrefixOf_iff_prefix])]
  rfl

/-- Induction along a replacement. -/
@[elab_as_elim]
theorem replaceAll_induct {P : List α → Prop} (hpat : pat ≠ []) (nil : P [])
    (found : ∀ t, P t → P (pat ++ t)) (copied : ∀ c s, ¬pat <+: c :: s → P s → P (c :: s))
    (s : List α) : P s := by
  induction hn : s.length using Nat.strong_induction_on generalizing s with
  | _ n ih =>
      cases s with
      | nil => exact nil
      | cons c s =>
          by_cases hstarts : pat <+: c :: s
          · obtain ⟨t, ht⟩ := hstarts
            have hpos : 0 < pat.length := List.length_pos_iff.mpr hpat
            have hlength := congrArg List.length ht
            rw [List.length_append] at hlength
            rw [← ht]
            exact found t (ih t.length (by omega) t rfl)
          · exact copied c s hstarts (ih s.length (by simp [← hn]) s rfl)

omit [DecidableEq α] in
/-- The pattern does not reach past a character that it does not contain. -/
theorem prefix_of_prefix_append_cons {a b : List α} (hc : c ∉ pat) (h : pat <+: a ++ c :: b) :
    pat <+: a := by
  rcases List.prefix_or_prefix_of_prefix h (List.prefix_append a (c :: b)) with hle | hle
  · exact hle
  · obtain ⟨rest, rfl⟩ := hle
    rw [List.prefix_append_right_inj] at h
    cases rest with
    | nil => simp
    | cons d rest =>
        obtain ⟨rfl, -⟩ := List.cons_prefix_cons.mp h
        simp at hc

omit [DecidableEq α] in
/-- A text lies on one side of a character that is not in it. -/
theorem infix_append_cons {x y : List α} (hc : c ∉ pat) (h : pat <:+: x ++ c :: y) :
    pat <:+: x ∨ pat <:+: y := by
  induction x with
  | nil =>
      rcases List.infix_cons_iff.mp h with hstarts | hfound
      · cases pat with
        | nil => exact .inl (List.nil_infix)
        | cons d pat =>
            obtain ⟨rfl, -⟩ := List.cons_prefix_cons.mp hstarts
            exact absurd List.mem_cons_self hc
      · exact .inr hfound
  | cons d x ih =>
      rcases List.infix_cons_iff.mp h with hstarts | hfound
      · refine .inl (List.IsPrefix.isInfix ?_)
        exact prefix_of_prefix_append_cons (a := d :: x) hc hstarts
      · exact (ih hfound).imp_left fun h => List.infix_cons_iff.mpr (.inr h)

omit [DecidableEq α] in
theorem not_prefix_cons (hpat : pat ≠ []) (hc : c ∉ pat) : ¬pat <+: c :: s := by
  intro h
  exact hpat (List.prefix_nil.mp (prefix_of_prefix_append_cons (a := []) hc h))

/-- A character with which the pattern may only begin separates. -/
theorem replaceAll_append_of_notMem_tail (hpat : pat ≠ []) (hc : c ∉ pat.tail) (a b : List α) :
    replaceAll pat new (a ++ c :: b) = replaceAll pat new a ++ replaceAll pat new (c :: b) := by
  induction a using replaceAll_induct hpat with
  | nil => rfl
  | found t ih =>
      rw [List.append_assoc, replaceAll_append hpat, ih, replaceAll_append hpat,
        List.append_assoc]
  | copied d t hd ih =>
      have hd' : ¬pat <+: d :: (t ++ c :: b) := by
        obtain ⟨p, rest, rfl⟩ := List.exists_cons_of_ne_nil hpat
        rw [List.cons_prefix_cons] at hd ⊢
        exact fun h => hd ⟨h.1, prefix_of_prefix_append_cons hc h.2⟩
      rw [List.cons_append, replaceAll_cons hd', ih, replaceAll_cons hd, List.cons_append]

/-- A character outside of the pattern separates. -/
theorem replaceAll_append_cons (hpat : pat ≠ []) (hc : c ∉ pat) (a b : List α) :
    replaceAll pat new (a ++ c :: b) = replaceAll pat new a ++ c :: replaceAll pat new b := by
  rw [replaceAll_append_of_notMem_tail hpat fun h => hc (List.mem_of_mem_tail h),
    replaceAll_cons (not_prefix_cons hpat hc)]

theorem replaceAll_append_disjoint (hpat : pat ≠ []) {b : List α} (hb : ∀ d ∈ b, d ∉ pat)
    (a : List α) : replaceAll pat new (b ++ a) = b ++ replaceAll pat new a := by
  induction b with
  | nil => rfl
  | cons d b ih =>
      rw [List.cons_append, replaceAll_cons (not_prefix_cons hpat (hb d List.mem_cons_self)),
        ih fun e he => hb e (List.mem_cons_of_mem d he), List.cons_append]

theorem replaceAll_of_not_occurs (h : ¬pat <:+: s) : replaceAll pat new s = s := by
  induction s with
  | nil => rfl
  | cons c s ih =>
      rw [replaceAll_cons fun hstarts => h hstarts.isInfix,
        ih fun hoccurs => h (hoccurs.trans (List.suffix_cons c s).isInfix)]

theorem mem_replaceAll {d : α} (hpat : pat ≠ []) (h : d ∈ replaceAll pat new s) :
    d ∈ s ∨ d ∈ new := by
  induction s using replaceAll_induct hpat with
  | nil => simp [replaceAll_nil] at h
  | found t ih =>
      rw [replaceAll_append hpat, List.mem_append] at h
      rcases h with h | h
      · exact .inr h
      · exact (ih h).imp_left (List.mem_append_right pat)
  | copied c s hc ih =>
      rw [replaceAll_cons hc, List.mem_cons] at h
      rcases h with rfl | h
      · exact .inl List.mem_cons_self
      · exact (ih h).imp_left (List.mem_cons_of_mem c)

theorem mem_replaceAll_of_notMem {d : α} (hpat : pat ≠ []) (hd : d ∉ pat) (h : d ∈ s) :
    d ∈ replaceAll pat new s := by
  obtain ⟨a, b, rfl⟩ := List.append_of_mem h
  rw [replaceAll_append_cons hpat hd]
  simp

theorem subset_replaceAll (hpat : pat ≠ []) (h : pat <:+: s) : new ⊆ replaceAll pat new s := by
  induction s using replaceAll_induct hpat with
  | nil => exact absurd (List.infix_nil.mp h) hpat
  | found t ih =>
      rw [replaceAll_append hpat]
      exact List.subset_append_left new _
  | copied c s hc ih =>
      rw [replaceAll_cons hc]
      rcases List.infix_cons_iff.mp h with hstarts | hoccurs
      · exact absurd hstarts hc
      · exact List.Subset.trans (ih hoccurs) (List.subset_cons_self c _)

theorem replaceAll_eq_nil (hpat : pat ≠ []) (hnew : new ≠ []) :
    replaceAll pat new s = [] ↔ s = [] := by
  cases s using replaceAll_induct hpat with
  | nil => simp [replaceAll_nil]
  | found t _ => simp [replaceAll_append hpat, hnew, hpat]
  | copied c s hc _ => simp [replaceAll_cons hc]

theorem replaceAll_map {β : Type*} [DecidableEq β] {f : α → β} (hf : f.Injective)
    (s : List α) : replaceAll (pat.map f) (new.map f) (s.map f) = (replaceAll pat new s).map f := by
  have hskip : ∀ skip, replaceSkip (pat.map f) (new.map f) skip (s.map f) =
      (replaceSkip pat new skip s).map f := by
    induction s with
    | nil => intro skip; cases skip <;> rfl
    | cons c s ih =>
        intro skip
        cases skip with
        | succ skip => exact ih skip
        | zero =>
            have hstarts : (pat.map f).isPrefixOf ((c :: s).map f) = pat.isPrefixOf (c :: s) := by
              rw [Bool.eq_iff_iff, List.isPrefixOf_iff_prefix, List.isPrefixOf_iff_prefix]
              exact List.prefix_map_iff_of_injective hf
            rw [List.map_cons] at hstarts ⊢
            rw [replaceSkip, replaceSkip, hstarts, List.length_map, ih, ih]
            split <;> simp
  exact hskip 0

end SereinGateway.Lib
