import Mathlib
import SereinGateway.Lib.Text

/-!
Regular expressions.

A match is leftmost-first: of the matches at a position, the one is taken that
a search with backtracking finds first, so the order of alternatives counts
and repetitions take as much as they can. `Regex.run` lists the matches at a
position in this order. A position is given by what stands before it, the last
character first, and by what follows.
-/

namespace SereinGateway.Lib

/-- Repetition is that of a class of characters, which is the only kind needed
here, and takes as many as it can. -/
inductive Regex (α : Type*) where
  | epsilon
  | one (p : α → Bool)
  | many (p : α → Bool)
  | seq (a b : Regex α)
  | alt (a b : Regex α)
  | boundary (word : α → Bool)

/-- The beginnings of a text that lie in a class, longest first. -/
@[grind =] def greedy {α : Type*} (p : α → Bool) : List α → List (List α)
  | [] => [[]]
  | c :: s => if p c then (greedy p s).map (c :: ·) ++ [[]] else [[]]

/-- Exactly one of the characters around a position is of a word. -/
def atBoundary {α : Type*} (word : α → Bool) (left s : List α) : Bool :=
  left.head?.any word != s.head?.any word

namespace Regex

variable {α : Type*}

/-- The matches at a position, in the order in which they are tried. -/
@[grind =] def run : Regex α → List α → List α → List (List α)
  | epsilon, _, _ => [[]]
  | one _, _, [] => []
  | one p, _, c :: _ => if p c then [[c]] else []
  | many p, _, s => greedy p s
  | seq a b, left, s =>
      (a.run left s).flatMap fun u => (b.run (u.reverse ++ left) (s.drop u.length)).map (u ++ ·)
  | alt a b, left, s => a.run left s ++ b.run left s
  | boundary word, left, s => if atBoundary word left s then [[]] else []

/-- The matches of one expression after another, apart. -/
def runGroup (a b : Regex α) (left s : List α) : List (List α × List α) :=
  (a.run left s).flatMap fun u => (b.run (u.reverse ++ left) (s.drop u.length)).map (u, ·)

/-- `r?` -/
def optional (r : Regex α) : Regex α := alt r epsilon

/-- `r{n}` -/
@[grind =] def times (r : Regex α) : ℕ → Regex α
  | 0 => epsilon
  | n + 1 => seq r (times r n)

/-- `[p]{n,}` -/
def atLeast (p : α → Bool) (n : ℕ) : Regex α := seq (times (one p) n) (many p)

/-- One character of each class in turn. -/
def spelled (ps : List (α → Bool)) : Regex α := ps.foldr (fun p r => seq (one p) r) epsilon

/-- There is a match at this position or later. -/
@[grind =] def isMatch (r : Regex α) (left : List α) : List α → Bool
  | [] => !(r.run left []).isEmpty
  | c :: s => !(r.run left (c :: s)).isEmpty || r.isMatch (c :: left) s

@[grind =] def language : Regex α → Language α
  | epsilon => 1
  | one p => {w | ∃ c, p c = true ∧ w = [c]}
  | many p => {w | ∀ c ∈ w, p c = true}
  | seq a b => a.language * b.language
  | alt a b => a.language + b.language
  | boundary _ => 1

/-- There are no boundaries in the expression. -/
@[grind =] def Free : Regex α → Prop
  | seq a b | alt a b => a.Free ∧ b.Free
  | boundary _ => False
  | _ => True

@[grind =] def mayBeEmpty : Regex α → Bool
  | epsilon | many _ | boundary _ => true
  | one _ => false
  | seq a b => a.mayBeEmpty && b.mayBeEmpty
  | alt a b => a.mayBeEmpty || b.mayBeEmpty

@[grind =] def Avoids (d : α) : Regex α → Prop
  | one p | many p => p d = false
  | seq a b | alt a b => a.Avoids d ∧ b.Avoids d
  | _ => True

/-- The character is in none of the classes, and no part of a word. -/
@[grind =] def Rejects (d : α) : Regex α → Prop
  | epsilon => True
  | one p | many p => p d = false
  | seq a b | alt a b => a.Rejects d ∧ b.Rejects d
  | boundary word => word d = false

end Regex

/-! ### Matches at a position -/

section Run

variable {α : Type*} {p : α → Bool} {r a b : Regex α} {left left' s w x y : List α} {d : α}

theorem mem_greedy : w ∈ greedy p s ↔ w <+: s ∧ ∀ c ∈ w, p c = true := by
  induction s generalizing w with
  | nil =>
      rw [greedy, List.mem_singleton, List.prefix_nil]
      constructor
      · rintro rfl
        exact ⟨rfl, List.forall_mem_nil _⟩
      · exact And.left
  | cons c s ih =>
      rw [greedy]
      cases w with
      | nil => split <;> simp
      | cons d w =>
          split
          · rename_i hc
            simp only [List.mem_append, List.mem_map, List.cons.injEq, ih, List.mem_singleton,
              reduceCtorEq, or_false, List.cons_prefix_cons, List.forall_mem_cons]
            constructor
            · rintro ⟨w', ⟨hpre, hall⟩, rfl, rfl⟩
              exact ⟨⟨rfl, hpre⟩, hc, hall⟩
            · rintro ⟨⟨rfl, hpre⟩, -, hall⟩
              exact ⟨w, ⟨hpre, hall⟩, rfl, rfl⟩
          · rename_i hc
            simp only [List.mem_singleton, reduceCtorEq, List.cons_prefix_cons,
              List.forall_mem_cons, false_iff, not_and]
            rintro ⟨rfl, -⟩ hd
            exact absurd hd hc

theorem head?_greedy (p : α → Bool) (s : List α) :
    (greedy p s).head? = some (s.takeWhile p) := by
  induction s with
  | nil => rfl
  | cons c s ih =>
      rw [greedy]
      split
      · rename_i hc
        rw [List.head?_append, List.head?_map, ih, List.takeWhile_cons_of_pos hc]
        rfl
      · rename_i hc
        rw [List.takeWhile_cons_of_neg hc]
        rfl

theorem findSome?_congr {β : Type*} {f g : α → Option β} (h : ∀ c ∈ s, f c = g c) :
    s.findSome? f = s.findSome? g := by
  induction s with
  | nil => rfl
  | cons c s ih =>
      rw [List.findSome?_cons, List.findSome?_cons, h c List.mem_cons_self,
        ih fun d hd => h d (List.mem_cons_of_mem c hd)]

theorem takeWhile_append_cases (p : α → Bool) (x y : List α) :
    (∀ c ∈ x, p c = true) ∧ (x ++ y).takeWhile p = x ++ y.takeWhile p ∨
      (¬∀ c ∈ x, p c = true) ∧ (x ++ y).takeWhile p = x.takeWhile p := by
  by_cases h : ∀ c ∈ x, p c = true
  · exact .inl ⟨h, List.takeWhile_append_of_pos h⟩
  · refine .inr ⟨h, ?_⟩
    rw [List.takeWhile_append, if_neg]
    intro hlen
    exact h (List.takeWhile_eq_self_iff.mp ((List.takeWhile_prefix p).eq_of_length hlen))

theorem takeWhile_append_cons {c : α} (h : p c = false) (x y : List α) :
    (x ++ c :: y).takeWhile p = x.takeWhile p := by
  rcases takeWhile_append_cases p x (c :: y) with ⟨hall, heq⟩ | ⟨-, heq⟩
  · rw [heq, List.takeWhile_cons_of_neg (by simp [h]), List.append_nil,
      List.takeWhile_eq_self_iff.mpr hall]
  · exact heq

theorem dropWhile_append_cons {c : α} (h : p c = false) (x y : List α) :
    (x ++ c :: y).dropWhile p = x.dropWhile p ++ c :: y := by
  induction x with
  | nil => exact List.dropWhile_cons_of_neg (by simp [h])
  | cons d x ih =>
      by_cases hd : p d = true
      · rw [List.cons_append, List.dropWhile_cons_of_pos hd, List.dropWhile_cons_of_pos hd, ih]
      · rw [List.cons_append, List.dropWhile_cons_of_neg hd, List.dropWhile_cons_of_neg hd]
        rfl

theorem take_append_takeWhile_drop {n : ℕ} (hn : n ≤ (s.takeWhile p).length) :
    s.take n ++ (s.drop n).takeWhile p = s.takeWhile p := by
  induction n generalizing s with
  | zero => rfl
  | succ n ih =>
      cases s with
      | nil => rfl
      | cons c s =>
          by_cases hc : p c = true
          · rw [List.takeWhile_cons_of_pos hc, List.length_cons] at hn
            rw [List.takeWhile_cons_of_pos hc, List.take_succ_cons, List.drop_succ_cons,
              List.cons_append, ih (by omega)]
          · rw [List.takeWhile_cons_of_neg hc] at hn
            exact absurd hn (by simp)

namespace Regex

theorem mem_run_seq : w ∈ (seq a b).run left s ↔
    ∃ u ∈ a.run left s, ∃ v ∈ b.run (u.reverse ++ left) (s.drop u.length), w = u ++ v := by
  simp only [run, List.mem_flatMap, List.mem_map, eq_comm]

theorem mem_run_alt : w ∈ (alt a b).run left s ↔ w ∈ a.run left s ∨ w ∈ b.run left s :=
  List.mem_append

theorem mem_run_one : w ∈ (one p).run left s ↔ ∃ c t, s = c :: t ∧ p c = true ∧ w = [c] := by
  cases s with
  | nil => simp [run]
  | cons c t =>
      rw [run]
      split
      · rename_i hc
        rw [List.mem_singleton]
        constructor
        · rintro rfl
          exact ⟨c, t, rfl, hc, rfl⟩
        · rintro ⟨c', t', heq, -, rfl⟩
          cases heq
          rfl
      · rename_i hc
        simp only [List.not_mem_nil, false_iff]
        rintro ⟨c', t', heq, hc', -⟩
        cases heq
        exact hc hc'

theorem mem_run_boundary {word : α → Bool} :
    w ∈ (boundary word).run left s ↔ atBoundary word left s = true ∧ w = [] := by
  rw [run]
  split
  · rename_i h
    simp [h]
  · rename_i h
    simp [h]

theorem prefix_of_mem_run (h : w ∈ r.run left s) : w <+: s := by
  induction r generalizing left s w with
  | epsilon =>
      rw [List.mem_singleton.mp h]
      exact List.nil_prefix
  | one p =>
      obtain ⟨c, t, rfl, -, rfl⟩ := mem_run_one.mp h
      exact ⟨t, rfl⟩
  | many p => exact (mem_greedy.mp h).1
  | seq a b iha ihb =>
      obtain ⟨u, hu, v, hv, rfl⟩ := mem_run_seq.mp h
      obtain ⟨t, rfl⟩ := iha hu
      rw [List.drop_left] at hv
      exact (List.prefix_append_right_inj u).mpr (ihb hv)
  | alt a b iha ihb =>
      rcases mem_run_alt.mp h with h | h
      · exact iha h
      · exact ihb h
  | boundary word =>
      rw [(mem_run_boundary.mp h).2]
      exact List.nil_prefix

/-- Without boundaries a match depends on its text alone. -/
theorem mem_run_iff (hr : r.Free) : w ∈ r.run left s ↔ w <+: s ∧ w ∈ r.language := by
  induction r generalizing left s w with
  | epsilon =>
      rw [run, List.mem_singleton, language, Language.mem_one]
      constructor
      · rintro rfl
        exact ⟨List.nil_prefix, rfl⟩
      · exact And.right
  | one p =>
      rw [mem_run_one]
      constructor
      · rintro ⟨c, t, rfl, hc, rfl⟩
        exact ⟨⟨t, rfl⟩, c, hc, rfl⟩
      · rintro ⟨⟨t, rfl⟩, c, hc, rfl⟩
        exact ⟨c, t, rfl, hc, rfl⟩
  | many p => exact mem_greedy
  | seq a b iha ihb =>
      rw [mem_run_seq, language, Language.mem_mul]
      constructor
      · rintro ⟨u, hu, v, hv, rfl⟩
        obtain ⟨⟨t, rfl⟩, hua⟩ := (iha hr.1).mp hu
        rw [List.drop_left] at hv
        obtain ⟨hpre, hvb⟩ := (ihb hr.2).mp hv
        exact ⟨(List.prefix_append_right_inj u).mpr hpre, u, hua, v, hvb, rfl⟩
      · rintro ⟨⟨t, rfl⟩, u, hu, v, hv, rfl⟩
        refine ⟨u, (iha hr.1).mpr ⟨⟨v ++ t, by simp⟩, hu⟩, v, ?_, rfl⟩
        rw [List.append_assoc, List.drop_left]
        exact (ihb hr.2).mpr ⟨List.prefix_append v t, hv⟩
  | alt a b iha ihb =>
      rw [mem_run_alt, iha hr.1, ihb hr.2, ← and_or_left]
      rfl
  | boundary word => exact hr.elim

theorem isMatch_iff : r.isMatch left s = true ↔
    ∃ x y w, s = x ++ y ∧ w ∈ r.run (x.reverse ++ left) y := by
  induction s generalizing left with
  | nil =>
      simp only [isMatch, Bool.not_eq_true', List.isEmpty_eq_false_iff_exists_mem]
      constructor
      · rintro ⟨w, hw⟩
        exact ⟨[], [], w, rfl, hw⟩
      · rintro ⟨x, y, w, heq, hw⟩
        obtain ⟨rfl, rfl⟩ := List.append_eq_nil_iff.mp heq.symm
        exact ⟨w, hw⟩
  | cons c s ih =>
      simp only [isMatch, Bool.or_eq_true, Bool.not_eq_true', List.isEmpty_eq_false_iff_exists_mem,
        ih]
      constructor
      · rintro (⟨w, hw⟩ | ⟨x, y, w, rfl, hw⟩)
        · exact ⟨[], c :: s, w, rfl, hw⟩
        · exact ⟨c :: x, y, w, rfl, by simpa using hw⟩
      · rintro ⟨x, y, w, heq, hw⟩
        cases x with
        | nil =>
            obtain rfl : c :: s = y := heq
            exact .inl ⟨w, hw⟩
        | cons d x =>
            obtain ⟨rfl, rfl⟩ := List.cons.inj heq
            exact .inr ⟨x, y, w, rfl, by simpa using hw⟩

theorem mayBeEmpty_of_mem (h : [] ∈ r.run left s) : r.mayBeEmpty = true := by
  induction r generalizing left s with
  | epsilon | many p | boundary word => rfl
  | one p =>
      obtain ⟨c, t, -, -, heq⟩ := mem_run_one.mp h
      cases heq
  | seq a b iha ihb =>
      obtain ⟨u, hu, v, hv, heq⟩ := mem_run_seq.mp h
      obtain ⟨rfl, rfl⟩ := List.append_eq_nil_iff.mp heq.symm
      rw [mayBeEmpty, iha hu, ihb hv]
      rfl
  | alt a b iha ihb =>
      rw [mayBeEmpty, Bool.or_eq_true]
      exact (mem_run_alt.mp h).imp iha ihb

theorem run_free_left (hr : r.Free) (left left' s : List α) : r.run left s = r.run left' s := by
  induction r generalizing left left' s with
  | epsilon | one p | many p => cases s <;> rfl
  | seq a b iha ihb =>
      rw [run, run, iha hr.1 left left']
      exact List.flatMap_congr fun u _ => by rw [ihb hr.2 (u.reverse ++ left) (u.reverse ++ left')]
  | alt a b iha ihb => rw [run, run, iha hr.1 left left', ihb hr.2 left left']
  | boundary word => exact hr.elim

theorem run_seq (a b : Regex α) (left s : List α) :
    (seq a b).run left s = (runGroup a b left s).map fun m => m.1 ++ m.2 := by
  rw [run, runGroup, List.map_flatMap]
  simp only [List.map_map, Function.comp_def]

/-- `runGroup` keeps what does not go beyond the beginning of a text, if its two
expressions do. -/
theorem runGroup_eq_filter
    (ha : ∀ left s t,
      a.run left s = (a.run left (s ++ t)).filter fun w => decide (w.length ≤ s.length))
    (hb : ∀ left s t,
      b.run left s = (b.run left (s ++ t)).filter fun w => decide (w.length ≤ s.length))
    (left s t : List α) : runGroup a b left s =
      (runGroup a b left (s ++ t)).filter fun m => decide ((m.1 ++ m.2).length ≤ s.length) := by
  have hkeep : ∀ (l : List (List α)) (q : List α → Bool) (g : List α → List (List α × List α)),
      (l.filter q).flatMap g = l.flatMap fun u => if q u then g u else [] := by
    intro l q g
    induction l with
    | nil => rfl
    | cons u l ih =>
        rw [List.filter_cons, List.flatMap_cons]
        split
        · rw [List.flatMap_cons, ih]
        · rw [ih, List.nil_append]
  rw [runGroup, runGroup, ha left s t, List.filter_flatMap, hkeep]
  refine List.flatMap_congr fun u hu => ?_
  split
  · rename_i hlen
    obtain ⟨v, rfl⟩ := List.prefix_of_prefix_length_le (prefix_of_mem_run hu)
      (List.prefix_append s t) (of_decide_eq_true hlen)
    rw [List.append_assoc, List.drop_left, List.drop_left, hb _ v t, List.filter_map]
    simp [Function.comp_def]
  · rename_i hlen
    rw [decide_eq_true_iff] at hlen
    symm
    rw [List.filter_eq_nil_iff]
    intro m hm
    obtain ⟨v, -, rfl⟩ := List.mem_map.mp hm
    rw [decide_eq_true_iff, List.length_append]
    dsimp only
    omega

/-- What is matched in the beginning of a text is what is matched in the whole
text and does not go beyond it, in the same order. -/
theorem run_eq_filter (hr : r.Free) (left s t : List α) :
    r.run left s = (r.run left (s ++ t)).filter fun w => decide (w.length ≤ s.length) := by
  induction r generalizing left s t with
  | epsilon => cases s <;> simp [run]
  | one p =>
      cases s with
      | nil =>
          cases t with
          | nil => rfl
          | cons c t =>
              rw [List.nil_append, run, run]
              split <;> simp
      | cons c s =>
          rw [List.cons_append, run, run]
          split <;> simp
  | many p =>
      show greedy p s = (greedy p (s ++ t)).filter _
      induction s with
      | nil =>
          cases t with
          | nil => rfl
          | cons c t =>
              rw [List.nil_append, greedy, greedy]
              split <;> simp [List.filter_append, List.filter_map]
      | cons c s ih =>
          rw [List.cons_append, greedy, greedy]
          split
          · rw [List.filter_append, List.filter_map, ih]
            simp [Function.comp_def]
          · simp
  | seq a b iha ihb =>
      rw [run_seq, run_seq, runGroup_eq_filter (iha hr.1) (ihb hr.2) left s t, List.filter_map]
      rfl
  | alt a b iha ihb =>
      rw [run, run, List.filter_append, ← iha hr.1, ← ihb hr.2]
  | boundary word => exact hr.elim

/-- A match does not take in a character that is in no class. -/
theorem prefix_append_of_mem (hr : r.Avoids d) (h : w ∈ r.run left (x ++ [d])) : w <+: x := by
  induction r generalizing left w x with
  | epsilon =>
      rw [run, List.mem_singleton] at h
      rw [h]
      exact List.nil_prefix
  | one p =>
      obtain ⟨c, t, hx, hc, rfl⟩ := mem_run_one.mp h
      cases x with
      | nil =>
          obtain ⟨rfl, -⟩ := List.cons.inj hx
          exact absurd hc (by rw [show p d = false from hr]; simp)
      | cons c' x =>
          obtain ⟨rfl, -⟩ := List.cons.inj hx
          exact ⟨x, rfl⟩
  | many p =>
      obtain ⟨hpre, hall⟩ := mem_greedy.mp h
      rcases List.prefix_concat_iff.mp hpre with rfl | hpre
      · have hd := hall d (by simp)
        exact absurd hd (by rw [show p d = false from hr]; simp)
      · exact hpre
  | seq a b iha ihb =>
      obtain ⟨u, hu, v, hv, rfl⟩ := mem_run_seq.mp h
      obtain ⟨t, rfl⟩ := iha hr.1 hu
      rw [List.append_assoc, List.drop_left] at hv
      exact (List.prefix_append_right_inj u).mpr (ihb hr.2 hv)
  | alt a b iha ihb =>
      rcases mem_run_alt.mp h with h | h
      · exact iha hr.1 h
      · exact ihb hr.2 h
  | boundary word =>
      rw [(mem_run_boundary.mp h).2]
      exact List.nil_prefix

/-- What stands before a position counts by its last character only. -/
theorem run_congr_head (h : left.head? = left'.head?) : r.run left s = r.run left' s := by
  induction r generalizing left left' s with
  | epsilon | one p | many p => cases s <;> rfl
  | seq a b iha ihb =>
      rw [run, run, iha h]
      refine List.flatMap_congr fun u _ => ?_
      rw [@ihb (u.reverse ++ left) (u.reverse ++ left')]
      cases u using List.reverseRecOn with
      | nil => exact h
      | append_singleton u c => simp
  | alt a b iha ihb => rw [run, run, iha h, ihb h]
  | boundary word => rw [run, run, atBoundary, atBoundary, h]

/-- A search does not look beyond a character that is in no class. -/
theorem run_append_cons_cons (hr : r.Avoids d) (y : List α) :
    r.run left (x ++ d :: y) = r.run left (x ++ [d]) := by
  induction r generalizing left x with
  | epsilon => cases x <;> rfl
  | one p => cases x <;> rfl
  | many p =>
      have hd : p d = false := hr
      show greedy p (x ++ d :: y) = greedy p (x ++ [d])
      induction x with
      | nil => simp [greedy, hd]
      | cons c x ih => rw [List.cons_append, List.cons_append, greedy, greedy, ih]
  | seq a b iha ihb =>
      rw [run, run, iha hr.1]
      refine List.flatMap_congr fun u hu => ?_
      obtain ⟨t, rfl⟩ := prefix_append_of_mem hr.1 hu
      rw [List.append_assoc, List.append_assoc, List.drop_left, List.drop_left, ihb hr.2]
  | alt a b iha ihb => rw [run, run, iha hr.1, ihb hr.2]
  | boundary word =>
      rw [run, run, atBoundary, atBoundary]
      cases x <;> rfl

/-- A search does not look beyond a character that the expression rejects. -/
theorem run_append_cons (hr : r.Rejects d) : r.run left (x ++ d :: y) = r.run left x := by
  induction r generalizing left x with
  | epsilon => cases x <;> rfl
  | one p =>
      cases x with
      | nil =>
          have hd : p d = false := hr
          simp [run, hd]
      | cons c x => rfl
  | many p =>
      have hd : p d = false := hr
      show greedy p (x ++ d :: y) = greedy p x
      induction x with
      | nil => simp [greedy, hd]
      | cons c x ih => rw [List.cons_append, greedy, greedy, ih]
  | seq a b iha ihb =>
      rw [run, run, iha hr.1]
      refine List.flatMap_congr fun u hu => ?_
      obtain ⟨t, rfl⟩ := prefix_of_mem_run hu
      rw [List.append_assoc, List.drop_left, List.drop_left, ihb hr.2]
  | alt a b iha ihb => rw [run, run, iha hr.1, ihb hr.2]
  | boundary word =>
      have hd : word d = false := hr
      rw [run, run, atBoundary, atBoundary]
      cases x with
      | nil => simp [hd]
      | cons c x => rfl

/-! ### The first match -/

theorem head?_run_seq : ((seq a b).run left s).head? = (a.run left s).findSome? fun u =>
    (b.run (u.reverse ++ left) (s.drop u.length)).head?.map (u ++ ·) := by
  simp only [run, List.head?_flatMap, List.head?_map]

/-- The first match of a sequence, if its first part can be matched in one way. -/
theorem head?_run_seq_iff (hall : ∀ u ∈ a.run left s, ∀ u' ∈ a.run left s, u = u') :
    ((seq a b).run left s).head? = some w ↔ ∃ u ∈ a.run left s, ∃ v,
      (b.run (u.reverse ++ left) (s.drop u.length)).head? = some v ∧ w = u ++ v := by
  rw [head?_run_seq]
  constructor
  · intro h
    obtain ⟨u, hu, hw⟩ := List.exists_of_findSome?_eq_some h
    obtain ⟨v, hv, rfl⟩ := Option.map_eq_some_iff.mp hw
    exact ⟨u, hu, v, hv, rfl⟩
  · rintro ⟨u, hu, v, hv, rfl⟩
    obtain ⟨u', l, hl⟩ := List.exists_cons_of_ne_nil (List.ne_nil_of_mem hu)
    obtain rfl := hall u' (by simp [hl]) u hu
    rw [hl, List.findSome?_cons, hv]
    rfl

/-- The second part of a sequence, if it can be matched after the first match of
the first one. -/
theorem head?_run_seq_of_head {u v : List α} (hu : (a.run left s).head? = some u)
    (hv : (b.run (u.reverse ++ left) (s.drop u.length)).head? = some v) :
    ((seq a b).run left s).head? = some (u ++ v) := by
  obtain ⟨l, hl⟩ := List.head?_eq_some_iff.mp hu
  rw [head?_run_seq, hl, List.findSome?_cons, hv]
  rfl

theorem run_times_one (p : α → Bool) (n : ℕ) (left s : List α) :
    (times (one p) n).run left s = if n ≤ (s.takeWhile p).length then [s.take n] else [] := by
  induction n generalizing left s with
  | zero => simp [times, run]
  | succ n ih =>
      cases s with
      | nil => simp [times, run]
      | cons c s =>
          by_cases hc : p c = true
          · have hrun : (times (one p) (n + 1)).run left (c :: s) =
                ((times (one p) n).run (c :: left) s).map (c :: ·) := by simp [times, run, hc]
            rw [hrun, ih, List.takeWhile_cons_of_pos hc]
            by_cases hn : n ≤ (s.takeWhile p).length
            · rw [if_pos hn, if_pos (by simpa using hn)]
              rfl
            · rw [if_neg hn, if_neg (by simpa using hn)]
              rfl
          · rw [List.takeWhile_cons_of_neg hc, if_neg (by simp)]
            simp [times, run, hc]

theorem run_atLeast (p : α → Bool) (n : ℕ) (left s : List α) :
    (atLeast p n).run left s = if n ≤ (s.takeWhile p).length then
      (greedy p (s.drop n)).map (s.take n ++ ·) else [] := by
  rw [atLeast, run, run_times_one]
  split
  · rename_i hn
    have hlen : n ≤ s.length := hn.trans (List.takeWhile_prefix p).length_le
    simp [run, hlen]
  · rfl

/-- The first match takes the whole of what is in the class. -/
theorem head?_run_atLeast (p : α → Bool) (n : ℕ) (left s : List α) :
    ((atLeast p n).run left s).head? =
      if n ≤ (s.takeWhile p).length then some (s.takeWhile p) else none := by
  rw [run_atLeast]
  split
  · rename_i hn
    rw [List.head?_map, head?_greedy, Option.map_some, take_append_takeWhile_drop hn]
  · rfl

theorem head?_run_atLeast_one (p : α → Bool) (left s : List α) :
    ((atLeast p 1).run left s).head? =
      if s.takeWhile p = [] then none else some (s.takeWhile p) := by
  rw [head?_run_atLeast]
  by_cases h : s.takeWhile p = []
  · rw [if_pos h, if_neg (by simp [h])]
  · rw [if_neg h, if_pos (Nat.succ_le_of_lt (List.length_pos_iff.mpr h))]

theorem forall_of_mem_run_atLeast {n : ℕ} (h : w ∈ (atLeast p n).run left s) :
    ∀ c ∈ w, p c = true := by
  rw [run_atLeast] at h
  split at h
  · rename_i hn
    obtain ⟨g, hg, rfl⟩ := List.mem_map.mp h
    have htake : s.take n <+: s.takeWhile p :=
      List.prefix_of_prefix_length_le (List.take_prefix n s) (List.takeWhile_prefix p)
        ((List.length_take_le n s).trans hn)
    intro c hc
    rcases List.mem_append.mp hc with hc | hc
    · exact List.mem_takeWhile_imp (htake.subset hc)
    · exact (mem_greedy.mp hg).2 c hc
  · cases h

/-- Nothing else is tried if what follows cannot begin in the class. -/
theorem head?_run_atLeast_seq {n : ℕ} (hb : ∀ c t left, p c = true → b.run left (c :: t) = []) :
    ((seq (atLeast p n) b).run left s).head? = if n ≤ (s.takeWhile p).length then
      (b.run ((s.takeWhile p).reverse ++ left) (s.dropWhile p)).head?.map (s.takeWhile p ++ ·)
      else none := by
  have hhead := head?_run_atLeast p n left s
  have hdrop : (s.takeWhile p ++ s.dropWhile p).drop (s.takeWhile p).length = s.dropWhile p :=
    List.drop_left
  rw [List.takeWhile_append_dropWhile] at hdrop
  split at hhead
  · rename_i hn
    rw [if_pos hn, ← hdrop]
    cases hlast : (b.run ((s.takeWhile p).reverse ++ left)
        (s.drop (s.takeWhile p).length)).head? with
    | some v => exact head?_run_seq_of_head hhead hlast
    | none =>
        rw [head?_run_seq]
        refine List.findSome?_eq_none_iff.mpr fun u hu => ?_
        obtain ⟨t, rfl⟩ := prefix_of_mem_run hu
        rw [List.takeWhile_append_of_pos (forall_of_mem_run_atLeast hu)] at hlast
        cases t with
        | nil => simpa using hlast
        | cons c t =>
            by_cases hc : p c = true
            · rw [List.drop_left, hb c t _ hc]
              rfl
            · rw [List.takeWhile_cons_of_neg hc, List.append_nil] at hlast
              rw [hlast]
              rfl
  · rename_i hn
    rw [if_neg hn, head?_run_seq, List.head?_eq_none_iff.mp hhead]
    rfl

theorem mem_run_spelled {ps : List (α → Bool)} : w ∈ (spelled ps).run left s ↔
    w <+: s ∧ List.Forall₂ (fun p c => p c = true) ps w := by
  induction ps generalizing left s w with
  | nil =>
      rw [spelled, List.foldr_nil, run, List.mem_singleton, List.forall₂_nil_left_iff]
      constructor
      · rintro rfl
        exact ⟨List.nil_prefix, rfl⟩
      · exact And.right
  | cons p ps ih =>
      rw [spelled, List.foldr_cons, ← spelled, mem_run_seq]
      constructor
      · rintro ⟨u, hu, v, hv, rfl⟩
        obtain ⟨c, t, rfl, hc, rfl⟩ := mem_run_one.mp hu
        obtain ⟨hpre, hall⟩ := ih.mp hv
        exact ⟨List.cons_prefix_cons.mpr ⟨rfl, hpre⟩, .cons hc hall⟩
      · rintro ⟨⟨t, rfl⟩, hall⟩
        cases hall with
        | @cons _ c _ w hc hall =>
            refine ⟨[c], mem_run_one.mpr ⟨c, w ++ t, rfl, hc, rfl⟩, w, ih.mpr ⟨?_, hall⟩, rfl⟩
            exact List.prefix_append w t

/-! ### The texts that are matched -/

@[simp] theorem language_seq (a b : Regex α) : (seq a b).language = a.language * b.language := rfl

@[simp] theorem language_alt (a b : Regex α) : (alt a b).language = a.language + b.language := rfl

@[simp] theorem language_times (r : Regex α) (n : ℕ) : (times r n).language = r.language ^ n := by
  induction n with
  | zero => rfl
  | succ n ih => rw [times, language, ih, pow_succ']

theorem Free.times (hr : r.Free) (n : ℕ) : (times r n).Free := by
  induction n with
  | zero => trivial
  | succ n ih => exact ⟨hr, ih⟩

theorem Avoids.atLeast (h : p d = false) (n : ℕ) : (atLeast p n).Avoids d := by
  refine ⟨?_, h⟩
  induction n with
  | zero => trivial
  | succ n ih => exact ⟨h, ih⟩

theorem Avoids.spelled {ps : List (α → Bool)} (h : ∀ p ∈ ps, p d = false) :
    (spelled ps).Avoids d := by
  induction ps with
  | nil => trivial
  | cons p ps ih =>
      exact ⟨h p List.mem_cons_self, ih fun p' hp => h p' (List.mem_cons_of_mem p hp)⟩

end Regex

end Run

/-- Anchored at both ends. -/
def Regex.fullMatch {α : Type*} [BEq α] (r : Regex α) (s : List α) : Bool :=
  (r.run [] s).contains s

theorem Regex.fullMatch_iff {α : Type*} [BEq α] [LawfulBEq α] {r : Regex α} (hr : r.Free)
    {s : List α} : r.fullMatch s = true ↔ s ∈ r.language := by
  rw [fullMatch, List.contains_iff_mem, mem_run_iff hr]
  exact and_iff_right List.prefix_rfl

/-- The classes `\d` and `\w`, by what is used of their Unicode tables. The
class `\s` is `isWhitespace`. -/
structure CharClasses where
  digit : Char → Bool
  word : Char → Bool
  ascii_digit : ∀ c, c.toNat < 128 → digit c = c.isDigit
  ascii_word : ∀ c, c.toNat < 128 → word c = (c.isAlphanum || c == '_')
  digit_word : ∀ c, digit c = true → word c = true
  digit_not_space : ∀ c, digit c = true → isWhitespace c = false

def asciiClasses : CharClasses where
  digit c := c.isDigit
  word c := c.isAlphanum || c == '_'
  ascii_digit _ _ := rfl
  ascii_word _ _ := rfl
  digit_word c hc := by simp [Char.isAlphanum, hc]
  digit_not_space c hc := not_space_of_isDigit hc

/-- `[a-z]` without regard to case: two letters outside of ASCII fold to `s`
and `k`. -/
def foldedLetter (c : Char) : Bool := c.isAlpha || c.toNat == 0x17F || c.toNat == 0x212A

theorem range_of_foldedLetter {c : Char} (h : foldedLetter c = true) :
    65 ≤ c.toNat ∧ c.toNat ≤ 90 ∨ 97 ≤ c.toNat ∧ c.toNat ≤ 122 ∨ c.toNat = 0x17F ∨
      c.toNat = 0x212A := by
  simp only [foldedLetter, Bool.or_eq_true, beq_iff_eq] at h
  rcases h with (h | h) | h
  · have hrange := range_of_isAlpha h
    omega
  · omega
  · omega

/-- The letter that a letter is compared as without regard to case. -/
def foldCase (c : Char) : Char :=
  if c.toNat == 0x17F then 's' else if c.toNat == 0x212A then 'k' else c.toLower

/-- A text as it stands. -/
def Regex.literal (text : String) : Regex Char := spelled (text.toList.map fun c d => d == c)

/-- A text in small letters, without regard to case. -/
def Regex.folded (text : String) : Regex Char :=
  spelled (text.toList.map fun c d => foldCase d == c)

section Literal

variable {left s w : List Char} {text : String}

theorem mem_run_mapped {f : Char → Char} {l : List Char} :
    w ∈ (Regex.spelled (l.map fun c d => f d == c)).run left s ↔ w <+: s ∧ w.map f = l := by
  rw [Regex.mem_run_spelled, List.forall₂_map_left_iff]
  refine and_congr Iff.rfl ?_
  constructor
  · intro h
    induction h with
    | nil => rfl
    | cons hc _ ih => rw [List.map_cons, ih, eq_of_beq hc]
  · rintro rfl
    rw [List.forall₂_map_left_iff]
    exact List.forall₂_same.mpr fun c _ => beq_self_eq_true _

theorem mem_run_folded :
    w ∈ (Regex.folded text).run left s ↔ w <+: s ∧ w.map foldCase = text.toList := mem_run_mapped

theorem mem_run_literal : w ∈ (Regex.literal text).run left s ↔ w <+: s ∧ w = text.toList := by
  have h : w ∈ (Regex.literal text).run left s ↔ w <+: s ∧ w.map id = text.toList :=
    mem_run_mapped
  rwa [List.map_id] at h

theorem free_spelled {α : Type*} (ps : List (α → Bool)) : (Regex.spelled ps).Free := by
  induction ps with
  | nil => trivial
  | cons p ps ih => exact ⟨trivial, ih⟩

end Literal

end SereinGateway.Lib
