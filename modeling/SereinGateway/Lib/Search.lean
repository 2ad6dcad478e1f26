import Mathlib
import SereinGateway.Lib.Regex

/-!
The search of a text for matches, from left to right.

What is searched for is a `Finder`, and `Finder.scan` cuts a text into the
matches that are found and the characters between them. A search goes on behind
the match that it has found. Matches are never empty.
-/

namespace SereinGateway.Lib

/-- A search at one position. What is found is more than its text, if groups
are captured. -/
structure Finder (α β : Type*) where
  find : List α → List α → Option β
  text : β → List α
  begins : ∀ {left s b}, find left s = some b → text b <+: s
  nonempty : ∀ {left s b}, find left s = some b → text b ≠ []

/-- What a text is cut into: characters between matches, and matches. -/
inductive Chunk (α β : Type*) where
  | plain (c : α)
  | hit (b : β)

namespace Chunk

variable {α β : Type*}

def isHit : Chunk α β → Bool
  | plain _ => false
  | hit _ => true

/-- The piece with something in the place of a match. -/
def replaced (new : β → List α) : Chunk α β → List α
  | plain c => [c]
  | hit b => new b

end Chunk

namespace Finder

variable {α β : Type*}

/-- The search from left to right; `skip` counts the characters of the last
match that are still to be passed. -/
@[grind =] def scanSkip (F : Finder α β) : ℕ → List α → List α → List (Chunk α β)
  | _, _, [] => []
  | skip + 1, left, c :: s => F.scanSkip skip (c :: left) s
  | 0, left, c :: s =>
      match F.find left (c :: s) with
      | none => .plain c :: F.scanSkip 0 (c :: left) s
      | some b => .hit b :: F.scanSkip ((F.text b).length - 1) (c :: left) s

def scan (F : Finder α β) (left s : List α) : List (Chunk α β) := F.scanSkip 0 left s

/-- The text that pieces come from. -/
def textOf (F : Finder α β) (ps : List (Chunk α β)) : List α := ps.flatMap (Chunk.replaced F.text)

/-- The text with something in the places of the matches. -/
def replaceAll (F : Finder α β) (new : β → List α) (s : List α) : List α :=
  (F.scan [] s).flatMap (Chunk.replaced new)

variable {F : Finder α β} {left left' s x y : List α} {c d : α} {b : β} {ps : List (Chunk α β)}

theorem scanSkip_eq (skip : ℕ) (left s : List α) :
    F.scanSkip skip left s = F.scan ((s.take skip).reverse ++ left) (s.drop skip) := by
  induction s generalizing skip left with
  | nil =>
      rw [List.drop_nil]
      cases skip <;> rfl
  | cons c s ih =>
      cases skip with
      | zero => rfl
      | succ skip =>
          rw [scanSkip, ih]
          simp

@[simp] theorem scan_nil : F.scan left [] = [] := rfl

theorem scan_plain (h : F.find left (c :: s) = none) :
    F.scan left (c :: s) = .plain c :: F.scan (c :: left) s := by
  rw [scan, scanSkip, h]
  rfl

theorem scan_hit (h : F.find left (F.text b ++ s) = some b) :
    F.scan left (F.text b ++ s) = .hit b :: F.scan ((F.text b).reverse ++ left) s := by
  cases hb : F.text b with
  | nil => exact absurd hb (F.nonempty h)
  | cons c t =>
      rw [hb] at h
      rw [List.cons_append] at h
      rw [List.cons_append, scan, scanSkip, h]
      show Chunk.hit b :: F.scanSkip ((F.text b).length - 1) (c :: left) (t ++ s) = _
      rw [hb, scanSkip_eq, List.length_cons, Nat.add_sub_cancel, List.take_left, List.drop_left]
      simp

/-- Induction along a search. -/
theorem scan_induct {P : List α → List α → Prop} (nil : ∀ left, P left [])
    (plain : ∀ left c s, F.find left (c :: s) = none → P (c :: left) s → P left (c :: s))
    (hit : ∀ left b s, F.find left (F.text b ++ s) = some b →
      P ((F.text b).reverse ++ left) s → P left (F.text b ++ s)) (left s : List α) : P left s := by
  induction hn : s.length using Nat.strong_induction_on generalizing left s with
  | _ n ih =>
      cases s with
      | nil => exact nil left
      | cons c s =>
          cases hf : F.find left (c :: s) with
          | none => exact plain left c s hf (ih s.length (by simp [← hn]) _ s rfl)
          | some b =>
              obtain ⟨t, ht⟩ := F.begins hf
              have hne := List.length_pos_iff.mpr (F.nonempty hf)
              have hlen := congrArg List.length ht
              rw [List.length_append] at hlen
              rw [← ht] at hf ⊢
              exact hit left b t hf (ih t.length (by omega) _ t rfl)

@[simp] theorem textOf_append (ps ps' : List (Chunk α β)) :
    F.textOf (ps ++ ps') = F.textOf ps ++ F.textOf ps' := List.flatMap_append

@[simp] theorem textOf_singleton_hit (b : β) : F.textOf [.hit b] = F.text b :=
  List.append_nil _

@[simp] theorem textOf_map_plain (s : List α) : F.textOf (s.map .plain) = s := by
  rw [textOf, List.flatMap_map]
  exact List.flatMap_singleton' s

theorem textOf_scan (left s : List α) : F.textOf (F.scan left s) = s := by
  induction left, s using F.scan_induct with
  | nil left => rfl
  | plain left c s h ih =>
      rw [scan_plain h, textOf, List.flatMap_cons, ← textOf, ih]
      rfl
  | hit left b s h ih =>
      rw [scan_hit h, textOf, List.flatMap_cons, ← textOf, ih]
      rfl

theorem replaceAll_congr {new new' : β → List α}
    (h : ∀ b, .hit b ∈ F.scan [] s → new b = new' b) :
    F.replaceAll new s = F.replaceAll new' s := by
  refine List.flatMap_congr fun piece hpiece => ?_
  cases piece with
  | plain c => rfl
  | hit b => exact h b hpiece

/-- What the first piece says about the search. -/
theorem scan_cons_cases {piece : Chunk α β} (h : F.scan left s = piece :: ps) :
    (∃ c t, piece = .plain c ∧ s = c :: t ∧ F.find left s = none ∧ F.scan (c :: left) t = ps) ∨
      ∃ b t, piece = .hit b ∧ s = F.text b ++ t ∧ F.find left s = some b ∧
        F.scan ((F.text b).reverse ++ left) t = ps := by
  cases s with
  | nil => cases h
  | cons c s =>
      cases hf : F.find left (c :: s) with
      | none =>
          rw [scan_plain hf] at h
          obtain ⟨rfl, rfl⟩ := List.cons.inj h
          exact .inl ⟨c, s, rfl, rfl, rfl, rfl⟩
      | some b =>
          obtain ⟨t, ht⟩ := F.begins hf
          rw [← ht] at hf h
          rw [scan_hit hf] at h
          obtain ⟨rfl, rfl⟩ := List.cons.inj h
          exact .inr ⟨b, t, rfl, ht.symm, rfl, rfl⟩

/-- A search goes on behind any piece as if it had begun there. -/
theorem scan_append {ps' : List (Chunk α β)} (h : F.scan left s = ps ++ ps') :
    ∃ t, s = F.textOf ps ++ t ∧ F.scan ((F.textOf ps).reverse ++ left) t = ps' := by
  induction ps generalizing left s with
  | nil => exact ⟨s, rfl, h⟩
  | cons piece ps ih =>
      rcases scan_cons_cases h with ⟨c, t, rfl, rfl, -, hrest⟩ | ⟨b, t, rfl, rfl, -, hrest⟩
      · obtain ⟨t', rfl, ht'⟩ := ih hrest
        refine ⟨t', rfl, ?_⟩
        simpa [textOf, Chunk.replaced] using ht'
      · obtain ⟨t', rfl, ht'⟩ := ih hrest
        refine ⟨t', by simp [textOf, Chunk.replaced], ?_⟩
        simpa [textOf, Chunk.replaced] using ht'

/-- A text at none of whose positions anything is found. -/
theorem scan_plains {p z : List α}
    (h : ∀ left y, y <:+ p → y ≠ [] → F.find left (y ++ z) = none) (left : List α) :
    F.scan left (p ++ z) = p.map .plain ++ F.scan (p.reverse ++ left) z := by
  induction p generalizing left with
  | nil => rfl
  | cons c p ih =>
      have hrest := ih (fun left y hy => h left y (hy.trans (List.suffix_cons c p))) (c :: left)
      have hnone := h left (c :: p) List.suffix_rfl (List.cons_ne_nil c p)
      refine (scan_plain hnone).trans ((congrArg _ hrest).trans ?_)
      simp

/-- A search that looks back at one character. -/
theorem scan_congr_head
    (hF : ∀ left left' s, left.head? = left'.head? → F.find left s = F.find left' s)
    (h : left.head? = left'.head?) (s : List α) : F.scan left s = F.scan left' s := by
  induction left, s using F.scan_induct generalizing left' with
  | nil left => rfl
  | plain left c s hfind ih =>
      rw [scan_plain hfind, scan_plain ((hF left left' _ h).symm.trans hfind)]
      exact congrArg _ (ih rfl)
  | hit left b s hfind ih =>
      rw [scan_hit hfind, scan_hit ((hF left left' _ h).symm.trans hfind), ih]
      obtain ⟨c, t, ht⟩ := List.exists_cons_of_ne_nil
        (List.reverse_ne_nil_iff.mpr (F.nonempty hfind))
      rw [ht]
      rfl

/-- A search that does not depend on what stands before, and that finds in the
beginning of a text what it finds in the whole text, if that does not go beyond
it. -/
structure Local (F : Finder α β) : Prop where
  left : ∀ left left' s, F.find left s = F.find left' s
  cut : ∀ left s t, (∀ b, F.find left (s ++ t) = some b → (F.text b).length ≤ s.length) →
    F.find left s = F.find left (s ++ t)

/-- What is found at the beginning of `x ++ z` goes beyond `x`. -/
def Long (F : Finder α β) (x z : List α) : Prop :=
  ∃ b, F.find [] (x ++ z) = some b ∧ x.length < (F.text b).length

/-- The pieces of a text up to a match that begins in `p` and ends in `z`. -/
def Crosses (F : Finder α β) (p z : List α) (ps : List (Chunk α β)) (b : β) : Prop :=
  (∃ ps', F.scan [] (p ++ z) = ps ++ .hit b :: ps') ∧ (F.textOf ps).length < p.length ∧
    p.length < (F.textOf ps ++ F.text b).length

section Local

variable {p z z' : List α}

theorem Local.scan_left (hF : F.Local) (left left' s : List α) :
    F.scan left s = F.scan left' s := by
  induction left, s using F.scan_induct generalizing left' with
  | nil left => rfl
  | plain left c s h ih =>
      rw [scan_plain h, scan_plain ((hF.left left' left _).trans h), ih]
  | hit left b s h ih =>
      rw [scan_hit h, scan_hit ((hF.left left' left _).trans h), ih]

theorem Local.scan_plain (hF : F.Local) (h : F.find [] (c :: s) = none) :
    F.scan [] (c :: s) = .plain c :: F.scan [] s := by
  rw [Finder.scan_plain h, hF.scan_left [c] []]

theorem Local.scan_hit (hF : F.Local) (h : F.find [] (F.text b ++ s) = some b) :
    F.scan [] (F.text b ++ s) = .hit b :: F.scan [] s := by
  rw [Finder.scan_hit h, hF.scan_left _ []]

/-- A text at none of whose positions anything is found. -/
theorem Local.scan_plains (hF : F.Local)
    (h : ∀ y, y <:+ p → y ≠ [] → F.find [] (y ++ z) = none) :
    F.scan [] (p ++ z) = p.map .plain ++ F.scan [] z := by
  rw [Finder.scan_plains (fun left y hy hne => (hF.left left [] _).trans (h y hy hne)),
    hF.scan_left _ []]

/-- A match that does not go beyond the beginning of a text. -/
theorem Local.find_append (hF : F.Local) (h : ¬F.Long p z) : F.find [] (p ++ z) = F.find [] p := by
  refine (hF.cut [] p z fun b hb => ?_).symm
  by_contra hlen
  exact h ⟨b, hb, by omega⟩

/-- The search behind a match that lies within the beginning of a text. -/
theorem exists_append_of_find (h : F.find [] (p ++ z) = some b)
    (hlen : (F.text b).length ≤ p.length) :
    ∃ p', p = F.text b ++ p' := by
  obtain ⟨p', hp'⟩ :=
    List.prefix_of_prefix_length_le (F.begins h) (List.prefix_append p z) hlen
  exact ⟨p', hp'.symm⟩

/-- If no match crosses, the parts of a text are searched apart. -/
theorem Local.scan_append_or (hF : F.Local) (p z : List α) :
    F.scan [] (p ++ z) = F.scan [] p ++ F.scan [] z ∨ ∃ ps b, F.Crosses p z ps b := by
  induction hn : p.length using Nat.strong_induction_on generalizing p with
  | _ n ih =>
      cases p with
      | nil => exact .inl rfl
      | cons c p =>
          by_cases hlong : F.Long (c :: p) z
          · obtain ⟨b, hb, hlen⟩ := hlong
            obtain ⟨t, ht⟩ := F.begins hb
            refine .inr ⟨[], b, ⟨F.scan [] t, ?_⟩, by simp [textOf], hlen⟩
            rw [← ht] at hb ⊢
            exact hF.scan_hit hb
          · have hsame := hF.find_append hlong
            cases hf : F.find [] (c :: p) with
            | none =>
                rw [hf] at hsame
                rcases ih p.length (by simp [← hn]) p rfl with hrest |
                  ⟨ps, b, ⟨ps', hscan⟩, hlt, hgt⟩
                · left
                  rw [hF.scan_plain hf, List.cons_append]
                  exact (hF.scan_plain hsame).trans (congrArg _ hrest)
                · refine .inr ⟨.plain c :: ps, b, ⟨ps', ?_⟩, ?_, ?_⟩
                  · exact (hF.scan_plain hsame).trans (congrArg _ hscan)
                  · simpa [textOf, Chunk.replaced] using hlt
                  · simpa [textOf, Chunk.replaced] using hgt
            | some b =>
                obtain ⟨p', hp'⟩ := F.begins hf
                have hne := List.length_pos_iff.mpr (F.nonempty hf)
                rw [hf, ← hp', List.append_assoc] at hsame
                rw [← hp'] at hf hn ⊢
                rw [List.length_append] at hn
                rcases ih p'.length (by omega) p' rfl with hrest | ⟨ps, b', ⟨ps', hscan⟩, hlt, hgt⟩
                · left
                  rw [hF.scan_hit hf, List.append_assoc, hF.scan_hit hsame, hrest]
                  rfl
                · refine .inr ⟨.hit b :: ps, b', ⟨ps', ?_⟩, ?_, ?_⟩
                  · rw [List.append_assoc, hF.scan_hit hsame, hscan]
                    rfl
                  · simpa [textOf, Chunk.replaced] using hlt
                  · simpa [textOf, Chunk.replaced] using hgt

/-- Where a crossing match begins, and how the search goes on. -/
theorem Local.crosses_find (hF : F.Local) (h : F.Crosses p z ps b) :
    ∃ y rest, p = F.textOf ps ++ y ∧ y ≠ [] ∧ F.find [] (y ++ z) = some b ∧
      y.length < (F.text b).length ∧ y ++ z = F.text b ++ rest ∧
      F.scan [] (p ++ z) = ps ++ .hit b :: F.scan [] rest := by
  obtain ⟨⟨ps', hscan⟩, hlt, hgt⟩ := h
  obtain ⟨t, ht, hrest⟩ := scan_append hscan
  rw [hF.scan_left _ []] at hrest
  rcases scan_cons_cases hrest with ⟨c, t, heq, -⟩ | ⟨b', rest, heq, rfl, hfind, hnext⟩
  · cases heq
  · cases heq
    obtain ⟨y, rfl⟩ : ∃ y, p = F.textOf ps ++ y := by
      obtain ⟨y, hy⟩ := List.prefix_of_prefix_length_le ⟨_, ht.symm⟩ (List.prefix_append p z) hlt.le
      exact ⟨y, hy.symm⟩
    rw [List.append_assoc, List.append_cancel_left_eq] at ht
    rw [List.length_append] at hlt hgt
    rw [List.length_append] at hgt
    refine ⟨y, rest, rfl, ?_, by rwa [ht], by omega, ht, ?_⟩
    · rintro rfl
      simp at hlt
    · rw [hscan, ← hnext, hF.scan_left _ []]

/-- A piece of the beginning of a text is a piece whatever follows, as long as
no match goes beyond that beginning. -/
theorem Local.scan_step (hF : F.Local) {piece : Chunk α β} (h : F.scan [] (p ++ z) = piece :: ps)
    (hlen : (F.textOf [piece]).length ≤ p.length) :
    ∃ p', p = F.textOf [piece] ++ p' ∧ F.scan [] (p' ++ z) = ps ∧ ¬F.Long p z ∧
      ∀ z', ¬F.Long p z' → F.scan [] (p ++ z') = piece :: F.scan [] (p' ++ z') := by
  rcases scan_cons_cases h with ⟨c, t, rfl, ht, hfind, hrest⟩ | ⟨b, t, rfl, ht, hfind, hrest⟩
  · have hpos : 1 ≤ p.length := by simpa [textOf, Chunk.replaced] using hlen
    obtain ⟨d, p', rfl⟩ : ∃ d p', p = d :: p' :=
      List.exists_cons_of_ne_nil (List.length_pos_iff.mp hpos)
    obtain ⟨rfl, rfl⟩ := List.cons.inj ht
    have hlong : ¬F.Long (d :: p') z := by
      rintro ⟨b, hb, -⟩
      rw [hfind] at hb
      cases hb
    refine ⟨p', rfl, ?_, hlong, fun z' hz' => ?_⟩
    · exact (hF.scan_left [] [d] _).trans hrest
    · refine hF.scan_plain ?_
      exact (hF.find_append hz').trans ((hF.find_append hlong).symm.trans hfind)
  · have hlen : (F.text b).length ≤ p.length := by simpa [textOf, Chunk.replaced] using hlen
    obtain ⟨p', rfl⟩ := exists_append_of_find hfind hlen
    rw [List.append_assoc, List.append_cancel_left_eq] at ht
    have hlong : ¬F.Long (F.text b ++ p') z := by
      rintro ⟨b', hb', hgt⟩
      rw [hfind] at hb'
      cases hb'
      omega
    refine ⟨p', by simp [textOf, Chunk.replaced], ?_, hlong, fun z' hz' => ?_⟩
    · rw [← hrest, ht]
      exact hF.scan_left [] _ t
    · rw [List.append_assoc]
      refine hF.scan_hit ?_
      rw [← List.append_assoc]
      exact (hF.find_append hz').trans ((hF.find_append hlong).symm.trans hfind)

/-- Whether a match crosses does not depend on what follows, if that holds at
each position up to the match. -/
theorem Local.crosses_congr (hF : F.Local)
    (hlong : ∀ x y, p = x ++ y → x.length ≤ (F.textOf ps).length → y ≠ [] →
      (F.Long y z ↔ F.Long y z')) (h : F.Crosses p z ps b) : ∃ b', F.Crosses p z' ps b' := by
  induction ps generalizing p with
  | nil =>
      obtain ⟨y, -, rfl, hy, hfind, hlen, -⟩ := hF.crosses_find h
      obtain ⟨b', hb', hlen'⟩ := (hlong [] _ rfl (Nat.zero_le _) hy).mp ⟨b, hfind, hlen⟩
      obtain ⟨t, ht⟩ := F.begins hb'
      refine ⟨b', ⟨F.scan [] t, ?_⟩, h.2.1, by simpa [textOf] using hlen'⟩
      rw [← ht] at hb' ⊢
      exact hF.scan_hit hb'
  | cons piece ps ih =>
      obtain ⟨⟨ps', hscan⟩, hlt, hgt⟩ := h
      have hcons : F.textOf (piece :: ps) = F.textOf [piece] ++ F.textOf ps := by
        simp [textOf]
      rw [hcons, List.length_append] at hlt
      obtain ⟨p', rfl, hrest, hnot, hstep⟩ := hF.scan_step hscan (by omega)
      rw [hcons] at hgt
      simp only [List.length_append] at hlt hgt
      obtain ⟨b', ⟨ps'', hscan'⟩, hlt', hgt'⟩ := ih
        (fun x y hxy hx => hlong (F.textOf [piece] ++ x) y (by rw [hxy, List.append_assoc])
          (by rw [hcons, List.length_append, List.length_append]; omega))
        ⟨⟨ps', hrest⟩, by omega, by rw [List.length_append]; omega⟩
      have hnil : F.textOf [piece] ++ p' ≠ [] := by
        rintro heq
        simp [List.append_eq_nil_iff.mp heq] at hlt
      refine ⟨b', ⟨ps'', ?_⟩, ?_, ?_⟩
      · rw [hstep z' (mt (hlong [] _ rfl (Nat.zero_le _) hnil).mpr hnot), hscan']
        rfl
      · rw [hcons, List.length_append, List.length_append]
        omega
      · rw [List.length_append] at hgt'
        simp only [hcons, List.length_append]
        omega

/-- For texts that do not differ in what may cross, a match crosses in all of them,
at the same position, or in none. -/
theorem Local.crosses_or (hF : F.Local) {ι : Type*} {z : ι → List α}
    (hlong : ∀ y, y ≠ [] → ∀ i j, F.Long y (z i) → F.Long y (z j)) (p : List α) :
    (∃ ps, ∀ i, ∃ b, F.Crosses p (z i) ps b) ∨ ∀ i, (¬∃ ps b, F.Crosses p (z i) ps b) ∧
      F.scan [] (p ++ z i) = F.scan [] p ++ F.scan [] (z i) := by
  by_cases h : ∃ i ps b, F.Crosses p (z i) ps b
  · obtain ⟨i, ps, b, hb⟩ := h
    exact .inl ⟨ps, fun j => hF.crosses_congr
      (fun _ y _ _ hy => ⟨hlong y hy i j, hlong y hy j i⟩) hb⟩
  · refine .inr fun i => ⟨fun hi => h ⟨i, hi⟩, ?_⟩
    exact (hF.scan_append_or p (z i)).resolve_right fun hi => h ⟨i, hi⟩

theorem Local.scan_take (hF : F.Local) {ps' : List (Chunk α β)}
    (h : F.scan [] (p ++ z) = ps ++ ps') (hlen : (F.textOf ps).length ≤ p.length) :
    ∃ ps'', F.scan [] p = ps ++ ps'' := by
  induction ps generalizing p with
  | nil => exact ⟨_, rfl⟩
  | cons piece ps ih =>
      have hcons : F.textOf (piece :: ps) = F.textOf [piece] ++ F.textOf ps := by
        simp [textOf]
      rw [hcons, List.length_append] at hlen
      obtain ⟨p', rfl, hrest, -, hstep⟩ := hF.scan_step h (by omega)
      rw [List.length_append] at hlen
      obtain ⟨ps'', hps''⟩ := ih hrest (by omega)
      have hnot : ¬F.Long (F.textOf [piece] ++ p') [] := by
        rintro ⟨b, hb, hgt⟩
        have hle := (F.begins hb).length_le
        rw [List.append_nil] at hle
        omega
      have hscan := hstep [] hnot
      rw [List.append_nil, List.append_nil] at hscan
      exact ⟨ps'', hscan.trans (by rw [hps'']; rfl)⟩

end Local

end Finder

/-- The search for an expression that does not match the empty text. -/
def Regex.finder {α : Type*} (r : Regex α) (hr : r.mayBeEmpty = false) : Finder α (List α) where
  find left s := (r.run left s).head?
  text w := w
  begins h := Regex.prefix_of_mem_run (List.mem_of_mem_head? h)
  nonempty h := by
    rintro rfl
    rw [Regex.mayBeEmpty_of_mem (List.mem_of_mem_head? h)] at hr
    cases hr

/-- The search for an expression the first part of which is captured. -/
def Regex.groupFinder {α : Type*} (a b : Regex α) (hr : (seq a b).mayBeEmpty = false) :
    Finder α (List α × List α) where
  find left s := (runGroup a b left s).head?
  text m := m.1 ++ m.2
  begins {left s m} h := by
    have hmem : m.1 ++ m.2 ∈ (seq a b).run left s := by
      rw [run_seq]
      exact List.mem_map.mpr ⟨m, List.mem_of_mem_head? h, rfl⟩
    exact prefix_of_mem_run hmem
  nonempty {left s m} h hempty := by
    have hmem : [] ∈ (seq a b).run left s := by
      rw [run_seq]
      exact List.mem_map.mpr ⟨m, List.mem_of_mem_head? h, hempty⟩
    rw [mayBeEmpty_of_mem hmem] at hr
    cases hr

theorem Regex.local_groupFinder {α : Type*} {a b : Regex α} (ha : a.Free) (hb : b.Free)
    (hr : (seq a b).mayBeEmpty = false) : (groupFinder a b hr).Local where
  left left left' s := by
    show (runGroup a b left s).head? = (runGroup a b left' s).head?
    rw [runGroup, runGroup, run_free_left ha left left']
    exact congrArg _ (List.flatMap_congr fun u _ => by rw [run_free_left hb])
  cut left s t h := by
    have hkeep : (runGroup a b left s).head? =
        ((runGroup a b left (s ++ t)).filter fun m =>
          decide ((m.1 ++ m.2).length ≤ s.length)).head? := by
      rw [← runGroup_eq_filter (run_eq_filter ha) (run_eq_filter hb)]
    refine hkeep.trans ?_
    change ∀ m, (runGroup a b left (s ++ t)).head? = some m → (m.1 ++ m.2).length ≤ s.length at h
    show _ = (runGroup a b left (s ++ t)).head?
    cases hl : runGroup a b left (s ++ t) with
    | nil => rfl
    | cons m l =>
        have hm := h m (by rw [hl, List.head?_cons])
        simp only [List.filter_cons, hm, decide_true, if_true, List.head?_cons]

/-- What is found if there is one way to match the group. -/
theorem Regex.find_groupFinder {α : Type*} {a b : Regex α} (hr : (seq a b).mayBeEmpty = false)
    {left s : List α} {m : List α × List α}
    (hall : ∀ u ∈ a.run left s, ∀ u' ∈ a.run left s, u = u') :
    (groupFinder a b hr).find left s = some m ↔ m.1 ∈ a.run left s ∧
      (b.run (m.1.reverse ++ left) (s.drop m.1.length)).head? = some m.2 := by
  have hhead : (groupFinder a b hr).find left s = (a.run left s).findSome? fun u =>
      (b.run (u.reverse ++ left) (s.drop u.length)).head?.map (u, ·) := by
    show (runGroup a b left s).head? = _
    simp only [runGroup, List.head?_flatMap, List.head?_map]
  rw [hhead]
  constructor
  · intro h
    obtain ⟨u, hu, hm⟩ := List.exists_of_findSome?_eq_some h
    obtain ⟨v, hv, rfl⟩ := Option.map_eq_some_iff.mp hm
    exact ⟨hu, hv⟩
  · rintro ⟨hu, hv⟩
    obtain ⟨u', l, hl⟩ := List.exists_cons_of_ne_nil (List.ne_nil_of_mem hu)
    obtain rfl := hall u' (by simp [hl]) m.1 hu
    rw [hl, List.findSome?_cons, hv]
    rfl

/-- What is found if there is no group. -/
theorem Regex.find_groupFinder_epsilon {α : Type*} {b : Regex α}
    {hr : (seq epsilon b).mayBeEmpty = false} {left s : List α} :
    (groupFinder epsilon b hr).find left s = (b.run left s).head?.map ([], ·) := by
  show (runGroup epsilon b left s).head? = _
  simp [runGroup, run, List.head?_map]

theorem Regex.find_congr_head {α : Type*} {b : Regex α}
    {hr : (seq epsilon b).mayBeEmpty = false} (left left' s : List α)
    (h : left.head? = left'.head?) :
    (groupFinder epsilon b hr).find left s = (groupFinder epsilon b hr).find left' s := by
  rw [find_groupFinder_epsilon, find_groupFinder_epsilon, run_congr_head h]

/-- The search up to a character that is in no class, whatever follows it. -/
theorem Regex.exists_scan_append_cons {α : Type*} {b : Regex α}
    (hr : (seq epsilon b).mayBeEmpty = false) {d : α} (hb : b.Avoids d) (left x : List α) :
    ∃ ps, ∀ y, (groupFinder epsilon b hr).scan left (x ++ d :: y) =
      ps ++ .plain d :: (groupFinder epsilon b hr).scan (d :: (x.reverse ++ left)) y := by
  induction hn : x.length using Nat.strong_induction_on generalizing left x with
  | _ n ih =>
      have hfind : ∀ y, (groupFinder epsilon b hr).find left (x ++ d :: y) =
          (groupFinder epsilon b hr).find left (x ++ [d]) := by
        intro y
        rw [find_groupFinder_epsilon, find_groupFinder_epsilon, run_append_cons_cons hb]
      cases hf : (groupFinder epsilon b hr).find left (x ++ [d]) with
      | none =>
          rw [hf] at hfind
          cases x with
          | nil => exact ⟨[], fun y => Finder.scan_plain (hfind y)⟩
          | cons c x =>
              obtain ⟨ps, hps⟩ := ih x.length (by simp [← hn]) (c :: left) x rfl
              refine ⟨.plain c :: ps, fun y => ?_⟩
              refine (Finder.scan_plain (hfind y)).trans ((congrArg _ (hps y)).trans ?_)
              simp
      | some m =>
          rw [hf] at hfind
          have hsome := hf
          rw [find_groupFinder_epsilon] at hsome
          obtain ⟨w, hw, rfl⟩ := Option.map_eq_some_iff.mp hsome
          obtain ⟨t, rfl⟩ := prefix_append_of_mem hb (List.mem_of_mem_head? hw)
          have hne : w ≠ [] := (groupFinder epsilon b hr).nonempty hf
          have hlen := List.length_pos_iff.mpr hne
          rw [List.length_append] at hn
          obtain ⟨ps, hps⟩ := ih t.length (by omega) (w.reverse ++ left) t rfl
          refine ⟨.hit ([], w) :: ps, fun y => ?_⟩
          have hy := hfind y
          rw [List.append_assoc] at hy
          have hscan : (groupFinder epsilon b hr).scan left (w ++ (t ++ d :: y)) =
              .hit ([], w) :: (groupFinder epsilon b hr).scan (w.reverse ++ left) (t ++ d :: y) :=
            Finder.scan_hit (F := groupFinder epsilon b hr) (b := ([], w)) hy
          rw [List.append_assoc, hscan, hps]
          simp

end SereinGateway.Lib
