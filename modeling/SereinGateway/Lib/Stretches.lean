import Mathlib
import SereinGateway.Lib.Matcher
import SereinGateway.Lib.Replace

/-!
Matches that are covered in the middle.

A match keeps a beginning and an end, and what is between them is replaced by marks,
which may have a fixed text on both sides. A word without the mark that occurs in the
result lies in a stretch, which is what is kept between two coverings. Stretches are
pieces of the text that was searched, so nothing comes into being there.
-/

namespace SereinGateway.Lib

/-- A word begins in the first part of a text, or it lies in the second. -/
theorem infix_append_cases {α : Type} {w p q : List α} :
    w <:+: p ++ q → w <:+: q ∨ ∃ y, y ≠ [] ∧ y <:+ p ∧ w <+: y ++ q := by
  intro h
  induction p with
  | nil => exact .inl h
  | cons c p ih =>
      rcases List.infix_cons_iff.mp h with hstarts | hlater
      · exact .inr ⟨c :: p, List.cons_ne_nil c p, List.suffix_rfl, hstarts⟩
      · refine (ih hlater).imp_right ?_
        rintro ⟨y, hne, hy, hw⟩
        exact ⟨y, hne, hy.trans (List.suffix_cons c p), hw⟩

/-- How the matches of a search are covered. -/
structure Cover (α β : Type) where
  mark : α
  before : List α
  after : List α
  front : β → List α
  marks : β → ℕ
  back : β → List α

namespace Cover

variable {α β γ : Type} (K : Cover α β)

def covered (b : β) : List α :=
  K.front b ++ K.before ++ .replicate (K.marks b) K.mark ++ K.after ++ K.back b

/-- What is kept between the coverings, behind what is kept already. -/
def stretchesFrom : List α → List (Chunk α β) → List (List α)
  | kept, [] => [kept]
  | kept, .plain c :: ps => stretchesFrom (kept ++ [c]) ps
  | kept, .hit b :: ps => (kept ++ K.front b) :: stretchesFrom (K.back b) ps

def stretches (F : Finder α β) (s : List α) : List (List α) := K.stretchesFrom [] (F.scan [] s)

def ahead : List (Chunk α β) → List α
  | [] => []
  | .plain c :: ps => c :: ahead ps
  | .hit b :: _ => K.front b

/-- The end that is kept of a match begins another word with what is kept behind it. -/
def EndBegins (F : Finder α β) (Form : β → Prop) (s : List α) : Prop :=
  ∃ before b after, F.scan [] s = before ++ .hit b :: after ∧
    ∃ b', Form b' ∧ ∃ y, y ≠ [] ∧ y <:+ K.back b ∧ F.text b' <+: y ++ K.ahead after

/-- A property of texts that such a character cuts in two. -/
structure Separates (c : α) (Q : List α → Prop) : Prop where
  nil : Q []
  append_cons : ∀ s t, Q (s ++ c :: t) ↔ Q s ∧ Q t

/-- A beginning and an end of each match are kept, and something is covered. -/
structure Fits (F : Finder α β) (Form : β → Prop) : Prop where
  front : ∀ b, Form b → K.front b <+: F.text b
  back : ∀ b, Form b → K.back b <:+ F.text b
  marks : ∀ b, Form b → 0 < K.marks b

variable {K} {F : Finder α β} {Form : β → Prop} {ps : List (Chunk α β)} {kept s t w x : List α}

/-! ### Words of the result -/

theorem ahead_map_plain_append (w : List α) (ps : List (Chunk α β)) :
    K.ahead (w.map .plain ++ ps) = w ++ K.ahead ps := by
  induction w with
  | nil => rfl
  | cons c w ih =>
      rw [List.map_cons, List.cons_append, ahead, ih, List.cons_append]

theorem ahead_eq_append {z : List α} (h : K.ahead ps = w ++ z) :
    (∃ after, ps = w.map .plain ++ after) ∨ ∃ w₁ w₂ b after, w = w₁ ++ w₂ ∧ w₂ ≠ [] ∧
      ps = w₁.map .plain ++ .hit b :: after ∧ K.front b = w₂ ++ z := by
  induction w generalizing ps with
  | nil => exact .inl ⟨ps, rfl⟩
  | cons c w ih =>
      cases ps with
      | nil => cases h
      | cons piece ps =>
          cases piece with
          | plain d =>
              obtain ⟨rfl, hrest⟩ := List.cons.inj h
              rcases ih hrest with ⟨after, rfl⟩ | ⟨w₁, w₂, b, after, rfl, hne, rfl, hfront⟩
              · exact .inl ⟨after, rfl⟩
              · exact .inr ⟨d :: w₁, w₂, b, after, rfl, hne, rfl, hfront⟩
          | hit b => exact .inr ⟨[], c :: w, b, ps, rfl, List.cons_ne_nil c w, rfl, h⟩

theorem mem_stretchesFrom : t ∈ K.stretchesFrom kept ps ↔ t = kept ++ K.ahead ps ∨
    ∃ before b after, ps = before ++ .hit b :: after ∧ t = K.back b ++ K.ahead after := by
  induction ps generalizing kept with
  | nil => simp [stretchesFrom, ahead]
  | cons piece ps ih =>
      cases piece with
      | plain c =>
          rw [stretchesFrom, ih, ahead, List.append_assoc, List.singleton_append]
          refine or_congr_right ⟨?_, ?_⟩
          · rintro ⟨before, b, after, rfl, ht⟩
            exact ⟨.plain c :: before, b, after, rfl, ht⟩
          · rintro ⟨before, b, after, hps, ht⟩
            cases before with
            | nil => cases hps
            | cons piece before =>
                obtain ⟨-, rfl⟩ := List.cons.inj hps
                exact ⟨before, b, after, rfl, ht⟩
      | hit b =>
          rw [stretchesFrom, List.mem_cons, ih, ahead]
          refine or_congr_right ⟨?_, ?_⟩
          · rintro (ht | ⟨before, b', after, rfl, ht⟩)
            · exact ⟨[], b, ps, rfl, ht⟩
            · exact ⟨.hit b :: before, b', after, rfl, ht⟩
          · rintro ⟨before, b', after, hps, ht⟩
            cases before with
            | nil =>
                obtain ⟨heq, rfl⟩ := List.cons.inj hps
                cases heq
                exact .inl ht
            | cons piece before =>
                obtain ⟨-, rfl⟩ := List.cons.inj hps
                exact .inr ⟨before, b', after, rfl, ht⟩

/-- Behind marks that it does not have, a word is behind all of them. -/
theorem infix_of_replicate_append {c : α} (hc : c ∉ w) (n : ℕ) (h : w <:+: .replicate n c ++ x) :
    w <:+: x := by
  induction n with
  | zero => exact h
  | succ n ih =>
      rw [List.replicate_succ, List.cons_append] at h
      rcases infix_append_cons (x := []) hc h with hnil | hrest
      · rw [List.infix_nil.mp hnil]
        exact List.nil_infix
      · exact ih hrest

/-- A word without the mark lies in a stretch: in the first one, or in one that begins
with what is kept of a match. -/
theorem exists_stretch (hw : K.mark ∉ w) (hmarks : ∀ b, .hit b ∈ ps → 0 < K.marks b)
    (h : w <:+: x ++ kept ++ ps.flatMap (Chunk.replaced K.covered)) :
    ∃ s ∈ K.stretchesFrom kept ps, (kept <+: s ∧ w <:+: x ++ s ++ K.before) ∨
      ∃ b, .hit b ∈ ps ∧ K.back b <+: s ∧ w <:+: K.after ++ s ++ K.before := by
  induction ps generalizing kept x with
  | nil =>
      rw [List.flatMap_nil, List.append_nil] at h
      exact ⟨kept, List.mem_singleton_self _, .inl ⟨List.prefix_rfl,
        h.trans (List.prefix_append _ _).isInfix⟩⟩
  | cons piece ps ih =>
      have hlater : ∀ b, .hit b ∈ ps → 0 < K.marks b := fun b hb =>
        hmarks b (List.mem_cons_of_mem _ hb)
      cases piece with
      | plain c =>
          have hnext : w <:+: x ++ (kept ++ [c]) ++ ps.flatMap (Chunk.replaced K.covered) := by
            simpa [Chunk.replaced] using h
          obtain ⟨s, hs, hin⟩ := ih hlater hnext
          refine ⟨s, hs, hin.imp (fun hfirst => ⟨?_, hfirst.2⟩) ?_⟩
          · exact (List.prefix_append kept [c]).trans hfirst.1
          · rintro ⟨b, hb, hrest⟩
            exact ⟨b, List.mem_cons_of_mem _ hb, hrest⟩
      | hit b =>
          obtain ⟨n, hn⟩ := Nat.exists_eq_succ_of_ne_zero (hmarks b List.mem_cons_self).ne'
          have hsplit : w <:+: (x ++ (kept ++ K.front b) ++ K.before) ++
              K.mark :: (.replicate n K.mark ++
                (K.after ++ K.back b ++ ps.flatMap (Chunk.replaced K.covered))) := by
            simpa [Chunk.replaced, covered, hn, List.replicate_succ] using h
          rcases infix_append_cons hw hsplit with hhere | hrest
          · exact ⟨kept ++ K.front b, List.mem_cons_self, .inl ⟨List.prefix_append _ _, hhere⟩⟩
          · obtain ⟨s, hs, ⟨hback, hin⟩ | ⟨b', hb', hin⟩⟩ :=
              ih hlater (infix_of_replicate_append hw n hrest)
            · exact ⟨s, List.mem_cons_of_mem _ hs, .inr ⟨b, List.mem_cons_self, hback, hin⟩⟩
            · exact ⟨s, List.mem_cons_of_mem _ hs, .inr ⟨b', List.mem_cons_of_mem _ hb', hin⟩⟩

theorem infix_of_mem_stretches (hs : s ∈ K.stretchesFrom kept ps) :
    s <:+: kept ++ ps.flatMap (Chunk.replaced K.covered) := by
  induction ps generalizing kept with
  | nil =>
      obtain rfl := List.mem_singleton.mp hs
      exact (List.prefix_append s _).isInfix
  | cons piece ps ih =>
      cases piece with
      | plain c => simpa [Chunk.replaced] using ih hs
      | hit b =>
          rcases List.mem_cons.mp hs with rfl | hs
          · refine ⟨[], K.before ++ .replicate (K.marks b) K.mark ++ K.after ++ K.back b ++
              ps.flatMap (Chunk.replaced K.covered), ?_⟩
            simp [Chunk.replaced, covered]
          · refine (ih hs).trans ⟨kept ++ K.front b ++ K.before ++
              .replicate (K.marks b) K.mark ++ K.after, [], ?_⟩
            simp [Chunk.replaced, covered]

theorem infix_textOf_of_mem_stretches (hfits : K.Fits F Form) (hform : ∀ b, .hit b ∈ ps → Form b)
    (hs : s ∈ K.stretchesFrom kept ps) : s <:+: kept ++ F.textOf ps := by
  induction ps generalizing kept with
  | nil =>
      obtain rfl := List.mem_singleton.mp hs
      exact (List.prefix_append s _).isInfix
  | cons piece ps ih =>
      have hlater : ∀ b, .hit b ∈ ps → Form b := fun b hb => hform b (List.mem_cons_of_mem _ hb)
      cases piece with
      | plain c => simpa [Finder.textOf, Chunk.replaced] using ih hlater hs
      | hit b =>
          have hb := hform b List.mem_cons_self
          have htext : F.textOf (.hit b :: ps) = F.text b ++ F.textOf ps := List.flatMap_cons
          rw [htext]
          rcases List.mem_cons.mp hs with rfl | hs
          · obtain ⟨t, ht⟩ := hfits.front b hb
            refine ⟨[], t ++ F.textOf ps, ?_⟩
            rw [List.nil_append, ← ht]
            simp
          · obtain ⟨t, ht⟩ := hfits.back b hb
            refine (ih hlater hs).trans ⟨kept ++ t, [], ?_⟩
            rw [List.append_nil, ← ht]
            simp

/-! ### Forms of words -/

section Forms

open Matcher

variable {m : Matcher α β} {textOf : β → List α} {h : m.Reads textOf Form}
  {hne : ∀ b, Form b → textOf b ≠ []}
  {m' : Matcher α γ} {text' : γ → List α} {Form' : γ → Prop}

/-- A word that has none of the characters on both sides. -/
theorem infix_of_avoids {y : List α} (hx : ∀ c ∈ x, c ∉ w) (hy : ∀ c ∈ y, c ∉ w)
    (hin : w <:+: x ++ s ++ y) : w <:+: s := by
  rw [List.append_assoc] at hin
  induction x with
  | nil =>
      cases y with
      | nil => simpa using hin
      | cons c y =>
          rcases infix_append_cons (hy c List.mem_cons_self) hin with hhere | hbehind
          · exact hhere
          · cases w with
            | nil => exact List.nil_infix
            | cons d w =>
                have hd := hbehind.subset List.mem_cons_self
                exact absurd List.mem_cons_self (hy d (List.mem_cons_of_mem c hd))
  | cons c x ih =>
      rcases infix_append_cons (x := []) (hx c List.mem_cons_self) hin with hnil | hrest
      · rw [List.infix_nil.mp hnil]
        exact List.nil_infix
      · exact ih (fun d hd => hx d (List.mem_cons_of_mem c hd)) hrest

/-- A word that ends without a character, in front of it. -/
theorem infix_of_infix_concat {v : List α} {c : α} (hv : v ≠ []) (hc : c ∉ v)
    (hin : x ++ v <:+: s ++ [c]) : x ++ v <:+: s := by
  rcases List.infix_concat_iff.mp hin with hends | hbefore
  · rcases List.suffix_concat_iff.mp hends with hnil | ⟨t, ht, -⟩
    · exact absurd (List.append_eq_nil_iff.mp hnil).2 hv
    · obtain ⟨u, d, rfl⟩ := (List.eq_nil_or_concat v).resolve_left hv
      rw [List.concat_eq_append, ← List.append_assoc] at ht
      obtain rfl := List.singleton_inj.mp (List.append_inj' ht rfl).2
      exact absurd (by simp) hc
  · exact hbefore

/-- A word that begins without a character, behind it. -/
theorem infix_of_infix_cons {v : List α} {c : α} (hv : v ≠ []) (hc : c ∉ v)
    (hin : v ++ x <:+: c :: s) : v ++ x <:+: s := by
  obtain ⟨d, u, rfl⟩ := List.exists_cons_of_ne_nil hv
  rcases List.infix_cons_iff.mp hin with hstarts | hbehind
  · rw [List.cons_append, List.cons_prefix_cons] at hstarts
    exact absurd (List.mem_cons.mpr (.inl hstarts.1.symm)) hc
  · exact hbehind

/-- The words of the result are those of the stretches, where what is put next to the
marks makes no word of what is not one. -/
theorem search_eq_none_iff (h' : m'.Reads text' Form')
    (hfits : K.Fits (m.capturing h hne) Form)
    (hmark : ∀ c, Form' c → K.mark ∉ text' c)
    (hfirst : ∀ s c, Form' c → text' c <:+: s ++ K.before → ∃ c', Form' c' ∧ text' c' <:+: s)
    (hlater : ∀ b s c, Form b → K.back b <+: s → Form' c →
      text' c <:+: K.after ++ s ++ K.before → ∃ c', Form' c' ∧ text' c' <:+: s) :
    m'.search ((m.capturing h hne).replaceAll K.covered s) = none ↔
      ∀ t ∈ K.stretches (m.capturing h hne) s, m'.search t = none := by
  simp only [h'.search_eq_none_iff]
  constructor
  · intro hnone t ht c hc hin
    exact hnone c hc (hin.trans (infix_of_mem_stretches ht))
  · intro hnone c hc hin
    have hword : text' c <:+:
        [] ++ [] ++ ((m.capturing h hne).scan [] s).flatMap (Chunk.replaced K.covered) := hin
    obtain ⟨t, ht, ⟨-, hin⟩ | ⟨b, hb, hback, hin⟩⟩ :=
      exists_stretch (hmark c hc) (fun b hb => hfits.marks b (h.form_of_hit hb)) hword
    · obtain ⟨c', hc', hin'⟩ := hfirst t c hc hin
      exact hnone t ht c' hc' hin'
    · obtain ⟨c', hc', hin'⟩ := hlater b t c (h.form_of_hit hb) hback hc hin
      exact hnone t ht c' hc' hin'

theorem search_eq_none_iff_of_avoids (h' : m'.Reads text' Form')
    (hfits : K.Fits (m.capturing h hne) Form)
    (hmark : ∀ c, Form' c → K.mark ∉ text' c)
    (hsides : ∀ c, Form' c → ∀ d, d ∈ K.before ∨ d ∈ K.after → d ∉ text' c) :
    m'.search ((m.capturing h hne).replaceAll K.covered s) = none ↔
      ∀ t ∈ K.stretches (m.capturing h hne) s, m'.search t = none := by
  refine search_eq_none_iff h' hfits hmark (fun t c hc hin => ⟨c, hc, ?_⟩)
    fun b t c _ _ hc hin => ⟨c, hc, ?_⟩
  · exact infix_of_avoids (x := []) (List.forall_mem_nil _)
      (fun d hd => hsides c hc d (.inl hd)) hin
  · exact infix_of_avoids (fun d hd => hsides c hc d (.inr hd))
      (fun d hd => hsides c hc d (.inl hd)) hin

theorem infix_of_mem_stretches_capturing (hfits : K.Fits (m.capturing h hne) Form)
    (ht : t ∈ K.stretches (m.capturing h hne) s) : t <:+: s := by
  have hpiece := infix_textOf_of_mem_stretches hfits (fun b hb => h.form_of_hit hb) ht
  rwa [List.nil_append, Finder.textOf_scan] at hpiece

theorem search_stretch_of_search (h' : m'.Reads text' Form')
    (hfits : K.Fits (m.capturing h hne) Form)
    (hnone : m'.search s = none) :
    ∀ t ∈ K.stretches (m.capturing h hne) s, m'.search t = none := fun _ ht =>
  h'.search_of_infix hnone (infix_of_mem_stretches_capturing hfits ht)

theorem ahead_scan_begins (hfits : K.Fits (m.capturing h hne) Form) (left s : List α) :
    K.ahead ((m.capturing h hne).scan left s) <+: s := by
  induction left, s using (m.capturing h hne).scan_induct with
  | nil left => exact List.prefix_rfl
  | plain left c s hfind ih =>
      rw [Finder.scan_plain hfind, ahead]
      exact (List.prefix_cons_inj c).mpr ih
  | hit left b s hfind ih =>
      rw [Finder.scan_hit hfind, ahead]
      exact (hfits.front b (h.form_of_find hfind)).trans (List.prefix_append _ s)

/-- A word does not lie in front of the next match, of which less is kept than a word. -/
theorem not_infix_ahead_scan (hfits : K.Fits (m.capturing h hne) Form)
    (hshort : ∀ b b', Form b → Form b' → ¬textOf b' <:+: K.front b) {b' : β} (hb' : Form b')
    (left s : List α) : ¬textOf b' <:+: K.ahead ((m.capturing h hne).scan left s) := by
  induction left, s using (m.capturing h hne).scan_induct with
  | nil left => exact fun hin => hne b' hb' (List.infix_nil.mp hin)
  | plain left c s hfind ih =>
      rw [Finder.scan_plain hfind, ahead, List.infix_cons_iff, not_or]
      refine ⟨fun hstarts => ?_, ih⟩
      obtain ⟨z, hz⟩ := hstarts.trans ((List.prefix_cons_inj c).mpr
        (ahead_scan_begins hfits (c :: left) s))
      rw [← hz] at hfind
      exact h.find_ne_none hb' hfind
  | hit left b s hfind ih =>
      rw [Finder.scan_hit hfind, ahead]
      exact hshort b b' (h.form_of_find hfind) hb'

/-- A word of its own that a search leaves begins in the end that is kept of a match. -/
theorem exists_end_of_infix (hfits : K.Fits (m.capturing h hne) Form)
    (hshort : ∀ b b', Form b → Form b' → ¬textOf b' <:+: K.front b)
    (ht : t ∈ K.stretches (m.capturing h hne) s) {b' : β} (hb' : Form b')
    (hin : textOf b' <:+: t) :
    ∃ before b left rest, (m.capturing h hne).scan [] s =
        before ++ .hit b :: (m.capturing h hne).scan left rest ∧
      ∃ y, y ≠ [] ∧ y <:+ K.back b ∧
        textOf b' <+: y ++ K.ahead ((m.capturing h hne).scan left rest) := by
  rcases mem_stretchesFrom.mp ht with rfl | ⟨before, b, after, hscan, rfl⟩
  · exact absurd hin (not_infix_ahead_scan hfits hshort hb' [] s)
  · have hscan' : (m.capturing h hne).scan [] s = (before ++ [.hit b]) ++ after := by
      rw [hscan, List.append_assoc]
      rfl
    obtain ⟨rest, -, rfl⟩ := Finder.scan_append hscan'
    rcases infix_append_cases hin with hlater | hend
    · exact absurd hlater (not_infix_ahead_scan hfits hshort hb' _ rest)
    · exact ⟨before, b, _, rest, hscan, hend⟩

/-- A search leaves a word of its own exactly where the end that is kept of a match
begins one. -/
theorem search_stretch_iff_not_endBegins (hfits : K.Fits (m.capturing h hne) Form)
    (hshort : ∀ b b', Form b → Form b' → ¬textOf b' <:+: K.front b) :
    (∀ t ∈ K.stretches (m.capturing h hne) s, m.search t = none) ↔
      ¬K.EndBegins (m.capturing h hne) Form s := by
  constructor
  · rintro hnone ⟨before, b, after, hscan, b', hb', y, -, ⟨x, hx⟩, z, hz⟩
    have hmem : K.back b ++ K.ahead after ∈ K.stretches (m.capturing h hne) s :=
      mem_stretchesFrom.mpr (.inr ⟨before, b, after, hscan, rfl⟩)
    refine h.search_eq_none_iff.mp (hnone _ hmem) b' hb' ⟨x, z, ?_⟩
    rw [List.append_assoc, ← hx, List.append_assoc]
    exact congrArg (x ++ ·) hz
  · intro hends t ht
    rw [h.search_eq_none_iff]
    intro b' hb' hin
    obtain ⟨before, b, left, rest, hscan, hend⟩ := exists_end_of_infix hfits hshort ht hb' hin
    exact hends ⟨before, b, _, hscan, b', hb', hend⟩

/-- A search that keeps only a beginning of each match, too short to match, leaves no
match in a stretch. -/
theorem search_stretch_self (hfits : K.Fits (m.capturing h hne) Form)
    (hback : ∀ b, K.back b = [])
    (hshort : ∀ b b', Form b → Form b' → ¬textOf b' <:+: K.front b) :
    ∀ t ∈ K.stretches (m.capturing h hne) s, m.search t = none := by
  refine (search_stretch_iff_not_endBegins hfits hshort).mpr ?_
  rintro ⟨-, b, -, -, -, -, y, hynil, hy, -⟩
  rw [hback] at hy
  exact hynil (List.suffix_nil.mp hy)

/-! ### Separators -/

theorem Separates.replicate_append {c : α} {Q : List α → Prop} (hQ : Separates c Q) (n : ℕ)
    (s : List α) : Q (.replicate n c ++ s) ↔ Q s := by
  induction n with
  | zero => rfl
  | succ n ih =>
      have hcut := hQ.append_cons [] (.replicate n c ++ s)
      rw [List.replicate_succ, List.cons_append]
      exact hcut.trans ((and_iff_right hQ.nil).trans ih)

/-- What is asked of the result of a pass is asked of the pieces that it keeps. -/
theorem Separates.replaceAll_iff {Q : List α → Prop} (hQ : Separates K.mark Q)
    (hbefore : K.before = []) (hafter : K.after = []) (hfits : K.Fits (m.capturing h hne) Form) :
    Q ((m.capturing h hne).replaceAll K.covered s) ↔
      ∀ t ∈ K.stretches (m.capturing h hne) s, Q t := by
  have hpieces : ∀ ps kept, (∀ b, .hit b ∈ ps → 0 < K.marks b) →
      (Q (kept ++ ps.flatMap (Chunk.replaced K.covered)) ↔ ∀ t ∈ K.stretchesFrom kept ps, Q t) := by
    intro ps
    induction ps with
    | nil => intro kept _; simp [stretchesFrom]
    | cons piece ps ih =>
        intro kept hmarks
        have hlater : ∀ b, .hit b ∈ ps → 0 < K.marks b := fun b hb =>
          hmarks b (List.mem_cons_of_mem _ hb)
        cases piece with
        | plain c =>
            rw [stretchesFrom, ← ih (kept ++ [c]) hlater]
            simp [Chunk.replaced]
        | hit b =>
            obtain ⟨n, hn⟩ := Nat.exists_eq_succ_of_ne_zero (hmarks b List.mem_cons_self).ne'
            have hsplit : kept ++ (Chunk.hit b :: ps).flatMap (Chunk.replaced K.covered) =
                (kept ++ K.front b) ++ K.mark :: (.replicate n K.mark ++
                  (K.back b ++ ps.flatMap (Chunk.replaced K.covered))) := by
              simp [Chunk.replaced, covered, hbefore, hafter, hn, List.replicate_succ]
            rw [hsplit, hQ.append_cons, hQ.replicate_append, ih (K.back b) hlater, stretchesFrom,
              List.forall_mem_cons]
  exact hpieces _ [] fun b hb => hfits.marks b (h.form_of_hit hb)

theorem separates_search {c : α} (hc : ∀ b, Form b → c ∉ textOf b)
    (hne : ∀ b, Form b → textOf b ≠ []) (h : m.Reads textOf Form) :
    Separates c fun s => m.search s = none where
  nil := h.search_eq_none_iff.mpr fun b hb hin => hne b hb (List.infix_nil.mp hin)
  append_cons s t := by
    simp only [h.search_eq_none_iff, ← forall_and]
    refine forall₂_congr fun b hb => ?_
    rw [← not_or]
    refine not_congr ⟨infix_append_cons (hc b hb), ?_⟩
    rintro (hin | hin)
    · exact hin.trans (List.prefix_append s _).isInfix
    · exact hin.trans ((List.suffix_cons c t).trans (List.suffix_append s _)).isInfix

/-- A pass that works apart on both sides of the character. -/
theorem Separates.comp {c : α} {Q : List α → Prop} (hQ : Separates c Q)
    (hstop : m.StopsAt c) (new : β → List α) :
    Separates c fun s => Q ((m.capturing h hne).replaceAll new s) where
  nil := hQ.nil
  append_cons s t := by rw [Matcher.replaceAll_append_cons h hstop, hQ.append_cons]

end Forms

end Cover

end SereinGateway.Lib
