import Mathlib
import SereinGateway.Worker.PiiRegex

/-!
What the pattern finds in a text that was masked with it.

Brackets are in no match, so a match in a masked text lies within a placeholder
or within a stretch of characters that were kept. Within a placeholder there is
none: it has no `@`, and its digits follow an underscore or a digit. In a
stretch that was kept there is no address, since it would have been found. But
there may be a number that was not found for want of a word boundary, and that
has one now: where the neighbour was masked, a bracket stands in its place.
Addresses need no boundary, so digits may follow one at once.
-/

namespace SereinGateway.Worker

open SereinGateway.Lib

/-- One of the anchored patterns for numbers matches. -/
def isNumber (cls : CharClasses) (w : List Char) : Bool :=
  (financialRegex cls).fullMatch w || (identityRegex cls).fullMatch w ||
    (phoneRegex cls).fullMatch w

/-- A number begins behind these pieces: it follows a match and begins with a
digit, or it follows no match and begins at a word boundary. -/
def opens (cls : CharClasses) (before : List (Chunk Char (List Char))) (s : List Char) : Bool :=
  if before.getLast?.any Chunk.isHit then s.head?.any cls.digit
  else atBoundary cls.word ((piiFinder cls).textOf before).reverse s

/-- A number ends before these pieces: a match follows, or it ends at a word
boundary. -/
def closes (cls : CharClasses) (w : List Char) (after : List (Chunk Char (List Char))) : Bool :=
  after.head?.any Chunk.isHit ||
    atBoundary cls.word w.reverse ((piiFinder cls).textOf after)

/-- Masking leaves a number that will be seen once the matches next to it are
gone. -/
def Exposed (cls : CharClasses) (text : String) : Prop :=
  ∃ before w after, (piiFinder cls).scan [] text.toList = before ++ w.map .plain ++ after ∧
    isNumber cls w = true ∧ opens cls before (w ++ (piiFinder cls).textOf after) = true ∧
    closes cls w after = true

/-! ### Numbers and addresses -/

section Numbers

variable {cls : CharClasses} {w : List Char}

theorem isNumber_iff : isNumber cls w = true ↔ w ∈ numberPattern cls := by
  simp only [isNumber, Bool.or_eq_true, Regex.fullMatch_iff free_financial,
    Regex.fullMatch_iff free_identity, Regex.fullMatch_iff free_phone, language_financial,
    language_identity, language_phone]
  rfl

theorem starts_numberPattern :
    Starts (fun c => cls.digit c = true ∨ c = '+' ∨ c = '(') (numberPattern cls) := by
  have hdigits : ∀ n, Starts (fun c => cls.digit c = true ∨ c = '+' ∨ c = '(')
      (digits (digitClass cls) (n + 1)) := fun n => (Starts.oneOf fun c hc => .inl hc).pow n
  refine (Starts.add (hdigits 3).mul (hdigits 2).mul).add ?_
  refine Starts.optional_mul ?_ (Starts.optional_mul ?_ (hdigits 2).mul)
  · exact (Starts.oneOf fun c hc => .inr (.inl hc)).optional_mul
      (((hdigits 0).add (hdigits 1)).add (hdigits 2)).mul
  · exact (Starts.oneOf fun c hc => .inr (.inr hc)).optional_mul (hdigits 2).mul

theorem ends_numberPattern : Ends (cls.digit · = true) (numberPattern cls) := by
  have hdigits : Ends (cls.digit · = true) (digits (digitClass cls) 4) :=
    (Ends.oneOf fun c hc => hc).pow 3
  exact (hdigits.mul.mul.mul.mul.mul.mul.add hdigits.mul.mul.mul.mul).add hdigits.mul.mul.mul.mul

theorem at_mem_of_email (h : w ∈ emailPattern) : '@' ∈ w := by
  obtain ⟨a, -, b, ⟨u, ⟨c, rfl, rfl⟩, v, -, rfl⟩, rfl⟩ := h
  simp

end Numbers

/-! ### Masked texts -/

/-- Pieces, and a text with placeholders for the matches. -/
inductive MaskedAs : List (Chunk Char (List Char)) → List Char → Prop
  | nil : MaskedAs [] []
  | plain {ps s} (c : Char) : MaskedAs ps s → MaskedAs (.plain c :: ps) (c :: s)
  | hit {ps s} (w : List Char) (type : PiiType) (n : UInt64) :
      MaskedAs ps s → MaskedAs (.hit w :: ps) ((placeholder type n).toList ++ s)

section Masked

variable {cls : CharClasses} {ps before after : List (Chunk Char (List Char))}
  {s w left right : List Char}

theorem maskedAs_of_draws {pats : PiiPatterns} {ns : List UInt64} {m m' : Masking}
    (h : pats.Draws (ps.map toSegment) ns m m') :
    ∃ s, m'.result.toList = m.result.toList ++ s ∧ MaskedAs ps s := by
  generalize hsegs : ps.map toSegment = segs at h
  induction h generalizing ps with
  | done m =>
      obtain rfl := List.map_eq_nil_iff.mp hsegs
      exact ⟨[], by simp, .nil⟩
  | plain counter _ ih =>
      obtain ⟨piece, ps, rfl, hpiece, hrest⟩ := List.map_eq_cons_iff.mp hsegs
      obtain ⟨s, hs, hmasked⟩ := ih hrest
      cases piece with
      | hit w => cases hpiece
      | plain c =>
          cases hpiece
          exact ⟨c :: s, by simp [hs, PiiPatterns.maskSegment], .plain c hmasked⟩
  | @pii matched _ n _ _ _ _ ih =>
      obtain ⟨piece, ps, rfl, hpiece, hrest⟩ := List.map_eq_cons_iff.mp hsegs
      obtain ⟨s, hs, hmasked⟩ := ih hrest
      cases piece with
      | plain c => cases hpiece
      | hit w =>
          exact ⟨(placeholder (pats.classifyPii matched) n).toList ++ s,
            by simp [hs, PiiPatterns.maskSegment], .hit w _ n hmasked⟩

theorem MaskedAs.of_append (h : MaskedAs (before ++ after) s) :
    ∃ left right, s = left ++ right ∧ MaskedAs before left ∧ MaskedAs after right := by
  induction before generalizing s with
  | nil => exact ⟨[], s, rfl, .nil, h⟩
  | cons piece before ih =>
      cases h with
      | plain c h =>
          obtain ⟨left, right, rfl, hl, hr⟩ := ih h
          exact ⟨c :: left, right, rfl, .plain c hl, hr⟩
      | hit w type n h =>
          obtain ⟨left, right, rfl, hl, hr⟩ := ih h
          exact ⟨_ ++ left, right, by rw [List.append_assoc], .hit w type n hl, hr⟩

theorem maskedAs_plain : MaskedAs (w.map .plain) s ↔ s = w := by
  induction w generalizing s with
  | nil =>
      constructor
      · rintro ⟨⟩
        rfl
      · rintro rfl
        exact .nil
  | cons c w ih =>
      constructor
      · rintro ⟨⟩
        rename_i s h
        rw [ih.mp h]
      · rintro rfl
        exact .plain c (ih.mpr rfl)

theorem maskedAs_nil_right (h : MaskedAs ps []) : ps = [] := by
  generalize hs : ([] : List Char) = s at h
  cases h with
  | nil => rfl
  | plain c h => cases hs
  | hit w type n h =>
      obtain ⟨-, v, hv, -⟩ := mark_placeholder type n
      rw [hv] at hs
      cases hs

/-- A text without brackets lies within a placeholder, or it was kept. -/
theorem MaskedAs.locate (h : MaskedAs ps (left ++ (w ++ right))) (hw : w ≠ []) (hopen : '[' ∉ w)
    (hclose : ']' ∉ w) :
    (∃ type n a b left', (placeholder type n).toList = '[' :: (a ++ (w ++ b) ++ [']']) ∧
      left = left' ++ '[' :: a) ∨
    ∃ before after, ps = before ++ w.map .plain ++ after ∧ MaskedAs before left ∧
      MaskedAs after right := by
  generalize hs : left ++ (w ++ right) = s at h
  induction h generalizing left w with
  | nil =>
      obtain ⟨-, hs⟩ := List.append_eq_nil_iff.mp hs
      exact absurd (List.append_eq_nil_iff.mp hs).1 hw
  | @plain ps s c h ih =>
      cases left with
      | cons d left =>
          obtain ⟨rfl, htail⟩ := List.cons.inj hs
          rcases ih hw hopen hclose htail with ⟨type, n, a, b, left', hp, rfl⟩ |
            ⟨before, after, rfl, hl, hr⟩
          · exact .inl ⟨type, n, a, b, d :: left', hp, rfl⟩
          · exact .inr ⟨.plain d :: before, after, rfl, .plain d hl, hr⟩
      | nil =>
          obtain ⟨d, w, rfl⟩ := List.exists_cons_of_ne_nil hw
          obtain ⟨rfl, htail⟩ := List.cons.inj hs
          by_cases hw' : w = []
          · subst hw'
            obtain rfl : right = s := htail
            exact .inr ⟨[], ps, rfl, .nil, h⟩
          · rw [List.mem_cons, not_or] at hopen hclose
            have hrest : [] ++ (w ++ right) = s := htail
            rcases ih hw' hopen.2 hclose.2 hrest with ⟨_, _, _, _, left', _, hleft⟩ |
              ⟨before, after, rfl, hl, hr⟩
            · cases left' <;> cases hleft
            · obtain rfl := maskedAs_nil_right hl
              exact .inr ⟨[], after, rfl, .nil, hr⟩
  | @hit ps s v type n h ih =>
      obtain ⟨-, u, hu, huopen, huclose⟩ := mark_placeholder type n
      rcases List.append_eq_append_iff.mp hs with ⟨t, ht, hrest⟩ | ⟨t, rfl, hrest⟩
      · cases t using List.reverseRecOn with
        | nil =>
            rw [List.append_nil] at ht
            have hrest : [] ++ (w ++ right) = s := hrest
            rcases ih hw hopen hclose hrest with ⟨_, _, _, _, left', _, hleft⟩ |
              ⟨before, after, rfl, hl, hr⟩
            · cases left' <;> cases hleft
            · obtain rfl := maskedAs_nil_right hl
              refine .inr ⟨[.hit v], after, rfl, ?_, hr⟩
              rw [← ht, ← List.append_nil (placeholder type n).toList]
              exact .hit v type n .nil
        | append_singleton t e =>
            -- The text begins within the placeholder, so it ends there as well.
            left
            cases left with
            | nil =>
                obtain ⟨d, w, rfl⟩ := List.exists_cons_of_ne_nil hw
                rw [List.nil_append] at ht
                rw [← ht, hu] at hrest
                obtain ⟨rfl, -⟩ := List.cons.inj hrest
                exact absurd List.mem_cons_self hopen
            | cons d a =>
                rw [hu, List.cons_append, ← List.append_assoc] at ht
                obtain ⟨rfl, hinner⟩ := List.cons.inj ht
                obtain ⟨rfl, he⟩ := List.append_inj' hinner rfl
                obtain rfl := List.singleton_inj.mp he
                rw [List.append_assoc, List.singleton_append] at hrest
                obtain ⟨b, rfl⟩ := prefix_of_prefix_append_cons hclose ⟨right, hrest⟩
                exact ⟨type, n, a, b, [], hu, rfl⟩
      · rcases ih hw hopen hclose hrest.symm with ⟨type', n', a, b, left', hp, rfl⟩ |
          ⟨before, after, rfl, hl, hr⟩
        · exact .inl ⟨type', n', a, b, _ ++ left', hp, by rw [List.append_assoc]⟩
        · exact .inr ⟨.hit v :: before, after, rfl, .hit v type n hl, hr⟩

theorem MaskedAs.head_reverse (h : MaskedAs ps s) (cls : CharClasses) {word : Char → Bool}
    (hword : word ']' = false) :
    s.reverse.head?.any word =
      (!ps.getLast?.any Chunk.isHit && ((piiFinder cls).textOf ps).reverse.head?.any word) := by
  cases ps using List.reverseRecOn with
  | nil =>
      cases h
      rfl
  | append_singleton ps piece =>
      obtain ⟨left, right, rfl, -, hlast⟩ := h.of_append
      cases piece with
      | plain c =>
          obtain rfl := maskedAs_plain (w := [c]).mp hlast
          simp [Chunk.isHit, Finder.textOf, Chunk.replaced]
      | hit w =>
          cases hlast with
          | hit _ type n hrest =>
              cases hrest
              obtain ⟨-, u, hu, -⟩ := mark_placeholder type n
              rw [hu]
              simp [Chunk.isHit, hword]

theorem MaskedAs.head (h : MaskedAs ps s) (cls : CharClasses) {word : Char → Bool}
    (hword : word '[' = false) :
    s.head?.any word =
      (!ps.head?.any Chunk.isHit && ((piiFinder cls).textOf ps).head?.any word) := by
  cases h with
  | nil => rfl
  | plain c h => rfl
  | hit w type n h =>
      obtain ⟨-, u, hu, -⟩ := mark_placeholder type n
      rw [hu]
      simp [Chunk.isHit, hword]

theorem placeholder_digits (type : PiiType) (n : UInt64) :
    ∃ name number : List Char,
      (placeholder type n).toList = '[' :: (name ++ '_' :: number ++ [']']) ∧
      (∀ c ∈ name, c.isAlpha = true ∨ c = '_') ∧ ∀ c ∈ number, c.isDigit = true := by
  refine ⟨type.placeholderTag.toList, Nat.toDigits 10 n.toNat, ?_, ?_, ?_⟩
  · have hn : (toString n).toList = Nat.toDigits 10 n.toNat := String.toList_ofList
    rw [placeholder]
    simp only [String.toList_append, hn]
    simp
  · have htag : type.placeholderTag.toList.all (fun c => c.isAlpha || c == '_') = true := by
      cases type <;> decide
    simpa using htag
  · exact List.all_eq_true.mp (all_isDigit_toDigits _)

theorem not_mem_run_within {type : PiiType} {n : UInt64} {a b : List Char}
    (hp : (placeholder type n).toList = '[' :: (a ++ (w ++ b) ++ [']'])) :
    w ∉ (piiRegex cls).run (a.reverse ++ left) (w ++ right) := by
  intro hmem
  obtain ⟨name, number, hshape, hname, hnumber⟩ := placeholder_digits type n
  rw [hp] at hshape
  obtain ⟨-, hshape⟩ := List.cons.inj hshape
  obtain ⟨hinner, -⟩ := List.append_inj' hshape rfl
  rcases mem_run_pii.mp hmem with hmail | ⟨hnum, hstart, -⟩
  · have hat : '@' ∈ name ++ '_' :: number := by
      rw [← hinner]
      simp [at_mem_of_email hmail]
    rw [List.mem_append, List.mem_cons] at hat
    rcases hat with hat | hat | hat
    · exact absurd (hname _ hat) (by decide)
    · exact absurd hat (by decide)
    · exact absurd (hnumber _ hat) (by decide)
  · obtain ⟨c, t, rfl, hc⟩ := starts_numberPattern w hnum
    have hnotName : ∀ d, d.isAlpha = true ∨ d = '_' →
        ¬(cls.digit d = true ∨ d = '+' ∨ d = '(') := by
      rintro d hd (hd' | rfl | rfl)
      · obtain ⟨halpha, hne⟩ := (digitClass cls).mark hd'
        rcases hd with hd | hd
        · rw [halpha] at hd
          cases hd
        · exact hne hd
      · exact absurd hd (by decide)
      · exact absurd hd (by decide)
    have hword : ∀ d ∈ '_' :: number, cls.word d = true := by
      intro d hd
      rcases List.mem_cons.mp hd with rfl | hd
      · rw [cls.ascii_word '_' (by decide)]
        rfl
      · have hdigit := hnumber d hd
        have hrange := range_of_isDigit hdigit
        exact cls.digit_word d ((cls.ascii_digit d (by omega)).trans hdigit)
    -- What stands before the number ends within the digits of the placeholder.
    obtain ⟨a', rfl, hrest⟩ : ∃ a', a = name ++ '_' :: a' ∧ number = a' ++ (c :: t ++ b) := by
      rcases List.append_eq_append_iff.mp hinner with ⟨e, rfl, he⟩ | ⟨e, rfl, he⟩
      · cases e with
        | nil =>
            obtain ⟨rfl, -⟩ := List.cons.inj he
            exact absurd hc (hnotName _ (.inr rfl))
        | cons d e =>
            obtain ⟨rfl, -⟩ := List.cons.inj he
            exact absurd hc (hnotName _ (hname _ (by simp)))
      · cases e with
        | nil =>
            obtain ⟨rfl, -⟩ := List.cons.inj he
            exact absurd hc (hnotName _ (.inr rfl))
        | cons d e =>
            obtain ⟨rfl, hnum⟩ := List.cons.inj he
            exact ⟨e, rfl, hnum⟩
    have hlast : ((name ++ '_' :: a').reverse ++ left).head?.any cls.word = true := by
      cases a' using List.reverseRecOn with
      | nil => simp [hword '_' List.mem_cons_self]
      | append_singleton a' d => simp [hword d (by simp [hrest])]
    rw [atBoundary, hlast, List.cons_append, List.head?_cons, Option.any_some,
      hword c (by simp [hrest])] at hstart
    cases hstart

theorem MaskedAs.atBoundary_start (hl : MaskedAs before left) (hw : w ∈ numberPattern cls) :
    atBoundary cls.word left.reverse (w ++ right) = opens cls before (w ++ s) := by
  obtain ⟨c, t, rfl, hc⟩ := starts_numberPattern w hw
  have hbracket : cls.word ']' = false := cls.ascii_word ']' (by decide)
  have hsame : cls.word c = cls.digit c := by
    rcases hc with hc | rfl | rfl
    · rw [hc, cls.digit_word c hc]
    · rw [cls.ascii_word '+' (by decide), cls.ascii_digit '+' (by decide)]
      rfl
    · rw [cls.ascii_word '(' (by decide), cls.ascii_digit '(' (by decide)]
      rfl
  rw [atBoundary, hl.head_reverse cls hbracket, opens]
  cases before.getLast?.any Chunk.isHit with
  | false => simp [atBoundary]
  | true => simp [hsame]

theorem MaskedAs.atBoundary_end (hr : MaskedAs after right) (hw : w ∈ numberPattern cls) :
    atBoundary cls.word (w.reverse ++ s) right = closes cls w after := by
  obtain ⟨t, c, rfl, hc⟩ := ends_numberPattern w hw
  have hbracket : cls.word '[' = false := cls.ascii_word '[' (by decide)
  rw [atBoundary, hr.head cls hbracket, closes]
  cases after.head?.any Chunk.isHit with
  | false => simp [atBoundary]
  | true => simp [cls.digit_word c hc]

/-- An address is not kept: it is found where its first character is. -/
theorem not_email_of_kept (h : (piiFinder cls).scan left s = w.map .plain ++ after) :
    w ∉ emailPattern := by
  intro hmail
  obtain ⟨rest, rfl, -⟩ := Finder.scan_append h
  rw [Finder.textOf_map_plain] at h
  have hfound : w ∈ (piiRegex cls).run left (w ++ rest) := mem_run_pii.mpr (.inl hmail)
  cases w with
  | nil => exact absurd (at_mem_of_email hmail) List.not_mem_nil
  | cons c w =>
      rcases Finder.scan_cons_cases h with ⟨d, t, -, -, hnone, -⟩ | ⟨v, t, heq, -⟩
      · rw [List.head?_eq_none_iff.mp hnone] at hfound
        cases hfound
      · cases heq

theorem MaskedAs.isMatch_iff {text : String}
    (h : MaskedAs ((piiFinder cls).scan [] text.toList) s) :
    (piiRegex cls).isMatch [] s = true ↔ Exposed cls text := by
  rw [Regex.isMatch_iff]
  constructor
  · rintro ⟨left, rest, w, rfl, hw⟩
    obtain ⟨right, rfl⟩ := Regex.prefix_of_mem_run hw
    rw [List.append_nil] at hw
    have htext := piiText_of_mem (mem_piiPattern_of_run hw)
    obtain ⟨c, t, hne, -⟩ := htext.first
    have hopen : '[' ∉ w := fun hmem => (htext.plain _ hmem).2.2.1 rfl
    have hclose : ']' ∉ w := fun hmem => (htext.plain _ hmem).2.2.2.1 rfl
    rcases h.locate (by simp [hne]) hopen hclose with ⟨type, n, a, b, left', hp, rfl⟩ |
      ⟨before, after, hps, hl, hr⟩
    · refine absurd hw ?_
      rw [List.reverse_append, List.reverse_cons, List.append_assoc]
      exact not_mem_run_within hp
    · rcases mem_run_pii.mp hw with hmail | ⟨hnumber, hstart, hend⟩
      · rw [List.append_assoc] at hps
        obtain ⟨rest, -, hscan⟩ := Finder.scan_append hps
        exact absurd hmail (not_email_of_kept hscan)
      · rw [hl.atBoundary_start hnumber (s := (piiFinder cls).textOf after)] at hstart
        rw [hr.atBoundary_end hnumber] at hend
        exact ⟨before, w, after, hps, isNumber_iff.mpr hnumber, hstart, hend⟩
  · rintro ⟨before, w, after, hps, hnumber, hstart, hend⟩
    rw [hps] at h
    obtain ⟨left', right, rfl, hleft, hr⟩ := h.of_append
    obtain ⟨left, w', rfl, hl, hkept⟩ := hleft.of_append
    obtain rfl := maskedAs_plain.mp hkept
    rw [isNumber_iff] at hnumber
    refine ⟨left, w' ++ right, w', List.append_assoc .., mem_run_pii.mpr (.inr ⟨hnumber, ?_, ?_⟩)⟩
    · rw [List.append_nil, hl.atBoundary_start hnumber]
      exact hstart
    · rw [hr.atBoundary_end hnumber]
      exact hend

end Masked

/-- Nothing that the pattern detects is let through by masking, whatever the
counter is, and by redaction, if and only if no number is exposed. -/
theorem nothing_detectable_iff (cls : CharClasses) (text : String) :
    ((∀ counter, (piiRegex cls).isMatch []
        ((piiPatterns cls).mask counter text).2.result.toList = false) ∧
      (piiRegex cls).isMatch [] (redactPii (piiPatterns cls) text).toList = false) ↔
    ¬Exposed cls text := by
  have hmask : ∀ counter, (piiRegex cls).isMatch []
      ((piiPatterns cls).mask counter text).2.result.toList = false ↔ ¬Exposed cls text := by
    intro counter
    have hdraws := (piiPatterns cls).draws_foldl
      ((piiPatterns cls).segments text) counter .start
    obtain ⟨s, hs, hmasked⟩ := maskedAs_of_draws hdraws
    rw [← hmasked.isMatch_iff, Bool.not_eq_true, PiiPatterns.mask, hs]
    rfl
  rw [redactPii_eq, hmask 0]
  constructor
  · exact And.right
  · exact fun h => ⟨fun counter => (hmask counter).mpr h, h⟩

/-- A phone number follows an address at once, and is found when the address is
gone. -/
theorem number_behind_address :
    ((piiPatterns asciiClasses).mask 0 "a@b.cc5551234").2.result = "[MASKED_EMAIL_0]5551234" ∧
    redactPii (piiPatterns asciiClasses) "a@b.cc5551234" = "[MASKED_EMAIL_0]5551234" ∧
    ¬∀ (text : String) (counter : UInt64),
      (piiRegex asciiClasses).isMatch []
        ((piiPatterns asciiClasses).mask counter text).2.result.toList = false ∧
      (piiRegex asciiClasses).isMatch []
        (redactPii (piiPatterns asciiClasses) text).toList = false := by
  have hmask : ((piiPatterns asciiClasses).mask 0 "a@b.cc5551234").2.result =
      "[MASKED_EMAIL_0]5551234" := by decide +kernel
  refine ⟨hmask, ?_, ?_⟩
  · rw [redactPii_eq, hmask]
  · intro h
    have hnone := (h "a@b.cc5551234" 0).1
    rw [hmask] at hnone
    revert hnone
    decide +kernel

end SereinGateway.Worker
