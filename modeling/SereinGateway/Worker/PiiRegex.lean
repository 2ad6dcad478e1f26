import Mathlib
import SereinGateway.Lib.Search
import SereinGateway.Worker.MaskRoundTrip

/-!
`PII_PATTERN` as it is searched for, and `redact_pii`.

The pattern has four alternatives. The three for numbers are bounded by word
boundaries on both sides, and the one for addresses is not. What a match is
classified by are the same four expressions without boundaries, anchored.
-/

namespace SereinGateway.Worker

open SereinGateway.Lib

section Expressions

variable (cls : CharClasses)

/-- `[a-z0-9._%+\-]+@[a-z0-9.\-]+\.[a-z]{2,}` -/
def emailRegex : Regex Char :=
  let user c := foldedLetter c || c.isDigit || c == '.' || c == '_' || c == '%' || c == '+' ||
    c == '-'
  let domain c := foldedLetter c || c.isDigit || c == '.' || c == '-'
  .seq (.atLeast user 1) (.seq (.one (· == '@')) (.seq (.atLeast domain 1)
    (.seq (.one (· == '.')) (.atLeast foldedLetter 2))))

/-- `\d{n}` -/
def digitsRegex (n : ℕ) : Regex Char := .times (.one cls.digit) n

/-- `[-\s]?` -/
def separatorRegex : Regex Char := .optional (.one fun c => c == '-' || isWhitespace c)

/-- `[-.\s]?` -/
def phoneSeparatorRegex : Regex Char :=
  .optional (.one fun c => c == '-' || c == '.' || isWhitespace c)

/-- `\d{4}[-\s]?\d{4}[-\s]?\d{4}[-\s]?\d{4}` -/
def financialRegex : Regex Char :=
  .seq (digitsRegex cls 4) (.seq separatorRegex (.seq (digitsRegex cls 4) (.seq separatorRegex
    (.seq (digitsRegex cls 4) (.seq separatorRegex (digitsRegex cls 4))))))

/-- `\d{3}[-\s]?\d{2}[-\s]?\d{4}` -/
def identityRegex : Regex Char :=
  .seq (digitsRegex cls 3) (.seq separatorRegex (.seq (digitsRegex cls 2) (.seq separatorRegex
    (digitsRegex cls 4))))

/-- `(?:\+?\d{1,3}[-.\s]?)?(?:\(?\d{3}\)?[-.\s]?)?\d{3}[-.\s]?\d{4}` -/
def phoneRegex : Regex Char :=
  .seq (.optional (.seq (.optional (.one (· == '+')))
      (.seq (.alt (digitsRegex cls 3) (.alt (digitsRegex cls 2) (digitsRegex cls 1)))
        phoneSeparatorRegex)))
    (.seq (.optional (.seq (.optional (.one (· == '('))) (.seq (digitsRegex cls 3)
        (.seq (.optional (.one (· == ')'))) phoneSeparatorRegex))))
      (.seq (digitsRegex cls 3) (.seq phoneSeparatorRegex (digitsRegex cls 4))))

/-- `\b…\b` -/
def bounded (r : Regex Char) : Regex Char :=
  .seq (.boundary cls.word) (.seq r (.boundary cls.word))

/-- `PII_PATTERN`. -/
def piiRegex : Regex Char :=
  .alt emailRegex (.alt (bounded cls (financialRegex cls))
    (.alt (bounded cls (identityRegex cls)) (bounded cls (phoneRegex cls))))

end Expressions

/-! ### The texts that are matched -/

section Languages

variable {cls : CharClasses} {w left right : List Char}

def digitClass (cls : CharClasses) : DigitClass where
  mem c := cls.digit c = true
  ascii c hc := by rw [cls.ascii_digit c hc]
  not_space := cls.digit_not_space

/-- Numbers of any of the three kinds. -/
def numberPattern (cls : CharClasses) : Language Char :=
  financialPattern (digitClass cls) + identityPattern (digitClass cls) +
    phonePattern (digitClass cls)

theorem language_oneOf {p : Char → Bool} {P : Char → Prop} (h : ∀ c, p c = true ↔ P c) :
    (Regex.one p).language = oneOf P := by
  ext w
  constructor
  · rintro ⟨c, hc, rfl⟩
    exact ⟨c, (h c).mp hc, rfl⟩
  · rintro ⟨c, hc, rfl⟩
    exact ⟨c, (h c).mpr hc, rfl⟩

theorem language_many {p : Char → Bool} {P : Char → Prop} (h : ∀ c, p c = true ↔ P c) :
    (Regex.many p).language = KStar.kstar (oneOf P) := by
  ext w
  rw [Language.mem_kstar]
  constructor
  · intro hw
    refine ⟨w.map fun c => [c], ?_, ?_⟩
    · rw [← List.flatMap_def, List.flatMap_singleton']
    · intro v hv
      obtain ⟨c, hc, rfl⟩ := List.mem_map.mp hv
      exact ⟨c, (h c).mp (hw c hc), rfl⟩
  · rintro ⟨ws, rfl, hws⟩ c hc
    obtain ⟨v, hv, hc⟩ := List.mem_flatten.mp hc
    obtain ⟨d, hd, rfl⟩ := hws v hv
    rw [List.mem_singleton.mp hc]
    exact (h d).mpr hd

theorem language_optional (r : Regex Char) : (Regex.optional r).language = optional r.language :=
  rfl

theorem language_digits (n : ℕ) : (digitsRegex cls n).language = digits (digitClass cls) n := by
  rw [digitsRegex, Regex.language_times]
  rfl

theorem language_separator : separatorRegex.language = separator := by
  rw [separatorRegex, language_optional,
    language_oneOf (P := fun c => c = '-' ∨ isWhitespace c = true)]
  · rfl
  · simp

theorem language_phoneSeparator : phoneSeparatorRegex.language = phoneSeparator := by
  rw [phoneSeparatorRegex, language_optional,
    language_oneOf (P := fun c => c = '-' ∨ c = '.' ∨ isWhitespace c = true)]
  · rfl
  · simp [or_assoc]

theorem language_financial :
    (financialRegex cls).language = financialPattern (digitClass cls) := by
  simp only [financialRegex, Regex.language_seq, language_digits, language_separator]
  rfl

theorem language_identity : (identityRegex cls).language = identityPattern (digitClass cls) := by
  simp only [identityRegex, Regex.language_seq, language_digits, language_separator]
  rfl

theorem language_single (d : Char) : (Regex.one (· == d)).language = oneOf (· = d) :=
  language_oneOf fun c => by simp

theorem language_phone : (phoneRegex cls).language = phonePattern (digitClass cls) := by
  simp only [phoneRegex, Regex.language_seq, Regex.language_alt, language_optional,
    language_digits, language_phoneSeparator, language_single]
  rw [phonePattern, add_comm (digits _ 1), add_comm _ (digits _ 3)]

theorem foldedLetter_iff {c : Char} : foldedLetter c = true ↔ IsLetter c := by
  simp [foldedLetter, IsLetter, or_assoc]

theorem language_atLeast {p : Char → Bool} {P : Char → Prop} (h : ∀ c, p c = true ↔ P c) (n : ℕ) :
    (Regex.atLeast p n).language = oneOf P ^ n * KStar.kstar (oneOf P) := by
  rw [Regex.atLeast, Regex.language_seq, Regex.language_times, language_oneOf h, language_many h]

theorem language_email : emailRegex.language = emailPattern := by
  rw [emailRegex, emailPattern]
  simp only [Regex.language_seq, language_single]
  rw [language_atLeast (P := fun c =>
      IsLetter c ∨ c.isDigit = true ∨ c = '.' ∨ c = '_' ∨ c = '%' ∨ c = '+' ∨ c = '-'),
    language_atLeast (P := fun c => IsLetter c ∨ c.isDigit = true ∨ c = '.' ∨ c = '-'),
    language_atLeast (P := IsLetter)]
  · rw [pow_one, pow_one, pow_two, mul_assoc (oneOf IsLetter) (oneOf IsLetter),
      mul_assoc (oneOf IsLetter), Language.mul_self_kstar_comm (oneOf IsLetter)]
  · exact fun c => foldedLetter_iff
  · simp [foldedLetter_iff, or_assoc]
  · simp [foldedLetter_iff, or_assoc]

theorem free_optional {r : Regex Char} (hr : r.Free) : (Regex.optional r).Free := ⟨hr, trivial⟩

theorem free_digits (n : ℕ) : (digitsRegex cls n).Free :=
  Regex.Free.times (r := .one cls.digit) trivial n

theorem free_email : emailRegex.Free := by
  have hatLeast : ∀ (p : Char → Bool) n, (Regex.atLeast p n).Free := fun p n =>
    ⟨Regex.Free.times (r := .one p) trivial n, trivial⟩
  exact ⟨hatLeast _ 1, trivial, hatLeast _ 1, trivial, hatLeast _ 2⟩

theorem free_financial : (financialRegex cls).Free :=
  ⟨free_digits 4, free_optional trivial, free_digits 4, free_optional trivial, free_digits 4,
    free_optional trivial, free_digits 4⟩

theorem free_identity : (identityRegex cls).Free :=
  ⟨free_digits 3, free_optional trivial, free_digits 2, free_optional trivial, free_digits 4⟩

theorem free_phone : (phoneRegex cls).Free :=
  ⟨free_optional ⟨free_optional trivial, ⟨free_digits 3, free_digits 2, free_digits 1⟩,
      free_optional trivial⟩,
    free_optional ⟨free_optional trivial, free_digits 3, free_optional trivial,
      free_optional trivial⟩,
    free_digits 3, free_optional trivial, free_digits 4⟩

theorem mem_run_bounded {r : Regex Char} (hr : r.Free) :
    w ∈ (bounded cls r).run left (w ++ right) ↔ w ∈ r.language ∧
      atBoundary cls.word left (w ++ right) = true ∧
      atBoundary cls.word (w.reverse ++ left) right = true := by
  simp only [bounded, Regex.mem_run_seq, Regex.mem_run_boundary, Regex.mem_run_iff hr]
  constructor
  · rintro ⟨u, ⟨hstart, rfl⟩, v, ⟨u, ⟨hpre, hu⟩, v', ⟨hend, rfl⟩, rfl⟩, rfl⟩
    simp only [List.nil_append, List.append_nil, List.reverse_nil, List.length_nil,
      List.drop_zero] at *
    rw [List.drop_left] at hend
    exact ⟨hu, hstart, hend⟩
  · rintro ⟨hw, hstart, hend⟩
    refine ⟨[], ⟨hstart, rfl⟩, w, ⟨w, ⟨?_, hw⟩, [], ⟨?_, rfl⟩, (List.append_nil w).symm⟩, rfl⟩
    · exact List.prefix_append w right
    · simpa using hend

theorem mem_run_pii : w ∈ (piiRegex cls).run left (w ++ right) ↔
    w ∈ emailPattern ∨ w ∈ numberPattern cls ∧ atBoundary cls.word left (w ++ right) = true ∧
      atBoundary cls.word (w.reverse ++ left) right = true := by
  have hadd : w ∈ numberPattern cls ↔ w ∈ financialPattern (digitClass cls) ∨
      w ∈ identityPattern (digitClass cls) ∨ w ∈ phonePattern (digitClass cls) := by
    rw [numberPattern, Language.mem_add, Language.mem_add, or_assoc]
  simp only [piiRegex, Regex.mem_run_alt, Regex.mem_run_iff free_email,
    mem_run_bounded free_financial, mem_run_bounded free_identity, mem_run_bounded free_phone,
    language_email, language_financial, language_identity, language_phone, hadd,
    and_iff_right (List.prefix_append w right)]
  rw [← or_and_right, ← or_and_right]

theorem mem_piiPattern_iff :
    w ∈ piiPattern (digitClass cls) ↔ w ∈ emailPattern ∨ w ∈ numberPattern cls := by
  rw [piiPattern, add_assoc, add_assoc, ← add_assoc (financialPattern _), Language.mem_add]
  rfl

theorem mem_piiPattern_of_run (h : w ∈ (piiRegex cls).run left (w ++ right)) :
    w ∈ piiPattern (digitClass cls) :=
  mem_piiPattern_iff.mpr ((mem_run_pii.mp h).imp_right And.left)

end Languages

/-- The search for `PII_PATTERN`. -/
def piiFinder (cls : CharClasses) : Finder Char (List Char) := (piiRegex cls).finder rfl

/-- A piece as a segment of the text to mask. -/
def toSegment : Chunk Char (List Char) → Segment
  | .plain c => .plain (.ofList [c])
  | .hit w => .pii (.ofList w)

def piiPatterns (cls : CharClasses) : PiiPatterns where
  segments text := ((piiFinder cls).scan [] text.toList).map toSegment
  segments_text text := by
    have hjoin : ∀ ps : List (Chunk Char (List Char)),
        String.join ((ps.map toSegment).map Segment.text) =
          .ofList ((piiFinder cls).textOf ps) := by
      intro ps
      induction ps with
      | nil => rfl
      | cons piece ps ih =>
          rw [List.map_cons, List.map_cons, String.join_cons, ih, Finder.textOf, Finder.textOf,
            List.flatMap_cons, String.ofList_append]
          cases piece <;> rfl
    rw [hjoin, Finder.textOf_scan, String.ofList_toList]
  email s := emailRegex.fullMatch s.toList
  financial s := (financialRegex cls).fullMatch s.toList
  identity s := (identityRegex cls).fullMatch s.toList
  phone s := (phoneRegex cls).fullMatch s.toList

theorem followPattern_piiPatterns (cls : CharClasses) :
    (piiPatterns cls).FollowPattern (digitClass cls) := by
  intro text matched hmem
  obtain ⟨piece, hpiece, heq⟩ := List.mem_map.mp hmem
  cases piece with
  | plain c => cases heq
  | hit w =>
      cases heq
      obtain ⟨ps, ps', hps⟩ := List.mem_iff_append.mp hpiece
      obtain ⟨t, -, ht⟩ := Finder.scan_append hps
      rcases Finder.scan_cons_cases ht with ⟨c, t, heq, -⟩ | ⟨w', t, heq, rfl, hfind, -⟩
      · cases heq
      · cases heq
        rw [String.toList_ofList]
        exact mem_piiPattern_of_run (List.mem_of_mem_head? hfind)

/-- The loop of `redact_pii`. -/
def redactSegments (pats : PiiPatterns) : UInt64 → List Segment → String
  | _, [] => ""
  | counter, .plain text :: segs => text ++ redactSegments pats counter segs
  | counter, .pii matched :: segs =>
      placeholder (pats.classifyPii matched) counter ++ redactSegments pats (counter + 1) segs

def redactPii (pats : PiiPatterns) (text : String) : String :=
  redactSegments pats 0 (pats.segments text)

theorem redactPii_eq (pats : PiiPatterns) (text : String) :
    redactPii pats text = (pats.mask 0 text).2.result := by
  have hfold : ∀ (segs : List Segment) counter m,
      (segs.foldl (fun acc seg => pats.maskSegment acc.1 acc.2 seg) (counter, m)).2.result =
        m.result ++ redactSegments pats counter segs := by
    intro segs
    induction segs with
    | nil => simp [redactSegments]
    | cons seg segs ih =>
        intro counter m
        rw [List.foldl_cons, ih]
        cases seg <;> simp [redactSegments, PiiPatterns.maskSegment, String.append_assoc]
  rw [PiiPatterns.mask, hfold, redactPii]
  exact String.empty_append.symm

end SereinGateway.Worker
