import Mathlib
import SereinGateway.Worker.Pii

/-!
The texts that `PII_PATTERN` can match.

The pattern is case insensitive and knows Unicode: `[a-z]` also matches the
two letters outside of ASCII that fold to `s` and `k`, `\d` is any decimal
digit, and `\s` any white space. Word boundaries restrict where a match may
stand and not what it is, so they are left out.

What the rest of the development needs of a match is `PiiText`. That white
space may stand between two groups of digits, line breaks included, is not
excluded by it.
-/

namespace SereinGateway.Worker

open SereinGateway.Lib

/-- The class `\d`: the Unicode category of decimal digits. -/
structure DigitClass where
  mem : Char → Prop
  ascii : ∀ c, c.toNat < 128 → (mem c ↔ c.isDigit = true)
  not_space : ∀ c, mem c → isWhitespace c = false

/-- The class `[a-z]` without regard to case. -/
def IsLetter (c : Char) : Prop := c.isAlpha = true ∨ c.toNat = 0x17F ∨ c.toNat = 0x212A

def oneOf (P : Char → Prop) : Language Char := {w | ∃ c, P c ∧ w = [c]}

def optional (L : Language Char) : Language Char := L + 1

section Pattern

variable (nd : DigitClass)

/-- `\d{n}`. -/
def digits (n : ℕ) : Language Char := oneOf nd.mem ^ n

/-- `[-\s]?` -/
def separator : Language Char := optional (oneOf fun c => c = '-' ∨ isWhitespace c = true)

/-- `[-.\s]?` -/
def phoneSeparator : Language Char :=
  optional (oneOf fun c => c = '-' ∨ c = '.' ∨ isWhitespace c = true)

def emailPattern : Language Char :=
  let word := oneOf fun c =>
    IsLetter c ∨ c.isDigit = true ∨ c = '.' ∨ c = '_' ∨ c = '%' ∨ c = '+' ∨ c = '-'
  let domain := oneOf fun c => IsLetter c ∨ c.isDigit = true ∨ c = '.' ∨ c = '-'
  word * KStar.kstar word * (oneOf (· = '@') * (domain * KStar.kstar domain *
    (oneOf (· = '.') * (oneOf IsLetter * KStar.kstar (oneOf IsLetter) * oneOf IsLetter))))

def financialPattern : Language Char :=
  digits nd 4 * (separator * (digits nd 4 * (separator * (digits nd 4 * (separator *
    digits nd 4)))))

def identityPattern : Language Char :=
  digits nd 3 * (separator * (digits nd 2 * (separator * digits nd 4)))

def phonePattern : Language Char :=
  optional (optional (oneOf (· = '+')) * ((digits nd 1 + digits nd 2 + digits nd 3) *
      phoneSeparator)) *
    (optional (optional (oneOf (· = '(')) * (digits nd 3 * (optional (oneOf (· = ')')) *
        phoneSeparator))) *
      (digits nd 3 * (phoneSeparator * digits nd 4)))

def piiPattern : Language Char :=
  emailPattern + financialPattern nd + identityPattern nd + phonePattern nd

end Pattern

/-- Every match is a text of the pattern. -/
def PiiPatterns.FollowPattern (pats : PiiPatterns) (nd : DigitClass) : Prop :=
  ∀ text matched, .pii matched ∈ pats.segments text → matched.toList ∈ piiPattern nd

/-! ### What a match looks like -/

section Words

variable {L M : Language Char} {P Q : Char → Prop}

def Over (P : Char → Prop) (L : Language Char) : Prop := ∀ w ∈ L, ∀ c ∈ w, P c

def Starts (P : Char → Prop) (L : Language Char) : Prop := ∀ w ∈ L, ∃ c t, w = c :: t ∧ P c

/-- The last character of every word. -/
def Ends (P : Char → Prop) (L : Language Char) : Prop := ∀ w ∈ L, ∃ t c, w = t ++ [c] ∧ P c

theorem Over.mul (hL : Over P L) (hM : Over P M) : Over P (L * M) := by
  rintro w ⟨a, ha, b, hb, rfl⟩ c hc
  rcases List.mem_append.mp hc with hc | hc
  · exact hL a ha c hc
  · exact hM b hb c hc

theorem Over.add (hL : Over P L) (hM : Over P M) : Over P (L + M) := by
  rintro w (hw | hw)
  · exact hL w hw
  · exact hM w hw

theorem Over.one : Over P 1 := by
  intro w hw c hc
  rw [Language.mem_one] at hw
  simp [hw] at hc

theorem Over.optional (hL : Over P L) : Over P (optional L) := hL.add .one

theorem Over.pow (hL : Over P L) (n : ℕ) : Over P (L ^ n) := by
  induction n with
  | zero => exact .one
  | succ n ih => exact pow_succ L n ▸ ih.mul hL

theorem Over.kstar (hL : Over P L) : Over P (KStar.kstar L) := by
  rintro w ⟨ws, rfl, hws⟩ c hc
  obtain ⟨v, hv, hc⟩ := List.mem_flatten.mp hc
  exact hL v (hws v hv) c hc

theorem Over.oneOf (h : ∀ c, Q c → P c) : Over P (oneOf Q) := by
  rintro w ⟨c, hc, rfl⟩ d hd
  rw [List.mem_singleton.mp hd]
  exact h c hc

theorem Starts.mul (hL : Starts P L) : Starts P (L * M) := by
  rintro w ⟨a, ha, b, -, rfl⟩
  obtain ⟨c, t, rfl, hc⟩ := hL a ha
  exact ⟨c, t ++ b, rfl, hc⟩

theorem Starts.optional_mul (hL : Starts P L) (hM : Starts P M) :
    Starts P (optional L * M) := by
  rintro w ⟨a, ha, b, hb, rfl⟩
  rcases ha with ha | ha
  · exact hL.mul _ ⟨a, ha, b, hb, rfl⟩
  · obtain rfl : a = [] := (Language.mem_one a).mp ha
    exact hM b hb

theorem Starts.add (hL : Starts P L) (hM : Starts P M) : Starts P (L + M) := by
  rintro w (hw | hw)
  · exact hL w hw
  · exact hM w hw

theorem Starts.oneOf (h : ∀ c, Q c → P c) : Starts P (oneOf Q) := by
  rintro w ⟨c, hc, rfl⟩
  exact ⟨c, [], rfl, h c hc⟩

theorem Starts.pow (hL : Starts P L) (n : ℕ) : Starts P (L ^ (n + 1)) := by
  rw [pow_succ']
  exact hL.mul

theorem Ends.mul (hM : Ends P M) : Ends P (L * M) := by
  rintro w ⟨a, -, b, hb, rfl⟩
  obtain ⟨t, c, rfl, hc⟩ := hM b hb
  exact ⟨a ++ t, c, by simp, hc⟩

theorem Ends.add (hL : Ends P L) (hM : Ends P M) : Ends P (L + M) := by
  rintro w (hw | hw)
  · exact hL w hw
  · exact hM w hw

theorem Ends.oneOf (h : ∀ c, Q c → P c) : Ends P (oneOf Q) := by
  rintro w ⟨c, hc, rfl⟩
  exact ⟨[], c, rfl, h c hc⟩

theorem Ends.pow (hL : Ends P L) (n : ℕ) : Ends P (L ^ (n + 1)) := by
  rw [pow_succ]
  exact hL.mul

end Words

/-- A text that may be restored: it has no quote, backslash, bracket or
backtick, neither begins nor ends with white space, and has a character that
no name of a field has. -/
structure PiiText (w : List Char) : Prop where
  plain : ∀ c ∈ w, c ≠ '"' ∧ c ≠ '\\' ∧ c ≠ '[' ∧ c ≠ ']' ∧ c ≠ '`'
  first : ∃ c t, w = c :: t ∧ isWhitespace c = false
  last : ∃ t c, w = t ++ [c] ∧ isWhitespace c = false
  mark : ∃ c ∈ w, c.isAlpha = false ∧ c ≠ '_'

section Matches

variable {nd : DigitClass}

/-- The characters of a match. -/
def PiiChar (nd : DigitClass) (c : Char) : Prop :=
  IsLetter c ∨ c.isDigit = true ∨ nd.mem c ∨ isWhitespace c = true ∨
    c ∈ ['.', '_', '%', '+', '-', '@', '(', ')']

theorem over_piiPattern : Over (PiiChar nd) (piiPattern nd) := by
  have hdigits : ∀ n, Over (PiiChar nd) (digits nd n) := fun n =>
    (Over.oneOf fun c hc => .inr (.inr (.inl hc))).pow n
  have hspace : ∀ c : Char, isWhitespace c = true → PiiChar nd c := fun c hc =>
    .inr (.inr (.inr (.inl hc)))
  have hmark : ∀ c ∈ ['.', '_', '%', '+', '-', '@', '(', ')'], PiiChar nd c := fun c hc =>
    .inr (.inr (.inr (.inr hc)))
  have hseparator : Over (PiiChar nd) separator := by
    refine (Over.oneOf ?_).optional
    rintro c (rfl | hc)
    · exact hmark '-' (by decide)
    · exact hspace c hc
  have hphoneSeparator : Over (PiiChar nd) phoneSeparator := by
    refine (Over.oneOf ?_).optional
    rintro c (rfl | rfl | hc)
    · exact hmark '-' (by decide)
    · exact hmark '.' (by decide)
    · exact hspace c hc
  have hsingle : ∀ d ∈ ['.', '_', '%', '+', '-', '@', '(', ')'],
      Over (PiiChar nd) (oneOf (· = d)) := by
    intro d hd
    refine .oneOf ?_
    rintro c rfl
    exact hmark c hd
  have hletter : Over (PiiChar nd) (oneOf IsLetter) := .oneOf fun c hc => .inl hc
  have hword : Over (PiiChar nd) (oneOf fun c =>
      IsLetter c ∨ c.isDigit = true ∨ c = '.' ∨ c = '_' ∨ c = '%' ∨ c = '+' ∨ c = '-') := by
    refine .oneOf ?_
    rintro c (hc | hc | rfl | rfl | rfl | rfl | rfl)
    · exact .inl hc
    · exact .inr (.inl hc)
    all_goals exact hmark _ (by decide)
  have hdomain : Over (PiiChar nd) (oneOf fun c =>
      IsLetter c ∨ c.isDigit = true ∨ c = '.' ∨ c = '-') := by
    refine .oneOf ?_
    rintro c (hc | hc | rfl | rfl)
    · exact .inl hc
    · exact .inr (.inl hc)
    all_goals exact hmark _ (by decide)
  refine ((Over.add ?_ ?_).add ?_).add ?_
  · exact (hword.mul hword.kstar).mul ((hsingle '@' (by decide)).mul
      ((hdomain.mul hdomain.kstar).mul ((hsingle '.' (by decide)).mul
        ((hletter.mul hletter.kstar).mul hletter))))
  · exact (hdigits 4).mul (hseparator.mul ((hdigits 4).mul (hseparator.mul
      ((hdigits 4).mul (hseparator.mul (hdigits 4))))))
  · exact (hdigits 3).mul (hseparator.mul ((hdigits 2).mul (hseparator.mul (hdigits 4))))
  · refine (Over.optional ?_).mul ((Over.optional ?_).mul
      ((hdigits 3).mul (hphoneSeparator.mul (hdigits 4))))
    · exact (hsingle '+' (by decide)).optional.mul
        ((((hdigits 1).add (hdigits 2)).add (hdigits 3)).mul hphoneSeparator)
    · exact (hsingle '(' (by decide)).optional.mul
        ((hdigits 3).mul ((hsingle ')' (by decide)).optional.mul hphoneSeparator))

theorem not_space_of_letter {c : Char} (h : IsLetter c) : isWhitespace c = false := by
  refine not_space_of_range ?_
  rcases h with h | h
  · have hrange := range_of_isAlpha h
    omega
  · exact .inr h

theorem not_piiChar {c : Char} (h : c ∈ ['"', '\\', '[', ']', '`']) : ¬PiiChar nd c := by
  have hall : ∀ c ∈ ['"', '\\', '[', ']', '`'], c.toNat < 128 ∧ c.isDigit = false ∧
      isWhitespace c = false ∧ c.isAlpha = false ∧
      c ∉ ['.', '_', '%', '+', '-', '@', '(', ')'] := by
    simp only [List.forall_mem_cons]
    refine ⟨?_, ?_, ?_, ?_, ?_, List.forall_mem_nil _⟩ <;>
      exact ⟨by decide, by decide, by decide, by decide, by decide⟩
  obtain ⟨hascii, hdigit, hspace, halpha, hmark⟩ := hall c h
  rintro ((hc | hc) | hc | hc | hc | hc)
  · simp [halpha] at hc
  · omega
  · simp [hdigit] at hc
  · rw [nd.ascii c hascii, hdigit] at hc
    cases hc
  · simp [hspace] at hc
  · exact hmark hc

theorem starts_piiPattern : Starts (isWhitespace · = false) (piiPattern nd) := by
  have hdigits : ∀ n, Starts (isWhitespace · = false) (digits nd (n + 1)) := fun n =>
    (Starts.oneOf nd.not_space).pow n
  have hsingle : ∀ d, isWhitespace d = false → Starts (isWhitespace · = false) (oneOf (· = d)) := by
    intro d hd
    refine .oneOf ?_
    rintro c rfl
    exact hd
  refine ((Starts.add ?_ ?_).add ?_).add ?_
  · refine ((Starts.oneOf ?_).mul).mul
    rintro c (hc | hc | rfl | rfl | rfl | rfl | rfl)
    · exact not_space_of_letter hc
    · exact not_space_of_isDigit hc
    all_goals decide
  · exact (hdigits 3).mul
  · exact (hdigits 2).mul
  · refine Starts.optional_mul ?_ (Starts.optional_mul ?_ (hdigits 2).mul)
    · exact (hsingle '+' (by decide)).optional_mul
        (((hdigits 0).add (hdigits 1)).add (hdigits 2)).mul
    · exact (hsingle '(' (by decide)).optional_mul (hdigits 2).mul

/-- A match ends with a digit, or it is an address. -/
theorem ends_piiPattern {w : List Char} (hw : w ∈ piiPattern nd) :
    (∃ t c, w = t ++ [c] ∧ nd.mem c) ∨ (∃ t c, w = t ++ [c] ∧ IsLetter c) ∧ '@' ∈ w := by
  have hdigits : Ends nd.mem (digits nd 4) := (Ends.oneOf fun c hc => hc).pow 3
  rcases hw with ((hw | hw) | hw) | hw
  · right
    obtain ⟨a, -, b, ⟨c, ⟨e, he, rfl⟩, d, hd, rfl⟩, rfl⟩ := hw
    have hletters : Ends IsLetter
        (oneOf IsLetter * KStar.kstar (oneOf IsLetter) * oneOf IsLetter) :=
      (Ends.oneOf fun c hc => hc).mul
    obtain ⟨t, c, rfl, hc⟩ := hletters.mul.mul d hd
    exact ⟨⟨a ++ e :: t, c, by simp, hc⟩, by simp [he]⟩
  · left
    obtain ⟨a, -, b, hb, rfl⟩ := hw
    obtain ⟨t, c, rfl, hc⟩ := hdigits.mul.mul.mul.mul.mul b hb
    exact ⟨a ++ t, c, by simp, hc⟩
  · left
    obtain ⟨a, -, b, hb, rfl⟩ := hw
    obtain ⟨t, c, rfl, hc⟩ := hdigits.mul.mul.mul b hb
    exact ⟨a ++ t, c, by simp, hc⟩
  · left
    obtain ⟨a, -, b, hb, rfl⟩ := hw
    obtain ⟨t, c, rfl, hc⟩ := hdigits.mul.mul.mul b hb
    exact ⟨a ++ t, c, by simp, hc⟩

theorem DigitClass.mark {c : Char} (hc : nd.mem c) : c.isAlpha = false ∧ c ≠ '_' := by
  constructor
  · by_contra halpha
    have hrange := range_of_isAlpha (Bool.not_eq_false _ ▸ halpha)
    have hdigit := range_of_isDigit ((nd.ascii c (by omega)).mp hc)
    omega
  · rintro rfl
    have hdigit := (nd.ascii '_' (by decide)).mp hc
    revert hdigit
    decide

theorem piiText_of_mem {w : List Char} (hw : w ∈ piiPattern nd) : PiiText w := by
  refine ⟨fun c hc => ?_, starts_piiPattern w hw, ?_, ?_⟩
  · have hchar := over_piiPattern w hw c hc
    have hnot : ∀ d ∈ ['"', '\\', '[', ']', '`'], c ≠ d := by
      rintro d hd rfl
      exact not_piiChar hd hchar
    exact ⟨hnot _ (by decide), hnot _ (by decide), hnot _ (by decide), hnot _ (by decide),
      hnot _ (by decide)⟩
  · rcases ends_piiPattern hw with ⟨t, c, ht, hc⟩ | ⟨⟨t, c, ht, hc⟩, -⟩
    · exact ⟨t, c, ht, nd.not_space c hc⟩
    · exact ⟨t, c, ht, not_space_of_letter hc⟩
  · rcases ends_piiPattern hw with ⟨t, c, rfl, hc⟩ | ⟨-, hat⟩
    · exact ⟨c, by simp, nd.mark hc⟩
    · exact ⟨'@', hat, by decide, by decide⟩

end Matches

end SereinGateway.Worker
