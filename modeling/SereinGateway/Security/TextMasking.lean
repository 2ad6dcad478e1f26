import Mathlib
import SereinGateway.Lib.Stretches
import SereinGateway.Security.FieldMasking

/-!
`mask_pii_in_text`: passports, addresses, phone numbers and national ids in a text.

Each pattern is searched for once, in the text that the passes before have left, and a
match keeps a beginning, and in two of the passes an end. A pass that keeps only a
beginning leaves no match, and no later pass brings one back. What is kept at the end
of an address or of an id may begin another match with what follows it, which the
search has passed.
-/

namespace SereinGateway.Security

open SereinGateway.Lib SereinGateway.CacheStorage

/-! ### The patterns -/

/-- The groups of the passport pattern: `prefix` and `digits`. -/
structure Passport where
  letter : List Char
  digits : List Char

def Passport.text (b : Passport) : List Char := b.letter ++ b.digits

/-- `(?P<prefix>[A-Z])(?P<digits>\d{6,9})` -/
def passportRegex (cls : CharClasses) : Matcher Char Passport := do
  let letter ← .between Char.isUpper 1 1
  let digits ← .between cls.digit 6 9
  return ⟨letter, digits⟩

/-- The groups of the address pattern. The domain is read in two parts. -/
structure Email where
  user : List Char
  host : List Char
  top : List Char

def Email.domain (b : Email) : List Char := b.host ++ ('.' :: b.top)

def Email.text (b : Email) : List Char := b.user ++ ('@' :: b.domain)

/-- `[a-zA-Z0-9.-]` -/
def domainChar (c : Char) : Bool := c.isAlphanum || c == '.' || c == '-'

/-- `[a-zA-Z0-9._%+-]` -/
def userChar (c : Char) : Bool := domainChar c || c == '_' || c == '%' || c == '+'

/-- `(?P<user>[a-zA-Z0-9._%+-]+)@(?P<domain>[a-zA-Z0-9.-]+\.[a-zA-Z]{2,})` -/
def emailRegex : Matcher Char Email := do
  let user ← .many1 userChar
  .literal ['@']
  let host ← .many1 domainChar
  .literal ['.']
  let top ← .atLeast Char.isAlpha 2
  return ⟨user, host, top⟩

/-- The groups of the phone pattern. -/
structure Phone where
  plus : List Char
  country : List Char
  number : List Char

def Phone.text (b : Phone) : List Char := b.plus ++ (b.country ++ b.number)

/-- `(?P<plus>\+?)(?P<country>\d{1,3})(?P<number>\d{7,12})` -/
def phoneRegex (cls : CharClasses) : Matcher Char Phone := do
  let plus ← .between (· == '+') 0 1
  let country ← .between cls.digit 1 3
  let number ← .between cls.digit 7 12
  return ⟨plus, country, number⟩

/-- The groups of the id pattern, `prefix`, `middle` and `suffix`, and what is between. -/
structure NationalId where
  start : List Char
  gap : List Char
  middle : List Char
  gap' : List Char
  suffix : List Char

def NationalId.text (b : NationalId) : List Char :=
  b.start ++ (b.gap ++ (b.middle ++ (b.gap' ++ b.suffix)))

/-- `[-\s]` -/
def gapChar (c : Char) : Bool := c == '-' || isWhitespace c

/-- `(?P<prefix>\d{3,6})[-\s]?(?P<middle>\d{4,8})[-\s]?(?P<suffix>\d{3,5})` -/
def nationalIdRegex (cls : CharClasses) : Matcher Char NationalId := do
  let start ← .between cls.digit 3 6
  let gap ← .between gapChar 0 1
  let middle ← .between cls.digit 4 8
  let gap' ← .between gapChar 0 1
  let suffix ← .between cls.digit 3 5
  return ⟨start, gap, middle, gap', suffix⟩

/-! ### What the patterns match -/

section Patterns

open Matcher

variable {cls : CharClasses}

structure Passport.Form (cls : CharClasses) (b : Passport) : Prop where
  letter : (∀ c ∈ b.letter, c.isUpper = true) ∧ 1 ≤ b.letter.length ∧ b.letter.length ≤ 1
  digits : (∀ c ∈ b.digits, cls.digit c = true) ∧ 6 ≤ b.digits.length ∧ b.digits.length ≤ 9

structure Email.Form (b : Email) : Prop where
  user : b.user ≠ [] ∧ ∀ c ∈ b.user, userChar c = true
  host : b.host ≠ [] ∧ ∀ c ∈ b.host, domainChar c = true
  top : (∀ c ∈ b.top, c.isAlpha = true) ∧ 2 ≤ b.top.length

structure Phone.Form (cls : CharClasses) (b : Phone) : Prop where
  plus : (∀ c ∈ b.plus, (c == '+') = true) ∧ 0 ≤ b.plus.length ∧ b.plus.length ≤ 1
  country : (∀ c ∈ b.country, cls.digit c = true) ∧ 1 ≤ b.country.length ∧ b.country.length ≤ 3
  number : (∀ c ∈ b.number, cls.digit c = true) ∧ 7 ≤ b.number.length ∧ b.number.length ≤ 12

structure NationalId.Form (cls : CharClasses) (b : NationalId) : Prop where
  start : (∀ c ∈ b.start, cls.digit c = true) ∧ 3 ≤ b.start.length ∧ b.start.length ≤ 6
  gap : (∀ c ∈ b.gap, gapChar c = true) ∧ 0 ≤ b.gap.length ∧ b.gap.length ≤ 1
  middle : (∀ c ∈ b.middle, cls.digit c = true) ∧ 4 ≤ b.middle.length ∧ b.middle.length ≤ 8
  gap' : (∀ c ∈ b.gap', gapChar c = true) ∧ 0 ≤ b.gap'.length ∧ b.gap'.length ≤ 1
  suffix : (∀ c ∈ b.suffix, cls.digit c = true) ∧ 3 ≤ b.suffix.length ∧ b.suffix.length ≤ 5

theorem reads_passport : (passportRegex cls).Reads Passport.text (Passport.Form cls) := by
  intro s b t
  simp only [passportRegex, mem_bind, mem_between, mem_pure, Prod.mk.injEq]
  constructor
  · rintro ⟨letter, _, ⟨rfl, hletter⟩, digits, _, ⟨rfl, hdigits⟩, rfl, rfl⟩
    exact ⟨by simp [Passport.text], hletter, hdigits⟩
  · rintro ⟨rfl, hform⟩
    exact ⟨b.letter, b.digits ++ t, ⟨by simp [Passport.text], hform.letter⟩, b.digits, t,
      ⟨rfl, hform.digits⟩, rfl, rfl⟩

theorem reads_email : emailRegex.Reads Email.text Email.Form := by
  intro s b t
  simp only [emailRegex, mem_bind, mem_many1, mem_literal, mem_atLeast, mem_pure, Prod.mk.injEq]
  constructor
  · rintro ⟨user, _, ⟨rfl, huser⟩, _, _, rfl, host, _, ⟨rfl, hhost⟩, _, _, rfl, top, _,
      ⟨rfl, htop⟩, rfl, rfl⟩
    exact ⟨by simp [Email.text, Email.domain], huser, hhost, htop⟩
  · rintro ⟨rfl, hform⟩
    exact ⟨b.user, '@' :: (b.domain ++ t), ⟨by simp [Email.text], hform.user⟩, (),
      b.domain ++ t, rfl, b.host, '.' :: (b.top ++ t), ⟨by simp [Email.domain], hform.host⟩, (),
      b.top ++ t, rfl, b.top, t, ⟨rfl, hform.top⟩, rfl, rfl⟩

theorem reads_phone : (phoneRegex cls).Reads Phone.text (Phone.Form cls) := by
  intro s b t
  simp only [phoneRegex, mem_bind, mem_between, mem_pure, Prod.mk.injEq]
  constructor
  · rintro ⟨plus, _, ⟨rfl, hplus⟩, country, _, ⟨rfl, hcountry⟩, number, _, ⟨rfl, hnumber⟩,
      rfl, rfl⟩
    exact ⟨by simp [Phone.text], hplus, hcountry, hnumber⟩
  · rintro ⟨rfl, hform⟩
    exact ⟨b.plus, b.country ++ (b.number ++ t), ⟨by simp [Phone.text], hform.plus⟩, b.country,
      b.number ++ t, ⟨rfl, hform.country⟩, b.number, t, ⟨rfl, hform.number⟩, rfl, rfl⟩

theorem reads_nationalId :
    (nationalIdRegex cls).Reads NationalId.text (NationalId.Form cls) := by
  intro s b t
  simp only [nationalIdRegex, mem_bind, mem_between, mem_pure, Prod.mk.injEq]
  constructor
  · rintro ⟨start, _, ⟨rfl, hstart⟩, gap, _, ⟨rfl, hgap⟩, middle, _, ⟨rfl, hmiddle⟩, gap', _,
      ⟨rfl, hgap'⟩, suffix, _, ⟨rfl, hsuffix⟩, rfl, rfl⟩
    exact ⟨by simp [NationalId.text], hstart, hgap, hmiddle, hgap', hsuffix⟩
  · rintro ⟨rfl, hform⟩
    exact ⟨b.start, b.gap ++ (b.middle ++ (b.gap' ++ (b.suffix ++ t))),
      ⟨by simp [NationalId.text], hform.start⟩, b.gap, b.middle ++ (b.gap' ++ (b.suffix ++ t)),
      ⟨rfl, hform.gap⟩, b.middle, b.gap' ++ (b.suffix ++ t), ⟨rfl, hform.middle⟩, b.gap',
      b.suffix ++ t, ⟨rfl, hform.gap'⟩, b.suffix, t, ⟨rfl, hform.suffix⟩, rfl, rfl⟩

theorem text_ne_nil_passport (b : Passport) (h : b.Form cls) : b.text ≠ [] :=
  List.append_ne_nil_of_left_ne_nil (List.length_pos_iff.mp h.letter.2.1) _

theorem text_ne_nil_email (b : Email) (h : b.Form) : b.text ≠ [] :=
  List.append_ne_nil_of_left_ne_nil h.user.1 _

theorem text_ne_nil_phone (b : Phone) (h : b.Form cls) : b.text ≠ [] :=
  List.append_ne_nil_of_right_ne_nil _
    (List.append_ne_nil_of_left_ne_nil (List.length_pos_iff.mp h.country.2.1) _)

theorem text_ne_nil_nationalId (b : NationalId) (h : b.Form cls) : b.text ≠ [] :=
  List.append_ne_nil_of_left_ne_nil
    (List.length_pos_iff.mp (lt_of_lt_of_le (by norm_num) h.start.2.1)) _

end Patterns

/-! ### The passes -/

section Passes

variable (cls : CharClasses)

def passports : Finder Char Passport :=
  (passportRegex cls).capturing reads_passport text_ne_nil_passport

def emails : Finder Char Email := emailRegex.capturing reads_email text_ne_nil_email

def phones : Finder Char Phone := (phoneRegex cls).capturing reads_phone text_ne_nil_phone

def nationalIds : Finder Char NationalId :=
  (nationalIdRegex cls).capturing reads_nationalId text_ne_nil_nationalId

namespace PiiMaskingEngine

variable (engine : PiiMaskingEngine)

/-- The mask character of a field, with the default configuration where it has none. -/
def maskCharOf (field : PiiField) : Char := ((engine.configs field).getD default).maskChar

def maskPassportPatterns (text : List Char) : List Char :=
  (passports cls).replaceAll (fun caps => caps.letter ++
    .replicate (byteLen caps.digits) (engine.maskCharOf .passportNumber)) text

def maskEmailPatterns (text : List Char) : List Char :=
  emails.replaceAll (fun caps =>
    if caps.user.isEmpty then ['*', '*', '*', '@']
    else caps.user.take 1 ++ ['*', '*', '*', '@'] ++ caps.domain) text

def maskPhonePatterns (text : List Char) : List Char :=
  (phones cls).replaceAll (fun caps => caps.plus ++ caps.country ++
    .replicate (byteLen caps.number) (engine.maskCharOf .phoneNumber)) text

def maskNationalIdPatterns (text : List Char) : List Char :=
  (nationalIds cls).replaceAll (fun caps => caps.start ++ ['-'] ++
    .replicate (byteLen caps.middle) '*' ++ ['-'] ++ caps.suffix) text

/-- What the last pass of `mask_pii_in_text` reads. -/
def beforeNationalIds (text : List Char) : List Char :=
  engine.maskPhonePatterns cls (maskEmailPatterns (engine.maskPassportPatterns cls text))

def maskPiiInText (text : List Char) : List Char :=
  maskNationalIdPatterns cls (engine.beforeNationalIds cls text)

end PiiMaskingEngine

/-- None of the four patterns has a match. -/
structure Clean (text : List Char) : Prop where
  passport : (passportRegex cls).search text = none
  email : emailRegex.search text = none
  phone : (phoneRegex cls).search text = none
  nationalId : (nationalIdRegex cls).search text = none

/-- The passes as coverings. -/
def passportCover : Cover Char Passport where
  mark := '*'
  before := []
  after := []
  front := Passport.letter
  marks b := byteLen b.digits
  back _ := []

def emailCover : Cover Char Email where
  mark := '*'
  before := []
  after := []
  front b := b.user.take 1
  marks _ := 3
  back b := '@' :: b.domain

def phoneCover : Cover Char Phone where
  mark := '*'
  before := []
  after := []
  front b := b.plus ++ b.country
  marks b := byteLen b.number
  back _ := []

def nationalIdCover : Cover Char NationalId where
  mark := '*'
  before := ['-']
  after := ['-']
  front := NationalId.start
  marks b := byteLen b.middle
  back := NationalId.suffix

/-- What the pass for passports keeps of a text: its pieces between their digits. -/
def passportPieces (text : List Char) : List (List Char) :=
  passportCover.stretches (passports cls) text

/-- What is left of these between the users of the addresses in them. -/
def addressPieces (text : List Char) : List (List Char) :=
  (passportPieces cls text).flatMap (emailCover.stretches emails)

/-- What is left of these between the phone numbers in them. -/
def phonePieces (text : List Char) : List (List Char) :=
  (addressPieces cls text).flatMap (phoneCover.stretches (phones cls))

/-- Right behind an address that is found there is an `@` and another domain, which is not
the user of a further address, and no phone number and no id is in it. -/
def DomainBehind (text : List Char) : Prop :=
  ∃ s ∈ passportPieces cls text, ∃ before b host top after,
    emails.scan [] s = before ++ .hit b :: (('@' :: (host ++ '.' :: top)).map .plain ++ after) ∧
      (host ≠ [] ∧ ∀ c ∈ host, domainChar c = true) ∧
      ((∀ c ∈ top, c.isAlpha = true) ∧ 2 ≤ top.length) ∧
      (phoneRegex cls).search host = none ∧ (nationalIdRegex cls).search host = none

/-- The last digits of an id that is found begin another one, with what is kept behind. -/
def IdBehind (text : List Char) : Prop :=
  ∃ s ∈ phonePieces cls text, nationalIdCover.EndBegins (nationalIds cls) (NationalId.Form cls) s

end Passes

section Covers

variable {cls : CharClasses}

theorem fits_passport : passportCover.Fits (passports cls) (Passport.Form cls) where
  front b _ := List.prefix_append b.letter b.digits
  back b _ := List.nil_suffix
  marks b h := by
    have hle := length_le_byteLen b.digits
    have hlen := h.digits.2.1
    show 0 < byteLen b.digits
    omega

theorem fits_email : emailCover.Fits emails Email.Form where
  front b _ := (List.take_prefix 1 b.user).trans (List.prefix_append _ _)
  back b _ := List.suffix_append b.user _
  marks _ _ := Nat.succ_pos 2

theorem fits_phone : phoneCover.Fits (phones cls) (Phone.Form cls) where
  front b _ := ⟨b.number, List.append_assoc _ _ _⟩
  back b _ := List.nil_suffix
  marks b h := by
    have hle := length_le_byteLen b.number
    have hlen := h.number.2.1
    show 0 < byteLen b.number
    omega

theorem fits_nationalId : nationalIdCover.Fits (nationalIds cls) (NationalId.Form cls) where
  front b _ := List.prefix_append b.start _
  back b _ := ⟨b.start ++ (b.gap ++ (b.middle ++ b.gap')), by simp [nationalIdCover, nationalIds,
    Matcher.capturing, NationalId.text]⟩
  marks b h := by
    have hle := length_le_byteLen b.middle
    have hlen := h.middle.2.1
    show 0 < byteLen b.middle
    omega

theorem maskPassportPatterns_new (text : List Char) :
    PiiMaskingEngine.new.maskPassportPatterns cls text =
      (passports cls).replaceAll passportCover.covered text := by
  refine congrArg (fun new => (passports cls).replaceAll new text) (funext fun b => ?_)
  simp [Cover.covered, passportCover]
  exact .inr rfl

theorem maskEmailPatterns_eq (text : List Char) :
    PiiMaskingEngine.maskEmailPatterns text = emails.replaceAll emailCover.covered text := by
  refine Finder.replaceAll_congr fun b hb => ?_
  have hne := (reads_email.form_of_hit hb).user.1
  rw [if_neg (by simpa using hne)]
  simp [Cover.covered, emailCover, List.replicate_succ]

theorem maskPhonePatterns_new (text : List Char) :
    PiiMaskingEngine.new.maskPhonePatterns cls text =
      (phones cls).replaceAll phoneCover.covered text := by
  refine congrArg (fun new => (phones cls).replaceAll new text) (funext fun b => ?_)
  simp [Cover.covered, phoneCover]
  exact .inr rfl

end Covers

/-! ### The characters of a match -/

section Characters

variable {cls : CharClasses} {c : Char}

theorem notMem_of_class {p : Char → Bool} {w : List Char} (hc : p c = false)
    (hw : ∀ d ∈ w, p d = true) : c ∉ w := by
  intro hmem
  rw [hw c hmem] at hc
  cases hc

theorem userChar_of_domainChar {d : Char} (h : domainChar d = true) : userChar d = true := by
  rw [userChar, h]
  rfl

theorem userChar_of_isAlpha {d : Char} (h : d.isAlpha = true) : userChar d = true :=
  userChar_of_domainChar (by rw [domainChar, Char.isAlphanum, h]; rfl)

theorem Passport.Form.notMem {b : Passport} (h : b.Form cls) (hupper : c.isUpper = false)
    (hdigit : cls.digit c = false) : c ∉ b.text := by
  rw [Passport.text, List.mem_append, not_or]
  exact ⟨notMem_of_class hupper h.letter.1, notMem_of_class hdigit h.digits.1⟩

theorem Email.Form.notMem {b : Email} (h : b.Form) (huser : userChar c = false) (hat : c ≠ '@') :
    c ∉ b.text := by
  have hdot : c ≠ '.' := by
    rintro rfl
    revert huser
    decide
  rw [Email.text, Email.domain, List.mem_append, List.mem_cons, List.mem_append, List.mem_cons]
  rintro (hmem | rfl | hmem | rfl | hmem)
  · exact notMem_of_class huser h.user.2 hmem
  · exact hat rfl
  · exact notMem_of_class huser (fun d hd => userChar_of_domainChar (h.host.2 d hd)) hmem
  · exact hdot rfl
  · exact notMem_of_class huser (fun d hd => userChar_of_isAlpha (h.top.1 d hd)) hmem

theorem Phone.Form.notMem {b : Phone} (h : b.Form cls) (hplus : (c == '+') = false)
    (hdigit : cls.digit c = false) : c ∉ b.text := by
  rw [Phone.text, List.mem_append, List.mem_append, not_or, not_or]
  exact ⟨notMem_of_class hplus h.plus.1, notMem_of_class hdigit h.country.1,
    notMem_of_class hdigit h.number.1⟩

theorem NationalId.Form.notMem {b : NationalId} (h : b.Form cls) (hgap : gapChar c = false)
    (hdigit : cls.digit c = false) : c ∉ b.text := by
  simp only [NationalId.text, List.mem_append, not_or]
  exact ⟨notMem_of_class hdigit h.start.1, notMem_of_class hgap h.gap.1,
    notMem_of_class hdigit h.middle.1, notMem_of_class hgap h.gap'.1,
    notMem_of_class hdigit h.suffix.1⟩

theorem digit_star (cls : CharClasses) : cls.digit '*' = false := by
  rw [cls.ascii_digit '*' (by decide)]
  rfl

theorem digit_dash (cls : CharClasses) : cls.digit '-' = false := by
  rw [cls.ascii_digit '-' (by decide)]
  rfl

theorem digit_at (cls : CharClasses) : cls.digit '@' = false := by
  rw [cls.ascii_digit '@' (by decide)]
  rfl

end Characters

/-! ### What a pass leaves -/

section Left

open Cover

variable {cls : CharClasses} {text : List Char}

/-- Matches are covered with stars, and at most dashes next to them. -/
structure Masks {β : Type} (K : Cover Char β) : Prop where
  mark : K.mark = '*'
  sides : ∀ d, d ∈ K.before ∨ d ∈ K.after → d = '-'

theorem masks_passport : Masks passportCover := ⟨rfl, by rintro d (hd | hd) <;> cases hd⟩

theorem masks_email : Masks emailCover := ⟨rfl, by rintro d (hd | hd) <;> cases hd⟩

theorem masks_phone : Masks phoneCover := ⟨rfl, by rintro d (hd | hd) <;> cases hd⟩

theorem masks_nationalId : Masks nationalIdCover :=
  ⟨rfl, fun _ hd => hd.elim List.mem_singleton.mp List.mem_singleton.mp⟩

section Covered

variable {β : Type} {m : Matcher Char β} {textOf : β → List Char} {Form : β → Prop}
  {h : m.Reads textOf Form} {hne : ∀ b, Form b → textOf b ≠ []} {K : Cover Char β}

theorem passport_covered_iff (hfits : K.Fits (m.capturing h hne) Form) (hmasks : Masks K) :
    (passportRegex cls).search ((m.capturing h hne).replaceAll K.covered text) = none ↔
      ∀ s ∈ K.stretches (m.capturing h hne) text, (passportRegex cls).search s = none := by
  refine search_eq_none_iff_of_avoids reads_passport hfits (fun b hb => ?_) fun b hb d hd => ?_
  · rw [hmasks.mark]
    exact hb.notMem rfl (digit_star cls)
  · rw [hmasks.sides d hd]
    exact hb.notMem rfl (digit_dash cls)

theorem phone_covered_iff (hfits : K.Fits (m.capturing h hne) Form) (hmasks : Masks K) :
    (phoneRegex cls).search ((m.capturing h hne).replaceAll K.covered text) = none ↔
      ∀ s ∈ K.stretches (m.capturing h hne) text, (phoneRegex cls).search s = none := by
  refine search_eq_none_iff_of_avoids reads_phone hfits (fun b hb => ?_) fun b hb d hd => ?_
  · rw [hmasks.mark]
    exact hb.notMem rfl (digit_star cls)
  · rw [hmasks.sides d hd]
    exact hb.notMem rfl (digit_dash cls)

end Covered

theorem passport_passport (cls : CharClasses) (text : List Char) :
    (passportRegex cls).search (PiiMaskingEngine.new.maskPassportPatterns cls text) = none := by
  rw [maskPassportPatterns_new]
  refine (passport_covered_iff fits_passport masks_passport).mpr
    (search_stretch_self fits_passport (fun _ => rfl) fun b b' hb hb' hin => ?_)
  have hle : b'.text.length ≤ b.letter.length := hin.length_le
  have hlong := hb'.digits.2.1
  have hshort := hb.letter.2.2
  rw [Passport.text, List.length_append] at hle
  omega

theorem passport_email (h : (passportRegex cls).search text = none) :
    (passportRegex cls).search (PiiMaskingEngine.maskEmailPatterns text) = none := by
  rw [maskEmailPatterns_eq]
  exact (passport_covered_iff fits_email masks_email).mpr
    (search_stretch_of_search reads_passport fits_email h)

theorem passport_phone (h : (passportRegex cls).search text = none) :
    (passportRegex cls).search (PiiMaskingEngine.new.maskPhonePatterns cls text) = none := by
  rw [maskPhonePatterns_new]
  exact (passport_covered_iff fits_phone masks_phone).mpr
    (search_stretch_of_search reads_passport fits_phone h)

theorem passport_nationalId (h : (passportRegex cls).search text = none) :
    (passportRegex cls).search (PiiMaskingEngine.maskNationalIdPatterns cls text) = none :=
  (passport_covered_iff fits_nationalId masks_nationalId).mpr
    (search_stretch_of_search reads_passport fits_nationalId h)

theorem phone_stretch (cls : CharClasses) (text : List Char) :
    ∀ s ∈ phoneCover.stretches (phones cls) text, (phoneRegex cls).search s = none := by
  refine search_stretch_self fits_phone (fun _ => rfl) fun b b' hb hb' hin => ?_
  have hle : b'.text.length ≤ (b.plus ++ b.country).length := hin.length_le
  have hcountry := hb'.country.2.1
  have hlong := hb'.number.2.1
  have hplus := hb.plus.2.2
  have hshort := hb.country.2.2
  rw [Phone.text] at hle
  simp only [List.length_append] at hle
  omega

theorem phone_phone (cls : CharClasses) (text : List Char) :
    (phoneRegex cls).search (PiiMaskingEngine.new.maskPhonePatterns cls text) = none := by
  rw [maskPhonePatterns_new]
  exact (phone_covered_iff fits_phone masks_phone).mpr (phone_stretch cls text)

theorem phone_nationalId (h : (phoneRegex cls).search text = none) :
    (phoneRegex cls).search (PiiMaskingEngine.maskNationalIdPatterns cls text) = none :=
  (phone_covered_iff fits_nationalId masks_nationalId).mpr
    (search_stretch_of_search reads_phone fits_nationalId h)

/-- An address in front of a dash. -/
theorem Email.Form.infix_of_concat {b : Email} (h : b.Form) {s : List Char}
    (hin : b.text <:+: s ++ ['-']) : b.text <:+: s := by
  have hsplit : b.text = (b.user ++ '@' :: (b.host ++ ['.'])) ++ b.top := by
    simp [Email.text, Email.domain]
  rw [hsplit] at hin ⊢
  refine infix_of_infix_concat (List.length_pos_iff.mp ?_) ?_ hin
  · exact lt_of_lt_of_le (by norm_num) h.top.2
  · exact notMem_of_class rfl h.top.1

/-- The dashes that are put next to the marks make no address: the first is followed by
a digit. -/
theorem email_nationalId_iff (text : List Char) :
    emailRegex.search (PiiMaskingEngine.maskNationalIdPatterns cls text) = none ↔
      ∀ s ∈ nationalIdCover.stretches (nationalIds cls) text, emailRegex.search s = none := by
  refine search_eq_none_iff reads_email fits_nationalId
    (fun b hb => hb.notMem rfl (by decide)) (fun s b hb hin => ⟨b, hb, hb.infix_of_concat hin⟩) ?_
  intro b s c hb hback hc hin
  rcases List.infix_cons_iff.mp (hc.infix_of_concat hin) with hstarts | hbehind
  · -- the user begins with the dash, and goes on with the digits of the id
    obtain ⟨d, user, huser⟩ := List.exists_cons_of_ne_nil hc.user.1
    rw [Email.text, huser, List.cons_append, List.cons_prefix_cons] at hstarts
    obtain ⟨e, suffix, hsuffix⟩ := List.exists_cons_of_ne_nil
      (List.length_pos_iff.mp (lt_of_lt_of_le (by norm_num) hb.suffix.2.1) : b.suffix ≠ [])
    have hdigit : cls.digit e = true := hb.suffix.1 e (by rw [hsuffix]; exact List.mem_cons_self)
    obtain ⟨rest, hrest⟩ : e :: suffix <+: s := hsuffix ▸ hback
    have huserne : user ≠ [] := by
      rintro rfl
      obtain ⟨-, z, hz⟩ := hstarts
      rw [← hrest, List.nil_append, List.cons_append, List.cons_append] at hz
      rw [← (List.cons.inj hz).1, digit_at] at hdigit
      cases hdigit
    refine ⟨{ c with user := user }, ⟨⟨huserne, fun f hf => ?_⟩, hc.host, hc.top⟩,
      hstarts.2.isInfix⟩
    exact hc.user.2 f (by rw [huser]; exact List.mem_cons_of_mem d hf)
  · exact ⟨c, hc, hbehind⟩

/-- An id begins and ends with digits. -/
theorem NationalId.Form.infix_of_concat {b : NationalId} (h : b.Form cls) {s : List Char}
    (hin : b.text <:+: s ++ ['-']) : b.text <:+: s := by
  have hsplit : b.text = (b.start ++ (b.gap ++ (b.middle ++ b.gap'))) ++ b.suffix := by
    simp [NationalId.text]
  rw [hsplit] at hin ⊢
  refine infix_of_infix_concat (List.length_pos_iff.mp ?_) ?_ hin
  · exact lt_of_lt_of_le (by norm_num) h.suffix.2.1
  · exact notMem_of_class (digit_dash cls) h.suffix.1

theorem nationalId_nationalId_iff (text : List Char) :
    (nationalIdRegex cls).search (PiiMaskingEngine.maskNationalIdPatterns cls text) = none ↔
      ∀ s ∈ nationalIdCover.stretches (nationalIds cls) text,
        (nationalIdRegex cls).search s = none := by
  refine search_eq_none_iff reads_nationalId fits_nationalId
    (fun b hb => hb.notMem rfl (digit_star cls))
    (fun s b hb hin => ⟨b, hb, hb.infix_of_concat hin⟩) fun b s c _ _ hc hin => ⟨c, hc, ?_⟩
  refine infix_of_infix_cons (List.length_pos_iff.mp ?_) ?_ (hc.infix_of_concat hin)
  · exact lt_of_lt_of_le (by norm_num) hc.start.2.1
  · exact notMem_of_class (digit_dash cls) hc.start.1

end Left

/-! ### Separators -/

section Separators

open Matcher Cover

variable {cls : CharClasses} {c : Char} {text s t : List Char}

theorem stopsAt_email : emailRegex.StopsAt '*' :=
  (stopsAt_many1 rfl).bind fun _ => (stopsAt_literal (by decide)).bind fun _ =>
    (stopsAt_many1 rfl).bind fun _ => (stopsAt_literal (by decide)).bind fun _ =>
      (stopsAt_atLeast rfl 2).bind fun _ => stopsAt_pure _

theorem stopsAt_phone (hplus : (c == '+') = false) (hdigit : cls.digit c = false) :
    (phoneRegex cls).StopsAt c :=
  (stopsAt_between (p := (· == '+')) hplus 0 1).bind fun _ =>
    (stopsAt_between hdigit 1 3).bind fun _ =>
      (stopsAt_between hdigit 7 12).bind fun _ => stopsAt_pure _

theorem stopsAt_nationalId (hgap : gapChar c = false) (hdigit : cls.digit c = false) :
    (nationalIdRegex cls).StopsAt c :=
  (stopsAt_between hdigit 3 6).bind fun _ => (stopsAt_between hgap 0 1).bind fun _ =>
    (stopsAt_between hdigit 4 8).bind fun _ => (stopsAt_between hgap 0 1).bind fun _ =>
      (stopsAt_between hdigit 3 5).bind fun _ => stopsAt_pure _

/-- The passes for phone numbers and ids. -/
def maskNumbers (cls : CharClasses) (text : List Char) : List Char :=
  PiiMaskingEngine.maskNationalIdPatterns cls ((phones cls).replaceAll phoneCover.covered text)

theorem maskNumbers_append_cons (hplus : (c == '+') = false) (hgap : gapChar c = false)
    (hdigit : cls.digit c = false) (s t : List Char) :
    maskNumbers cls (s ++ c :: t) = maskNumbers cls s ++ c :: maskNumbers cls t := by
  unfold maskNumbers phones
  rw [Matcher.replaceAll_append_cons reads_phone (stopsAt_phone hplus hdigit)]
  exact Matcher.replaceAll_append_cons reads_nationalId (stopsAt_nationalId hgap hdigit) _ _

theorem maskNumbers_eq (hphone : (phoneRegex cls).search s = none)
    (hid : (nationalIdRegex cls).search s = none) : maskNumbers cls s = s := by
  have hphones : (phones cls).replaceAll phoneCover.covered s = s :=
    reads_phone.replaceAll_of_search hphone
  rw [maskNumbers, hphones]
  exact reads_nationalId.replaceAll_of_search hid

theorem separators_of_isAlpha (h : c.isAlpha = true) :
    (c == '+') = false ∧ gapChar c = false ∧ cls.digit c = false := by
  have hrange := range_of_isAlpha h
  have hspace : isWhitespace c = false := not_space_of_range (by omega)
  have hne : ∀ d : Char, d.toNat < 65 → (c == d) = false := by
    intro d hd
    rw [beq_eq_false_iff_ne]
    rintro rfl
    omega
  refine ⟨hne '+' (by decide), ?_, ?_⟩
  · rw [gapChar, hspace, hne '-' (by decide)]
    rfl
  · rw [cls.ascii_digit c (by omega), ← Bool.not_eq_true]
    intro hdigit
    have hdigits := range_of_isDigit hdigit
    omega

/-- What is asked of the result is asked of the pieces of the text. -/
theorem separates_maskNumbers {Q : List Char → Prop} (hQ : Separates '*' Q) :
    Separates '*' fun s => Q (maskNumbers cls s) := by
  have hids : Separates '*' fun s => Q ((nationalIds cls).replaceAll nationalIdCover.covered s) :=
    hQ.comp (stopsAt_nationalId rfl (digit_star cls)) nationalIdCover.covered
  exact hids.comp (stopsAt_phone rfl (digit_star cls)) phoneCover.covered

theorem maskPiiInText_passes (text : List Char) : PiiMaskingEngine.new.maskPiiInText cls text =
    maskNumbers cls (emails.replaceAll emailCover.covered
      ((passports cls).replaceAll passportCover.covered text)) := by
  rw [PiiMaskingEngine.maskPiiInText, PiiMaskingEngine.beforeNationalIds, maskPhonePatterns_new,
    maskEmailPatterns_eq, maskPassportPatterns_new]
  rfl

theorem maskPiiInText_iff {Q : List Char → Prop} (hQ : Separates '*' Q) (text : List Char) :
    Q (PiiMaskingEngine.new.maskPiiInText cls text) ↔
      ∀ s ∈ addressPieces cls text, Q (maskNumbers cls s) := by
  have hnumbers : Separates '*' fun s => Q (maskNumbers cls s) := separates_maskNumbers hQ
  have haddresses : Separates '*' fun s =>
      Q (maskNumbers cls (emails.replaceAll emailCover.covered s)) :=
    hnumbers.comp stopsAt_email emailCover.covered
  rw [maskPiiInText_passes, addressPieces, List.forall_mem_flatMap]
  refine (haddresses.replaceAll_iff rfl rfl fits_passport).trans ?_
  exact forall₂_congr fun s _ => hnumbers.replaceAll_iff rfl rfl fits_email

end Separators

/-! ### What the ends bring -/

section Ends

open Matcher Cover

variable {cls : CharClasses} {text s t : List Char}

theorem short_email (b b' : Email) (_ : b.Form) (h' : b'.Form) :
    ¬b'.text <:+: emailCover.front b := by
  intro hin
  have hle : b'.text.length ≤ (b.user.take 1).length := hin.length_le
  have hhost := List.length_pos_iff.mpr h'.host.1
  rw [Email.text, Email.domain] at hle
  simp only [List.length_append, List.length_cons, List.length_take] at hle
  omega

theorem short_nationalId (b b' : NationalId) (h : b.Form cls) (h' : b'.Form cls) :
    ¬b'.text <:+: nationalIdCover.front b := by
  intro hin
  have hle : b'.text.length ≤ b.start.length := hin.length_le
  have hlong := h'.middle.2.1
  have hstart := h'.start.2.1
  have hshort := h.start.2.2
  rw [NationalId.text] at hle
  simp only [List.length_append] at hle
  omega

/-- Ids are left exactly where the end of one begins another. -/
theorem nationalId_none_iff (text : List Char) :
    (nationalIdRegex cls).search (PiiMaskingEngine.new.maskPiiInText cls text) = none ↔
      ¬IdBehind cls text := by
  have hid : Separates '*' fun s => (nationalIdRegex cls).search s = none :=
    separates_search (fun b hb => hb.notMem rfl (digit_star cls)) text_ne_nil_nationalId
      reads_nationalId
  have hids : Separates '*' fun s => (nationalIdRegex cls).search
      ((nationalIds cls).replaceAll nationalIdCover.covered s) = none :=
    hid.comp (stopsAt_nationalId rfl (digit_star cls)) nationalIdCover.covered
  rw [maskPiiInText_iff hid, IdBehind, phonePieces]
  simp only [not_exists, not_and, List.forall_mem_flatMap]
  refine forall₂_congr fun s _ => (hids.replaceAll_iff rfl rfl fits_phone).trans ?_
  refine forall₂_congr fun t _ => (nationalId_nationalId_iff t).trans ?_
  exact search_stretch_iff_not_endBegins fits_nationalId short_nationalId

theorem form_of_scan {ps ps' : List (Chunk Char Email)} {b : Email} {left s : List Char}
    (h : emails.scan left s = ps ++ .hit b :: ps') : b.Form := by
  have hmem : Chunk.hit b ∈ emails.scan left s := by
    rw [h]
    exact List.mem_append_right _ List.mem_cons_self
  exact reads_email.form_of_hit hmem

/-- What is in front of an address is no part of a user. -/
theorem userChar_before_hit {ps ps' : List (Chunk Char Email)} {d : Char} {b : Email}
    {left rest : List Char} (h : emails.scan left rest = ps ++ .plain d :: .hit b :: ps') :
    userChar d = false := by
  obtain ⟨t, -, ht⟩ := Finder.scan_append h
  rcases Finder.scan_cons_cases ht with ⟨d', t', heq, rfl, hfind, hbehind⟩ | ⟨_, _, heq, -⟩
  · cases heq
    rcases Finder.scan_cons_cases hbehind with ⟨_, _, heq, -⟩ | ⟨b', t', heq, rfl, hfind', -⟩
    · cases heq
    · cases heq
      rw [← Bool.not_eq_true]
      intro hd
      have hform : b.Form := reads_email.form_of_find hfind'
      have hlonger : ({ b with user := d :: b.user } : Email).Form :=
        ⟨⟨List.cons_ne_nil _ _, List.forall_mem_cons.mpr ⟨hd, hform.user.2⟩⟩, hform.host, hform.top⟩
      have hfound : emails.find ((emails.textOf ps).reverse ++ left)
        (({ b with user := d :: b.user } : Email).text ++ t') ≠ none :=
        reads_email.find_ne_none hlonger
      exact hfound hfind
  · cases heq

theorem Email.Form.at_notMem_domain {b : Email} (hb : b.Form) : '@' ∉ b.domain := by
  rw [Email.domain, List.mem_append, List.mem_cons]
  rintro (hin | hin | hin)
  · cases hb.host.2 _ hin
  · cases hin
  · cases hb.top.1 _ hin

/-- An address does not begin with the `@`. -/
theorem Email.Form.not_prefix_at {c : Email} (hc : c.Form) (s : List Char) :
    ¬c.text <+: '@' :: s := by
  intro hstarts
  obtain ⟨d, user, huser⟩ := List.exists_cons_of_ne_nil hc.user.1
  rw [Email.text, huser, List.cons_append, List.cons_prefix_cons] at hstarts
  have hchar := hc.user.2 d (by rw [huser]; exact List.mem_cons_self)
  rw [hstarts.1] at hchar
  cases hchar

theorem Email.Form.top_ends {c : Email} (hc : c.Form) :
    ∃ top d f, c.top = top ++ [d, f] := by
  obtain ⟨top, hsuffix⟩ := List.drop_suffix (c.top.length - 2) c.top
  have hlength : (c.top.drop (c.top.length - 2)).length = 2 := by
    have hlong := hc.top.2
    rw [List.length_drop]
    omega
  obtain ⟨d, f, hpair⟩ := List.length_eq_two.mp hlength
  exact ⟨top, d, f, by rw [← hpair, hsuffix]⟩

theorem domain_of_end {b c : Email} {y left rest : List Char} (hb : b.Form) (hc : c.Form)
    (hback : y <:+ emailCover.back b) (hne : y ≠ [])
    (hstarts : c.text <+: y ++ emailCover.ahead (emails.scan left rest)) :
    ∃ after, emails.scan left rest = ('@' :: c.domain).map .plain ++ after := by
  have hat : '@' ∉ y := by
    rcases List.suffix_cons_iff.mp hback with rfl | hdomain
    · exact absurd hstarts (hc.not_prefix_at _)
    · exact fun hmem => hb.at_notMem_domain (hdomain.subset hmem)
  obtain ⟨z, hz⟩ := hstarts
  rw [Email.text, List.append_assoc, List.cons_append] at hz
  have hahead : emailCover.ahead (emails.scan left rest) = ('@' :: c.domain) ++ z := by
    rcases List.append_eq_append_iff.mp hz with ⟨u, rfl, hu⟩ | ⟨u, huser, hu⟩
    · cases u with
      | nil => exact hu.symm
      | cons d u =>
          obtain ⟨rfl, -⟩ := List.cons.inj hu
          exact absurd (List.mem_append_right _ List.mem_cons_self) hat
    · cases u with
      | nil => exact hu
      | cons d u =>
          -- the search would have begun an address behind the one that it found
          let longer : Email := { c with user := d :: u }
          have hlonger : longer.Form := by
            refine ⟨⟨List.cons_ne_nil d u, fun e he => ?_⟩, hc.host, hc.top⟩
            exact hc.user.2 e (by rw [huser]; exact List.mem_append_right _ he)
          have hin : longer.text <:+: emailCover.ahead (emails.scan left rest) := by
            rw [hu]
            exact ⟨[], z, by simp [longer, Email.text]; rfl⟩
          exact absurd hin (not_infix_ahead_scan fits_email short_email hlonger left rest)
  rcases ahead_eq_append hahead with hplain | ⟨w₁, w₂, b', after, hw, hw₂, hscan, hfront⟩
  · exact hplain
  · exfalso
    -- the match behind begins in the last letter, so it would have begun in the one before
    obtain ⟨e, u, huser⟩ := List.exists_cons_of_ne_nil
      (form_of_scan hscan).user.1
    have hlast : w₂ = [e] := by
      change b'.user.take 1 = w₂ ++ z at hfront
      rw [huser] at hfront
      cases w₂ with
      | nil => exact absurd rfl hw₂
      | cons f w₂ =>
          obtain ⟨rfl, hnil⟩ := List.cons.inj hfront
          rw [(List.append_eq_nil_iff.mp hnil.symm).1]
    obtain ⟨top, d, f, htop⟩ := hc.top_ends
    have hw₁ : w₁ = ('@' :: (c.host ++ '.' :: top)) ++ [d] := by
      rw [hlast, Email.domain, htop] at hw
      have hends : ('@' :: (c.host ++ '.' :: top)) ++ [d] ++ [f] = w₁ ++ [e] := by
        rw [← hw]
        simp
      exact (List.append_inj_left' hends rfl).symm
    rw [hw₁, List.map_append, List.append_assoc] at hscan
    have hd : d.isAlpha = true := hc.top.1 d (by rw [htop]; simp)
    have hnot := userChar_before_hit hscan
    rw [userChar_of_isAlpha hd] at hnot
    cases hnot

theorem separates_email : Separates '*' fun s => emailRegex.search s = none :=
  separates_search (fun b hb => hb.notMem rfl (by decide)) text_ne_nil_email reads_email

theorem email_of_domainBehind (h : DomainBehind cls text) :
    emailRegex.search (PiiMaskingEngine.new.maskPiiInText cls text) ≠ none := by
  obtain ⟨s, hs, before, b, host, top, after, hscan, hhost, htop, hphone, hid⟩ := h
  rw [Ne, maskPiiInText_iff separates_email]
  intro hnone
  have hb : b.Form := form_of_scan hscan
  obtain ⟨top₀, l, hl⟩ : ∃ top₀ l, b.top = top₀ ++ [l] := by
    rcases List.eq_nil_or_concat b.top with hnil | ⟨top₀, l, hl⟩
    · have hlong := hb.top.2
      rw [hnil] at hlong
      exact absurd hlong (by decide)
    · exact ⟨top₀, l, by rw [hl, List.concat_eq_append]⟩
  obtain ⟨a₁, a₂, top', rfl⟩ : ∃ a₁ a₂ top', top = a₁ :: a₂ :: top' := by
    match top, htop.2 with
    | a₁ :: a₂ :: top', _ => exact ⟨a₁, a₂, top', rfl⟩
  have hletter : l.isAlpha = true := hb.top.1 l (by rw [hl]; simp)
  have ha₁ : a₁.isAlpha = true := htop.1 a₁ List.mem_cons_self
  have ha₂ : a₂.isAlpha = true := htop.1 a₂ (by simp)
  have hkept : ('@' :: (b.host ++ '.' :: top₀)) ++ l :: ([] ++ '@' :: (host ++ '.' ::
      ([] ++ a₁ :: ([] ++ a₂ :: (top' ++ emailCover.ahead after))))) ∈ addressPieces cls text := by
    refine List.mem_flatMap.mpr ⟨s, hs, mem_stretchesFrom.mpr (.inr ⟨before, b, _, hscan, ?_⟩)⟩
    rw [ahead_map_plain_append]
    simp [emailCover, Email.domain, hl]
  have hmasked := hnone _ hkept
  have hat : ('@' == '+') = false ∧ gapChar '@' = false ∧ cls.digit '@' = false :=
    ⟨rfl, rfl, digit_at cls⟩
  have hdot : ('.' == '+') = false ∧ gapChar '.' = false ∧ cls.digit '.' = false := by
    refine ⟨rfl, rfl, ?_⟩
    rw [cls.ascii_digit '.' (by decide)]
    rfl
  have hcut : ∀ c : Char, (c == '+') = false ∧ gapChar c = false ∧ cls.digit c = false →
      ∀ s t, maskNumbers cls (s ++ c :: t) = maskNumbers cls s ++ c :: maskNumbers cls t :=
    fun c hc => maskNumbers_append_cons hc.1 hc.2.1 hc.2.2
  have hnil : maskNumbers cls [] = [] := rfl
  rw [hcut l (separators_of_isAlpha hletter), hcut '@' hat, hcut '.' hdot,
    hcut a₁ (separators_of_isAlpha ha₁), hcut a₂ (separators_of_isAlpha ha₂), hnil,
    maskNumbers_eq hphone hid] at hmasked
  refine reads_email.search_eq_none_iff.mp hmasked ⟨[l], host, [a₁, a₂]⟩
    ⟨⟨List.cons_ne_nil l [], ?_⟩, hhost, ?_, le_rfl⟩ ?_
  · exact List.forall_mem_singleton.mpr (userChar_of_isAlpha hletter)
  · exact List.forall_mem_cons.mpr ⟨ha₁, List.forall_mem_singleton.mpr ha₂⟩
  · refine ⟨maskNumbers cls ('@' :: (b.host ++ '.' :: top₀)),
      maskNumbers cls (top' ++ emailCover.ahead after), ?_⟩
    simp [Email.text, Email.domain]

theorem domainBehind_of_email (hids : ¬IdBehind cls text)
    (h : emailRegex.search (PiiMaskingEngine.new.maskPiiInText cls text) ≠ none) :
    DomainBehind cls text := by
  by_contra hdomain
  refine h ((maskPiiInText_iff separates_email text).mpr fun s hs => ?_)
  have hafter : Separates '*' fun s => emailRegex.search
      ((nationalIds cls).replaceAll nationalIdCover.covered s) = none :=
    separates_email.comp (stopsAt_nationalId rfl (digit_star cls)) nationalIdCover.covered
  refine (hafter.replaceAll_iff rfl rfl fits_phone).mpr fun t ht => ?_
  refine (email_nationalId_iff t).mpr fun u hu => reads_email.search_eq_none_iff.mpr
    fun c hc hin => hdomain ?_
  have hut : u <:+: t := infix_of_mem_stretches_capturing fits_nationalId hu
  have hts : t <:+: s := infix_of_mem_stretches_capturing fits_phone ht
  have hhost : c.host <:+: u := by
    refine List.IsInfix.trans ⟨c.user ++ ['@'], '.' :: c.top, ?_⟩ hin
    simp [Email.text, Email.domain]
  have hends : ¬nationalIdCover.EndBegins (nationalIds cls) (NationalId.Form cls) t :=
    fun hends => hids ⟨t, List.mem_flatMap.mpr ⟨s, hs, ht⟩, hends⟩
  have hid := (search_stretch_iff_not_endBegins fits_nationalId short_nationalId).mpr hends u hu
  have hphone := phone_stretch cls s t ht
  obtain ⟨r, hr, hs⟩ := List.mem_flatMap.mp hs
  obtain ⟨before, b, left, rest, hscan, y, hy, hback, hstarts⟩ :=
    exists_end_of_infix fits_email short_email hs hc (hin.trans (hut.trans hts))
  have hb : b.Form := form_of_scan hscan
  obtain ⟨after, hafter⟩ := domain_of_end hb hc hback hy hstarts
  refine ⟨r, hr, before, b, c.host, c.top, after, ?_, hc.host, hc.top, ?_, ?_⟩
  · exact hscan.trans (congrArg (before ++ .hit b :: ·) hafter)
  · exact reads_phone.search_of_infix hphone (hhost.trans hut)
  · exact reads_nationalId.search_of_infix hid hhost

end Ends

/-! ### The result -/

section Result

variable {cls : CharClasses} {text : List Char}

theorem Clean.maskPiiInText_eq (h : Clean cls text) :
    PiiMaskingEngine.new.maskPiiInText cls text = text := by
  have hpassport : PiiMaskingEngine.new.maskPassportPatterns cls text = text :=
    reads_passport.replaceAll_of_search h.passport
  have hemail : PiiMaskingEngine.maskEmailPatterns text = text :=
    reads_email.replaceAll_of_search h.email
  have hphone : PiiMaskingEngine.new.maskPhonePatterns cls text = text :=
    reads_phone.replaceAll_of_search h.phone
  rw [PiiMaskingEngine.maskPiiInText, PiiMaskingEngine.beforeNationalIds, hpassport, hemail,
    hphone]
  exact reads_nationalId.replaceAll_of_search h.nationalId

/-- The text is clean after one call, and a second one leaves it as it is, exactly if it has
no domain behind an address and no id whose end begins another. -/
theorem maskPiiInText_clean_iff (cls : CharClasses) (text : List Char) :
    (Clean cls (PiiMaskingEngine.new.maskPiiInText cls text) ∧
        PiiMaskingEngine.new.maskPiiInText cls (PiiMaskingEngine.new.maskPiiInText cls text) =
          PiiMaskingEngine.new.maskPiiInText cls text) ↔
      ¬DomainBehind cls text ∧ ¬IdBehind cls text := by
  have hpassport := passport_phone (passport_email (passport_passport cls text))
  have hphone := phone_phone cls
    (PiiMaskingEngine.maskEmailPatterns (PiiMaskingEngine.new.maskPassportPatterns cls text))
  constructor
  · rintro ⟨hclean, -⟩
    exact ⟨fun hdomain => email_of_domainBehind hdomain hclean.email,
      (nationalId_none_iff text).mp hclean.nationalId⟩
  · rintro ⟨hdomain, hids⟩
    have hclean : Clean cls (PiiMaskingEngine.new.maskPiiInText cls text) :=
      { passport := passport_nationalId hpassport
        email := not_not.mp fun h => hdomain (domainBehind_of_email hids h)
        phone := phone_nationalId hphone
        nationalId := (nationalId_none_iff text).mpr hids }
    exact ⟨hclean, hclean.maskPiiInText_eq⟩

/-- The end of an id is the beginning of another. -/
example : PiiMaskingEngine.new.maskPiiInText asciiClasses "123-45678-901-2345-678".toList =
    "123-*****-901-2345-678".toList := by decide

/-- The domain of an address is the user of another. -/
theorem not_clean_address_behind_address :
    ¬∀ (cls : CharClasses) (text : List Char),
      Clean cls (PiiMaskingEngine.new.maskPiiInText cls text) ∧
        PiiMaskingEngine.new.maskPiiInText cls (PiiMaskingEngine.new.maskPiiInText cls text) =
          PiiMaskingEngine.new.maskPiiInText cls text := by
  intro h
  have hemail := (h asciiClasses "a@b.com@c.com".toList).1.email
  have hmasked : PiiMaskingEngine.new.maskPiiInText asciiClasses "a@b.com@c.com".toList =
      "a***@b.com@c.com".toList := by decide
  rw [hmasked] at hemail
  revert hemail
  decide

end Result

end SereinGateway.Security
