import Mathlib
import SereinGateway.CacheStorage.Truncation

/-!
`PiiMaskingEngine`: the values of fields are masked for logs.

A few characters at the beginning and at the end stay, and the rest is replaced, one
mask character for each. The length that is padded to is compared with the number of
bytes, and a field without a configuration of its own, or of `Other`, gets the default
one, which leaves a character on both sides.
-/

namespace SereinGateway.Security

open SereinGateway.CacheStorage

inductive PiiField where
  | passportNumber
  | apiKey
  | nationalId
  | fullName
  | dateOfBirth
  | phoneNumber
  | email
  | address
  | financialAccount
  | other
  deriving DecidableEq

/-- The sum of the visible parts is that of the source as long as it does not overflow. -/
structure PiiMaskConfig where
  visiblePrefix : ℕ
  visibleSuffix : ℕ
  maskChar : Char
  minOutputLength : ℕ

namespace PiiMaskConfig

/-- `PiiMaskConfig::default()` -/
instance : Inhabited PiiMaskConfig := ⟨⟨1, 1, '*', 4⟩⟩

def passport : PiiMaskConfig := ⟨1, 1, '*', 6⟩

def apiKey : PiiMaskConfig := ⟨2, 2, '*', 6⟩

def nationalId : PiiMaskConfig := ⟨1, 2, '*', 6⟩

def fullName : PiiMaskConfig := ⟨1, 0, '*', 3⟩

def fullRedaction : PiiMaskConfig := ⟨0, 0, '*', 4⟩

end PiiMaskConfig

structure PiiMaskingEngine where
  configs : PiiField → Option PiiMaskConfig

namespace PiiMaskingEngine

def defaultConfigs : PiiField → Option PiiMaskConfig
  | .passportNumber => some .passport
  | .apiKey => some .apiKey
  | .nationalId => some .nationalId
  | .fullName => some .fullName
  | .dateOfBirth => some .fullRedaction
  | .phoneNumber => some default
  | .email => some default
  | .address => some .fullRedaction
  | .financialAccount => some .fullRedaction
  | .other => some .fullRedaction

def new : PiiMaskingEngine := ⟨defaultConfigs⟩

variable (engine : PiiMaskingEngine) (fieldMap : List Char → Option PiiField)

/-- The configuration of a field, with the two ways to do without one. -/
def config (field : PiiField) : PiiMaskConfig :=
  ((engine.configs field).or (engine.configs .other)).getD default

def maskValue (value : List Char) (field : PiiField) : List Char :=
  let config := engine.config field
  if value.isEmpty then []
  else
    let len := value.length
    if len ≤ config.visiblePrefix + config.visibleSuffix then
      .replicate (max config.minOutputLength len) config.maskChar
    else
      let maskedLen := len - config.visiblePrefix - config.visibleSuffix
      let result := value.take config.visiblePrefix ++ .replicate maskedLen config.maskChar ++
        value.drop (len - config.visibleSuffix)
      if byteLen result < config.minOutputLength then
        result ++ .replicate (config.minOutputLength - byteLen result) config.maskChar
      else result

def fieldOf (key : List Char) : PiiField := (fieldMap key).getD .other

def maskedForm (key value : List Char) : List Char := engine.maskValue value (fieldOf fieldMap key)

/-- `mask_structured`, over the entries in the order in which the map is iterated. -/
def maskStructured (data : List (List Char × List Char)) : List (List Char × List Char) :=
  data.map fun entry => (entry.1, engine.maskedForm fieldMap entry.1 entry.2)

/-- What the masked form of a value is allowed to disclose. -/
structure DisclosesOnly (key value : List Char) : Prop where
  length : (engine.maskedForm fieldMap key value).length =
    max value.length (engine.config (fieldOf fieldMap key)).minOutputLength
  visible : ∀ value' : List Char, value'.length = value.length →
    value'.take (engine.config (fieldOf fieldMap key)).visiblePrefix =
      value.take (engine.config (fieldOf fieldMap key)).visiblePrefix →
    value'.drop (value.length - (engine.config (fieldOf fieldMap key)).visibleSuffix) =
      value.drop (value.length - (engine.config (fieldOf fieldMap key)).visibleSuffix) →
    engine.maskedForm fieldMap key value' = engine.maskedForm fieldMap key value
  redacted : fieldMap key = none → ∀ value' : List Char, value'.length = value.length →
    engine.maskedForm fieldMap key value' = engine.maskedForm fieldMap key value

end PiiMaskingEngine

def OneByte (s : List Char) : Prop := ∀ c ∈ s, c.utf8Size = 1

namespace PiiMaskConfig

def Covers (config : PiiMaskConfig) (value : List Char) : Prop :=
  value.length ≤ config.visiblePrefix + config.visibleSuffix

/-- The value is as long as the masked form has to be, or bytes are characters. -/
def LengthRight (config : PiiMaskConfig) (value : List Char) : Prop :=
  config.Covers value ∨ config.minOutputLength ≤ value.length ∨
    (OneByte (value.take config.visiblePrefix) ∧
      OneByte (value.drop (value.length - config.visibleSuffix)) ∧ config.maskChar.utf8Size = 1)

end PiiMaskConfig

/-! ### Bytes and characters -/

theorem length_le_byteLen (s : List Char) : s.length ≤ byteLen s := by
  induction s with
  | nil => exact Nat.zero_le _
  | cons c s ih =>
      have hpos := c.utf8Size_pos
      rw [byteLen_cons, List.length_cons]
      omega

theorem byteLen_eq_length_iff {s : List Char} : byteLen s = s.length ↔ OneByte s := by
  induction s with
  | nil => exact iff_of_true rfl (List.forall_mem_nil _)
  | cons c s ih =>
      have hpos := c.utf8Size_pos
      have hle := length_le_byteLen s
      rw [byteLen_cons, List.length_cons, OneByte, List.forall_mem_cons, ← OneByte, ← ih]
      omega

theorem oneByte_append {s t : List Char} : OneByte (s ++ t) ↔ OneByte s ∧ OneByte t :=
  List.forall_mem_append

theorem oneByte_replicate {n : ℕ} (hn : 0 < n) {c : Char} :
    OneByte (.replicate n c) ↔ c.utf8Size = 1 := by
  constructor
  · intro h
    exact h c (List.mem_replicate.mpr ⟨hn.ne', rfl⟩)
  · intro h d hd
    rw [List.eq_of_mem_replicate hd, h]

/-! ### One value -/

variable {engine : PiiMaskingEngine} {fieldMap : List Char → Option PiiField}
  {field : PiiField} {config : PiiMaskConfig} {key value value' : List Char}

def PiiMaskConfig.shown (config : PiiMaskConfig) (value : List Char) : List Char :=
  value.take config.visiblePrefix ++
    .replicate (value.length - config.visiblePrefix - config.visibleSuffix) config.maskChar ++
      value.drop (value.length - config.visibleSuffix)

theorem maskValue_of_covers (hne : value ≠ []) (h : (engine.config field).Covers value) :
    engine.maskValue value field =
      .replicate (max (engine.config field).minOutputLength value.length)
        (engine.config field).maskChar := by
  unfold PiiMaskingEngine.maskValue
  rw [if_neg (by simpa using hne)]
  exact if_pos h

theorem maskValue_of_not_covers (h : ¬(engine.config field).Covers value) :
    engine.maskValue value field = (engine.config field).shown value ++
      .replicate ((engine.config field).minOutputLength -
        byteLen ((engine.config field).shown value)) (engine.config field).maskChar := by
  have hne : value ≠ [] := by
    rintro rfl
    exact h (Nat.zero_le _)
  unfold PiiMaskingEngine.maskValue
  rw [if_neg (by simpa using hne)]
  refine (if_neg h).trans ?_
  change (if byteLen ((engine.config field).shown value) < _ then _ else _) = _
  split
  · rfl
  · rename_i hlong
    rw [Nat.sub_eq_zero_of_le (Nat.not_lt.mp hlong), List.replicate_zero, List.append_nil]
    rfl

theorem length_shown (h : ¬config.Covers value) : (config.shown value).length = value.length := by
  unfold PiiMaskConfig.Covers at h
  simp only [PiiMaskConfig.shown, List.length_append, List.length_take, List.length_drop,
    List.length_replicate]
  omega

theorem oneByte_shown_iff (h : ¬config.Covers value) : OneByte (config.shown value) ↔
    OneByte (value.take config.visiblePrefix) ∧
      OneByte (value.drop (value.length - config.visibleSuffix)) ∧
        config.maskChar.utf8Size = 1 := by
  unfold PiiMaskConfig.Covers at h
  rw [PiiMaskConfig.shown, oneByte_append, oneByte_append, oneByte_replicate (by omega)]
  tauto

theorem length_maskValue_iff (hne : value ≠ []) :
    (engine.maskValue value field).length =
        max value.length (engine.config field).minOutputLength ↔
      (engine.config field).LengthRight value := by
  unfold PiiMaskConfig.LengthRight
  by_cases hcovers : (engine.config field).Covers value
  · rw [maskValue_of_covers hne hcovers, List.length_replicate, max_comm]
    exact iff_of_true rfl (.inl hcovers)
  · have hlength := length_shown hcovers
    have hbytes := length_le_byteLen ((engine.config field).shown value)
    rw [or_iff_right hcovers, ← oneByte_shown_iff hcovers, ← byteLen_eq_length_iff,
      maskValue_of_not_covers hcovers, List.length_append, List.length_replicate, hlength]
    rw [hlength] at hbytes
    omega

theorem maskValue_eq_of_covers (hlength : value'.length = value.length)
    (hcovers : (engine.config field).Covers value) :
    engine.maskValue value' field = engine.maskValue value field := by
  by_cases hne : value = []
  · rw [hne] at hlength ⊢
    rw [List.eq_nil_of_length_eq_zero hlength]
  · have hne' : value' ≠ [] := by
      rintro rfl
      exact hne (List.eq_nil_of_length_eq_zero hlength.symm)
    have hcovers' : (engine.config field).Covers value' := by
      unfold PiiMaskConfig.Covers at hcovers ⊢
      rwa [hlength]
    rw [maskValue_of_covers hne hcovers, maskValue_of_covers hne' hcovers', hlength]

/-- Nothing else than the visible parts counts. -/
theorem maskValue_congr (hlength : value'.length = value.length)
    (hfirst : value'.take (engine.config field).visiblePrefix =
      value.take (engine.config field).visiblePrefix)
    (hlast : value'.drop (value.length - (engine.config field).visibleSuffix) =
      value.drop (value.length - (engine.config field).visibleSuffix)) :
    engine.maskValue value' field = engine.maskValue value field := by
  by_cases hcovers : (engine.config field).Covers value
  · exact maskValue_eq_of_covers hlength hcovers
  · have hcovers' : ¬(engine.config field).Covers value' := by
      unfold PiiMaskConfig.Covers at hcovers ⊢
      rwa [hlength]
    have hshown : (engine.config field).shown value' = (engine.config field).shown value := by
      rw [PiiMaskConfig.shown, PiiMaskConfig.shown, hlength, hfirst, hlast]
    rw [maskValue_of_not_covers hcovers, maskValue_of_not_covers hcovers', hshown]

/-- Another character. -/
def otherChar (c : Char) : Char := if c = 'a' then 'b' else 'a'

theorem otherChar_ne (c : Char) : otherChar c ≠ c := by
  unfold otherChar
  split
  · rename_i h
    rw [h]
    decide
  · rename_i h
    exact Ne.symm h

/-- A character that is shown is told apart from others. -/
theorem maskValue_set_ne {i : ℕ} (hi : i < value.length)
    (hcovers : ¬(engine.config field).Covers value)
    (hshown : ∀ v : List Char, v.length = value.length →
      ((engine.config field).shown v)[i]? = v[i]?) :
    engine.maskValue (value.set i (otherChar value[i])) field ≠ engine.maskValue value field := by
  have hcovers' : ¬(engine.config field).Covers (value.set i (otherChar value[i])) := by
    unfold PiiMaskConfig.Covers at hcovers ⊢
    rwa [List.length_set]
  rw [maskValue_of_not_covers hcovers, maskValue_of_not_covers hcovers']
  intro heq
  have hchar := congrArg (fun s : List Char => s[i]?) heq
  rw [List.getElem?_append_left (by rwa [length_shown hcovers', List.length_set]),
    List.getElem?_append_left (by rwa [length_shown hcovers]), hshown _ (List.length_set ..),
    hshown _ rfl, List.getElem?_set_self hi, List.getElem?_eq_getElem hi] at hchar
  exact otherChar_ne _ (Option.some.inj hchar)

theorem getElem?_shown_zero (hvisible : config.visiblePrefix ≠ 0) (hcovers : ¬config.Covers value) :
    (config.shown value)[0]? = value[0]? := by
  unfold PiiMaskConfig.Covers at hcovers
  rw [PiiMaskConfig.shown, List.append_assoc, List.getElem?_append_left
    (by rw [List.length_take]; omega), List.getElem?_take_of_lt (Nat.pos_of_ne_zero hvisible)]

theorem getElem?_shown_last (hvisible : config.visibleSuffix ≠ 0) (hcovers : ¬config.Covers value) :
    (config.shown value)[value.length - 1]? = value[value.length - 1]? := by
  unfold PiiMaskConfig.Covers at hcovers
  have hmasked : (value.take config.visiblePrefix ++ List.replicate (value.length -
      config.visiblePrefix - config.visibleSuffix) config.maskChar).length =
        value.length - config.visibleSuffix := by
    rw [List.length_append, List.length_take, List.length_replicate]
    omega
  rw [PiiMaskConfig.shown, List.getElem?_append_right (by rw [hmasked]; omega), hmasked,
    List.getElem?_drop]
  congr 1
  omega

/-- A value is told apart from others of its length exactly if something is shown. -/
theorem redacted_iff : (∀ value' : List Char, value'.length = value.length →
      engine.maskValue value' field = engine.maskValue value field) ↔
    (engine.config field).Covers value ∨
      (engine.config field).visiblePrefix = 0 ∧ (engine.config field).visibleSuffix = 0 := by
  by_cases hcovers : (engine.config field).Covers value
  · exact iff_of_true (fun _ hlength => maskValue_eq_of_covers hlength hcovers) (.inl hcovers)
  have hcongr : ∀ v : List Char, v.length = value.length → ¬(engine.config field).Covers v := by
    intro v hlength
    unfold PiiMaskConfig.Covers at hcovers ⊢
    rwa [hlength]
  have hpos : 0 < value.length := by
    unfold PiiMaskConfig.Covers at hcovers
    omega
  rw [or_iff_right hcovers]
  constructor
  · intro hsame
    constructor
    · by_contra hvisible
      refine maskValue_set_ne hpos hcovers (fun v hlength => ?_) (hsame _ (List.length_set ..))
      exact getElem?_shown_zero hvisible (hcongr v hlength)
    · by_contra hvisible
      refine maskValue_set_ne (Nat.sub_lt hpos Nat.one_pos) hcovers (fun v hlength => ?_)
        (hsame _ (List.length_set ..))
      have hlast := getElem?_shown_last hvisible (hcongr v hlength)
      rwa [hlength] at hlast
  · rintro ⟨hfirst, hlast⟩ value' hlength
    refine maskValue_congr hlength (by rw [hfirst, List.take_zero, List.take_zero]) ?_
    rw [hlast, Nat.sub_zero, List.drop_length, ← hlength, List.drop_length]

/-! ### The entries of a map -/

/-- The condition under which the masked form of an entry is right. -/
structure EntryRight (engine : PiiMaskingEngine) (fieldMap : List Char → Option PiiField)
    (key value : List Char) : Prop where
  lengthRight : (engine.config (PiiMaskingEngine.fieldOf fieldMap key)).LengthRight value
  redacts : fieldMap key = none → (engine.config .other).Covers value ∨
    (engine.config .other).visiblePrefix = 0 ∧ (engine.config .other).visibleSuffix = 0

theorem disclosesOnly_iff (hne : value ≠ []) :
    engine.DisclosesOnly fieldMap key value ↔ EntryRight engine fieldMap key value := by
  have hother : fieldMap key = none → PiiMaskingEngine.fieldOf fieldMap key = .other := fun h => by
    rw [PiiMaskingEngine.fieldOf, h, Option.getD_none]
  constructor
  · intro h
    refine ⟨(length_maskValue_iff hne).mp h.length, fun hnone => ?_⟩
    have hredacted := redacted_iff.mp (h.redacted hnone)
    rwa [hother hnone] at hredacted
  · intro h
    refine ⟨(length_maskValue_iff hne).mpr h.lengthRight, fun _ => maskValue_congr, fun hnone => ?_⟩
    refine redacted_iff.mpr ?_
    rw [hother hnone]
    exact h.redacts hnone

/-- Masking discloses what it should exactly if, for each entry, the length comes out
right and an entry without a field is redacted. -/
theorem maskStructured_discloses_iff (engine : PiiMaskingEngine)
    (fieldMap : List Char → Option PiiField) (data : List (List Char × List Char)) :
    (∀ entry ∈ data, entry.2 ≠ [] →
        (entry.1, engine.maskedForm fieldMap entry.1 entry.2) ∈
            engine.maskStructured fieldMap data ∧
          engine.DisclosesOnly fieldMap entry.1 entry.2) ↔
      ∀ entry ∈ data, entry.2 ≠ [] → EntryRight engine fieldMap entry.1 entry.2 := by
  refine forall_congr' fun entry => forall_congr' fun hmem => forall_congr' fun hne => ?_
  have hform : (entry.1, engine.maskedForm fieldMap entry.1 entry.2) ∈
      engine.maskStructured fieldMap data := List.mem_map.mpr ⟨entry, hmem, rfl⟩
  rw [and_iff_right hform]
  exact disclosesOnly_iff hne

/-- A phone number with a letter of two bytes comes out with three characters. -/
theorem two_byte_letter_not_padded : ¬∀ (engine : PiiMaskingEngine)
    (fieldMap : List Char → Option PiiField) (data : List (List Char × List Char)),
    ∀ entry ∈ data, entry.2 ≠ [] →
      (entry.1, engine.maskedForm fieldMap entry.1 entry.2) ∈ engine.maskStructured fieldMap data ∧
        engine.DisclosesOnly fieldMap entry.1 entry.2 := by
  intro hall
  obtain ⟨-, hentry⟩ := hall .new (fun _ => some .phoneNumber) [(['k'], ['é', '1', '2'])] _
    List.mem_cons_self (by decide)
  exact absurd hentry.length (by decide)

end SereinGateway.Security
