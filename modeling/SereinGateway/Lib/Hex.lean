import Mathlib.Data.List.Basic
import Mathlib.Data.Nat.Notation
import Mathlib.Tactic
import SereinGateway.Lib.Text

/-!
Texts as bytes, and bytes as hexadecimal texts.

`hexDecode` reads what `hexEncode` writes (`hexDecode_hexEncode`), and it accepts
the byte strings of even length that are made of digits (`hexDecode_isOk_iff`);
what it reads has half the length.
-/

namespace SereinGateway.Lib

/-! ### UTF-8 -/

/-- `str::as_bytes`. -/
def utf8Bytes (s : String) : List UInt8 := s.toList.flatMap String.utf8EncodeChar

/-- `str::from_utf8`, without its error. -/
def fromUtf8 (bytes : List UInt8) : Option String := String.fromUTF8? bytes.toByteArray

theorem toByteArray_utf8Bytes (s : String) : (utf8Bytes s).toByteArray = s.toByteArray :=
  String.utf8Encode_toList

theorem fromUtf8_utf8Bytes (s : String) : fromUtf8 (utf8Bytes s) = some s := by
  have hvalid : s.toByteArray.IsValidUTF8 := s.isValidUTF8
  rw [fromUtf8, toByteArray_utf8Bytes, String.fromUTF8?, dif_pos hvalid]
  rfl

theorem utf8Bytes_of_fromUtf8 {bytes : List UInt8} {s : String} (h : fromUtf8 bytes = some s) :
    utf8Bytes s = bytes := by
  rw [fromUtf8, String.fromUTF8?] at h
  split at h
  · rw [Option.some.injEq] at h
    have hbytes : (utf8Bytes s).toByteArray = bytes.toByteArray := by
      rw [toByteArray_utf8Bytes, ← h]
      rfl
    rw [← List.toList_data_toByteArray (l := utf8Bytes s), hbytes, List.toList_data_toByteArray]
  · cases h

theorem utf8EncodeChar_ascii {c : Char} (h : c.toNat < 128) :
    String.utf8EncodeChar c = [UInt8.ofNat c.toNat] := by
  have hle : c.val.toNat ≤ 0x7f := Nat.le_of_lt_succ h
  rw [String.utf8EncodeChar]
  exact if_pos hle

theorem utf8Bytes_ascii {s : String} (h : ∀ c ∈ s.toList, c.toNat < 128) :
    utf8Bytes s = s.toList.map fun c => UInt8.ofNat c.toNat := by
  rw [utf8Bytes, List.flatMap_congr fun c hc => utf8EncodeChar_ascii (h c hc),
    List.map_eq_flatMap]

/-! ### Hexadecimal digits -/

inductive FromHexError where
  | invalidHexCharacter (c : Char) (index : ℕ)
  | oddLength
  deriving DecidableEq, Repr

/-- `Display`; the text of a character in an error is given. -/
def FromHexError.display (debug : Char → String) : FromHexError → String
  | .invalidHexCharacter c index =>
      "Invalid character " ++ debug c ++ " at position " ++ toString index
  | .oddLength => "Odd number of digits"

def hexVal (b : UInt8) : Option ℕ :=
  if 65 ≤ b ∧ b ≤ 70 then some (b.toNat - 65 + 10)
  else if 97 ≤ b ∧ b ≤ 102 then some (b.toNat - 97 + 10)
  else if 48 ≤ b ∧ b ≤ 57 then some (b.toNat - 48)
  else none

/-- The bytes of the digits, the first of which is at `index`. -/
def decodePairs (index : ℕ) : List UInt8 → Except FromHexError (List UInt8)
  | a :: b :: rest =>
      match hexVal a with
      | none => .error (.invalidHexCharacter (Char.ofNat a.toNat) index)
      | some hi =>
          match hexVal b with
          | none => .error (.invalidHexCharacter (Char.ofNat b.toNat) (index + 1))
          | some lo =>
              match decodePairs (index + 2) rest with
              | .error e => .error e
              | .ok bytes => .ok (UInt8.ofNat (hi * 16 + lo) :: bytes)
  | _ => .ok []

def hexDecode (digits : List UInt8) : Except FromHexError (List UInt8) :=
  if digits.length % 2 = 0 then decodePairs 0 digits else .error .oddLength

theorem hexVal_hexDigit {n : ℕ} (h : n < 16) :
    hexVal (UInt8.ofNat (hexDigit n).toNat) = some n := by
  have hall : ∀ n < 16, hexVal (UInt8.ofNat (hexDigit n).toNat) = some n := by decide +kernel
  exact hall n h

theorem ascii_hexEncode {bytes : List UInt8} {c : Char} (h : c ∈ (hexEncode bytes).toList) :
    c.toNat < 128 := by
  obtain ⟨n, rfl⟩ := mem_hexEncode h
  have hall : ∀ d ∈ ['0', '1', '2', '3', '4', '5', '6', '7', '8', '9', 'a', 'b', 'c', 'd', 'e',
      'f'], d.toNat < 128 := by simp
  exact hall _ (hexDigit_mem n)

theorem length_utf8Bytes_hexEncode (bytes : List UInt8) :
    (utf8Bytes (hexEncode bytes)).length = 2 * bytes.length := by
  rw [utf8Bytes_ascii fun c hc => ascii_hexEncode hc, List.length_map, length_hexEncode]

theorem decodePairs_hexEncode (bytes : List UInt8) (index : ℕ) :
    decodePairs index (utf8Bytes (hexEncode bytes)) = .ok bytes := by
  rw [utf8Bytes_ascii fun c hc => ascii_hexEncode hc]
  induction bytes generalizing index with
  | nil => rfl
  | cons b bytes ih =>
      have hb := b.toNat_lt
      rw [toList_hexEncode_cons, List.map_cons, List.map_cons, decodePairs,
        hexVal_hexDigit (by omega), hexVal_hexDigit (by omega), ih]
      have hbyte : UInt8.ofNat (b.toNat / 16 * 16 + b.toNat % 16) = b := by
        rw [Nat.div_add_mod', UInt8.ofNat_toNat]
      dsimp only
      rw [hbyte]

theorem hexDecode_hexEncode (bytes : List UInt8) :
    hexDecode (utf8Bytes (hexEncode bytes)) = .ok bytes := by
  rw [hexDecode, length_utf8Bytes_hexEncode, if_pos (Nat.mul_mod_right 2 _),
    decodePairs_hexEncode]

theorem decodePairs_ok {digits bytes : List UInt8} {index : ℕ}
    (h : decodePairs index digits = .ok bytes) : bytes.length = digits.length / 2 := by
  induction bytes generalizing index digits with
  | nil =>
      unfold decodePairs at h
      split at h
      · split at h
        · cases h
        · split at h
          · cases h
          · split at h <;> cases h
      · rename_i hshort
        rcases digits with _ | ⟨a, _ | ⟨b, rest⟩⟩
        · rfl
        · simp
        · exact absurd rfl (hshort a b rest)
  | cons byte bytes ih =>
      unfold decodePairs at h
      split at h
      · split at h
        · cases h
        · split at h
          · cases h
          · split at h
            · cases h
            · rename_i hrest
              cases h
              rw [List.length_cons, ih hrest, List.length_cons, List.length_cons]
              omega
      · cases h

theorem decodePairs_isOk_iff (index : ℕ) {digits : List UInt8} (heven : digits.length % 2 = 0) :
    (∃ bytes, decodePairs index digits = .ok bytes) ↔
      ∀ d ∈ digits, (hexVal d).isSome = true := by
  induction digits using List.twoStepInduction generalizing index with
  | nil => exact iff_of_true ⟨[], rfl⟩ nofun
  | singleton a => simp at heven
  | cons_cons a b rest ih _ =>
      have hrest : rest.length % 2 = 0 := by
        rw [List.length_cons, List.length_cons] at heven
        omega
      have hih := ih (index + 2) hrest
      rw [List.forall_mem_cons, List.forall_mem_cons, ← hih, decodePairs]
      cases ha : hexVal a with
      | none => simp
      | some hi =>
          cases hb : hexVal b with
          | none => simp
          | some lo =>
              cases hdecode : decodePairs (index + 2) rest with
              | error e => simp
              | ok bytes => simp

theorem hexDecode_isOk_iff {digits : List UInt8} :
    (∃ bytes, hexDecode digits = .ok bytes) ↔
      digits.length % 2 = 0 ∧ ∀ d ∈ digits, (hexVal d).isSome = true := by
  rw [hexDecode]
  split
  · rename_i heven
    rw [decodePairs_isOk_iff 0 heven, and_iff_right heven]
  · rename_i hodd
    exact iff_of_false nofun fun h => hodd h.1

theorem length_of_hexDecode {digits bytes : List UInt8} (h : hexDecode digits = .ok bytes) :
    digits.length = 2 * bytes.length := by
  rw [hexDecode] at h
  split at h
  · rw [decodePairs_ok h]
    omega
  · cases h

end SereinGateway.Lib
