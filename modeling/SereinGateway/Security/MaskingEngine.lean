import Mathlib
import SereinGateway.Lib.Hex

/-!
`MaskingEngine`: what becomes of data before it is stored.

Data of the two open levels is stored as it is, masked data as the hexadecimal text of
its hash, and encrypted data as that of a fresh nonce and the ciphertext. The cipher
and the hash are parameters. What is encrypted can be decrypted, and nothing else
(`decryptData_eq_ok_iff`).
-/

namespace SereinGateway.Security

open SereinGateway.Lib

/-! ### Parameters -/

abbrev Aes256Key := Vector UInt8 32

abbrev GcmNonce := Vector UInt8 12

/-- AES-256-GCM. Encryption fails for a message that is too long; the ciphertext has a
tag of 16 bytes and can be decrypted, and what can be decrypted is a ciphertext. -/
structure Aes256Gcm where
  encrypt : Aes256Key → GcmNonce → List UInt8 → Option (List UInt8)
  decrypt : Aes256Key → GcmNonce → List UInt8 → Option (List UInt8)
  decrypt_eq_some : ∀ key nonce message ciphertext,
    decrypt key nonce ciphertext = some message ↔ encrypt key nonce message = some ciphertext
  tagged : ∀ key nonce message ciphertext, encrypt key nonce message = some ciphertext →
    ciphertext.length = message.length + 16

/-- What the engine takes from other crates. -/
structure MaskingDeps where
  aes : Aes256Gcm
  sha256 : List UInt8 → Vector UInt8 32
  /-- `{:?}` of a character, and the text of an error of `from_utf8`. -/
  debugChar : Char → String
  displayUtf8Error : List UInt8 → String

/-! ### The engine -/

inductive Sensitivity where
  | «public»
  | internal
  | piiMasked
  | piiEncrypted
  deriving DecidableEq, Repr

/-- `String::from` of a level. -/
def Sensitivity.asStr : Sensitivity → String
  | .public => "public"
  | .internal => "internal"
  | .piiMasked => "pii-masked"
  | .piiEncrypted => "pii-encrypted"

inductive MaskingError where
  | invalidSensitivityLevel (level : String)
  | encryptionError (reason : String)
  | decryptionError (reason : String)
  | keyError (reason : String)
  deriving DecidableEq, Repr

def MaskingError.display : MaskingError → String
  | .invalidSensitivityLevel level => "Invalid sensitivity level: " ++ level
  | .encryptionError reason => "Encryption failed: " ++ reason
  | .decryptionError reason => "Decryption failed: " ++ reason
  | .keyError reason => "Key management error: " ++ reason

def Sensitivity.tryFrom (value : String) : Except MaskingError Sensitivity :=
  if value = "public" then .ok .public
  else if value = "internal" then .ok .internal
  else if value = "pii-masked" then .ok .piiMasked
  else if value = "pii-encrypted" then .ok .piiEncrypted
  else .error (.invalidSensitivityLevel value)

/-- The left part of `split_at(12)`. -/
def nonceOf (combined : List UInt8) (h : ¬combined.length < 13) : GcmNonce :=
  ⟨(combined.take 12).toArray, by
    rw [List.size_toArray, List.length_take]
    omega⟩

theorem toList_nonceOf {combined : List UInt8} (h : ¬combined.length < 13) :
    (nonceOf combined h).toList = combined.take 12 := rfl

structure MaskingEngine where
  encryptionKey : Option Aes256Key

namespace MaskingEngine

variable (deps : MaskingDeps)

def new (encryptionKeyHex : Option String) : Except MaskingError MaskingEngine :=
  match encryptionKeyHex with
  | none => .ok ⟨none⟩
  | some keyHex =>
      match hexDecode (utf8Bytes keyHex) with
      | .error e => .error (.keyError ("Invalid hex key: " ++ e.display deps.debugChar))
      | .ok keyBytes =>
          if h : keyBytes.length = 32 then .ok ⟨some ⟨keyBytes.toArray, h⟩⟩
          else
            .error (.keyError ("Key must be 32 bytes (256 bits), got " ++
              toString keyBytes.length ++ " bytes"))

/-- `hash_bytes`, and `hash_data` for the bytes of a text. -/
def hashBytes (data : List UInt8) : String := hexEncode (deps.sha256 data).toList

/-- `encrypt_bytes`, and `encrypt_data` for the bytes of a text. -/
def encryptBytes (engine : MaskingEngine) (nonce : GcmNonce) (data : List UInt8) :
    Except MaskingError String :=
  match engine.encryptionKey with
  | none => .error (.encryptionError "Encryption key not configured")
  | some key =>
      match deps.aes.encrypt key nonce data with
      | none => .error (.encryptionError "Encryption failed: aead::Error")
      | some ciphertext => .ok (hexEncode (nonce.toList ++ ciphertext))

/-- `transform_data` and `transform_data_owned`. -/
def transformData (engine : MaskingEngine) (nonce : GcmNonce) (data : String)
    (sensitivity : Sensitivity) : Except MaskingError String :=
  match sensitivity with
  | .public | .internal => .ok data
  | .piiMasked => .ok (hashBytes deps (utf8Bytes data))
  | .piiEncrypted => engine.encryptBytes deps nonce (utf8Bytes data)

def transformBytes (engine : MaskingEngine) (nonce : GcmNonce) (data : List UInt8)
    (sensitivity : Sensitivity) : Except MaskingError String :=
  match sensitivity with
  | .public | .internal =>
      match fromUtf8 data with
      | some s => .ok s
      | none => .error (.encryptionError ("Invalid UTF-8: " ++ deps.displayUtf8Error data))
  | .piiMasked => .ok (hashBytes deps data)
  | .piiEncrypted => engine.encryptBytes deps nonce data

def decryptData (engine : MaskingEngine) (encryptedHex : String) : Except MaskingError String :=
  match engine.encryptionKey with
  | none => .error (.decryptionError "Encryption key not configured")
  | some key =>
      match hexDecode (utf8Bytes encryptedHex) with
      | .error e => .error (.decryptionError ("Invalid hex data: " ++ e.display deps.debugChar))
      | .ok combined =>
          if h : combined.length < 13 then
            .error (.decryptionError ("Encrypted data too short: " ++
              toString combined.length ++ " bytes"))
          else
            match deps.aes.decrypt key (nonceOf combined h) (combined.drop 12) with
            | none => .error (.decryptionError "Decryption failed: aead::Error")
            | some plaintext =>
                match fromUtf8 plaintext with
                | some s => .ok s
                | none =>
                    .error (.decryptionError ("Invalid UTF-8: " ++ deps.displayUtf8Error plaintext))

end MaskingEngine

/-! ### Keys -/

theorem tryFrom_asStr (level : Sensitivity) : Sensitivity.tryFrom level.asStr = .ok level := by
  cases level <;> rfl

/-- A key is 64 hexadecimal digits. -/
def IsKeyHex (keyHex : String) : Prop :=
  (utf8Bytes keyHex).length = 64 ∧ ∀ d ∈ utf8Bytes keyHex, (hexVal d).isSome = true

instance : DecidablePred IsKeyHex := fun _ => inferInstanceAs (Decidable (_ ∧ _))

/-- `generate_key`, with its random bytes. -/
def generateKey (keyBytes : Aes256Key) : String := hexEncode keyBytes.toList

theorem isKeyHex_generateKey (keyBytes : Aes256Key) : IsKeyHex (generateKey keyBytes) := by
  refine ⟨?_, (hexDecode_isOk_iff.mp ⟨_, hexDecode_hexEncode _⟩).2⟩
  rw [generateKey, length_utf8Bytes_hexEncode, Vector.length_toList]

namespace MaskingEngine

variable {deps : MaskingDeps} {engine : MaskingEngine} {key : Aes256Key}

theorem new_isOk_iff (keyHex : String) :
    (∃ engine, new deps (some keyHex) = .ok engine ∧ engine.encryptionKey.isSome = true) ↔
      IsKeyHex keyHex := by
  rw [new, IsKeyHex]
  cases hdecode : hexDecode (utf8Bytes keyHex) with
  | error e =>
      refine iff_of_false (by rintro ⟨engine, h, -⟩; cases h) ?_
      rintro ⟨hlength, hdigits⟩
      obtain ⟨bytes, hbytes⟩ := hexDecode_isOk_iff.mpr ⟨by rw [hlength], hdigits⟩
      rw [hdecode] at hbytes
      cases hbytes
  | ok bytes =>
      have hlength := length_of_hexDecode hdecode
      have hdigits := (hexDecode_isOk_iff.mp ⟨bytes, hdecode⟩).2
      dsimp only
      split
      · rename_i hbytes
        exact iff_of_true ⟨_, rfl, rfl⟩ ⟨by rw [hlength, hbytes], hdigits⟩
      · rename_i hbytes
        refine iff_of_false (by rintro ⟨engine, h, -⟩; cases h) ?_
        rintro ⟨h64, -⟩
        omega

/-! ### Round trips -/

theorem decryptData_eq_ok_iff (hkey : engine.encryptionKey = some key) {encryptedHex s : String} :
    engine.decryptData deps encryptedHex = .ok s ↔
      ∃ (nonce : GcmNonce) (ciphertext : List UInt8),
        hexDecode (utf8Bytes encryptedHex) = .ok (nonce.toList ++ ciphertext) ∧
        deps.aes.encrypt key nonce (utf8Bytes s) = some ciphertext := by
  rw [decryptData, hkey]
  dsimp only
  constructor
  · intro h
    split at h
    · cases h
    · rename_i combined hdecode
      split at h
      · cases h
      · split at h
        · cases h
        · rename_i plaintext hplaintext
          split at h
          · rename_i s' hutf8
            cases h
            have hbytes := utf8Bytes_of_fromUtf8 hutf8
            have hencrypt := (deps.aes.decrypt_eq_some _ _ _ _).mp hplaintext
            rw [← hbytes] at hencrypt
            refine ⟨_, _, ?_, hencrypt⟩
            rw [toList_nonceOf, List.take_append_drop]
            exact hdecode
          · cases h
  · rintro ⟨nonce, ciphertext, hdecode, hencrypt⟩
    have htag := deps.aes.tagged _ _ _ _ hencrypt
    have hlength : ¬(nonce.toList ++ ciphertext).length < 13 := by
      rw [List.length_append, Vector.length_toList]
      omega
    have hnonce : nonceOf (nonce.toList ++ ciphertext) hlength = nonce := by
      refine Vector.toList_inj.mp ?_
      rw [toList_nonceOf, List.take_left' nonce.length_toList]
    rw [hdecode]
    dsimp only
    rw [dif_neg hlength, hnonce, List.drop_left' nonce.length_toList,
      (deps.aes.decrypt_eq_some _ _ _ _).mpr hencrypt]
    dsimp only
    rw [fromUtf8_utf8Bytes]

theorem decryptData_of_encryptBytes {nonce : GcmNonce} {data : List UInt8} {s t : String}
    (h : engine.encryptBytes deps nonce data = .ok t) :
    engine.decryptData deps t = .ok s ↔ utf8Bytes s = data := by
  rw [encryptBytes] at h
  split at h
  · cases h
  · rename_i key hkey
    split at h
    · cases h
    · rename_i ciphertext hencrypt
      cases h
      rw [decryptData_eq_ok_iff hkey, hexDecode_hexEncode]
      constructor
      · rintro ⟨nonce', ciphertext', hsame, hencrypt'⟩
        obtain ⟨hnonce, hciphertext⟩ := List.append_inj (Except.ok.inj hsame)
          (by rw [Vector.length_toList, Vector.length_toList])
        rw [← Vector.toList_inj.mp hnonce, ← hciphertext] at hencrypt'
        have hdecrypt := (deps.aes.decrypt_eq_some _ _ _ _).mpr hencrypt
        have hdecrypt' := (deps.aes.decrypt_eq_some _ _ _ _).mpr hencrypt'
        exact Option.some.inj (hdecrypt'.symm.trans hdecrypt)
      · rintro rfl
        exact ⟨nonce, ciphertext, rfl, hencrypt⟩

theorem transformBytes_utf8Bytes (nonce : GcmNonce) (s : String) (level : Sensitivity) :
    engine.transformBytes deps nonce (utf8Bytes s) level =
      engine.transformData deps nonce s level := by
  cases level with
  | «public» => rw [transformBytes, fromUtf8_utf8Bytes, transformData]
  | internal => rw [transformBytes, fromUtf8_utf8Bytes, transformData]
  | piiMasked => rfl
  | piiEncrypted => rfl

/-- A text decrypts to `s` exactly if it spells the bytes of an encryption of `s`. -/
theorem decrypts_iff_encrypted {keyHex : String}
    (h : new deps (some keyHex) = .ok engine) (encryptedHex s : String) :
    engine.decryptData deps encryptedHex = .ok s ↔
      ∃ nonce t, engine.transformData deps nonce s .piiEncrypted = .ok t ∧
        hexDecode (utf8Bytes encryptedHex) = hexDecode (utf8Bytes t) := by
  obtain ⟨key, hkey⟩ : ∃ key, engine.encryptionKey = some key := by
    unfold new at h
    dsimp only at h
    split at h
    · cases h
    · split at h
      · cases h
        exact ⟨_, rfl⟩
      · cases h
  rw [decryptData_eq_ok_iff hkey]
  constructor
  · rintro ⟨nonce, ciphertext, hdecode, hencrypt⟩
    refine ⟨nonce, hexEncode (nonce.toList ++ ciphertext), ?_, ?_⟩
    · rw [transformData, encryptBytes, hkey]
      dsimp only
      rw [hencrypt]
    · rw [hdecode, hexDecode_hexEncode]
  · rintro ⟨nonce, t, htransform, hdecode⟩
    rw [transformData, encryptBytes, hkey] at htransform
    dsimp only at htransform
    split at htransform
    · cases htransform
    · rename_i ciphertext hencrypt
      cases htransform
      exact ⟨nonce, ciphertext, hdecode.trans (hexDecode_hexEncode _), hencrypt⟩

end MaskingEngine

/-! ### A cipher with one known ciphertext -/

def zeroKey : Aes256Key := .replicate 32 0

def zeroNonce : GcmNonce := .replicate 12 0

def zeroBlock : List UInt8 := .replicate 16 0

/-- What AES-256-GCM makes of sixteen zero bytes under the zero key and the zero nonce, with
the tag. -/
def zeroCiphertext : List UInt8 :=
  [0xce, 0xa7, 0x40, 0x3d, 0x4d, 0x60, 0x6b, 0x6e, 0x07, 0x4e, 0xc5, 0xd3, 0xba, 0xf3, 0x9d, 0x18,
    0xd0, 0xd1, 0xc8, 0xa7, 0x99, 0x99, 0x6b, 0xf0, 0x26, 0x5b, 0x98, 0xb5, 0xd4, 0x8a, 0xb9, 0x19]

/-- A message with a tag of sixteen zeros. -/
def plainCiphertext (message : List UInt8) : List UInt8 := message ++ zeroBlock

def plainMessage (ciphertext : List UInt8) : Option (List UInt8) :=
  if zeroBlock <:+ ciphertext then some (ciphertext.take (ciphertext.length - 16)) else none

theorem plainMessage_eq_some {ciphertext message : List UInt8} :
    plainMessage ciphertext = some message ↔ ciphertext = plainCiphertext message := by
  rw [plainMessage, plainCiphertext, Option.ite_none_right_eq_some, Option.some.injEq]
  constructor
  · rintro ⟨⟨front, rfl⟩, rfl⟩
    rw [List.length_append, zeroBlock, List.length_replicate, Nat.add_sub_cancel, List.take_left]
  · rintro rfl
    refine ⟨List.suffix_append _ _, ?_⟩
    rw [List.length_append, zeroBlock, List.length_replicate, Nat.add_sub_cancel, List.take_left]

theorem zeroCiphertext_ne_plain (message : List UInt8) :
    zeroCiphertext ≠ plainCiphertext message := by
  intro h
  have hsuffix : zeroBlock <:+ zeroCiphertext := h ▸ List.suffix_append message zeroBlock
  exact absurd hsuffix (by decide)

/-- The ciphertext is the one of AES-256-GCM for the zero block under the zero key and the
zero nonce, and the message with a tag of zeros elsewhere. -/
def zeroAes : Aes256Gcm where
  encrypt key nonce message :=
    if key = zeroKey ∧ nonce = zeroNonce ∧ message = zeroBlock then some zeroCiphertext
    else some (plainCiphertext message)
  decrypt key nonce ciphertext :=
    if key = zeroKey ∧ nonce = zeroNonce ∧ ciphertext = zeroCiphertext then some zeroBlock
    else if key = zeroKey ∧ nonce = zeroNonce ∧ ciphertext = plainCiphertext zeroBlock then none
    else plainMessage ciphertext
  decrypt_eq_some key nonce message ciphertext := by
    by_cases hzero : key = zeroKey ∧ nonce = zeroNonce
    · obtain ⟨rfl, rfl⟩ := hzero
      simp only [true_and]
      by_cases hmessage : message = zeroBlock
      · grind [plainMessage_eq_some]
      · have hplain : plainCiphertext message ≠ plainCiphertext zeroBlock := fun h =>
          hmessage (List.append_cancel_right h)
        grind [plainMessage_eq_some, zeroCiphertext_ne_plain]
    · grind [plainMessage_eq_some]
  tagged key nonce message ciphertext h := by
    split at h
    · rename_i hzero
      cases h
      rw [hzero.2.2]
      rfl
    · cases h
      rw [plainCiphertext, List.length_append, zeroBlock, List.length_replicate]

def zeroDeps : MaskingDeps where
  aes := zeroAes
  sha256 _ := Vector.replicate 32 0
  debugChar := String.singleton
  displayUtf8Error _ := ""

theorem new_zeroKey :
    MaskingEngine.new zeroDeps (some (generateKey zeroKey)) = .ok ⟨some zeroKey⟩ := by
  rfl

def zeroText : String := .ofList (.replicate 16 (.ofNat 0))

/-- The ciphertext of the zero characters, in capitals. -/
def zeroEncrypted : String :=
  "000000000000000000000000CEA7403D4D606B6E074EC5D3BAF39D18D0D1C8A799996BF0265B98B5D48AB919"

theorem decrypts_iff_encrypted_zeroText :
    MaskingEngine.decryptData zeroDeps ⟨some zeroKey⟩ zeroEncrypted = .ok zeroText := by
  have htext : utf8Bytes zeroText = zeroBlock := by decide +kernel
  have hbytes : hexDecode (utf8Bytes zeroEncrypted) = .ok (zeroNonce.toList ++ zeroCiphertext) := by
    decide +kernel
  have htransform : MaskingEngine.transformData zeroDeps ⟨some zeroKey⟩ zeroNonce zeroText
      .piiEncrypted = .ok (hexEncode (zeroNonce.toList ++ zeroCiphertext)) := by
    rw [MaskingEngine.transformData, htext]
    rfl
  refine (MaskingEngine.decrypts_iff_encrypted new_zeroKey _ _).mpr
    ⟨zeroNonce, _, htransform, ?_⟩
  rw [hbytes, hexDecode_hexEncode]

end SereinGateway.Security
