import SereinGateway.Lib.Json
import SereinGateway.Lib.Text

/-!
Canonical hashing of provider answers.

`serde_json`, SHA-256 and BLAKE3 are not part of this repository. They enter
as the fields of `Digests`: parsing and compact serialisation of JSON values
and the two digests, as functions of the text they are applied to. What a
theorem needs from them (that two given texts or values are not confused) is
a hypothesis of that theorem. A JSON value is a well-formed tree: the map of
an object holds one value for each key, so a parser that meets a key twice
has to decide, and `serde_json` keeps the last one.
-/

namespace SereinGateway.Consensus

open SereinGateway.Lib

/-- `serde_json::Value`: a tree in which every object is a map. -/
def Value (ν : Type) : Type := { v : Json ν // v.WellFormed }

/-- Parser, serialiser and digests used by canonical hashing. -/
structure Digests (ν : Type) where
  /-- `serde_json::from_str`, with the message of its error. -/
  fromStr : String → Except String (Value ν)
  /-- `serde_json::to_string`, which does not fail on a `Value`. -/
  toStr : Value ν → String
  sha256 : ByteArray → Vector UInt8 32
  blake3 : ByteArray → Vector UInt8 32

/-- `sort_json_keys`. The source sorts the members of an object first and
then descends into them in place, which is `Json.sortKeys_object_descend`. -/
def sortJsonKeys {ν : Type} (v : Value ν) : Value ν := ⟨v.1.sortKeys, v.2.sortKeys⟩

/-- Equality of values up to the order of object keys at every depth. -/
def SameUpToKeyOrder {ν : Type} (v w : Value ν) : Prop := Json.SameUpToOrder v.1 w.1

namespace Digests

variable {ν : Type} (dg : Digests ν)

/-- The serialised normal form whose bytes are hashed. -/
def canonical (v : Value ν) : String := dg.toStr (sortJsonKeys v)

def computeCanonicalHash (rawOutput : String) : Except String String :=
  match dg.fromStr (trim rawOutput) with
  | .error e => .error ("failed to parse raw_output as JSON: " ++ e)
  | .ok value => .ok (hexEncode (dg.sha256 (dg.canonical value).toByteArray).toList)

def stripMarkdownFences (response : String) : String :=
  let s := trim response
  if startsWith s "```" then
    match (stripPrefix s "```json").or (stripPrefix s "```") with
    | some afterOpen =>
        let s := trimStart afterOpen
        match rfind s "```" with
        | some pos => trim (sliceTo s pos)
        | none => s
    | none => s
  else s

def computeCanonicalKeySync (raw : String) : String :=
  let trimmed := trim (stripMarkdownFences raw)
  if !startsWith trimmed "\x7b" && !startsWith trimmed "[" then
    "blake3:" ++ hexEncode (dg.blake3 trimmed.toByteArray).toList
  else
    match dg.computeCanonicalHash trimmed with
    | .ok hexHash => "sha256:" ++ hexHash
    | .error _ => "blake3:" ++ hexEncode (dg.blake3 trimmed.toByteArray).toList

end Digests

/-! ### Canonical hashing is exact -/

theorem sortJsonKeys_idem {ν : Type} (v : Value ν) :
    sortJsonKeys (sortJsonKeys v) = sortJsonKeys v :=
  Subtype.ext (Json.sortKeys_idem v.2)

theorem sameUpToKeyOrder_sortJsonKeys {ν : Type} (v : Value ν) :
    SameUpToKeyOrder v (sortJsonKeys v) := Json.SameUpToOrder.sortKeys v.2

theorem sameUpToKeyOrder_iff {ν : Type} (v w : Value ν) :
    SameUpToKeyOrder v w ↔ sortJsonKeys v = sortJsonKeys w := by
  rw [SameUpToKeyOrder, Json.SameUpToOrder.iff_sortKeys_eq v.2 w.2]
  exact ⟨fun h => Subtype.ext h, fun h => congrArg Subtype.val h⟩

/-- Two texts that parse have the same canonical hash exactly when their
values are the same up to the order of object keys at every depth, provided
the serialiser and SHA-256 do not confuse the two normal forms; and sorting
is idempotent and changes nothing but the order of keys. -/
theorem computeCanonicalHash_eq_iff {ν : Type} (dg : Digests ν) (raw₁ raw₂ : String)
    (v₁ v₂ : Value ν) (hparse₁ : dg.fromStr (trim raw₁) = .ok v₁)
    (hparse₂ : dg.fromStr (trim raw₂) = .ok v₂)
    (hser : Distinguishes dg.toStr (sortJsonKeys v₁) (sortJsonKeys v₂))
    (hsha : Distinguishes dg.sha256 (dg.canonical v₁).toByteArray
      (dg.canonical v₂).toByteArray) :
    (∃ h₁ h₂, dg.computeCanonicalHash raw₁ = .ok h₁ ∧ dg.computeCanonicalHash raw₂ = .ok h₂ ∧
      (h₁ = h₂ ↔ SameUpToKeyOrder v₁ v₂)) ∧
    ∀ v : Value ν, sortJsonKeys (sortJsonKeys v) = sortJsonKeys v ∧
      SameUpToKeyOrder v (sortJsonKeys v) := by
  refine ⟨⟨hexEncode (dg.sha256 (dg.canonical v₁).toByteArray).toList,
    hexEncode (dg.sha256 (dg.canonical v₂).toByteArray).toList, ?_, ?_, ?_⟩, ?_⟩
  · rw [Digests.computeCanonicalHash, hparse₁]
  · rw [Digests.computeCanonicalHash, hparse₂]
  · rw [sameUpToKeyOrder_iff]
    constructor
    · intro h
      have hdigest := Vector.toList_inj.mp (hexEncode_injective h)
      have htext : dg.canonical v₁ = dg.canonical v₂ := String.toByteArray_inj.mp (hsha hdigest)
      exact hser htext
    · intro h
      rw [Digests.canonical, Digests.canonical, h]
  · intro v
    exact ⟨sortJsonKeys_idem v, sameUpToKeyOrder_sortJsonKeys v⟩

/-- The value `{"z":1,"a":2,"m":3}` up to the order of its members. -/
def sampleValue (members : List (String × Json ℕ))
    (h : [("z", .number 1), ("a", .number 2), ("m", .number 3)].Perm members) : Value ℕ :=
  ⟨.object members, by
    have hwf : (Json.object [("z", .number 1), ("a", .number 2), ("m", .number 3)] :
        Json ℕ).WellFormed := by
      refine .object (by decide) ?_
      simp only [List.mem_cons, List.not_mem_nil, or_false]
      rintro e (rfl | rfl | rfl) <;> exact .number _
    exact (Json.SameUpToOrder.permute h).wellFormed_iff_and_sortKeys_eq.1.mp hwf⟩

def sampleUnsorted : Value ℕ := sampleValue _ (List.Perm.refl _)

def sampleSorted : Value ℕ :=
  sampleValue [("a", .number 2), ("m", .number 3), ("z", .number 1)]
    (List.perm_append_singleton ("z", Json.number 1) [("a", .number 2), ("m", .number 3)]).symm

/-- SHA-256 of the compact text of the sorted sample. -/
def sampleDigest : Vector UInt8 32 :=
  #v[0xeb, 0xba, 0x85, 0xcf, 0xdc, 0x0a, 0x72, 0x4b, 0x6c, 0xc3, 0x27, 0xec,
    0xc5, 0x45, 0xfa, 0xeb, 0x38, 0xb9, 0xfe, 0x02, 0xec, 0xa6, 0x03, 0xb4,
    0x30, 0xeb, 0x87, 0x2f, 0x5c, 0xf7, 0x53, 0x70]

/-- The BLAKE3 digest of `[see` and a fence. -/
def sampleBlake3 : Vector UInt8 32 :=
  #v[0x2d, 0xaa, 0xfe, 0x0b, 0x72, 0x50, 0x3e, 0x12, 0x26, 0x5d, 0xd4, 0x4a,
    0x95, 0xec, 0x69, 0x9b, 0xdf, 0xa0, 0xe4, 0xf9, 0x98, 0x3a, 0x86, 0xa9,
    0x47, 0xba, 0xab, 0x0d, 0xb9, 0x2a, 0x9c, 0x4c]

/-- Parser, serialiser and digests as they act on the sample texts. -/
def sampleDigests : Digests ℕ where
  fromStr s :=
    if s = "\x7b\"z\":1,\"a\":2,\"m\":3\x7d" then .ok sampleUnsorted
    else if s = "\x7b\"a\":2,\"m\":3,\"z\":1\x7d" then .ok sampleSorted
    else .error "expected value at line 1 column 1"
  toStr _ := "\x7b\"a\":2,\"m\":3,\"z\":1\x7d"
  sha256 _ := sampleDigest
  blake3 _ := sampleBlake3

theorem computeCanonicalHash_eq_iff_reordered :
    ∃ h₁ h₂, sampleDigests.computeCanonicalHash "\x7b\"z\":1,\"a\":2,\"m\":3\x7d" = .ok h₁ ∧
      sampleDigests.computeCanonicalHash "\x7b\"a\":2,\"m\":3,\"z\":1\x7d" = .ok h₂ ∧
      (h₁ = h₂ ↔ SameUpToKeyOrder sampleUnsorted sampleSorted) := by
  have hsort : sortJsonKeys sampleUnsorted = sortJsonKeys sampleSorted :=
    (sameUpToKeyOrder_iff _ _).mp
      (Json.SameUpToOrder.permute (List.perm_append_singleton _ [_, _]).symm)
  refine (computeCanonicalHash_eq_iff sampleDigests _ _ sampleUnsorted sampleSorted ?_ ?_
    (fun _ => hsort) (fun _ => rfl)).1
  · have htext : trim "\x7b\"z\":1,\"a\":2,\"m\":3\x7d" = "\x7b\"z\":1,\"a\":2,\"m\":3\x7d" := by
      decide
    rw [htext]
    rfl
  · have htext : trim "\x7b\"a\":2,\"m\":3,\"z\":1\x7d" = "\x7b\"a\":2,\"m\":3,\"z\":1\x7d" := by
      decide
    rw [htext]
    rfl

end SereinGateway.Consensus
