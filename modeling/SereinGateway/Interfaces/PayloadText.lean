import Mathlib
import SereinGateway.Interfaces.Payload
import SereinGateway.Lib.JsonGrammar

/-!
What `from_llm_output` makes of a text that the two parsers read as JSON.

The derived `Deserialize` takes the five fields under either of their names,
ignores other members and refuses a field that is missing or comes twice; a
parser may also take them from an array, in the order of the declaration.
Which nesting a parser allows and how it converts numbers is its `Dialect`.

A payload is read with its strings as they are written, and `payload` is what
they stand for.
-/

namespace SereinGateway.Interfaces

open SereinGateway.Lib
open SereinGateway.Lib.JsonText

/-- What the parsers leave open. -/
structure Dialect where
  limit : ℕ
  sequences : Bool
  toU32 : List Char → Option UInt32
  toF64 : List Char → Option ℚ

inductive Field where
  | networkId
  | taskType
  | maxGasLimit
  | confidenceScore
  | sourceUrl
  deriving DecidableEq

def fieldNames : List (List Char × Field) :=
  [("network_id".toList, .networkId), ("networkId".toList, .networkId),
    ("task_type".toList, .taskType), ("taskType".toList, .taskType),
    ("max_gas_limit".toList, .maxGasLimit), ("maxGasLimit".toList, .maxGasLimit),
    ("confidence_score".toList, .confidenceScore), ("confidenceScore".toList, .confidenceScore),
    ("source_url".toList, .sourceUrl), ("sourceUrl".toList, .sourceUrl)]

def fieldOf (name : List Char) : Option Field := fieldNames.lookup name

/-- A payload whose strings are not read yet. -/
structure RawPayload (σ : Type) where
  networkId : σ
  taskType : σ
  maxGasLimit : UInt32
  confidenceScore : ℚ
  sourceUrl : σ
  deriving DecidableEq

/-- The fields that have been read. -/
structure Visited (σ : Type) where
  networkId : Option σ
  taskType : Option σ
  maxGasLimit : Option UInt32
  confidenceScore : Option ℚ
  sourceUrl : Option σ

section Deserialize

variable {σ : Type} (read : σ → List Char) (d : Dialect)

def Visited.none : Visited σ := ⟨.none, .none, .none, .none, .none⟩

def Value.text : Value σ → Option σ
  | .str s => some s
  | .scalar _ | .composite => none

/-- A numeric field. -/
def Value.number {ν : Type} (convert : List Char → Option ν) : Value σ → Option ν
  | .scalar text => convert text
  | .str _ | .composite => .none

/-- A field that must not be set yet. -/
def setOnce {ν : Type} (old new : Option ν) : Option (Option ν) :=
  match old, new with
  | .none, some v => some (some v)
  | _, _ => .none

/-- One member of the object. -/
def Visited.visit (v : Visited σ) (e : Option σ × Value σ) : Option (Visited σ) :=
  match e.1.bind fun k => fieldOf (read k) with
  | .none => some v
  | some .networkId =>
      (setOnce v.networkId (Value.text e.2)).map fun x => { v with networkId := x }
  | some .taskType =>
      (setOnce v.taskType (Value.text e.2)).map fun x => { v with taskType := x }
  | some .maxGasLimit =>
      (setOnce v.maxGasLimit (Value.number d.toU32 e.2)).map fun x => { v with maxGasLimit := x }
  | some .confidenceScore =>
      (setOnce v.confidenceScore (Value.number d.toF64 e.2)).map fun x =>
        { v with confidenceScore := x }
  | some .sourceUrl =>
      (setOnce v.sourceUrl (Value.text e.2)).map fun x => { v with sourceUrl := x }

def Visited.finish (v : Visited σ) : Option (RawPayload σ) :=
  match v with
  | ⟨some n, some t, some g, some c, some u⟩ => some ⟨n, t, g, c, u⟩
  | _ => .none

/-- The fields as the elements of an array. -/
def fromSequence : List (Value σ) → Option (RawPayload σ)
  | [n, t, g, c, u] => do
      let n ← Value.text n
      let t ← Value.text t
      let g ← Value.number d.toU32 g
      let c ← Value.number d.toF64 c
      let u ← Value.text u
      return ⟨n, t, g, c, u⟩
  | _ => .none

/-- The derived `Deserialize` of the payload. -/
def deserialize (doc : Document σ) : Option (RawPayload σ) :=
  match doc.kind with
  | .object => (doc.entries.foldlM (Visited.visit read d) .none).bind Visited.finish
  | .array => if d.sequences then fromSequence d (doc.entries.map Prod.snd) else .none
  | .plain => .none

end Deserialize

def readPayload (d : Dialect) (text : List Char) : Option (RawPayload (List Item)) :=
  (scan text).bind fun pieces =>
    (parse d.limit (tokens pieces)).bind (deserialize decode d)

/-- What the strings stand for. -/
def RawPayload.payload (p : RawPayload (List Item)) : IntermediatePayload :=
  ⟨.ofList (decode p.networkId), .ofList (decode p.taskType), p.maxGasLimit, p.confidenceScore,
    .ofList (decode p.sourceUrl)⟩

def RawPayload.map {σ τ : Type} (f : σ → τ) (p : RawPayload σ) : RawPayload τ :=
  ⟨f p.networkId, f p.taskType, p.maxGasLimit, p.confidenceScore, f p.sourceUrl⟩

/-! ### The two parsers -/

/-- The dialects of `simd_json` and `serde_json`. -/
structure Dialects where
  simd : Dialect
  serde : Dialect

/-- The second parser is asked if the first one fails. -/
def Dialects.read (ds : Dialects) (text : List Char) : Option (RawPayload (List Item)) :=
  (readPayload ds.simd text).or (readPayload ds.serde text)

/-- `simd_json` leaves the text as it was: nothing is to be unescaped, or it
stops at a control character in a literal before it unescapes anything. -/
def Unaltered (text : List Char) : Prop :=
  '\\' ∉ text ∨
    ∃ pieces, text = render pieces ∧ (∀ p ∈ pieces, p.Plain) ∧ ¬∀ p ∈ pieces, p.Clean

/-- Both parsers read JSON. What `serde_json` is given after a failure of
`simd_json` is only known if the buffer is still the text. -/
structure PayloadParser.ReadsJson (parser : PayloadParser) (ds : Dialects) : Prop where
  simdJson : ∀ text : String, (parser.simdJson text.toByteArray).2 =
    (readPayload ds.simd text.toList).map RawPayload.payload
  serdeJson : ∀ text : String, Unaltered text.toList →
    (parser.simdJson text.toByteArray).2 = none →
    (parser.serdeJson (parser.fromUtf8Lossy (parser.simdJson text.toByteArray).1)).toOption =
      (readPayload ds.serde text.toList).map RawPayload.payload

/-- An answer is read from the text as it stands: `simd_json` reads it or
leaves it unaltered. -/
def Dialects.ReadAsItStands (ds : Dialects) (text : List Char) : Prop :=
  (readPayload ds.simd text).isSome ∨ Unaltered text

theorem PayloadParser.ReadsJson.fromLlmOutput {parser : PayloadParser} {ds : Dialects}
    (h : parser.ReadsJson ds) {raw : String}
    (hread : ds.ReadAsItStands (sanitizeLlmResponse raw).toList) :
    (IntermediatePayload.fromLlmOutput parser raw).toOption =
      (ds.read (sanitizeLlmResponse raw).toList).map RawPayload.payload := by
  have hsimd := h.simdJson (sanitizeLlmResponse raw)
  have hserde := h.serdeJson (sanitizeLlmResponse raw)
  unfold IntermediatePayload.fromLlmOutput Dialects.read
  rcases hparsed : parser.simdJson (sanitizeLlmResponse raw).toByteArray with ⟨bytes, payload⟩
  rw [hparsed] at hsimd hserde
  cases payload with
  | some payload =>
      obtain ⟨raw', hread', rfl⟩ := Option.map_eq_some_iff.mp hsimd.symm
      simp [hread', Except.toOption]
  | none =>
      have hnone := Option.map_eq_none_iff.mp hsimd.symm
      have hunaltered : Unaltered (sanitizeLlmResponse raw).toList := by
        refine hread.resolve_left ?_
        rw [hnone]
        exact Bool.false_ne_true
      rw [hnone, Option.none_or, ← hserde hunaltered rfl]
      cases hparsed' : parser.serdeJson (parser.fromUtf8Lossy bytes) with
      | ok payload => simp [hparsed']
      | error e => simp [hparsed', Except.toOption]

/-! ### Changing what is in the strings -/

section Map

variable {σ τ : Type} {f : σ → τ} {read : σ → List Char} {read' : τ → List Char} {d : Dialect}

def Visited.map (f : σ → τ) (v : Visited σ) : Visited τ :=
  ⟨v.networkId.map f, v.taskType.map f, v.maxGasLimit, v.confidenceScore, v.sourceUrl.map f⟩

theorem Value.text_map (v : Value σ) : Value.text (v.map f) = (Value.text v).map f := by
  cases v <;> rfl

theorem Value.number_map {ν : Type} (convert : List Char → Option ν) (v : Value σ) :
    Value.number convert (v.map f) = Value.number convert v := by
  cases v <;> rfl

theorem setOnce_map (old new : Option σ) :
    setOnce (old.map f) (new.map f) = (setOnce old new).map (Option.map f) := by
  cases old <;> cases new <;> rfl

theorem Visited.visit_map (hkeys : ∀ s, fieldOf (read' (f s)) = fieldOf (read s)) (v : Visited σ)
    (e : Option σ × Value σ) :
    (v.map f).visit read' d (mapEntry f e) = (v.visit read d e).map (Visited.map f) := by
  have hfield : (e.1.map f).bind (fun k => fieldOf (read' k)) =
      e.1.bind fun k => fieldOf (read k) := by
    cases e.1 with
    | none => rfl
    | some s => exact hkeys s
  unfold Visited.visit
  simp only [mapEntry, hfield]
  split
  · rfl
  all_goals
    simp only [Visited.map, Value.text_map, Value.number_map, setOnce_map, Option.map_map]
    rfl

theorem Visited.finish_map (v : Visited σ) :
    (v.map f).finish = v.finish.map (RawPayload.map f) := by
  obtain ⟨n, t, g, c, u⟩ := v
  cases n <;> cases t <;> cases g <;> cases c <;> cases u <;> rfl

theorem foldlM_visit_map (hkeys : ∀ s, fieldOf (read' (f s)) = fieldOf (read s))
    (entries : List (Option σ × Value σ)) (v : Visited σ) :
    (entries.map (mapEntry f)).foldlM (Visited.visit read' d) (v.map f) =
      (entries.foldlM (Visited.visit read d) v).map (Visited.map f) := by
  induction entries generalizing v with
  | nil => rfl
  | cons e entries ih =>
      rw [List.map_cons, List.foldlM_cons, List.foldlM_cons, Visited.visit_map hkeys]
      cases Visited.visit read d v e with
      | none => rfl
      | some v' => exact ih v'

theorem fromSequence_map (vs : List (Value σ)) :
    fromSequence d (vs.map (Value.map f)) = (fromSequence d vs).map (RawPayload.map f) := by
  match vs with
  | [n, t, g, c, u] =>
      simp only [List.map_cons, List.map_nil, fromSequence, Value.text_map, Value.number_map]
      cases Value.text n <;> cases Value.text t <;> cases Value.number d.toU32 g <;>
        cases Value.number d.toF64 c <;> cases Value.text u <;> rfl
  | [] | [_] | [_, _] | [_, _, _] | [_, _, _, _] | _ :: _ :: _ :: _ :: _ :: _ :: _ => rfl

theorem deserialize_map (hkeys : ∀ s, fieldOf (read' (f s)) = fieldOf (read s))
    (doc : Document σ) :
    deserialize read' d (doc.map f) = (deserialize read d doc).map (RawPayload.map f) := by
  obtain ⟨kind, entries⟩ := doc
  cases kind with
  | object =>
      have hnone : (Visited.none : Visited τ) = Visited.none.map f := rfl
      simp only [deserialize, Document.map, hnone, foldlM_visit_map hkeys, Option.map_bind,
        Option.bind_map]
      congr 1
      funext v
      exact v.finish_map
  | array =>
      have hvalues : (entries.map (mapEntry f)).map Prod.snd =
          (entries.map Prod.snd).map (Value.map f) := by
        rw [List.map_map, List.map_map]
        rfl
      simp only [deserialize, Document.map, hvalues, fromSequence_map,
        apply_ite (Option.map (RawPayload.map f)), Option.map_none]
  | plain => rfl

end Map

/-- Texts with the same pieces, up to what is in the strings, are read alike
if the keys keep their meaning. -/
theorem readPayload_map {d : Dialect} {f : List Item → List Item} {text text' : List Char}
    {pieces : List Piece} (hscan : scan text = some pieces)
    (hscan' : scan text' = some (pieces.map (Piece.map f)))
    (hkeys : ∀ items, fieldOf (decode (f items)) = fieldOf (decode items)) :
    readPayload d text' = (readPayload d text).map (RawPayload.map f) := by
  rw [readPayload, readPayload, hscan, hscan', Option.bind_some, Option.bind_some, tokens_map,
    parse_map]
  cases parse d.limit (tokens pieces) with
  | none => rfl
  | some doc => exact deserialize_map hkeys doc

end SereinGateway.Interfaces
