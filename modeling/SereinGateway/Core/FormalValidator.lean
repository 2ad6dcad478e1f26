import Mathlib
import SereinGateway.Core.AstNode
import SereinGateway.Lib.Text

/-!
`Z3FormalValidator`: payloads are checked before they are let in.

Both entry points measure the tree of the payload, and `prove_safety` checks the fields
of an execution payload besides. The tree is made of a map that has each key once, so
what the text had twice is not seen, of the members that a constraint is about only the
first is looked at, and the fuel budget is not used.

The parser gives the tree as it is written, and its objects are put into maps that keep
the order of the keys, which is how the gateway builds `serde_json`.
-/

namespace SereinGateway.Core

open SereinGateway.Lib

/-! ### Fields -/

inductive FieldType where
  | stringExactLen (len : ℕ)
  | stringRange (min max : ℕ)
  | stringPrefix (beginning : String)
  | integerRange (min max : Int64)
  | floatRange (min max : F64)
  | floatMinThreshold (threshold : F64)

structure FieldConstraint where
  name : String
  aliases : List String
  fieldType : FieldType
  required : Bool

def executionPayloadSchema : List FieldConstraint :=
  [⟨"networkId", ["network_id"], .stringRange 1 64, true⟩,
    ⟨"taskType", ["task_type"], .stringRange 1 50, true⟩,
    ⟨"maxGasLimit", ["max_gas_limit"], .integerRange 0 Int64.maxValue, false⟩,
    ⟨"confidenceScore", ["confidence_score"], .floatRange (.finite 0) (.finite 1), true⟩,
    ⟨"sourceUrl", ["source_url"], .stringPrefix "http", false⟩]

namespace F64

/-- `<`, which does not hold of a value that is not a number. -/
def lt : F64 → F64 → Bool
  | finite a, finite b => a < b
  | finite _, infinite negative => !negative
  | infinite negative, finite _ => negative
  | infinite a, infinite b => a && !b
  | _, _ => false

def asI64 : F64 → Int64
  | finite q =>
      let truncated : ℤ := if 0 ≤ q then ⌊q⌋ else ⌈q⌉
      .ofInt (max (min truncated (2 ^ 63 - 1)) (-2 ^ 63))
  | infinite negative => if negative then Int64.minValue else Int64.maxValue
  | nan => 0

/-- `(f - i as f64).abs() > f64::EPSILON`, for the integer `i` that `f` is converted to.
The difference is exact, or larger by far. -/
def farFrom : F64 → Int64 → Bool
  | finite q, i => (1 : ℚ) / 2 ^ 52 < |q - i64AsF64 i|
  | infinite _, _ => true
  | nan, _ => false

end F64

/-- A field does not satisfy its constraint. -/
def fieldError (fieldName rest : String) : Except PayloadViolation Unit :=
  .error (.schemaConstraintViolated ("Field '" ++ fieldName ++ "' " ++ rest))

section Fields

variable (display : Display)

/-- The value of a number. -/
def numberOf : AstNode → Option F64
  | .integer v => some (.finite (i64AsF64 v))
  | .float v => some v
  | _ => none

/-- `[min, max]`, as it is written in the messages. -/
def rangeText (min max got : String) : String :=
  "in range [" ++ min ++ ", " ++ max ++ "], got " ++ got

def proveFieldConstraint (fieldName : String) (value : AstNode) :
    FieldType → Except PayloadViolation Unit
  | .stringExactLen expectedLen =>
      match value with
      | .string s =>
          if s.utf8ByteSize ≠ expectedLen then
            fieldError fieldName ("must be exactly " ++ toString expectedLen ++
              " characters, got " ++ toString s.utf8ByteSize)
          else if !s.toList.all Char.isUpper then
            fieldError fieldName "must contain only uppercase ASCII letters"
          else .ok ()
      | _ => fieldError fieldName "must be a string"
  | .stringRange min max =>
      match value with
      | .string s =>
          if s.utf8ByteSize < min ∨ max < s.utf8ByteSize then
            .error (.schemaConstraintViolated ("Field '" ++ fieldName ++ "' length must be " ++
              rangeText (toString min) (toString max) (toString s.utf8ByteSize)))
          else .ok ()
      | _ => fieldError fieldName "must be a string"
  | .stringPrefix beginning =>
      match value with
      | .string s =>
          if !startsWith s beginning then
            fieldError fieldName ("must start with '" ++ beginning ++ "'")
          else .ok ()
      | _ => fieldError fieldName "must be a string"
  | .integerRange min max =>
      match value with
      | .integer v =>
          if v < min ∨ max < v then
            fieldError fieldName ("must be " ++
              rangeText (toString min) (toString max) (toString v))
          else .ok ()
      | .float f =>
          if f.farFrom f.asI64 then fieldError fieldName "must be an integer"
          else if f.asI64 < min ∨ max < f.asI64 then
            fieldError fieldName ("must be " ++
              rangeText (toString min) (toString max) (toString f.asI64))
          else .ok ()
      | _ => fieldError fieldName "must be an integer"
  | .floatRange min max =>
      match numberOf value with
      | some v =>
          if v.lt min ∨ max.lt v then
            fieldError fieldName ("must be " ++
              rangeText (display.float min) (display.float max) (display.float v))
          else .ok ()
      | none => fieldError fieldName "must be a number"
  | .floatMinThreshold threshold =>
      match numberOf value with
      | some v =>
          if v.lt threshold then
            fieldError fieldName ("value " ++ display.float v ++ " below minimum threshold " ++
              display.float threshold)
          else .ok ()
      | none => fieldError fieldName "must be a number"

def FieldConstraint.covers (constraint : FieldConstraint) (key : String) : Bool :=
  key == constraint.name || constraint.aliases.contains key

/-- The constraints, each against the first member that it is about. -/
@[grind =] def proveConstraints (entries : List (String × AstNode)) :
    List FieldConstraint → Except PayloadViolation Unit
  | [] => .ok ()
  | constraint :: schema =>
      match entries.find? fun e => constraint.covers e.1 with
      | some (_, value) =>
          match proveFieldConstraint display constraint.name value constraint.fieldType with
          | .error e => .error e
          | .ok () => proveConstraints entries schema
      | none =>
          if constraint.required then
            .error (.schemaConstraintViolated ("Missing required field: '" ++ constraint.name ++
              "' (aliases: " ++ display.debug constraint.aliases ++ ")"))
          else proveConstraints entries schema

/-- A key that no field of a payload has. -/
def suspicious (key : String) : Bool :=
  (findChars ['_', '_'] key.toList).isSome || startsWith key "_" || startsWith key "$"

def proveSchemaConstraints (ast : AstNode) (schema : List FieldConstraint) :
    Except PayloadViolation Unit :=
  match ast with
  | .object entries =>
      if maxObjectKeys < entries.length then
        .error (.structuralIntegrity ("Object has " ++ toString entries.length ++
          " keys, exceeds maximum of " ++ toString maxObjectKeys))
      else
        match entries.find? fun e => suspicious e.1 with
        | some (key, _) =>
            .error (.schemaConstraintViolated ("Suspicious key pattern: '" ++ key ++ "'"))
        | none => proveConstraints display entries schema
  | _ => .error (.structuralIntegrity "Payload must be a JSON object")

end Fields

/-! ### The validator -/

structure Z3FormalValidator where
  enabled : Bool
  validationCount : UInt64
  rejectionCount : UInt64
  maxMemoryRegion : UInt64
  maxFuelBudget : UInt64

/-- `serde_json::from_str`: the tree as it is written, or the message of the error. -/
structure JsonParser where
  fromStr : String → Except String (Json Number)

def parseToAst (parser : JsonParser) (json : String) : Except PayloadViolation AstNode :=
  match parser.fromStr json with
  | .error reason => .error (.jsonParseError reason)
  | .ok written => .ok (jsonValueToAst written.collapse)

namespace Z3FormalValidator

def sisFuelQuota : UInt64 := 10000000000

def new (enabled : Bool) : Z3FormalValidator := ⟨enabled, 0, 0, 256 * 1024 * 1024, sisFuelQuota⟩

def withBounds (self : Z3FormalValidator) (maxMemory maxFuel : UInt64) : Z3FormalValidator :=
  { self with maxMemoryRegion := maxMemory, maxFuelBudget := maxFuel }

def countValidation (self : Z3FormalValidator) : Z3FormalValidator :=
  { self with validationCount := self.validationCount + 1 }

/-- A call that fails, which is counted. -/
def reject (self : Z3FormalValidator) (e : PayloadViolation) :
    Except PayloadViolation Unit × Z3FormalValidator :=
  (.error e, { self with rejectionCount := self.rejectionCount + 1 })

variable (display : Display) (parser : JsonParser)

/-- What both entry points do, up to the bounds of the leaves. -/
def proveBounds (self : Z3FormalValidator) (output : ByteArray)
    (next : Z3FormalValidator → AstNode → Except PayloadViolation Unit × Z3FormalValidator) :
    Except PayloadViolation Unit × Z3FormalValidator :=
  if !self.enabled then (.ok (), self)
  else
    let self := self.countValidation
    match String.fromUTF8? output with
    | none => self.reject .invalidUtf8
    | some outputStr =>
        if maxStringLength * 10 < outputStr.utf8ByteSize then
          self.reject (.memoryBounds 0 outputStr.utf8ByteSize (maxStringLength * 10))
        else
          match parseToAst parser outputStr with
          | .error e => self.reject e
          | .ok ast =>
              if maxAstNodes < ast.nodeCount then
                self.reject (.astNodeCountExceeded ast.nodeCount maxAstNodes)
              else if maxJsonDepth < ast.depth then
                self.reject (.depthExplosion ast.depth maxJsonDepth)
              else if self.maxMemoryRegion.toNat < ast.memoryFootprint then
                self.reject (.memoryBounds 0 ast.memoryFootprint self.maxMemoryRegion.toNat)
              else
                match ast.validateLeafBounds display with
                | .error e => self.reject e
                | .ok () => next self ast

def proveJsonSafety (self : Z3FormalValidator) (output : ByteArray) :
    Except PayloadViolation Unit × Z3FormalValidator :=
  self.proveBounds display parser output fun self _ => (.ok (), self)

def proveSafety (self : Z3FormalValidator) (output : ByteArray) :
    Except PayloadViolation Unit × Z3FormalValidator :=
  self.proveBounds display parser output fun self ast =>
    match proveSchemaConstraints display ast executionPayloadSchema with
    | .error e => self.reject e
    | .ok () => (.ok (), self)

/-! ### The envelope -/

/-- The bounds on a value, over its nodes. -/
structure WithinEnvelope (region : ℕ) (v : Json Number) : Prop where
  nodes : v.nodes.length ≤ maxAstNodes
  depth : v.level maxJsonDepth = []
  memory : (v.nodes.map nodeWeight).sum ≤ region
  bounded : ∀ w ∈ v.nodes, NodeBounded w

/-- The tree of a payload as it is written. -/
def Written (parser : JsonParser) (output : ByteArray) (written : Json Number) : Prop :=
  ∃ outputStr, String.fromUTF8? output = some outputStr ∧ parser.fromStr outputStr = .ok written

/-- The bytes are a text of a JSON tree, and its value is within the bounds. -/
structure Admits (parser : JsonParser) (validator : Z3FormalValidator) (output : ByteArray)
    (written : Json Number) : Prop where
  text : ∃ outputStr, String.fromUTF8? output = some outputStr ∧
    outputStr.utf8ByteSize ≤ maxStringLength * 10 ∧ parser.fromStr outputStr = .ok written
  envelope : WithinEnvelope validator.maxMemoryRegion.toNat written.collapse

variable {display parser} {self : Z3FormalValidator} {output : ByteArray} {written : Json Number}

theorem Written.unique {written' : Json Number} (h : Written parser output written)
    (h' : Written parser output written') : written = written' := by
  obtain ⟨s, hs, hparse⟩ := h
  obtain ⟨s', hs', hparse'⟩ := h'
  rw [hs] at hs'
  cases hs'
  rw [hparse] at hparse'
  exact Except.ok.inj hparse'

theorem Written.of_admits (h : Admits parser self output written) :
    Written parser output written := by
  obtain ⟨s, hs, -, hparse⟩ := h.text
  exact ⟨s, hs, hparse⟩

theorem withinEnvelope_iff (display : Display) {v : Json Number} (hv : v.WellFormed) {region : ℕ} :
    WithinEnvelope region v ↔ (jsonValueToAst v).nodeCount ≤ maxAstNodes ∧
      (jsonValueToAst v).depth ≤ maxJsonDepth ∧ (jsonValueToAst v).memoryFootprint ≤ region ∧
        (jsonValueToAst v).validateLeafBounds display = .ok () := by
  rw [nodeCount_jsonValueToAst, depth_jsonValueToAst_le_iff, memoryFootprint_jsonValueToAst,
    validateLeafBounds_eq_ok_iff hv]
  exact ⟨fun h => ⟨h.nodes, h.depth, h.memory, h.bounded⟩,
    fun ⟨hnodes, hdepth, hmemory, hbounded⟩ => ⟨hnodes, hdepth, hmemory, hbounded⟩⟩

/-- Both entry points go on exactly with the payloads within the envelope. -/
theorem proveBounds_cases (display : Display) (parser : JsonParser) (output : ByteArray)
    (henabled : self.enabled = true) :
    (∃ written, Admits parser self output written ∧
      ∀ next, self.proveBounds display parser output next =
        next self.countValidation (jsonValueToAst written.collapse)) ∨
    ((¬∃ written, Admits parser self output written) ∧
      ∃ e, ∀ next,
        self.proveBounds display parser output next = self.countValidation.reject e) := by
  have hon : (!self.enabled) = false := by rw [henabled]; rfl
  unfold proveBounds
  simp only [hon, Bool.false_eq_true, if_false]
  cases htext : String.fromUTF8? output with
  | none =>
      refine .inr ⟨?_, _, fun _ => rfl⟩
      rintro ⟨written, ⟨s, hs, -⟩, -⟩
      rw [htext] at hs
      cases hs
  | some outputStr =>
      dsimp only
      by_cases hlong : maxStringLength * 10 < outputStr.utf8ByteSize
      · simp only [if_pos hlong]
        refine .inr ⟨?_, _, fun _ => rfl⟩
        rintro ⟨written, ⟨s, hs, hshort, -⟩, -⟩
        rw [htext] at hs
        cases hs
        exact Nat.not_le.mpr hlong hshort
      simp only [if_neg hlong]
      cases hparse : parser.fromStr outputStr with
      | error reason =>
          simp only [parseToAst, hparse]
          refine .inr ⟨?_, _, fun _ => rfl⟩
          rintro ⟨written, ⟨s, hs, -, hwritten⟩, -⟩
          rw [htext] at hs
          cases hs
          rw [hparse] at hwritten
          cases hwritten
      | ok written =>
          have hadmitted : WithinEnvelope self.maxMemoryRegion.toNat written.collapse →
              Admits parser self output written := fun henvelope =>
            ⟨⟨outputStr, htext, Nat.not_lt.mp hlong, hparse⟩, henvelope⟩
          have hadmits : (∃ written, Admits parser self output written) ↔
              WithinEnvelope self.maxMemoryRegion.toNat written.collapse := by
            refine ⟨?_, fun henvelope => ⟨written, hadmitted henvelope⟩⟩
            rintro ⟨written', hadmits'⟩
            rw [← (Written.of_admits hadmits').unique ⟨outputStr, htext, hparse⟩]
            exact hadmits'.envelope
          rw [hadmits]
          rw [withinEnvelope_iff display written.wellFormed_collapse] at hadmitted ⊢
          simp only [parseToAst, hparse]
          generalize hast : jsonValueToAst written.collapse = ast at hadmitted ⊢
          by_cases hnodes : maxAstNodes < ast.nodeCount
          · simp only [if_pos hnodes]
            exact .inr ⟨fun h => Nat.not_le.mpr hnodes h.1, _, fun _ => rfl⟩
          by_cases hdepth : maxJsonDepth < ast.depth
          · simp only [if_neg hnodes, if_pos hdepth]
            exact .inr ⟨fun h => Nat.not_le.mpr hdepth h.2.1, _, fun _ => rfl⟩
          by_cases hmemory : self.maxMemoryRegion.toNat < ast.memoryFootprint
          · simp only [if_neg hnodes, if_neg hdepth]
            refine .inr ⟨fun h => Nat.not_le.mpr hmemory h.2.2.1, _, fun _ => if_pos hmemory⟩
          cases hleaves : ast.validateLeafBounds display with
          | error e =>
              simp only [if_neg hnodes, if_neg hdepth]
              exact .inr ⟨fun h => (by cases h.2.2.2), e, fun _ => if_neg hmemory⟩
          | ok _ =>
              simp only [if_neg hnodes, if_neg hdepth]
              refine .inl ⟨written, hadmitted ?_, fun _ => ?_⟩
              · exact ⟨Nat.not_lt.mp hnodes, Nat.not_lt.mp hdepth, Nat.not_lt.mp hmemory, hleaves⟩
              · rw [hast]
                exact if_neg hmemory

theorem proveJsonSafety_eq_ok_iff (henabled : self.enabled = true) :
    (self.proveJsonSafety display parser output).1 = .ok () ↔
      ∃ written, Admits parser self output written := by
  unfold proveJsonSafety
  rcases proveBounds_cases display parser output henabled with
    ⟨written, hadmits, hnext⟩ | ⟨hnone, e, hreject⟩
  · rw [hnext]
    exact iff_of_true rfl ⟨written, hadmits⟩
  · rw [hreject]
    exact iff_of_false (fun h => by cases h) hnone

theorem proveSafety_eq_ok_iff (henabled : self.enabled = true) :
    (self.proveSafety display parser output).1 = .ok () ↔
      ∃ written, Admits parser self output written ∧
        proveSchemaConstraints display (jsonValueToAst written.collapse) executionPayloadSchema =
          .ok () := by
  unfold proveSafety
  rcases proveBounds_cases display parser output henabled with
    ⟨written, hadmits, hnext⟩ | ⟨hnone, e, hreject⟩
  · rw [hnext]
    cases hschema : proveSchemaConstraints display (jsonValueToAst written.collapse)
        executionPayloadSchema with
    | error e =>
        refine iff_of_false (fun h => by cases h) ?_
        rintro ⟨written', hadmits', hok⟩
        rw [(Written.of_admits hadmits').unique (.of_admits hadmits), hschema] at hok
        cases hok
    | ok _ => exact iff_of_true rfl ⟨written, hadmits, hschema⟩
  · rw [hreject]
    exact iff_of_false (fun h => by cases h) fun ⟨written, hadmits, _⟩ => hnone ⟨written, hadmits⟩

/-! ### Counters -/

/-- A call of one of the entry points. -/
inductive Call where
  | safety (output : ByteArray)
  | jsonSafety (output : ByteArray)

def call (display : Display) (parser : JsonParser) (self : Z3FormalValidator) :
    Call → Except PayloadViolation Unit × Z3FormalValidator
  | .safety output => self.proveSafety display parser output
  | .jsonSafety output => self.proveJsonSafety display parser output

@[grind =] def run (display : Display) (parser : JsonParser) :
    Z3FormalValidator → List Call → List (Except PayloadViolation Unit) × Z3FormalValidator
  | self, [] => ([], self)
  | self, c :: calls =>
      let (result, self) := self.call display parser c
      let (results, self) := run display parser self calls
      (result :: results, self)

def isRejection (result : Except PayloadViolation Unit) : Bool := !result.isOk

theorem call_counts (display : Display) (parser : JsonParser) (henabled : self.enabled = true)
    (c : Call) :
    (self.call display parser c).2 = { self with
      validationCount := self.validationCount + 1
      rejectionCount := self.rejectionCount +
        if isRejection (self.call display parser c).1 then 1 else 0 } := by
  have hbounds : ∀ output, ∀ next : Z3FormalValidator → AstNode →
      Except PayloadViolation Unit × Z3FormalValidator,
      (∀ self ast, (next self ast).2 = { self with
        rejectionCount := self.rejectionCount + if isRejection (next self ast).1 then 1 else 0 }) →
      (self.proveBounds display parser output next).2 = { self with
        validationCount := self.validationCount + 1
        rejectionCount := self.rejectionCount +
          if isRejection (self.proveBounds display parser output next).1 then 1 else 0 } := by
    intro output next hnext
    rcases proveBounds_cases display parser output henabled with
      ⟨written, -, heq⟩ | ⟨-, e, heq⟩
    · rw [heq, hnext]
      rfl
    · rw [heq]
      rfl
  cases c with
  | safety output =>
      refine hbounds output _ fun self ast => ?_
      cases proveSchemaConstraints display ast executionPayloadSchema with
      | error e => rfl
      | ok _ =>
          change self = { self with rejectionCount := self.rejectionCount + 0 }
          rw [UInt64.add_zero]
  | jsonSafety output =>
      refine hbounds output _ fun self _ => ?_
      change self = { self with rejectionCount := self.rejectionCount + 0 }
      rw [UInt64.add_zero]

theorem run_counts (display : Display) (parser : JsonParser) (henabled : self.enabled = true)
    (calls : List Call) :
    (self.run display parser calls).2.validationCount =
        self.validationCount + .ofNat calls.length ∧
      (self.run display parser calls).2.rejectionCount = self.rejectionCount +
        .ofNat ((self.run display parser calls).1.countP isRejection) := by
  induction calls generalizing self with
  | nil => exact ⟨(UInt64.add_zero _).symm, (UInt64.add_zero _).symm⟩
  | cons c calls ih =>
      have hcall := call_counts display parser henabled c
      have hon : (self.call display parser c).2.enabled = true := by
        rw [hcall]
        exact henabled
      obtain ⟨hvalidations, hrejections⟩ := ih hon
      constructor
      · change ((self.call display parser c).2.run display parser calls).2.validationCount = _
        rw [hvalidations, hcall, List.length_cons, UInt64.ofNat_add, UInt64.add_comm (.ofNat _),
          ← UInt64.add_assoc]
        rfl
      · change ((self.call display parser c).2.run display parser calls).2.rejectionCount =
          self.rejectionCount + .ofNat (((self.call display parser c).1 ::
            ((self.call display parser c).2.run display parser calls).1).countP isRejection)
        rw [hrejections, List.countP_cons, UInt64.ofNat_add, UInt64.add_comm (.ofNat _),
          ← UInt64.add_assoc]
        congr 1
        rw [hcall]
        split <;> rfl

/-- The envelope of an enabled validator is exact, the check of an execution payload is
no weaker, and the counters of a run count its calls and its errors. -/
theorem safety_envelope_exact (display : Display) (parser : JsonParser)
    (henabled : self.enabled = true) :
    (∀ output, (self.proveJsonSafety display parser output).1 = .ok () ↔
        ∃ written, Admits parser self output written) ∧
      (∀ output, (self.proveSafety display parser output).1 = .ok () →
        (self.proveJsonSafety display parser output).1 = .ok ()) ∧
      ∀ calls, (self.run display parser calls).2.validationCount =
          self.validationCount + .ofNat calls.length ∧
        (self.run display parser calls).2.rejectionCount = self.rejectionCount +
          .ofNat ((self.run display parser calls).1.countP isRejection) := by
  refine ⟨fun output => proveJsonSafety_eq_ok_iff henabled, fun output hok => ?_,
    run_counts display parser henabled⟩
  obtain ⟨written, hadmits, -⟩ := (proveSafety_eq_ok_iff henabled).mp hok
  exact (proveJsonSafety_eq_ok_iff henabled).mpr ⟨written, hadmits⟩

theorem fromUTF8?_toByteArray (s : String) : String.fromUTF8? s.toByteArray = some s :=
  dif_pos s.isValidUTF8

/-- A parser of the shortest payload. -/
def nullParser : JsonParser where
  fromStr s := if s = "null" then .ok .null else .error "expected value at line 1 column 1"

/-- A payload is accepted, a byte that is no text is refused, and both are counted. -/
theorem safety_envelope_exact_byte :
    (Z3FormalValidator.new true).enabled = true ∧
      ((new true).proveJsonSafety ⟨fun _ => "", fun _ => ""⟩ nullParser
        "null".toByteArray).1 = .ok () ∧
      ((new true).run ⟨fun _ => "", fun _ => ""⟩ nullParser
        [.jsonSafety "null".toByteArray, .jsonSafety ⟨#[0xFF]⟩]).2.validationCount = 2 := by
  obtain ⟨hexact, -, hcounts⟩ := safety_envelope_exact ⟨fun _ => "", fun _ => ""⟩ nullParser
    (rfl : (new true).enabled = true)
  have henvelope : WithinEnvelope (new true).maxMemoryRegion.toNat Json.null.collapse :=
    (withinEnvelope_iff ⟨fun _ => "", fun _ => ""⟩ (Json.wellFormed_collapse _)).mpr
      ⟨by decide, by decide, by decide, rfl⟩
  exact ⟨rfl, (hexact _).mpr ⟨.null, ⟨"null", fromUTF8?_toByteArray _, by decide, rfl⟩, henvelope⟩,
    (hcounts _).1⟩

/-! ### What an accepted payload hides -/

/-- The value of a member satisfies a constraint. -/
def Satisfies (display : Display) (constraint : FieldConstraint) (e : String × Json Number) :
    Prop :=
  proveFieldConstraint display constraint.name (jsonValueToAst e.2.collapse)
    constraint.fieldType = .ok ()

def covered (constraint : FieldConstraint) : Json Number → List (String × Json Number)
  | .object members => members.filter fun e => constraint.covers e.1
  | _ => []

/-- No key is there twice, all members that a constraint is about satisfy it, and the
count of the nodes is within the fuel budget. -/
structure HidesNothing (display : Display) (validator : Z3FormalValidator)
    (written : Json Number) : Prop where
  keys : written.WellFormed
  fields : ∀ constraint ∈ executionPayloadSchema, ∀ e ∈ covered constraint written,
    Satisfies display constraint e
  fuel : (jsonValueToAst written.collapse).nodeCount ≤ validator.maxFuelBudget.toNat

/-- The checks of the fields, as they are made on the value: on its keys, and on the first
member that each constraint is about. -/
structure SchemaHolds (display : Display) (v : Json Number) : Prop where
  keys : ∃ members, v = .object members ∧ members.length ≤ maxObjectKeys ∧
    ∀ e ∈ members, suspicious e.1 = false
  first : ∀ constraint ∈ executionPayloadSchema, ∀ e, (covered constraint v).head? = some e →
    Satisfies display constraint e
  present : ∀ constraint ∈ executionPayloadSchema, constraint.required = true →
    covered constraint v ≠ []

/-- A text that passes the checks: its value, from which nothing can be told of keys that
the text has twice, is within the envelope, and its fields are right as far as they are
looked at. -/
structure PassesChecks (display : Display) (parser : JsonParser) (validator : Z3FormalValidator)
    (output : ByteArray) (written : Json Number) : Prop where
  admits : Admits parser validator output written
  schema : SchemaHolds display written.collapse

/-- The three things that no check looks at: members that the map drops, the value under
the second of the two names of a field, and a tree that exceeds the fuel budget. -/
def Overlooked (display : Display) (validator : Z3FormalValidator) (written : Json Number) :
    Prop :=
  written.collapse ≠ written ∨
    (∃ constraint ∈ executionPayloadSchema, ∃ first second,
      covered constraint written = [first, second] ∧ ¬Satisfies display constraint second) ∨
    validator.maxFuelBudget.toNat < written.collapse.nodes.length

/-- The constraints hold of the first members that they are about. -/
theorem proveConstraints_eq_ok_iff {entries : List (String × AstNode)}
    {schema : List FieldConstraint} :
    proveConstraints display entries schema = .ok () ↔ ∀ constraint ∈ schema,
      (∀ e, entries.find? (fun e => constraint.covers e.1) = some e →
        proveFieldConstraint display constraint.name e.2 constraint.fieldType = .ok ()) ∧
      (constraint.required = true → entries.find? (fun e => constraint.covers e.1) ≠ none) := by
  induction schema with
  | nil => exact iff_of_true rfl (List.forall_mem_nil _)
  | cons c schema ih =>
      rw [List.forall_mem_cons, ← ih, proveConstraints]
      cases hc : entries.find? (fun e => c.covers e.1) with
      | none => cases hrequired : c.required <;> simp
      | some first =>
          cases hvalue : proveFieldConstraint display c.name first.2 c.fieldType with
          | error e => simp [hvalue]
          | ok _ => simp [hvalue]

theorem find?_memberToAst (constraint : FieldConstraint) (members : List (String × Json Number)) :
    (members.map memberToAst).find? (fun e => constraint.covers e.1) =
      (covered constraint (.object members)).head?.map memberToAst := by
  rw [covered, List.head?_filter, List.find?_map]
  rfl

theorem jsonValueToAst_eq_object {v : Json Number} {entries : List (String × AstNode)}
    (h : jsonValueToAst v = .object entries) : ∃ members, v = .object members := by
  cases v with
  | object members => exact ⟨members, rfl⟩
  | number n =>
      obtain ⟨i, hi⟩ | ⟨f, hf⟩ := jsonValueToAst_number n
      · rw [hi] at h
        cases h
      · rw [hf] at h
        cases h
  | _ => cases h

theorem proveSchemaConstraints_eq_ok_iff {v : Json Number} (hv : v.WellFormed) :
    proveSchemaConstraints display (jsonValueToAst v) executionPayloadSchema = .ok () ↔
      SchemaHolds display v := by
  by_cases hobject : ∃ members, v = .object members
  · obtain ⟨members, rfl⟩ := hobject
    have hvalue : ∀ constraint e, (covered constraint (.object members)).head? = some e →
        jsonValueToAst e.2.collapse = (memberToAst e).2 := by
      intro constraint e he
      rw [covered, List.head?_filter] at he
      rw [((Json.wellFormed_object.mp hv).2 e (List.mem_of_find?_eq_some he)).collapse]
      rfl
    have hfields : proveConstraints display (members.map memberToAst) executionPayloadSchema =
        .ok () ↔ (∀ constraint ∈ executionPayloadSchema, ∀ e,
          (covered constraint (.object members)).head? = some e →
            Satisfies display constraint e) ∧
          ∀ constraint ∈ executionPayloadSchema, constraint.required = true →
            covered constraint (.object members) ≠ [] := by
      rw [proveConstraints_eq_ok_iff, ← forall₂_and]
      refine forall₂_congr fun constraint _ => ?_
      rw [find?_memberToAst]
      refine and_congr ⟨fun h e he => ?_, fun h e he => ?_⟩ (imp_congr_right fun _ => ?_)
      · rw [Satisfies, hvalue constraint e he]
        exact h (memberToAst e) (congrArg (Option.map memberToAst) he)
      · obtain ⟨member, hmember, rfl⟩ := Option.map_eq_some_iff.mp he
        have hsatisfied := h member hmember
        rwa [Satisfies, hvalue constraint member hmember] at hsatisfied
      · rw [Ne, Option.map_eq_none_iff, List.head?_eq_none_iff]
    have hkeys : ((members.map memberToAst).find? fun e => suspicious e.1) = none ↔
        ∀ e ∈ members, suspicious e.1 = false := by
      rw [List.find?_eq_none, List.forall_mem_map]
      simp [memberToAst]
    rw [jsonValueToAst_object, proveSchemaConstraints, List.length_map]
    constructor
    · intro h
      split at h
      · cases h
      · rename_i hcount
        split at h
        · cases h
        · rename_i hplain
          obtain ⟨hfirst, hpresent⟩ := hfields.mp h
          exact ⟨⟨members, rfl, Nat.not_lt.mp hcount, hkeys.mp hplain⟩, hfirst, hpresent⟩
    · intro h
      obtain ⟨members', hmembers, hcount, hplain⟩ := h.keys
      cases hmembers
      rw [if_neg (Nat.not_lt.mpr hcount), hkeys.mpr hplain]
      exact hfields.mpr ⟨h.first, h.present⟩
  · refine iff_of_false (fun h => ?_) fun h => ?_
    · unfold proveSchemaConstraints at h
      split at h
      · rename_i hentries
        exact hobject (jsonValueToAst_eq_object hentries)
      · cases h
    · obtain ⟨members, hmembers, -⟩ := h.keys
      exact hobject ⟨members, hmembers⟩

theorem accepted_iff_passesChecks (henabled : self.enabled = true)
    (hwritten : Written parser output written) :
    (self.proveSafety display parser output).1 = .ok () ↔
      PassesChecks display parser self output written := by
  rw [proveSafety_eq_ok_iff henabled]
  constructor
  · rintro ⟨written', hadmits, hschema⟩
    obtain rfl := (Written.of_admits hadmits).unique hwritten
    exact ⟨hadmits, (proveSchemaConstraints_eq_ok_iff (Json.wellFormed_collapse _)).mp hschema⟩
  · intro h
    exact ⟨written, h.admits,
      (proveSchemaConstraints_eq_ok_iff (Json.wellFormed_collapse _)).mpr h.schema⟩

theorem length_covered_le (hkeys : written.WellFormed) {constraint : FieldConstraint}
    (hmem : constraint ∈ executionPayloadSchema) : (covered constraint written).length ≤ 2 := by
  cases written with
  | object members =>
      have hnames : ∀ constraint ∈ executionPayloadSchema, constraint.aliases.length = 1 := by
        decide
      have hnodup : ((covered constraint (.object members)).map Prod.fst).Nodup :=
        (Json.wellFormed_object.mp hkeys).1.sublist (List.filter_sublist.map _)
      have hsubset : (covered constraint (.object members)).map Prod.fst ⊆
          constraint.name :: constraint.aliases := by
        intro key hkey
        obtain ⟨e, he, rfl⟩ := List.mem_map.mp hkey
        have hcovers := (List.mem_filter.mp he).2
        simpa [FieldConstraint.covers] using hcovers
      have hle := (hnodup.subperm hsubset).length_le
      rwa [List.length_map, List.length_cons, hnames constraint hmem] at hle
  | _ => exact Nat.zero_le 2

/-! ### Two payloads -/

def oneScore : Json Number :=
  .object [("networkId", .string "e"), ("taskType", .string "s"),
    ("confidenceScore", .number (.posInt 0))]

def oneScoreText : String := "\x7b\"networkId\":\"e\",\"taskType\":\"s\",\"confidenceScore\":0\x7d"

/-- A payload with another score under the other name. -/
def twoScores : Json Number :=
  .object [("networkId", .string "e"), ("taskType", .string "s"),
    ("confidenceScore", .number (.posInt 0)), ("confidence_score", .number (.posInt 5))]

def twoScoresText : String :=
  "\x7b\"networkId\":\"e\",\"taskType\":\"s\",\"confidenceScore\":0,\"confidence_score\":5\x7d"

def scoreParser : JsonParser where
  fromStr s :=
    if s = oneScoreText then .ok oneScore
    else if s = twoScoresText then .ok twoScores
    else .error "expected value at line 1 column 1"

/-- A short tree whose keys differ is within the envelope. -/
theorem accepted_of_envelope {display : Display} {parser : JsonParser} {text : String}
    {written : Json Number} (hshort : text.utf8ByteSize ≤ maxStringLength * 10)
    (hparse : parser.fromStr text = .ok written)
    (henvelope : WithinEnvelope (new true).maxMemoryRegion.toNat written.collapse)
    (hschema : proveSchemaConstraints display (jsonValueToAst written.collapse)
      executionPayloadSchema = .ok ()) :
    ((new true).proveSafety display parser text.toByteArray).1 = .ok () :=
  (proveSafety_eq_ok_iff rfl).mpr
    ⟨written, ⟨⟨text, fromUTF8?_toByteArray text, hshort, hparse⟩, henvelope⟩, hschema⟩

theorem accepted_oneScore (display : Display) :
    ((new true).proveSafety display scoreParser oneScoreText.toByteArray).1 = .ok () := by
  have hcollapse : oneScore.collapse = oneScore := rfl
  have hparse : scoreParser.fromStr oneScoreText = .ok oneScore := rfl
  refine accepted_of_envelope (by decide) hparse ?_ ?_
  · refine (withinEnvelope_iff display (Json.wellFormed_collapse _)).mpr ?_
    rw [hcollapse]
    exact ⟨by decide, by decide, by decide, rfl⟩
  · rw [hcollapse]
    rfl

theorem accepted_twoScores (display : Display) :
    ((new true).proveSafety display scoreParser twoScoresText.toByteArray).1 = .ok () := by
  have hcollapse : twoScores.collapse = twoScores := rfl
  have hparse : scoreParser.fromStr twoScoresText = .ok twoScores := rfl
  refine accepted_of_envelope (by decide) hparse ?_ ?_
  · refine (withinEnvelope_iff display (Json.wellFormed_collapse _)).mpr ?_
    rw [hcollapse]
    exact ⟨by decide, by decide, by decide, rfl⟩
  · rw [hcollapse]
    rfl

/-! ### The condition -/

/-- What is let in hides nothing, unless a text passes the checks with something in it that
none of them looks at. -/
theorem hidesNothing_iff (henabled : self.enabled = true)
    (hwritten : Written parser output written) :
    ((self.proveSafety display parser output).1 = .ok () → HidesNothing display self written) ↔
      ¬(PassesChecks display parser self output written ∧ Overlooked display self written) := by
  rw [accepted_iff_passesChecks henabled hwritten, not_and]
  refine imp_congr_right fun hpasses => ?_
  have hfuel : HidesNothing display self written →
      written.collapse.nodes.length ≤ self.maxFuelBudget.toNat := fun h => by
    rw [← nodeCount_jsonValueToAst]
    exact h.fuel
  constructor
  · rintro h (hdropped | ⟨constraint, hmem, first, second, hcovered, hbad⟩ | hlarge)
    · exact hdropped h.keys.collapse
    · refine hbad (h.fields constraint hmem second ?_)
      rw [hcovered]
      exact List.mem_cons_of_mem _ List.mem_cons_self
    · exact absurd (hfuel h) (Nat.not_le.mpr hlarge)
  · intro hlooked
    have hcollapse : written.collapse = written := not_not.mp fun h => hlooked (.inl h)
    have hkeys : written.WellFormed := hcollapse ▸ Json.wellFormed_collapse written
    refine ⟨hkeys, fun constraint hmem e he => ?_, ?_⟩
    · have hfirst := hpasses.schema.first constraint hmem
      have hlength := length_covered_le hkeys hmem
      have hsecond := fun first second hcovered => not_not.mp fun hbad =>
        hlooked (.inr (.inl ⟨constraint, hmem, first, second, hcovered, hbad⟩))
      rw [hcollapse] at hfirst
      match hmembers : covered constraint written with
      | [] =>
          rw [hmembers] at he
          cases he
      | [first] =>
          rw [hmembers] at he hfirst
          obtain rfl := List.mem_singleton.mp he
          exact hfirst e rfl
      | [first, second] =>
          rw [hmembers] at he hfirst
          rcases List.mem_pair.mp he with rfl | rfl
          · exact hfirst e rfl
          · exact hsecond first e hmembers
      | first :: second :: third :: rest =>
          rw [hmembers] at hlength
          simp at hlength
    · rw [nodeCount_jsonValueToAst]
      exact Nat.not_lt.mp fun hlarge => hlooked (.inr (.inr hlarge))

/-- One score is accepted, and nothing is overlooked. -/
theorem hidesNothing_iff_oneScore :
    HidesNothing ⟨fun _ => "", fun _ => ""⟩ (new true) oneScore := by
  have hone : ∀ constraint ∈ executionPayloadSchema,
      (covered constraint oneScore).length ≤ 1 := by decide
  have hcollapse : oneScore.collapse = oneScore := rfl
  refine (hidesNothing_iff (rfl : (new true).enabled = true)
    ⟨oneScoreText, fromUTF8?_toByteArray _, rfl⟩).mpr ?_ (accepted_oneScore _)
  rintro ⟨-, hdropped | ⟨constraint, hmem, first, second, hcovered, -⟩ | hlarge⟩
  · exact hdropped hcollapse
  · have hshort := hone constraint hmem
    rw [hcovered] at hshort
    simp at hshort
  · exact absurd hlarge (by decide)

/-- The score under the second name is not looked at. -/
theorem accepted_hidden_score :
    ¬∀ (display : Display) (parser : JsonParser) (self : Z3FormalValidator) (output : ByteArray)
      (written : Json Number), self.enabled = true →
        (self.proveSafety display parser output).1 = .ok () → Written parser output written →
          HidesNothing display self written := by
  intro h
  have hidden := h ⟨fun _ => "", fun _ => ""⟩ scoreParser (new true) twoScoresText.toByteArray
    twoScores rfl (accepted_twoScores _) ⟨twoScoresText, fromUTF8?_toByteArray _, rfl⟩
  have hscore := hidden.fields ⟨"confidenceScore", ["confidence_score"],
    .floatRange (.finite 0) (.finite 1), true⟩ (by simp [executionPayloadSchema])
    ("confidence_score", .number (.posInt 5))
    (List.mem_filter.mpr ⟨by simp, by decide⟩)
  exact absurd (congrArg Except.isOk hscore) (by decide)

end Z3FormalValidator

end SereinGateway.Core
