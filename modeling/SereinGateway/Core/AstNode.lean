import Mathlib
import SereinGateway.Lib.JsonTree

/-!
`AstNode`, the tree that the formal validator measures.

It is made of the JSON value of a payload. Numbers are 64-bit integers where they fit
and floats otherwise, and a float of a JSON text is finite. The measures of the tree
are sums over the nodes of the JSON value, and its leaf bounds are bounds on each of
them.
-/

namespace SereinGateway.Core

open SereinGateway.Lib

def maxJsonDepth : ℕ := 32

def maxStringLength : ℕ := 64 * 1024

def maxObjectKeys : ℕ := 256

def maxAstNodes : ℕ := 10000

/-- `u32::MAX` -/
def maxNumericValue : ℕ := 2 ^ 32 - 1

def maxAstStringLength : ℕ := 64 * 1024

/-! ### Numbers -/

inductive F64 where
  | finite (q : ℚ)
  | infinite (negative : Bool)
  | nan
  deriving DecidableEq

/-- `as f64` of an unsigned integer: 53 digits, ties to even. -/
def roundToF64 (n : ℕ) : ℕ :=
  if n < 2 ^ 53 then n
  else
    let ulp := 2 ^ (n.log2 - 52)
    if 2 * (n % ulp) < ulp ∨ 2 * (n % ulp) = ulp ∧ n / ulp % 2 = 0 then n / ulp * ulp
    else (n / ulp + 1) * ulp

/-- `as f64` of a signed integer. -/
def i64AsF64 (n : Int64) : ℚ :=
  if 0 ≤ n.toInt then roundToF64 n.toInt.natAbs else -roundToF64 n.toInt.natAbs

inductive Number where
  | posInt (n : UInt64)
  | negInt (n : Int64)
  | float (q : ℚ)

namespace Number

def asI64 : Number → Option Int64
  | posInt n => if n.toNat < 2 ^ 63 then some (.ofNat n.toNat) else none
  | negInt n => some n
  | float _ => none

def asF64 : Number → Option F64
  | posInt n => some (.finite (roundToF64 n.toNat))
  | negInt n => some (.finite (i64AsF64 n))
  | float q => some (.finite q)

def magnitude : Number → ℚ
  | posInt n => n.toNat
  | negInt n => n.toInt.natAbs
  | float q => |q|

end Number

/-! ### The tree -/

inductive AstNode where
  | null
  | bool (b : Bool)
  | integer (v : Int64)
  | float (v : F64)
  | string (s : String)
  | array (items : List AstNode)
  | object (entries : List (String × AstNode))

inductive PayloadViolation where
  | memoryBounds (offset length regionSize : ℕ)
  | structuralIntegrity (reason : String)
  | depthExplosion (depth maximum : ℕ)
  | numericOverflow (value maximum : ℕ)
  | proofFailure (reason : String)
  | astNodeCountExceeded (count maximum : ℕ)
  | invalidUtf8
  | jsonParseError (reason : String)
  | schemaConstraintViolated (constraint : String)
  deriving DecidableEq

/-- The texts that the standard library makes of values. -/
structure Display where
  float : F64 → String
  /-- `{:?}` of a list of strings. -/
  debug : List String → String

/-- `as u64` of a float that is not negative. -/
def floatAsU64 (q : ℚ) : ℕ := min ⌊q⌋.toNat (2 ^ 64 - 1)

namespace AstNode

mutual

@[grind =] def nodeCount : AstNode → ℕ
  | array items => 1 + nodeCountItems items
  | object entries => 1 + nodeCountEntries entries
  | _ => 1

@[grind =] def nodeCountItems : List AstNode → ℕ
  | [] => 0
  | n :: items => nodeCount n + nodeCountItems items

@[grind =] def nodeCountEntries : List (String × AstNode) → ℕ
  | [] => 0
  | (_, v) :: entries => nodeCount v + nodeCountEntries entries

end

mutual

@[grind =] def depth : AstNode → ℕ
  | array items => 1 + depthItems items
  | object entries => 1 + depthEntries entries
  | _ => 1

@[grind =] def depthItems : List AstNode → ℕ
  | [] => 0
  | n :: items => max (depth n) (depthItems items)

@[grind =] def depthEntries : List (String × AstNode) → ℕ
  | [] => 0
  | (_, v) :: entries => max (depth v) (depthEntries entries)

end

mutual

/-- Lengths of strings are in bytes. -/
@[grind =] def memoryFootprint : AstNode → ℕ
  | string s => 8 + s.utf8ByteSize
  | array items => 8 + memoryFootprintItems items
  | object entries => 8 + memoryFootprintEntries entries
  | _ => 8

@[grind =] def memoryFootprintItems : List AstNode → ℕ
  | [] => 0
  | n :: items => memoryFootprint n + memoryFootprintItems items

@[grind =] def memoryFootprintEntries : List (String × AstNode) → ℕ
  | [] => 0
  | (k, v) :: entries => k.utf8ByteSize + memoryFootprint v + memoryFootprintEntries entries

end

section LeafBounds

variable (display : Display)

mutual

@[grind =] def validateLeafBounds : AstNode → Except PayloadViolation Unit
  | null | bool _ => .ok ()
  | integer v =>
      if maxNumericValue < v.toInt.natAbs then
        .error (.numericOverflow v.toInt.natAbs maxNumericValue)
      else .ok ()
  | float (.finite q) =>
      if maxNumericValue < |q| then .error (.numericOverflow (floatAsU64 |q|) maxNumericValue)
      else .ok ()
  | float v => .error (.proofFailure ("Non-finite float value: " ++ display.float v))
  | string s =>
      if maxAstStringLength < s.utf8ByteSize then
        .error (.memoryBounds 0 s.utf8ByteSize maxAstStringLength)
      else .ok ()
  | array items => validateItems items
  | object entries => validateEntries [] entries

@[grind =] def validateItems : List AstNode → Except PayloadViolation Unit
  | [] => .ok ()
  | n :: items =>
      match validateLeafBounds n with
      | .error e => .error e
      | .ok () => validateItems items

@[grind =] def validateEntries (seenKeys : List String) :
    List (String × AstNode) → Except PayloadViolation Unit
  | [] => .ok ()
  | (key, value) :: entries =>
      if maxAstStringLength < key.utf8ByteSize then
        .error (.memoryBounds 0 key.utf8ByteSize maxAstStringLength)
      else if key ∈ seenKeys then
        .error (.structuralIntegrity ("Duplicate key in object: '" ++ key ++ "'"))
      else
        match validateLeafBounds value with
        | .error e => .error e
        | .ok () => validateEntries (key :: seenKeys) entries

end

end LeafBounds

end AstNode

mutual

/-- `json_value_to_ast`, which never fails. -/
@[grind =] def jsonValueToAst : Json Number → AstNode
  | .null => .null
  | .bool b => .bool b
  | .number n =>
      match n.asI64 with
      | some i => .integer i
      | none => (n.asF64).elim (.integer 0) .float
  | .string s => .string s
  | .array elems => .array (elemsToAst elems)
  | .object members => .object (membersToAst members)

@[grind =] def elemsToAst : List (Json Number) → List AstNode
  | [] => []
  | v :: elems => jsonValueToAst v :: elemsToAst elems

@[grind =] def membersToAst : List (String × Json Number) → List (String × AstNode)
  | [] => []
  | (k, v) :: members => (k, jsonValueToAst v) :: membersToAst members

end

/-! ### The measures over the nodes of the value -/

/-- What a node takes of the memory. -/
def nodeWeight : Json Number → ℕ
  | .string s => 8 + s.utf8ByteSize
  | .object members => 8 + (members.map fun e => e.1.utf8ByteSize).sum
  | _ => 8

/-- The bounds on a node: on its text, its keys, or its number. -/
def NodeBounded : Json Number → Prop
  | .string s => s.utf8ByteSize ≤ maxAstStringLength
  | .object members => ∀ e ∈ members, e.1.utf8ByteSize ≤ maxAstStringLength
  | .number n => n.magnitude ≤ maxNumericValue
  | _ => True

theorem jsonValueToAst_array (elems : List (Json Number)) :
    jsonValueToAst (.array elems) = .array (elems.map jsonValueToAst) := by
  have hmap : elemsToAst elems = elems.map jsonValueToAst := by
    induction elems with
    | nil => rfl
    | cons v elems ih => rw [elemsToAst, ih, List.map_cons]
  rw [jsonValueToAst, hmap]

/-- Conversion below a key. -/
def memberToAst (e : String × Json Number) : String × AstNode := (e.1, jsonValueToAst e.2)

theorem jsonValueToAst_object (members : List (String × Json Number)) :
    jsonValueToAst (.object members) = .object (members.map memberToAst) := by
  have hmap : membersToAst members = members.map memberToAst := by
    induction members with
    | nil => rfl
    | cons e members ih =>
        obtain ⟨k, v⟩ := e
        rw [membersToAst, ih, List.map_cons]
        rfl
  rw [jsonValueToAst, hmap]

theorem jsonValueToAst_number (n : Number) : (∃ i, jsonValueToAst (.number n) = .integer i) ∨
    ∃ f, jsonValueToAst (.number n) = .float f := by
  rw [jsonValueToAst]
  cases n.asI64 with
  | some i => exact .inl ⟨i, rfl⟩
  | none =>
      cases n.asF64 with
      | none => exact .inl ⟨0, rfl⟩
      | some f => exact .inr ⟨f, rfl⟩

namespace AstNode

theorem nodeCountItems_eq (items : List AstNode) :
    nodeCountItems items = (items.map nodeCount).sum := by
  induction items with
  | nil => rfl
  | cons n items ih => rw [nodeCountItems, ih, List.map_cons, List.sum_cons]

theorem nodeCountEntries_eq (entries : List (String × AstNode)) :
    nodeCountEntries entries = (entries.map fun e => nodeCount e.2).sum := by
  induction entries with
  | nil => rfl
  | cons e entries ih => rw [nodeCountEntries, ih, List.map_cons, List.sum_cons]

theorem memoryFootprintItems_eq (items : List AstNode) :
    memoryFootprintItems items = (items.map memoryFootprint).sum := by
  induction items with
  | nil => rfl
  | cons n items ih => rw [memoryFootprintItems, ih, List.map_cons, List.sum_cons]

theorem memoryFootprintEntries_eq (entries : List (String × AstNode)) :
    memoryFootprintEntries entries =
      (entries.map fun e => e.1.utf8ByteSize + memoryFootprint e.2).sum := by
  induction entries with
  | nil => rfl
  | cons e entries ih => rw [memoryFootprintEntries, ih, List.map_cons, List.sum_cons]

theorem depthItems_le_iff {items : List AstNode} {d : ℕ} :
    depthItems items ≤ d ↔ ∀ n ∈ items, depth n ≤ d := by
  induction items with
  | nil => simp [depthItems]
  | cons n items ih => rw [depthItems, max_le_iff, ih, List.forall_mem_cons]

theorem depthEntries_le_iff {entries : List (String × AstNode)} {d : ℕ} :
    depthEntries entries ≤ d ↔ ∀ e ∈ entries, depth e.2 ≤ d := by
  induction entries with
  | nil => simp [depthEntries]
  | cons e entries ih => rw [depthEntries, max_le_iff, ih, List.forall_mem_cons]

theorem depth_pos (n : AstNode) : 0 < depth n := by
  cases n <;> simp [depth]

end AstNode

theorem nodeCount_jsonValueToAst (v : Json Number) :
    (jsonValueToAst v).nodeCount = v.nodes.length := by
  induction v using Json.induct with
  | null => rfl
  | bool b => rfl
  | number n => rcases jsonValueToAst_number n with ⟨i, h⟩ | ⟨f, h⟩ <;> rw [h] <;> rfl
  | string s => rfl
  | array elems ih =>
      rw [jsonValueToAst_array, AstNode.nodeCount, AstNode.nodeCountItems_eq, List.map_map,
        Json.nodes_array, List.length_cons, List.length_flatMap, Nat.add_comm]
      congr 2
      exact List.map_congr_left ih
  | object members ih =>
      rw [jsonValueToAst_object, AstNode.nodeCount, AstNode.nodeCountEntries_eq, List.map_map,
        Json.nodes_object, List.length_cons, List.length_flatMap, Nat.add_comm]
      congr 2
      exact List.map_congr_left ih

theorem memoryFootprint_jsonValueToAst (v : Json Number) :
    (jsonValueToAst v).memoryFootprint = (v.nodes.map nodeWeight).sum := by
  induction v using Json.induct with
  | null => rfl
  | bool b => rfl
  | number n => rcases jsonValueToAst_number n with ⟨i, h⟩ | ⟨f, h⟩ <;> rw [h] <;> rfl
  | string s => rfl
  | array elems ih =>
      rw [jsonValueToAst_array, AstNode.memoryFootprint, AstNode.memoryFootprintItems_eq,
        List.map_map, Json.nodes_array, List.map_cons, List.sum_cons, Json.sum_map_flatMap]
      congr 2
      exact List.map_congr_left ih
  | object members ih =>
      have hsum : (members.map fun e =>
          e.1.utf8ByteSize + (jsonValueToAst e.2).memoryFootprint).sum =
            (members.map fun e => e.1.utf8ByteSize).sum +
              (members.map fun e => (e.2.nodes.map nodeWeight).sum).sum := by
        rw [← List.sum_map_add]
        exact congrArg List.sum (List.map_congr_left fun e he => by rw [ih e he])
      rw [jsonValueToAst_object, AstNode.memoryFootprint, AstNode.memoryFootprintEntries_eq,
        List.map_map, Json.nodes_object, List.map_cons, List.sum_cons, Json.sum_map_flatMap,
        nodeWeight, Nat.add_assoc, ← hsum]
      rfl

theorem depth_jsonValueToAst_le_iff (v : Json Number) (d : ℕ) :
    (jsonValueToAst v).depth ≤ d ↔ v.level d = [] := by
  induction d generalizing v with
  | zero =>
      refine iff_of_false (Nat.not_le.mpr (AstNode.depth_pos _)) ?_
      exact List.cons_ne_nil v []
  | succ d ih =>
      rw [Json.level_succ_eq_nil]
      have hleaf : ∀ n : AstNode, n.depth = 1 → (n.depth ≤ d + 1 ↔ ∀ w ∈ ([] : List (Json Number)),
          w.level d = []) := fun n hn => by simp [hn]
      cases v with
      | null => exact hleaf _ rfl
      | bool b => exact hleaf _ rfl
      | number n =>
          rcases jsonValueToAst_number n with ⟨i, h⟩ | ⟨f, h⟩ <;> rw [h] <;> exact hleaf _ rfl
      | string s => exact hleaf _ rfl
      | array elems =>
          rw [jsonValueToAst_array, AstNode.depth, Nat.add_comm, Nat.add_le_add_iff_right,
            AstNode.depthItems_le_iff, List.forall_mem_map]
          exact forall₂_congr fun w _ => ih w
      | object members =>
          rw [jsonValueToAst_object, AstNode.depth, Nat.add_comm, Nat.add_le_add_iff_right,
            AstNode.depthEntries_le_iff, List.forall_mem_map]
          refine Iff.trans ?_ List.forall_mem_map.symm
          exact forall₂_congr fun e _ => ih e.2

/-! ### Leaf bounds -/

theorem le_roundToF64 {n : ℕ} (h : 2 ^ 63 ≤ n) : 2 ^ 62 ≤ roundToF64 n := by
  have hne : n ≠ 0 := by omega
  have hpow : 2 ^ (n.log2 - 52) * 2 ^ 52 ≤ n := by
    have hlog : 52 ≤ n.log2 := (Nat.le_log2 hne).mpr (by omega)
    rw [← pow_add, Nat.sub_add_cancel hlog]
    exact Nat.log2_self_le hne
  have hdiv := Nat.div_add_mod n (2 ^ (n.log2 - 52))
  have hmod := Nat.mod_lt n (Nat.two_pow_pos (n.log2 - 52))
  rw [Nat.mul_comm] at hdiv
  unfold roundToF64
  rw [if_neg (by omega)]
  dsimp only
  split
  · omega
  · rw [Nat.add_mul]
    omega

section Validate

variable {display : Display}

theorem validate_number (n : Number) :
    (jsonValueToAst (.number n)).validateLeafBounds display = .ok () ↔
      NodeBounded (.number n) := by
  change _ ↔ n.magnitude ≤ (maxNumericValue : ℚ)
  cases n with
  | posInt n =>
      by_cases hsmall : n.toNat < 2 ^ 63
      · have hast : jsonValueToAst (.number (.posInt n)) = .integer (.ofNat n.toNat) := by
          rw [jsonValueToAst, Number.asI64, if_pos hsmall]
        rw [hast, AstNode.validateLeafBounds, Int64.toInt_ofNat_of_lt hsmall, Int.natAbs_natCast,
          Number.magnitude, Nat.cast_le]
        split
        · exact iff_of_false (fun h => by cases h) (Nat.not_le.mpr ‹_›)
        · exact iff_of_true rfl (Nat.not_lt.mp ‹_›)
      · have hast : jsonValueToAst (.number (.posInt n)) =
            .float (.finite (roundToF64 n.toNat)) := by
          rw [jsonValueToAst, Number.asI64, if_neg hsmall]
          rfl
        have hlarge := le_roundToF64 (Nat.not_lt.mp hsmall)
        have hlt : (maxNumericValue : ℚ) < |(roundToF64 n.toNat : ℚ)| := by
          rw [Nat.abs_cast, Nat.cast_lt]
          unfold maxNumericValue
          omega
        rw [hast, AstNode.validateLeafBounds, if_pos hlt, Number.magnitude, Nat.cast_le]
        refine iff_of_false (fun h => by cases h) ?_
        unfold maxNumericValue
        omega
  | negInt n =>
      have hast : jsonValueToAst (.number (.negInt n)) = .integer n := rfl
      rw [hast, AstNode.validateLeafBounds, Number.magnitude, Nat.cast_le]
      split
      · exact iff_of_false (fun h => by cases h) (Nat.not_le.mpr ‹_›)
      · exact iff_of_true rfl (Nat.not_lt.mp ‹_›)
  | float q =>
      have hast : jsonValueToAst (.number (.float q)) = .float (.finite q) := rfl
      rw [hast, AstNode.validateLeafBounds, Number.magnitude]
      split
      · exact iff_of_false (fun h => by cases h) (not_le.mpr ‹_›)
      · exact iff_of_true rfl (not_lt.mp ‹_›)

theorem validateItems_eq_ok_iff {items : List AstNode} :
    AstNode.validateItems display items = .ok () ↔
      ∀ n ∈ items, n.validateLeafBounds display = .ok () := by
  induction items with
  | nil => exact iff_of_true rfl (List.forall_mem_nil _)
  | cons n items ih =>
      rw [AstNode.validateItems, List.forall_mem_cons]
      cases hn : n.validateLeafBounds display with
      | error e => exact iff_of_false (fun h => by cases h) fun h => by cases h.1
      | ok _ => exact ih.trans (and_iff_right rfl).symm

theorem validateEntries_eq_ok_iff {seenKeys : List String} {entries : List (String × AstNode)}
    (hkeys : (entries.map Prod.fst).Nodup) (hseen : ∀ e ∈ entries, e.1 ∉ seenKeys) :
    AstNode.validateEntries display seenKeys entries = .ok () ↔
      ∀ e ∈ entries, e.1.utf8ByteSize ≤ maxAstStringLength ∧
        e.2.validateLeafBounds display = .ok () := by
  induction entries generalizing seenKeys with
  | nil => exact iff_of_true rfl (List.forall_mem_nil _)
  | cons e entries ih =>
      obtain ⟨key, value⟩ := e
      obtain ⟨hnew, hkeys⟩ := List.nodup_cons.mp hkeys
      obtain ⟨hkey, hseen⟩ := List.forall_mem_cons.mp hseen
      change key ∉ seenKeys at hkey
      have hunseen : ∀ e ∈ entries, e.1 ∉ key :: seenKeys := by
        intro e he hmem
        rcases List.mem_cons.mp hmem with heq | hmem
        · exact hnew (List.mem_map.mpr ⟨e, he, heq⟩)
        · exact hseen e he hmem
      have hrest := ih hkeys hunseen
      rw [AstNode.validateEntries, List.forall_mem_cons]
      by_cases hlong : maxAstStringLength < key.utf8ByteSize
      · rw [if_pos hlong]
        exact iff_of_false (fun h => by cases h) fun h => Nat.not_le.mpr hlong h.1.1
      · rw [if_neg hlong, if_neg hkey]
        cases hvalue : value.validateLeafBounds display with
        | error e => exact iff_of_false (fun h => by cases h) fun h => by cases h.1.2
        | ok _ => exact hrest.trans (and_iff_right ⟨Nat.not_lt.mp hlong, rfl⟩).symm

/-- The leaf bounds are bounds on the nodes. -/
theorem validateLeafBounds_eq_ok_iff {v : Json Number} (hv : v.WellFormed) :
    (jsonValueToAst v).validateLeafBounds display = .ok () ↔ ∀ w ∈ v.nodes, NodeBounded w := by
  induction v using Json.induct with
  | null => exact iff_of_true rfl (List.forall_mem_singleton.mpr trivial)
  | bool b => exact iff_of_true rfl (List.forall_mem_singleton.mpr trivial)
  | number n => exact (validate_number n).trans List.forall_mem_singleton.symm
  | string s =>
      refine Iff.trans ?_ List.forall_mem_singleton.symm
      rw [jsonValueToAst, AstNode.validateLeafBounds]
      split
      · exact iff_of_false (fun h => by cases h) (Nat.not_le.mpr ‹_›)
      · exact iff_of_true rfl (Nat.not_lt.mp ‹_›)
  | array elems ih =>
      rw [jsonValueToAst_array, AstNode.validateLeafBounds, validateItems_eq_ok_iff,
        List.forall_mem_map, Json.nodes_array, List.forall_mem_cons, List.forall_mem_flatMap]
      refine Iff.trans ?_ (and_iff_right trivial).symm
      exact forall₂_congr fun w hw => ih w hw (Json.wellFormed_array.mp hv w hw)
  | object members ih =>
      obtain ⟨hkeys, hall⟩ := Json.wellFormed_object.mp hv
      have hkeys' : ((members.map memberToAst).map Prod.fst).Nodup := by
        rw [List.map_map]
        exact hkeys
      rw [jsonValueToAst_object, AstNode.validateLeafBounds,
        validateEntries_eq_ok_iff hkeys' fun _ _ => List.not_mem_nil, List.forall_mem_map,
        Json.nodes_object, List.forall_mem_cons, List.forall_mem_flatMap]
      refine Iff.trans (forall₂_congr fun e he => ?_) forall₂_and
      exact and_congr Iff.rfl (ih e he (hall e he))

end Validate

end SereinGateway.Core
