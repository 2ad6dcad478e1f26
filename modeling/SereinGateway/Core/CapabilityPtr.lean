import Mathlib
import SereinGateway.Core.AbiGuard

/-!
Pointers that carry a capability.

`verify_bounds` takes an offset as a number of bytes, and the access takes it as a
number of elements: `pointer::add` goes forward by whole elements. For elements of
one byte the two agree. Larger elements are reached beyond the region as soon as it
is longer than one of them.
-/

namespace SereinGateway.Core

def permissionRead : UInt32 := 0b0001

def permissionWrite : UInt32 := 0b0010

structure CapabilityMetadata where
  base : UInt64
  length : UInt64
  permissions : UInt32
  «seal» : Bool

/-- The variants of `TlsfError` that the checks of a pointer return. -/
inductive PointerError where
  | boundsViolation
  | boundsOverflow
  | permissionDenied
  deriving DecidableEq

/-- A `CapabilityPtr` to elements of `size` bytes, which is at most `isize::MAX`. -/
structure CapabilityPtr where
  size : UInt64
  ptr : UInt64
  capability : CapabilityMetadata

/-- The bytes of the process, by address. -/
abbrev Memory := ℕ → UInt8

namespace CapabilityPtr

def new (size ptr length : UInt64) (permissions : UInt32) : CapabilityPtr :=
  ⟨size, ptr, ⟨ptr, length, permissions, false⟩⟩

def canRead (p : CapabilityPtr) : Bool := (p.capability.permissions &&& permissionRead) != 0

def canWrite (p : CapabilityPtr) : Bool := (p.capability.permissions &&& permissionWrite) != 0

def verifyBounds (p : CapabilityPtr) (offset accessSize : UInt64) : Except PointerError Unit :=
  match checkedAdd offset accessSize with
  | none => .error .boundsOverflow
  | some accessEnd =>
      if p.capability.length ≤ offset ∨ p.capability.length < accessEnd then
        .error .boundsViolation
      else .ok ()

/-- `self.ptr.as_ptr().add(offset)`, which counts in elements. -/
def elementAddress (p : CapabilityPtr) (offset : UInt64) : ℕ :=
  p.ptr.toNat + offset.toNat * p.size.toNat

/-- `read`. The value is given by its bytes. -/
def read (p : CapabilityPtr) (memory : Memory) (offset : UInt64) :
    Except PointerError (List UInt8) :=
  match p.verifyBounds offset p.size with
  | .error e => .error e
  | .ok () =>
      if !p.canRead then .error .permissionDenied
      else .ok ((List.range p.size.toNat).map fun i => memory (p.elementAddress offset + i))

/-- `write`, of a value with these bytes. -/
def write (p : CapabilityPtr) (memory : Memory) (offset : UInt64) (value : List UInt8) :
    Except PointerError Memory :=
  match p.verifyBounds offset p.size with
  | .error e => .error e
  | .ok () =>
      if !p.canWrite then .error .permissionDenied
      else .ok fun address =>
        if p.elementAddress offset ≤ address then
          (value[address - p.elementAddress offset]?).getD (memory address)
        else memory address

/-- The bytes of the element at an offset. -/
def touched (p : CapabilityPtr) (offset : UInt64) : Set ℕ :=
  Set.Ico (p.elementAddress offset) (p.elementAddress offset + p.size.toNat)

def region (p : CapabilityPtr) : Set ℕ :=
  Set.Ico p.capability.base.toNat (p.capability.base.toNat + p.capability.length.toNat)

/-! ### What an access touches -/

variable {p : CapabilityPtr} {offset : UInt64} {memory memory' : Memory} {value : List UInt8}

theorem read_congr (h : ∀ address ∈ p.touched offset, memory address = memory' address) :
    p.read memory offset = p.read memory' offset := by
  have hbytes : (List.range p.size.toNat).map (fun i => memory (p.elementAddress offset + i)) =
      (List.range p.size.toNat).map fun i => memory' (p.elementAddress offset + i) := by
    refine List.map_congr_left fun i hi => h _ ⟨Nat.le_add_right _ _, ?_⟩
    exact Nat.add_lt_add_left (List.mem_range.mp hi) _
  rw [read, read, hbytes]

theorem write_frame (hvalue : value.length = p.size.toNat)
    (h : p.write memory offset value = .ok memory') :
    ∀ address ∉ p.touched offset, memory' address = memory address := by
  intro address hout
  unfold write at h
  split at h
  · cases h
  · split at h
    · cases h
    · obtain rfl := Except.ok.inj h
      dsimp only
      split
      · rename_i hle
        have hbeyond : value.length ≤ address - p.elementAddress offset := by
          by_contra hlt
          exact hout ⟨hle, by omega⟩
        rw [List.getElem?_eq_none hbeyond, Option.getD_none]
      · rfl

theorem verifyBounds_eq_ok_iff {accessSize : UInt64} :
    p.verifyBounds offset accessSize = .ok () ↔
      offset.toNat < p.capability.length.toNat ∧
        offset.toNat + accessSize.toNat ≤ p.capability.length.toNat := by
  have hmax := p.capability.length.toNat_lt
  unfold verifyBounds checkedAdd
  by_cases hfits : offset.toNat + accessSize.toNat < 2 ^ 64
  · have hsum : (offset + accessSize).toNat = offset.toNat + accessSize.toNat := by
      rw [UInt64.toNat_add]
      omega
    simp only [hfits, if_true, UInt64.le_iff_toNat_le, UInt64.lt_iff_toNat_lt, hsum]
    split
    · simp only [reduceCtorEq, false_iff]
      omega
    · simp only [true_iff]
      omega
  · simp only [hfits, if_false, reduceCtorEq, false_iff]
    omega

/-- A read or a write passes its checks. -/
def Passes (p : CapabilityPtr) (offset : UInt64) : Prop :=
  (∃ memory bytes, p.read memory offset = .ok bytes) ∨
    ∃ memory value memory', p.write memory offset value = .ok memory'

theorem passes_iff : p.Passes offset ↔
    p.verifyBounds offset p.size = .ok () ∧ (p.canRead = true ∨ p.canWrite = true) := by
  unfold Passes read write
  cases hbounds : p.verifyBounds offset p.size with
  | error e => simp
  | ok _ => cases p.canRead <;> cases p.canWrite <;> simp

end CapabilityPtr

/-- Accesses through a pointer that pass the checks stay in its region exactly if an
element has at most one byte, or the region is not longer than one element, or the
pointer permits nothing. -/
theorem capabilityPtr_confined_iff (size ptr length : UInt64) (permissions : UInt32) :
    (∀ offset, (CapabilityPtr.new size ptr length permissions).Passes offset →
      (CapabilityPtr.new size ptr length permissions).touched offset ⊆
        (CapabilityPtr.new size ptr length permissions).region) ↔
      size.toNat ≤ 1 ∨ length.toNat ≤ size.toNat ∨
        (permissions &&& permissionRead = 0 ∧ permissions &&& permissionWrite = 0) := by
  have hpermits : ((CapabilityPtr.new size ptr length permissions).canRead = true ∨
      (CapabilityPtr.new size ptr length permissions).canWrite = true) ↔
      ¬(permissions &&& permissionRead = 0 ∧ permissions &&& permissionWrite = 0) := by
    simp only [CapabilityPtr.canRead, CapabilityPtr.canWrite, CapabilityPtr.new, bne_iff_ne]
    tauto
  have hpasses : ∀ offset, (CapabilityPtr.new size ptr length permissions).Passes offset ↔
      (offset.toNat < length.toNat ∧ offset.toNat + size.toNat ≤ length.toNat) ∧
        ¬(permissions &&& permissionRead = 0 ∧ permissions &&& permissionWrite = 0) := by
    intro offset
    rw [CapabilityPtr.passes_iff, CapabilityPtr.verifyBounds_eq_ok_iff, hpermits]
    rfl
  simp only [CapabilityPtr.touched, CapabilityPtr.region, CapabilityPtr.elementAddress,
    CapabilityPtr.new]
  constructor
  · intro hall
    by_contra hnot
    rw [not_or, not_or, Nat.not_le, Nat.not_le] at hnot
    obtain ⟨hsize, hlength, hpermitted⟩ := hnot
    -- The last offset at which an element of the region would begin, if counted in bytes.
    have hlast : (length - size).toNat = length.toNat - size.toNat :=
      UInt64.toNat_sub_of_le _ _ (UInt64.le_iff_toNat_le.mpr hlength.le)
    have hinside := hall (length - size) ((hpasses _).mpr ⟨⟨by omega, by omega⟩, hpermitted⟩)
    have hproduct : length.toNat - size.toNat < (length.toNat - size.toNat) * size.toNat :=
      (Nat.lt_mul_iff_one_lt_right (by omega)).mpr hsize
    have hmem := hinside (a := ptr.toNat + (length - size).toNat * size.toNat + (size.toNat - 1))
      ⟨by omega, by omega⟩
    rw [hlast] at hmem
    have hupper := hmem.2
    omega
  · intro hcase offset hpass
    obtain ⟨⟨hoffset, hend⟩, hpermitted⟩ := (hpasses offset).mp hpass
    rintro address ⟨hlower, hupper⟩
    refine ⟨by omega, ?_⟩
    rcases hcase with hsize | hlength | hnothing
    · have hproduct : offset.toNat * size.toNat ≤ offset.toNat * 1 := Nat.mul_le_mul_left _ hsize
      omega
    · have hzero : offset.toNat * size.toNat = 0 := by
        rw [Nat.mul_eq_zero]
        omega
      omega
    · exact absurd hnothing hpermitted

/-- The second of two words, at the offset of its first byte. -/
theorem second_word_outside :
    ¬∀ (size ptr length : UInt64) (permissions : UInt32) (offset : UInt64),
      (CapabilityPtr.new size ptr length permissions).Passes offset →
      (CapabilityPtr.new size ptr length permissions).touched offset ⊆
        (CapabilityPtr.new size ptr length permissions).region := by
  intro hall
  have hpasses : (CapabilityPtr.new 8 4096 16 permissionRead).Passes 8 :=
    CapabilityPtr.passes_iff.mpr ⟨by decide, .inl (by decide)⟩
  have hmem := hall 8 4096 16 permissionRead 8 hpasses (a := 4160)
    ⟨by decide, by decide⟩
  exact absurd hmem.2 (by decide)

end SereinGateway.Core
