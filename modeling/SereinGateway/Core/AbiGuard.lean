import Mathlib
import SereinGateway.Lib.Transition

/-!
Capabilities of the ABI guard.

A capability is a region of memory with permissions, and `derive` cuts a part
out of it. Sums saturate in `derive`, while `check_bounds` refuses a sum that
overflows. Below the largest `usize` a saturated sum is larger than every
length, so the difference is only seen in a capability whose length is
`usize::MAX`: there every part passes, also one that begins later and is as
long as the whole.
-/

namespace SereinGateway.Core

open SereinGateway.Lib

/-! ### `usize` arithmetic, on a target of 64 bits -/

def usizeMax : UInt64 := .ofNat (2 ^ 64 - 1)

def saturatingAdd (a b : UInt64) : UInt64 :=
  if a.toNat + b.toNat < 2 ^ 64 then a + b else usizeMax

def checkedAdd (a b : UInt64) : Option UInt64 :=
  if a.toNat + b.toNat < 2 ^ 64 then some (a + b) else none

theorem toNat_usizeMax : usizeMax.toNat = 2 ^ 64 - 1 := rfl

theorem toNat_saturatingAdd (a b : UInt64) :
    (saturatingAdd a b).toNat = min (a.toNat + b.toNat) (2 ^ 64 - 1) := by
  unfold saturatingAdd
  split
  · rw [UInt64.toNat_add]
    omega
  · rw [toNat_usizeMax]
    omega

theorem checkedAdd_eq_some {a b c : UInt64} (h : checkedAdd a b = some c) :
    c.toNat = a.toNat + b.toNat := by
  unfold checkedAdd at h
  split at h
  · obtain rfl := Option.some.inj h
    rw [UInt64.toNat_add]
    omega
  · cases h

/-! ### Capabilities -/

structure CheriPermission where
  readable : Bool
  writable : Bool
  executable : Bool
  loadCapability : Bool
  storeCapability : Bool
  «seal» : Bool
  «unseal» : Bool
  deriving DecidableEq, Repr

/-- `CheriPermission::default()`. -/
instance : Inhabited CheriPermission := ⟨⟨true, true, false, true, true, false, false⟩⟩

inductive AbiViolation where
  | cheriTagInvalid
  | cheriBoundaryViolation (base length requested : UInt64)
  deriving DecidableEq, Repr

structure CheriCapability where
  base : UInt64
  length : UInt64
  offset : UInt64
  permissions : CheriPermission
  tag : Bool
  «sealed» : Bool
  deriving DecidableEq, Repr

namespace CheriCapability

def new (base length : UInt64) (permissions : CheriPermission) : CheriCapability :=
  ⟨base, length, 0, permissions, true, false⟩

def fromTlsfPool (poolSize : UInt64) : CheriCapability := new 0 poolSize default

def isValid (c : CheriCapability) : Bool := c.tag && !c.sealed && decide (c.offset ≤ c.length)

def checkBounds (c : CheriCapability) (accessOffset accessLength : UInt64) :
    Except AbiViolation Unit :=
  if !c.tag then .error .cheriTagInvalid
  else if c.sealed then .error .cheriTagInvalid
  else
    match checkedAdd (saturatingAdd c.offset accessOffset) accessLength with
    | none => .error (.cheriBoundaryViolation c.base c.length usizeMax)
    | some last =>
        if c.length < last then .error (.cheriBoundaryViolation c.base c.length last)
        else .ok ()

/-- `derive`. The part is counted from the base, not from the offset. -/
def derive (c : CheriCapability) (newOffset newLength : UInt64) :
    Except AbiViolation CheriCapability :=
  if !c.isValid then .error .cheriTagInvalid
  else if c.length < saturatingAdd newOffset newLength then
    .error (.cheriBoundaryViolation c.base c.length (saturatingAdd newOffset newLength))
  else .ok ⟨saturatingAdd c.base newOffset, newLength, 0, c.permissions, true, false⟩

def deriveStep (c : CheriCapability) (part : UInt64 × UInt64) : Option CheriCapability :=
  (c.derive part.1 part.2).toOption

def Touches (c : CheriCapability) (accessOffset accessLength : UInt64) (address : ℕ) : Prop :=
  c.base.toNat + c.offset.toNat + accessOffset.toNat ≤ address ∧
    address < c.base.toNat + c.offset.toNat + accessOffset.toNat + accessLength.toNat

/-- `d` has the permissions of `c`, and accesses that it allows stay in the
region of `c`. -/
def Within (d c : CheriCapability) : Prop :=
  d.permissions = c.permissions ∧
    ∀ accessOffset accessLength, d.checkBounds accessOffset accessLength = .ok () →
      ∀ address, d.Touches accessOffset accessLength address →
        c.base.toNat ≤ address ∧ address < c.base.toNat + c.length.toNat

end CheriCapability

/-! ### The guard -/

/-- The guard, with the count of its checks. -/
structure AbiGuard where
  enabled : Bool
  strictMode : Bool
  defaultCapability : CheriCapability
  cheriBoundaryChecks : UInt64

def AbiGuard.withPoolSize (enabled strictMode : Bool) (poolSize : UInt64) : AbiGuard :=
  ⟨enabled, strictMode, .fromTlsfPool poolSize, 0⟩

def AbiGuard.checkCheriBoundary (guard : AbiGuard) (offset length : UInt64) :
    Except AbiViolation CheriCapability × AbiGuard :=
  if !guard.enabled then (.ok guard.defaultCapability, guard)
  else
    let guard := { guard with cheriBoundaryChecks := guard.cheriBoundaryChecks + 1 }
    ((guard.defaultCapability.checkBounds offset length).bind fun _ =>
      guard.defaultCapability.derive offset length, guard)

/-! ### Confinement -/

namespace CheriCapability

variable {c d e : CheriCapability} {o l : UInt64}

theorem checkBounds_eq_ok (h : c.checkBounds o l = .ok ()) :
    min (c.offset.toNat + o.toNat) (2 ^ 64 - 1) + l.toNat ≤ c.length.toNat := by
  unfold checkBounds at h
  split at h
  · cases h
  · split at h
    · cases h
    · split at h
      · cases h
      · rename_i last hlast
        split at h
        · cases h
        · rename_i hle
          have hsum := checkedAdd_eq_some hlast
          rw [toNat_saturatingAdd] at hsum
          have hle' := UInt64.le_iff_toNat_le.mp (UInt64.not_lt.mp hle)
          omega

theorem derive_eq_ok (h : c.derive o l = .ok e) :
    c.isValid = true ∧ min (o.toNat + l.toNat) (2 ^ 64 - 1) ≤ c.length.toNat ∧
      e = ⟨saturatingAdd c.base o, l, 0, c.permissions, true, false⟩ := by
  unfold derive at h
  split at h
  · cases h
  · rename_i hvalid
    split at h
    · cases h
    · rename_i hle
      have hle' := UInt64.le_iff_toNat_le.mp (UInt64.not_lt.mp hle)
      rw [toNat_saturatingAdd] at hle'
      exact ⟨by simpa using hvalid, hle', (Except.ok.inj h).symm⟩

/-- The region of `d` lies in that of `c`, and no sum in `d` passes by
saturating. -/
structure Inside (d c : CheriCapability) : Prop where
  permissions : d.permissions = c.permissions
  lower : c.base.toNat ≤ d.base.toNat
  upper : d.base.toNat + d.length.toNat ≤ c.base.toNat + c.length.toNat
  fits : d.base.toNat + d.length.toNat < 2 ^ 64
  short : d.length.toNat < 2 ^ 64 - 1

theorem Inside.refl (hfits : c.base.toNat + c.length.toNat < 2 ^ 64)
    (hlength : c.length ≠ usizeMax) : c.Inside c := by
  refine ⟨rfl, le_refl _, le_refl _, hfits, ?_⟩
  have hne : c.length.toNat ≠ usizeMax.toNat := fun h => hlength (UInt64.toNat_inj.mp h)
  have hlt := c.length.toNat_lt
  rw [toNat_usizeMax] at hne
  omega

theorem Inside.derive (h : d.Inside c) (hderive : d.derive o l = .ok e) : e.Inside c := by
  obtain ⟨-, hle, rfl⟩ := derive_eq_ok hderive
  have hlower := h.lower
  have hupper := h.upper
  have hfits := h.fits
  have hshort := h.short
  have hbase := toNat_saturatingAdd d.base o
  refine ⟨h.permissions, ?_, ?_, ?_, ?_⟩
  · show c.base.toNat ≤ (saturatingAdd d.base o).toNat
    omega
  · show (saturatingAdd d.base o).toNat + l.toNat ≤ _
    omega
  · show (saturatingAdd d.base o).toNat + l.toNat < _
    omega
  · show l.toNat < _
    omega

theorem Inside.of_reach (h : d.Inside c) (hreach : Reach deriveStep anyStep d e) : e.Inside c := by
  refine hreach.invariant (I := fun t => t.Inside c) h ?_
  intro t part u ht _ hstep
  rw [deriveStep] at hstep
  cases hderive : t.derive part.1 part.2 with
  | error v => simp [hderive, Except.toOption] at hstep
  | ok v =>
      rw [hderive] at hstep
      obtain rfl : v = u := Option.some.inj hstep
      exact ht.derive hderive

theorem Inside.within (h : d.Inside c) : d.Within c := by
  refine ⟨h.permissions, fun accessOffset accessLength hcheck address htouch => ?_⟩
  have hbounds := checkBounds_eq_ok hcheck
  have hlower := h.lower
  have hupper := h.upper
  have hshort := h.short
  obtain ⟨hfirst, hlast⟩ := htouch
  constructor <;> omega

theorem exists_derived_outside (hvalid : c.isValid = true)
    (hfits : c.base.toNat + c.length.toNat < 2 ^ 64) (hlength : c.length = usizeMax) :
    ∃ d, Reach deriveStep anyStep c d ∧ ¬d.Within c := by
  have hlength' : c.length.toNat = 2 ^ 64 - 1 := by rw [hlength, toNat_usizeMax]
  have hbase : c.base.toNat = 0 := by omega
  have hderive : c.derive 1 usizeMax =
      .ok ⟨saturatingAdd c.base 1, usizeMax, 0, c.permissions, true, false⟩ := by
    have hpass : ¬c.length < saturatingAdd 1 usizeMax := by
      rw [hlength]
      decide
    rw [CheriCapability.derive, hvalid, Bool.not_true, if_neg Bool.false_ne_true, if_neg hpass]
  refine ⟨_, Reach.refl.tail (a := (1, usizeMax)) trivial (congrArg Except.toOption hderive), ?_⟩
  rintro ⟨-, hwithin⟩
  have hbase' : (saturatingAdd c.base 1).toNat = 1 := by
    rw [toNat_saturatingAdd, hbase]
    rfl
  have hsum : checkedAdd (saturatingAdd 0 0) usizeMax = some usizeMax := by decide
  have hcheck : CheriCapability.checkBounds
      ⟨saturatingAdd c.base 1, usizeMax, 0, c.permissions, true, false⟩ 0 usizeMax = .ok () := by
    simp [checkBounds, hsum]
  have htouch := hwithin 0 usizeMax hcheck (2 ^ 64 - 1) (by
    simp only [Touches, hbase', toNat_usizeMax]
    decide)
  omega

end CheriCapability

theorem AbiGuard.reach_of_checkCheriBoundary {guard : AbiGuard} {o l : UInt64}
    {r : CheriCapability} (h : (guard.checkCheriBoundary o l).1 = .ok r) :
    Reach CheriCapability.deriveStep anyStep guard.defaultCapability r := by
  unfold checkCheriBoundary at h
  split at h
  · obtain rfl := Except.ok.inj h
    exact .refl
  · cases hcheck : guard.defaultCapability.checkBounds o l with
    | error v => simp [hcheck, Except.bind] at h
    | ok v =>
        have hderive : guard.defaultCapability.derive o l = .ok r := by
          simpa [hcheck, Except.bind] using h
        exact Reach.refl.tail (a := (o, l)) trivial (congrArg Except.toOption hderive)

/-- Everything that derives from a valid capability, or from what a guard with
this capability returns, stays within it, exactly if its length is not the
largest `usize`. -/
theorem authority_shrinks_iff (c : CheriCapability) (hvalid : c.isValid = true)
    (hfits : c.base.toNat + c.length.toNat ≤ usizeMax.toNat) :
    ((∀ d, Reach CheriCapability.deriveStep anyStep c d → d.Within c) ∧
      ∀ (guard : AbiGuard) (o l : UInt64) (r : CheriCapability), guard.defaultCapability = c →
        (guard.checkCheriBoundary o l).1 = .ok r →
        ∀ d, Reach CheriCapability.deriveStep anyStep r d → d.Within c) ↔
      c.length ≠ usizeMax := by
  have hfits' : c.base.toNat + c.length.toNat < 2 ^ 64 := by
    rw [toNat_usizeMax] at hfits
    omega
  constructor
  · rintro ⟨hall, -⟩ hlength
    obtain ⟨d, hreach, hout⟩ := CheriCapability.exists_derived_outside hvalid hfits' hlength
    exact hout (hall d hreach)
  · intro hlength
    have hinside := CheriCapability.Inside.refl hfits' hlength
    refine ⟨fun d hreach => (hinside.of_reach hreach).within, ?_⟩
    rintro guard o l r rfl hcheck d hreach
    have hr := AbiGuard.reach_of_checkCheriBoundary hcheck
    exact ((hinside.of_reach hr).of_reach hreach).within

/-- The pool of the default size. -/
theorem authority_shrinks_default :
    ((∀ d, Reach CheriCapability.deriveStep anyStep (.fromTlsfPool 268435456) d →
        d.Within (.fromTlsfPool 268435456)) ∧
      ∀ (guard : AbiGuard) (o l : UInt64) (r : CheriCapability),
        guard.defaultCapability = .fromTlsfPool 268435456 →
        (guard.checkCheriBoundary o l).1 = .ok r →
        ∀ d, Reach CheriCapability.deriveStep anyStep r d → d.Within (.fromTlsfPool 268435456)) :=
  (authority_shrinks_iff (.fromTlsfPool 268435456) (by decide) (by decide)).mpr (by decide)

/-- A part of the largest capability that begins at 1 and is as long as it. -/
theorem derived_outside_largest :
    ¬∀ c : CheriCapability, c.isValid = true →
      c.base.toNat + c.length.toNat ≤ usizeMax.toNat →
      ∀ d, Reach CheriCapability.deriveStep anyStep c d → d.Within c := by
  intro hall
  obtain ⟨d, hreach, hout⟩ := CheriCapability.exists_derived_outside
    (c := .new 0 usizeMax default) (by decide) (by decide) rfl
  exact hout (hall _ (by decide) (by decide) d hreach)

end SereinGateway.Core
