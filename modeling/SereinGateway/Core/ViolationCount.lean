import Mathlib
import SereinGateway.Core.AbiGuard

/-!
The violations that the ABI guard counts.

Each check of the guard counts its violations on the way out, except for two: what
`check_bounds` and `derive` return passes through `check_cheri_boundary` with a
question mark, and so does an overflow through `check_memory_access`. The count is
that of the failed checks as long as there is no such failure.
-/

namespace SereinGateway.Core

inductive Capability where
  | memoryRead
  | memoryWrite
  | execute
  | networkAccess
  | fileSystemAccess
  | timeAccess
  | randomAccess
  deriving DecidableEq

/-- The violations that a check reports; those of capabilities are an `AbiViolation`. -/
inductive GuardViolation where
  | cheri (violation : AbiViolation)
  | outOfBoundsAccess (offset length max : UInt64)
  | capabilityViolation (required granted : List Capability)
  | pointerProvenance (ptr : UInt64) (expected : String)
  | stackPointerViolation (sp lower upper : UInt64)

/-- The guard with the rest of its statistics. -/
structure CountingGuard extends AbiGuard where
  totalCalls : UInt64
  violationsDetected : UInt64
  memoryChecks : UInt64
  capabilityChecks : UInt64

namespace CountingGuard

/-- `with_pool_size`; `new` is this with the size of the default pool. -/
def withPoolSize (enabled strictMode : Bool) (poolSize : UInt64) : CountingGuard :=
  ⟨.withPoolSize enabled strictMode poolSize, 0, 0, 0, 0⟩

/-- `violations_detected.fetch_add(1)`. -/
def detect (guard : CountingGuard) : CountingGuard :=
  { guard with violationsDetected := guard.violationsDetected + 1 }

/-- `check_cheri_boundary`. Its errors are not counted. -/
def checkCheri (guard : CountingGuard) (offset length : UInt64) :
    Except GuardViolation CheriCapability × CountingGuard :=
  let (result, inner) := guard.toAbiGuard.checkCheriBoundary offset length
  (result.mapError .cheri, { guard with toAbiGuard := inner })

def checkMemoryAccess (guard : CountingGuard) (offset length maxMemory : UInt64) :
    Except GuardViolation Unit × CountingGuard :=
  if !guard.enabled then (.ok (), guard)
  else
    let guard := { guard with memoryChecks := guard.memoryChecks + 1 }
    match checkedAdd offset length with
    -- The question mark behind `ok_or` returns before anything is counted.
    | none => (.error (.outOfBoundsAccess offset length maxMemory), guard)
    | some last =>
        if maxMemory < last then
          (.error (.outOfBoundsAccess offset length maxMemory), guard.detect)
        else (.ok (), guard)

def checkCrossDomainCall (guard : CountingGuard) (required granted : List Capability) :
    Except GuardViolation Unit × CountingGuard :=
  if !guard.enabled then (.ok (), guard)
  else
    let guard := { guard with
      totalCalls := guard.totalCalls + 1
      capabilityChecks := guard.capabilityChecks + 1 }
    if required.any (· ∉ granted) then
      (.error (.capabilityViolation required granted), guard.detect)
    else (.ok (), guard)

def checkPointerProvenance (guard : CountingGuard) (ptr : UInt64)
    (expectedDomain actualDomain : String) : Except GuardViolation Unit × CountingGuard :=
  if !guard.enabled then (.ok (), guard)
  else if expectedDomain ≠ actualDomain then
    (.error (.pointerProvenance ptr expectedDomain), guard.detect)
  else (.ok (), guard)

def checkStackPointer (guard : CountingGuard) (sp stackLower stackUpper : UInt64) :
    Except GuardViolation Unit × CountingGuard :=
  if !guard.enabled then (.ok (), guard)
  else if sp < stackLower ∨ stackUpper < sp then
    (.error (.stackPointerViolation sp stackLower stackUpper), guard.detect)
  else (.ok (), guard)

def resetStats (guard : CountingGuard) : CountingGuard :=
  { guard with
    cheriBoundaryChecks := 0
    totalCalls := 0
    violationsDetected := 0
    memoryChecks := 0
    capabilityChecks := 0 }

end CountingGuard

/-! ### Calls -/

inductive GuardCall where
  | cheriBoundary (offset length : UInt64)
  | memoryAccess (offset length maxMemory : UInt64)
  | crossDomainCall (required granted : List Capability)
  | pointerProvenance (ptr : UInt64) (expectedDomain actualDomain : String)
  | stackPointer (sp stackLower stackUpper : UInt64)
  | resetStats

/-- A guard, and how many checks have returned an error since the last reset. -/
structure Watched where
  guard : CountingGuard
  failures : ℕ

namespace Watched

/-- A check that leaves the guard like this and returned this. -/
def note {ε α : Type} (w : Watched) (out : Except ε α × CountingGuard) : Watched :=
  match out with
  | (.ok _, guard) => ⟨guard, w.failures⟩
  | (.error _, guard) => ⟨guard, w.failures + 1⟩

def call (w : Watched) : GuardCall → Watched
  | .cheriBoundary offset length => w.note (w.guard.checkCheri offset length)
  | .memoryAccess offset length maxMemory =>
      w.note (w.guard.checkMemoryAccess offset length maxMemory)
  | .crossDomainCall required granted => w.note (w.guard.checkCrossDomainCall required granted)
  | .pointerProvenance ptr expectedDomain actualDomain =>
      w.note (w.guard.checkPointerProvenance ptr expectedDomain actualDomain)
  | .stackPointer sp stackLower stackUpper =>
      w.note (w.guard.checkStackPointer sp stackLower stackUpper)
  | .resetStats => ⟨w.guard.resetStats, 0⟩

def new (enabled strictMode : Bool) (poolSize : UInt64) : Watched :=
  ⟨.withPoolSize enabled strictMode poolSize, 0⟩

def run (w : Watched) (calls : List GuardCall) : Watched := calls.foldl call w

end Watched

namespace GuardCall

def overlooked (poolSize : UInt64) : GuardCall → Bool
  | .cheriBoundary offset length => poolSize.toNat < offset.toNat + length.toNat
  | .memoryAccess offset length _ => 2 ^ 64 ≤ offset.toNat + length.toNat
  | _ => false

/-- The call fails and counts it. -/
def detected : GuardCall → Bool
  | .memoryAccess offset length maxMemory =>
      offset.toNat + length.toNat < 2 ^ 64 && maxMemory.toNat < offset.toNat + length.toNat
  | .crossDomainCall required granted => required.any (· ∉ granted)
  | .pointerProvenance _ expectedDomain actualDomain => expectedDomain ≠ actualDomain
  | .stackPointer sp stackLower stackUpper => sp < stackLower || stackUpper < sp
  | .cheriBoundary _ _ | .resetStats => false

def sinceReset (calls : List GuardCall) : List GuardCall :=
  calls.rtakeWhile fun | .resetStats => false | _ => true

end GuardCall

/-! ### What one call does -/

/-- The guard is on, and has the capability of its pool. -/
structure Watched.Steady (poolSize : UInt64) (w : Watched) : Prop where
  enabled : w.guard.enabled = true
  capability : w.guard.defaultCapability = .fromTlsfPool poolSize

/-- What a call adds to the failures and to their count. -/
structure Watched.Adds (w w' : Watched) (failed detected : ℕ) : Prop where
  enabled : w'.guard.enabled = w.guard.enabled
  capability : w'.guard.defaultCapability = w.guard.defaultCapability
  failures : w'.failures = w.failures + failed
  violations : w'.guard.violationsDetected = w.guard.violationsDetected + .ofNat detected

section Call

variable {w : Watched} {poolSize offset length : UInt64}

theorem saturatingAdd_zero_left (a : UInt64) : saturatingAdd 0 a = a := by
  have hfits : (0 : UInt64).toNat + a.toNat < 2 ^ 64 := by
    rw [UInt64.toNat_zero, Nat.zero_add]
    exact a.toNat_lt
  rw [saturatingAdd, if_pos hfits, UInt64.zero_add]

theorem checkedAdd_eq_none (h : 2 ^ 64 ≤ offset.toNat + length.toNat) :
    checkedAdd offset length = none := if_neg (Nat.not_lt.mpr h)

theorem checkedAdd_of_fits (h : offset.toNat + length.toNat < 2 ^ 64) :
    checkedAdd offset length = some (offset + length) ∧
      (offset + length).toNat = offset.toNat + length.toNat := by
  refine ⟨if_pos h, ?_⟩
  rw [UInt64.toNat_add]
  exact Nat.mod_eq_of_lt h

/-- A part of the pool is granted exactly if it ends in the pool. -/
theorem checkBounds_fromTlsfPool :
    (∃ e, (CheriCapability.fromTlsfPool poolSize).checkBounds offset length = .error e) ↔
      poolSize.toNat < offset.toNat + length.toNat := by
  have hmax := poolSize.toNat_lt
  simp only [CheriCapability.checkBounds, CheriCapability.fromTlsfPool, CheriCapability.new,
    Bool.not_true, Bool.false_eq_true, if_false, saturatingAdd_zero_left]
  by_cases hfits : offset.toNat + length.toNat < 2 ^ 64
  · obtain ⟨hsome, hsum⟩ := checkedAdd_of_fits hfits
    simp only [hsome, UInt64.lt_iff_toNat_lt, hsum]
    split <;> simp_all
  · simp only [checkedAdd_eq_none (Nat.not_lt.mp hfits), Except.error.injEq, exists_eq', true_iff]
    omega

theorem derive_fromTlsfPool (h : offset.toNat + length.toNat ≤ poolSize.toNat) :
    ∃ d, (CheriCapability.fromTlsfPool poolSize).derive offset length = .ok d := by
  have hvalid : (CheriCapability.fromTlsfPool poolSize).isValid = true := by
    simp [CheriCapability.isValid, CheriCapability.fromTlsfPool, CheriCapability.new]
  have hmax := poolSize.toNat_lt
  have hle : ¬poolSize < saturatingAdd offset length := by
    rw [UInt64.lt_iff_toNat_lt, toNat_saturatingAdd]
    omega
  rw [CheriCapability.derive, hvalid, Bool.not_true, if_neg Bool.false_ne_true]
  exact ⟨_, if_neg hle⟩

end Call

namespace Watched

variable {w : Watched} {poolSize : UInt64}

theorem adds_of_overlook {α : Type} {guard : CountingGuard} {out : Except GuardViolation α}
    {failed : Bool} (henabled : guard.enabled = w.guard.enabled)
    (hcapability : guard.defaultCapability = w.guard.defaultCapability)
    (hviolations : guard.violationsDetected = w.guard.violationsDetected)
    (hout : failed = true ↔ ∃ e, out = .error e) : w.Adds (w.note (out, guard)) failed.toNat 0 := by
  cases out with
  | error e =>
      rw [hout.mpr ⟨e, rfl⟩]
      exact ⟨henabled, hcapability, rfl, hviolations.trans (UInt64.add_zero _).symm⟩
  | ok a =>
      have hpassed : failed = false := by simpa using hout
      rw [hpassed]
      exact ⟨henabled, hcapability, rfl, hviolations.trans (UInt64.add_zero _).symm⟩

theorem adds_of_detect {guard : CountingGuard} {e : GuardViolation} {failed : Prop}
    [Decidable failed] {counted : Bool} (henabled : guard.enabled = w.guard.enabled)
    (hcapability : guard.defaultCapability = w.guard.defaultCapability)
    (hviolations : guard.violationsDetected = w.guard.violationsDetected)
    (hcounted : counted = true ↔ failed) :
    w.Adds (w.note (if failed then (.error e, guard.detect) else ((.ok () : Except _ _), guard)))
      counted.toNat counted.toNat := by
  cases counted
  · rw [if_neg fun hfailed => Bool.false_ne_true (hcounted.mpr hfailed)]
    exact ⟨henabled, hcapability, rfl, hviolations.trans (UInt64.add_zero _).symm⟩
  · rw [if_pos (hcounted.mp rfl)]
    exact ⟨henabled, hcapability, rfl, congrArg (· + 1) hviolations⟩

theorem Steady.cheri (hsteady : w.Steady poolSize) (offset length : UInt64) :
    w.Adds (w.call (.cheriBoundary offset length))
      (decide (poolSize.toNat < offset.toNat + length.toNat)).toNat 0 := by
  unfold call CountingGuard.checkCheri AbiGuard.checkCheriBoundary
  simp only [hsteady.enabled, hsteady.capability, Bool.not_true, Bool.false_eq_true, if_false]
  refine adds_of_overlook hsteady.enabled.symm hsteady.capability.symm rfl ?_
  rw [decide_eq_true_iff]
  by_cases hbeyond : poolSize.toNat < offset.toNat + length.toNat
  · obtain ⟨e, he⟩ := checkBounds_fromTlsfPool.mpr hbeyond
    rw [he]
    exact iff_of_true hbeyond ⟨_, rfl⟩
  · obtain ⟨d, hd⟩ := derive_fromTlsfPool (Nat.not_lt.mp hbeyond)
    have hbounds : (CheriCapability.fromTlsfPool poolSize).checkBounds offset length = .ok () := by
      cases hcheck : (CheriCapability.fromTlsfPool poolSize).checkBounds offset length with
      | error e => exact absurd (checkBounds_fromTlsfPool.mp ⟨e, hcheck⟩) hbeyond
      | ok _ => rfl
    rw [hbounds]
    refine iff_of_false hbeyond ?_
    rintro ⟨e, he⟩
    simp [Except.bind, Except.mapError, hd] at he

theorem Steady.memoryAccess (hsteady : w.Steady poolSize) (offset length maxMemory : UInt64) :
    w.Adds (w.call (.memoryAccess offset length maxMemory))
      ((decide (2 ^ 64 ≤ offset.toNat + length.toNat)).toNat +
        (GuardCall.memoryAccess offset length maxMemory).detected.toNat)
      (GuardCall.memoryAccess offset length maxMemory).detected.toNat := by
  unfold call CountingGuard.checkMemoryAccess GuardCall.detected
  simp only [hsteady.enabled, Bool.not_true, Bool.false_eq_true, if_false]
  by_cases hfits : offset.toNat + length.toNat < 2 ^ 64
  · obtain ⟨hsome, hsum⟩ := checkedAdd_of_fits hfits
    simp only [hsome, hfits, Nat.not_le.mpr hfits, decide_true, decide_false, Bool.true_and,
      Bool.toNat_false, Nat.zero_add]
    refine adds_of_detect rfl rfl rfl ?_
    rw [decide_eq_true_iff, UInt64.lt_iff_toNat_lt, hsum]
  · have hover : 2 ^ 64 ≤ offset.toNat + length.toNat := Nat.not_lt.mp hfits
    simp only [checkedAdd_eq_none hover, hfits, hover, decide_false, decide_true, Bool.false_and]
    exact ⟨rfl, rfl, rfl, (UInt64.add_zero _).symm⟩

theorem Steady.adds (hsteady : w.Steady poolSize) {call : GuardCall} (hcall : call ≠ .resetStats) :
    w.Adds (w.call call) ((call.overlooked poolSize).toNat + call.detected.toNat)
      call.detected.toNat := by
  cases call with
  | resetStats => exact absurd rfl hcall
  | cheriBoundary offset length => exact hsteady.cheri offset length
  | memoryAccess offset length maxMemory => exact hsteady.memoryAccess offset length maxMemory
  | crossDomainCall required granted =>
      unfold Watched.call CountingGuard.checkCrossDomainCall
      simp only [GuardCall.overlooked, hsteady.enabled, Bool.not_true, Bool.false_eq_true, if_false,
        Bool.toNat_false, Nat.zero_add]
      exact adds_of_detect rfl rfl rfl Iff.rfl
  | pointerProvenance ptr expectedDomain actualDomain =>
      unfold Watched.call CountingGuard.checkPointerProvenance
      simp only [GuardCall.overlooked, hsteady.enabled, Bool.not_true, Bool.false_eq_true, if_false,
        Bool.toNat_false, Nat.zero_add]
      exact adds_of_detect rfl rfl rfl decide_eq_true_iff
  | stackPointer sp stackLower stackUpper =>
      unfold Watched.call CountingGuard.checkStackPointer
      simp only [GuardCall.overlooked, hsteady.enabled, Bool.not_true, Bool.false_eq_true, if_false,
        Bool.toNat_false, Nat.zero_add]
      refine adds_of_detect rfl rfl rfl ?_
      rw [GuardCall.detected, Bool.or_eq_true, decide_eq_true_iff, decide_eq_true_iff]

end Watched

/-! ### Runs -/

namespace Watched

/-- After some calls the failures since the last reset are those overlooked and those
detected, and the latter are what the guard has counted. -/
structure Accounts (poolSize : UInt64) (w : Watched) (calls : List GuardCall) : Prop
    extends w.Steady poolSize where
  failures : w.failures = (GuardCall.sinceReset calls).countP (·.overlooked poolSize) +
    (GuardCall.sinceReset calls).countP GuardCall.detected
  violations : w.guard.violationsDetected =
    .ofNat ((GuardCall.sinceReset calls).countP GuardCall.detected)

theorem Accounts.call {poolSize : UInt64} {w : Watched} {calls : List GuardCall}
    (h : w.Accounts poolSize calls) (call : GuardCall) :
    (w.call call).Accounts poolSize (calls ++ [call]) := by
  by_cases hcall : call = .resetStats
  · subst hcall
    have hsince : GuardCall.sinceReset (calls ++ [.resetStats]) = [] :=
      List.rtakeWhile_concat_neg _ _ _ (by simp)
    exact ⟨⟨h.enabled, h.capability⟩, by rw [hsince]; rfl, by rw [hsince]; rfl⟩
  · have hsince : GuardCall.sinceReset (calls ++ [call]) =
        GuardCall.sinceReset calls ++ [call] := by
      refine List.rtakeWhile_concat_pos _ _ _ ?_
      cases call with
      | resetStats => exact absurd rfl hcall
      | _ => rfl
    have hcount (p : GuardCall → Bool) : (GuardCall.sinceReset (calls ++ [call])).countP p =
        (GuardCall.sinceReset calls).countP p + (p call).toNat := by
      rw [hsince, List.countP_append, List.countP_singleton]
      cases p call <;> rfl
    obtain ⟨henabled, hcapability, hfailures, hviolations⟩ := h.toSteady.adds hcall
    refine ⟨⟨henabled.trans h.enabled, hcapability.trans h.capability⟩, ?_, ?_⟩
    · rw [hfailures, h.failures, hcount, hcount]
      omega
    · rw [hviolations, h.violations, hcount, UInt64.ofNat_add]

theorem accounts_run (strictMode : Bool) (poolSize : UInt64) (calls : List GuardCall) :
    ((new true strictMode poolSize).run calls).Accounts poolSize calls := by
  induction calls using List.reverseRecOn with
  | nil => exact ⟨⟨rfl, rfl⟩, rfl, rfl⟩
  | append_singleton calls call ih =>
      rw [run, List.foldl_append]
      exact ih.call call

end Watched

/-- For a guard that is on, the count of the violations is the number of checks that
failed since the last reset, exactly if none of these is a boundary check or an
overflow of a memory check, and the number fits. -/
theorem violations_counted_iff (strictMode : Bool) (poolSize : UInt64) (calls : List GuardCall) :
    ((Watched.new true strictMode poolSize).run calls).guard.violationsDetected.toNat =
        ((Watched.new true strictMode poolSize).run calls).failures ↔
      (∀ call ∈ GuardCall.sinceReset calls, call.overlooked poolSize = false) ∧
        (GuardCall.sinceReset calls).countP GuardCall.detected < 2 ^ 64 := by
  obtain ⟨-, hfailures, hviolations⟩ := Watched.accounts_run strictMode poolSize calls
  have hnone : (∀ call ∈ GuardCall.sinceReset calls, call.overlooked poolSize = false) ↔
      (GuardCall.sinceReset calls).countP (·.overlooked poolSize) = 0 := by
    rw [List.countP_eq_zero]
    simp only [Bool.not_eq_true]
  rw [hfailures, hviolations, hnone, UInt64.toNat_ofNat']
  omega

/-- A boundary check beyond the pool. -/
theorem boundary_violation_uncounted :
    ¬∀ (strictMode : Bool) (poolSize : UInt64) (calls : List GuardCall),
      ((Watched.new true strictMode poolSize).run calls).guard.violationsDetected.toNat =
        ((Watched.new true strictMode poolSize).run calls).failures := by
  intro hall
  exact absurd (hall false 1024 [.cheriBoundary 1000 100]) (by decide)

end SereinGateway.Core
