import Mathlib
import SereinGateway.Gateway.Authentication

/-!
`handle_hot_swap`: the module of the gateway is replaced at runtime.

The bytes are swapped first and compiled afterwards, and a compilation that fails does
not put the old bytes back. `none` in the place of a response is a handler that panics,
which the look at the first four bytes does when there are fewer.
-/

namespace SereinGateway.Gateway

open SereinGateway.Security

variable {κ : Type*}

structure HotSwapContainer (κ : Type*) where
  inner : κ
  moduleName : String
  swapCount : UInt64

namespace HotSwapContainer

def new (inner : κ) (moduleName : String) : HotSwapContainer κ := ⟨inner, moduleName, 0⟩

def swap (container : HotSwapContainer κ) (component : κ) : HotSwapContainer κ :=
  { container with inner := component, swapCount := container.swapCount + 1 }

end HotSwapContainer

/-- What becomes of the task that compiles a module. -/
inductive Compilation (κ : Type*) where
  | compiled (component : κ)
  | failed
  | panicked

structure Kernel (κ : Type*) where
  tenantComponent : Option (HotSwapContainer κ)
  /-- A panic has poisoned the lock of the component. -/
  poisoned : Bool

/-- The component that requests run in. -/
def Kernel.component (kernel : Kernel κ) : Option κ := kernel.tenantComponent.map (·.inner)

def Kernel.reloadComponent (kernel : Kernel κ) (compilation : Compilation κ) :
    Except String (Kernel κ) :=
  match compilation with
  | .panicked => .error "spawn_blocking panicked during hot-swap compilation"
  | .failed => .error "Failed to compile WASM component from hot-swap bytes"
  | .compiled component =>
      if kernel.poisoned then
        .error "Tenant component lock poisoned: poisoned lock: another task failed inside"
      else
        match kernel.tenantComponent with
        | some container => .ok { kernel with tenantComponent := some (container.swap component) }
        | none => .ok { kernel with tenantComponent := some (.new component "tenant_component") }

structure AppState (κ : Type*) where
  wasmModule : List UInt8
  kernel : Kernel κ
  nonceCache : NonceCacheInner

inductive HotSwapResponse where
  | error (response : ErrorResponse)
  | swapped (previousSizeBytes newSizeBytes : ℕ)
  deriving DecidableEq

/-- The event for the audit log. -/
structure HotSwapEvent where
  tenantId : String
  action : String
  deriving DecidableEq

/-- How a request ends. -/
structure HotSwapOutcome (κ : Type*) where
  response : Option HotSwapResponse
  state : AppState κ
  event : Option HotSwapEvent

/-- `\0asm` -/
def magicNumber : List UInt8 := [0, 0x61, 0x73, 0x6D]

def maxModuleSize : ℕ := 50 * 1024 * 1024

/-- `handle_hot_swap` behind the authentication. -/
def swapModule (compile : List UInt8 → Compilation κ) (tenantId : String) (body : List UInt8)
    (state : AppState κ) : HotSwapOutcome κ :=
  if body.isEmpty then
    ⟨some (.error ⟨400, "Empty WASM module body", "EMPTY_BODY"⟩), state, none⟩
  else if maxModuleSize < body.length then
    ⟨some (.error ⟨413, "WASM module exceeds 50MB limit", "PAYLOAD_TOO_LARGE"⟩), state, none⟩
  else if body.length < 4 then
    -- `body[0..4]` is out of range.
    ⟨none, state, none⟩
  else if body.take 4 ≠ magicNumber then
    ⟨some (.error ⟨400, "Invalid WASM binary: missing magic number", "INVALID_WASM"⟩), state, none⟩
  else
    let swapped := { state with wasmModule := body }
    match swapped.kernel.reloadComponent (compile body) with
    | .error e =>
        ⟨some (.error ⟨500, "WASM compilation failed: " ++ e, "WASM_COMPILE_ERROR"⟩), swapped, none⟩
    | .ok kernel =>
        ⟨some (.swapped state.wasmModule.length body.length), { swapped with kernel := kernel },
          some ⟨tenantId, "hot-swap: " ++ toString body.length ++ " bytes"⟩⟩

def handleHotSwap (serviceAuth : Option (String → String → Except HmacAuthError Unit))
    (moment : Moment) (compile : List UInt8 → Compilation κ) (headers : HeaderMap)
    (body : List UInt8) (state : AppState κ) : HotSwapOutcome κ :=
  match authenticateHotSwap serviceAuth moment headers state.nonceCache with
  | (.error e, cache) => ⟨some (.error e), { state with nonceCache := cache }, none⟩
  | (.ok tenantId, cache) => swapModule compile tenantId body { state with nonceCache := cache }

/-- There is a response, and either nothing has changed or everything has. -/
structure HotSwapOutcome.AllOrNothing (outcome : HotSwapOutcome κ)
    (compile : List UInt8 → Compilation κ) (body : List UInt8) (before : AppState κ) : Prop where
  responds : outcome.response.isSome
  nothing : ∀ e, outcome.response = some (.error e) →
    outcome.state.wasmModule = before.wasmModule ∧
      outcome.state.kernel.component = before.kernel.component
  all : ∀ previous size, outcome.response = some (.swapped previous size) →
    outcome.state.wasmModule = body ∧
      ∃ component, compile body = .compiled component ∧
        outcome.state.kernel.component = some component

/-- The body passes the checks of its size and its first bytes. -/
structure Acceptable (body : List UInt8) : Prop where
  size : body.length ≤ maxModuleSize
  magic : magicNumber <+: body

/-- The new module can be compiled and put in place. -/
def Reloads (compile : List UInt8 → Compilation κ) (body : List UInt8) (kernel : Kernel κ) : Prop :=
  (∃ component, compile body = .compiled component) ∧ kernel.poisoned = false

variable {compile : List UInt8 → Compilation κ} {body : List UInt8} {state : AppState κ}
  {kernel kernel' : Kernel κ} {compilation : Compilation κ} {tenantId : String}

theorem component_of_reloadComponent (h : kernel.reloadComponent compilation = .ok kernel') :
    ∃ component, compilation = .compiled component ∧ kernel'.component = some component := by
  cases compilation with
  | panicked => cases h
  | failed => cases h
  | compiled component =>
      refine ⟨component, rfl, ?_⟩
      unfold Kernel.reloadComponent at h
      dsimp only at h
      split at h
      · cases h
      · split at h <;> cases h <;> rfl

theorem reloadComponent_isOk_iff :
    (∃ kernel', kernel.reloadComponent (compile body) = .ok kernel') ↔
      Reloads compile body kernel := by
  unfold Reloads Kernel.reloadComponent
  cases compile body with
  | panicked => simp
  | failed => simp
  | compiled component =>
      cases hpoisoned : kernel.poisoned with
      | true => simp
      | false => cases kernel.tenantComponent <;> simp

theorem take_magicNumber_iff : body.take 4 = magicNumber ↔ magicNumber <+: body := by
  rw [List.prefix_iff_eq_take, eq_comm]
  rfl

theorem allOrNothing_error {e : ErrorResponse} :
    HotSwapOutcome.AllOrNothing ⟨some (.error e), state, none⟩ compile body state where
  responds := rfl
  nothing _ _ := ⟨rfl, rfl⟩
  all _ _ h := by cases h

/-- Without a response, or with a module in place that is not compiled, the request is
neither. -/
theorem allOrNothing_swapModule_iff :
    (swapModule compile tenantId body state).AllOrNothing compile body state ↔
      (body.length = 0 ∨ 4 ≤ body.length) ∧
        (Acceptable body → Reloads compile body state.kernel ∨ body = state.wasmModule) := by
  unfold swapModule
  split
  · rename_i hempty
    obtain rfl := List.isEmpty_iff.mp hempty
    exact iff_of_true allOrNothing_error
      ⟨.inl rfl, fun h => absurd (List.prefix_nil.mp h.magic) (by decide)⟩
  rename_i hempty
  have hne : body.length ≠ 0 := fun h =>
    hempty (List.isEmpty_iff.mpr (List.eq_nil_of_length_eq_zero h))
  split
  · rename_i hlarge
    refine iff_of_true allOrNothing_error ⟨.inr ?_, fun h => absurd h.size (Nat.not_le.mpr hlarge)⟩
    unfold maxModuleSize at hlarge
    omega
  rename_i hsize
  split
  · rename_i hshort
    refine iff_of_false (fun h => ?_) fun h => ?_
    · cases h.responds
    · omega
  rename_i hlength
  split
  · rename_i hmagic
    exact iff_of_true allOrNothing_error ⟨.inr (Nat.not_lt.mp hlength), fun h =>
      absurd (take_magicNumber_iff.mpr h.magic) hmagic⟩
  rename_i hmagic
  have haccept : Acceptable body :=
    ⟨Nat.not_lt.mp hsize, take_magicNumber_iff.mp (of_not_not hmagic)⟩
  rw [and_iff_right (.inr (Nat.not_lt.mp hlength)), imp_iff_right haccept,
    ← reloadComponent_isOk_iff]
  dsimp only
  cases hreload : state.kernel.reloadComponent (compile body) with
  | error e =>
      -- The bytes stay swapped.
      constructor
      · intro h
        exact .inr (h.nothing _ rfl).1
      · rintro (⟨kernel', hok⟩ | hsame)
        · cases hok
        · exact ⟨rfl, fun _ _ => ⟨hsame, rfl⟩, fun _ _ h => by cases h⟩
  | ok kernel' =>
      obtain ⟨component, hcompiled, hcomponent⟩ := component_of_reloadComponent hreload
      refine iff_of_true ?_ (.inl ⟨kernel', rfl⟩)
      exact ⟨rfl, fun _ h => (by cases h), fun _ _ _ => ⟨rfl, component, hcompiled, hcomponent⟩⟩

/-- An authenticated hot swap is all or nothing exactly if the body has no one to three
bytes and, if it passes the checks, can be compiled and put in place or is served
already. -/
theorem handleHotSwap_allOrNothing_iff
    (serviceAuth : Option (String → String → Except HmacAuthError Unit)) (moment : Moment)
    (headers : HeaderMap) {cache : NonceCacheInner}
    (hauth : authenticateHotSwap serviceAuth moment headers state.nonceCache =
      (.ok tenantId, cache)) :
    (handleHotSwap serviceAuth moment compile headers body state).AllOrNothing compile body state ↔
      (body.length = 0 ∨ 4 ≤ body.length) ∧
        (Acceptable body → Reloads compile body state.kernel ∨ body = state.wasmModule) := by
  have hswap : (handleHotSwap serviceAuth moment compile headers body state) =
      swapModule compile tenantId body { state with nonceCache := cache } := by
    rw [handleHotSwap, hauth]
  have hstate : (handleHotSwap serviceAuth moment compile headers body state).AllOrNothing compile
      body state ↔
        (swapModule compile tenantId body { state with nonceCache := cache }).AllOrNothing compile
          body { state with nonceCache := cache } := by
    rw [hswap]
    exact ⟨fun h => ⟨h.responds, h.nothing, h.all⟩, fun h => ⟨h.responds, h.nothing, h.all⟩⟩
  rw [hstate]
  exact allOrNothing_swapModule_iff

/-- A request of the tenant `t`, and a gateway that serves nothing yet. -/
def tenantHeaders : HeaderMap := ⟨none, none, none, some [0x74], none⟩

def freshState : AppState Unit := ⟨[], ⟨none, false⟩, .new⟩

theorem authenticate_tenantHeaders (moment : Moment) :
    authenticateHotSwap none moment tenantHeaders freshState.nonceCache = (.ok "t", .new) := by
  have htenant : tenantHeaders.extractTenantId = some "t" := by decide +kernel
  rw [authenticateHotSwap, htenant]
  rfl

theorem magicNumber_swap_allOrNothing :
    (handleHotSwap none ⟨0, 0, .id⟩ (fun _ => .compiled ()) tenantHeaders magicNumber
      freshState).AllOrNothing (fun _ => .compiled ()) magicNumber freshState :=
  (handleHotSwap_allOrNothing_iff none ⟨0, 0, .id⟩ tenantHeaders
    (authenticate_tenantHeaders _)).mpr ⟨.inr (by decide), fun _ => .inl ⟨⟨(), rfl⟩, rfl⟩⟩

/-- A body of one byte gets no response. -/
theorem one_byte_swap_panics : ¬∀ (serviceAuth : Option (String → String →
      Except HmacAuthError Unit)) (moment : Moment) (compile : List UInt8 → Compilation Unit)
    (headers : HeaderMap) (body : List UInt8) (state : AppState Unit) (tenantId : String)
    (cache : NonceCacheInner),
    authenticateHotSwap serviceAuth moment headers state.nonceCache = (.ok tenantId, cache) →
      (handleHotSwap serviceAuth moment compile headers body state).AllOrNothing compile body
        state := by
  intro hall
  have hresponds := (hall none ⟨0, 0, .id⟩ (fun _ => .compiled ()) tenantHeaders [0] freshState _ _
    (authenticate_tenantHeaders _)).responds
  rw [handleHotSwap, authenticate_tenantHeaders] at hresponds
  cases hresponds

end SereinGateway.Gateway
