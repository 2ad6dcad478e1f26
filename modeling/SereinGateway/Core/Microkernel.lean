import Mathlib
import SereinGateway.Core.SisInterlock
import SereinGateway.Core.FuelMonitor

/-!
The calls of the kernel that run guest code, and what the interlock learns of
the fuel they use.

The stages before the guest (resource monitor, routing, arbitration, safety
proof, creation of the store) can end as they like; so can the guest. A piece
of guest code has the fuel that it uses, the way it ends, and whether the
execution timeout expires before that, in which case its future is dropped.
`get_fuel` fails only if the engine does not meter at all, and then no store
is created.

Whether guest code was entered and how much fuel it used is recorded beside
the kernel and is not in the program. A call is sound if it respects the
emergency shutdown and the interlock has recorded what the guest used.
-/

namespace SereinGateway.Core

inductive ApiError where
  | invalidPayload (message : String)
  | authorization (message : String)
  | threatMitigated (message : String)
  | emergencyShutdown (message : String)
  | internal (message : String)
  deriving DecidableEq, Repr

def Trap.display : Trap → String
  | .interrupt => "wasm trap: interrupt"

/-- The part of the kernel that the calls change, and its timeout. -/
structure Microkernel where
  sisInterlock : SisInterlock
  fuelMonitor : FuelMonitor
  moduleCache : List String
  executionTimeoutSecs : ℕ
  deriving DecidableEq, Repr

def Microkernel.new (executionTimeoutSecs : ℕ) : Microkernel :=
  ⟨.new sisFuelQuota, .new sisFuelQuota, [], executionTimeoutSecs⟩

structure GuestCode (α : Type) where
  fuel : ℕ
  ends : Except String α
  overruns : Bool

/-- The kernel and the fuel left in the store of the call. The last two fields
are not in the program. -/
structure Host where
  kernel : Microkernel
  store : ℕ
  started : Bool
  used : ℕ

/-- A call before it enters a guest. `create_store_for_request` puts the quota
into the store. -/
def Microkernel.host (k : Microkernel) : Host := ⟨k, sisFuelQuota.toNat, false, 0⟩

/-- Run guest code, which stops when the store has no fuel left. -/
def Host.enter {α : Type} (code : GuestCode α) (h : Host) : Host :=
  { h with
    store := h.store - code.fuel
    started := true
    used := h.used + min code.fuel h.store }

/-- How a call ends: with a result, by the timeout, or by an overflow that
aborts the process. -/
inductive Exit (ε : Type) where
  | returned (result : Except ε String)
  | overran
  | aborted
  deriving DecidableEq

/-- Record the fuel with the interlock and the monitor. -/
def Host.account (consumed : ℕ) (h : Host) : Option (Except Trap Unit × Host) :=
  (h.kernel.sisInterlock.consumeFuel (.ofNat consumed)).map fun (_, sis) =>
    let (trap, monitor) := h.kernel.fuelMonitor.consume (.ofNat consumed)
    (trap, { h with kernel := { h.kernel with sisInterlock := sis, fuelMonitor := monitor } })

/-- The end of both guests: the fuel is recorded, and the result counts unless
the monitor traps. -/
def Host.accountThen (consumed : ℕ) (trapMessage : String) (result : Except ApiError String)
    (h : Host) : Exit ApiError × Host :=
  match h.account consumed with
  | none => (.aborted, h)
  | some (.error trap, h) =>
      (.returned (.error (.emergencyShutdown (trapMessage ++ trap.display))), h)
  | some (.ok (), h) => (.returned result, h)

/-! ### The tenant guest -/

structure GuestEnv where
  component : Except String Unit
  instantiate : GuestCode Unit
  process : GuestCode (Except String String)

def executeGuest (env : GuestEnv) (h : Host) : Exit ApiError × Host :=
  match env.component with
  | .error e => (.returned (.error (.internal e)), h)
  | .ok () =>
      let h := h.enter env.instantiate
      if env.instantiate.overruns then (.overran, h)
      else
        match env.instantiate.ends with
        | .error e => (.returned (.error (.internal ("Guest instantiation failed: " ++ e))), h)
        | .ok () =>
            let fuelBefore := h.store
            let h := h.enter env.process
            if env.process.overruns then (.overran, h)
            else
              let consumedFuel := fuelBefore - h.store
              h.accountThen consumedFuel "Fuel ESD trap: "
                (match env.process.ends with
                | .error e => .error (.internal ("Guest execution trapped: " ++ e))
                | .ok (.error e) => .error (.invalidPayload ("Guest logic failed: " ++ e))
                | .ok (.ok result) => .ok result)

/-! ### The defence guest -/

structure AegisEnv where
  store : Except String Unit
  loaded : Bool
  instantiate : GuestCode Unit
  construct : GuestCode Unit
  counter : GuestCode String
  resourceDrop : GuestCode Unit

/-- `execute_aegis`. The destructor of the context is not awaited, so the
timeout does not cut it off. -/
def executeAegis (ip : String) (env : AegisEnv) (h : Host) : Exit ApiError × Host :=
  if env.loaded then
    let h := h.enter env.instantiate
    if env.instantiate.overruns then (.overran, h)
    else
      match env.instantiate.ends with
      | .error e =>
          (.returned (.error (.internal ("Aegis sandbox instantiation failed: " ++ e))), h)
      | .ok () =>
          let h := h.enter env.construct
          if env.construct.overruns then (.overran, h)
          else
            match env.construct.ends with
            | .error e =>
                (.returned (.error (.internal ("Attacker context construction failed: " ++ e))), h)
            | .ok () =>
                let aegisFuelBefore := h.store
                let h := h.enter env.counter
                if env.counter.overruns then (.overran, h)
                else
                  let h := h.enter env.resourceDrop
                  match env.resourceDrop.ends with
                  | .error e =>
                      (.returned (.error (.internal
                        ("Attacker context resource drop failed: " ++ e))), h)
                  | .ok () =>
                      let aegisFuel := aegisFuelBefore - h.store
                      h.accountThen aegisFuel "Aegis fuel ESD trap: "
                        (match env.counter.ends with
                        | .error e =>
                            .error (.internal ("Aegis guest trapped during countermeasure: " ++ e))
                        | .ok _ =>
                            .error (.threatMitigated ("Aegis countermeasure executed for IP " ++
                              ip ++ " - sandbox containment verified, fuel consumed: " ++
                              toString aegisFuel)))
  else
    (.returned (.error (.internal "Aegis sandbox guard component not available")), h)

/-- The end of a call under `tokio::time::timeout`. -/
def underTimeout (message : String) (r : Exit ApiError × Host) :
    Exit ApiError × Host :=
  match r.1 with
  | .overran => (.returned (.error (.emergencyShutdown message)), r.2)
  | .returned _ | .aborted => r

def triggerStrangulationMode (ip : String) (env : AegisEnv) (h : Host) : Exit ApiError × Host :=
  match env.store with
  | .error e => (.returned (.error (.internal e)), h)
  | .ok () =>
      underTimeout ("Aegis defense component exceeded " ++
        toString h.kernel.executionTimeoutSecs ++ "s timeout") (executeAegis ip env h)

/-! ### The calls -/

inductive OracleVerdict where
  | passed
  | lowConfidence (score threshold : String)
  | failed (error : String)

/-- What happens in a request that is not decided by the kernel's own state. -/
structure RequestEnv where
  ip : String
  resourceMonitor : Except String Bool
  nexus : Except String Unit
  oracle : OracleVerdict
  proveSafety : Bool
  store : Except String Unit
  guest : GuestEnv
  aegis : AegisEnv

def processApiRequest (env : RequestEnv) (k : Microkernel) : Exit ApiError × Host :=
  let h := k.host
  if k.sisInterlock.currentState = .emergencyShutdown then
    (.returned (.error (.emergencyShutdown "Emergency shutdown active - all requests blocked")), h)
  else
    match env.resourceMonitor with
    | .error e => (.returned (.error (.internal ("Resource monitor check failed: " ++ e))), h)
    | .ok true => triggerStrangulationMode env.ip env.aegis h
    | .ok false =>
        match env.nexus with
        | .error e => (.returned (.error (.internal ("Nexus Gateway routing failed: " ++ e))), h)
        | .ok () =>
            match env.oracle with
            | .lowConfidence score threshold =>
                (.returned (.error (.invalidPayload
                  ("Payload rejected by consensus arbitrator: confidence " ++ score ++
                    " below threshold " ++ threshold))), h)
            | .failed e =>
                (.returned (.error (.internal
                  ("Oracle consensus arbitration failed: " ++ e))), h)
            | .passed =>
                if env.proveSafety then
                  match env.store with
                  | .error e => (.returned (.error (.internal e)), h)
                  | .ok () =>
                      underTimeout ("WASM guest execution exceeded " ++
                        toString k.executionTimeoutSecs ++
                        "s timeout - instance force-terminated") (executeGuest env.guest h)
                else
                  (.returned (.error (.invalidPayload
                    "Payload validation failed - formal safety proof rejected")), h)

structure WasmEnv where
  modulePath : String
  load : Except String Unit
  store : Except String Unit
  instantiate : GuestCode Unit
  process : GuestCode (Except String String)

def getOrCacheComponent (modulePath : String) (load : Except String Unit) (k : Microkernel) :
    Except String Unit × Microkernel :=
  if modulePath ∈ k.moduleCache then (.ok (), k)
  else
    match load with
    | .error e => (.error e, k)
    | .ok () => (.ok (), { k with moduleCache := modulePath :: k.moduleCache })

/-- `run_wasm` from the creation of the store on. -/
def runComponent (env : WasmEnv) (k : Microkernel) : Exit String × Host :=
  match env.store with
  | .error e => (.returned (.error ("Store creation failed: " ++ e)), k.host)
  | .ok () =>
      let h := k.host.enter env.instantiate
      match env.instantiate.ends with
      | .error e => (.returned (.error ("Component instantiation failed: " ++ e)), h)
      | .ok () =>
          let h := h.enter env.process
          match env.process.ends with
          | .error e => (.returned (.error ("Guest execution trapped: " ++ e)), h)
          | .ok (.error e) => (.returned (.error ("Guest logic error: " ++ e)), h)
          | .ok (.ok result) => (.returned (.ok result), h)

/-- `run_wasm`. It has no timeout. -/
def runWasm (env : WasmEnv) (k : Microkernel) : Exit String × Host :=
  match getOrCacheComponent env.modulePath env.load k with
  | (.error e, k) => (.returned (.error e), k.host)
  | (.ok (), k) => runComponent env k

inductive KernelCall where
  | processApiRequest (env : RequestEnv)
  | runWasm (env : WasmEnv)

/-- The state in which a call leaves the kernel. -/
def KernelCall.run (k : Microkernel) : KernelCall → Host
  | .processApiRequest env => (Core.processApiRequest env k).2
  | .runWasm env => (Core.runWasm env k).2

/-! ### What is recorded -/

def Microkernel.recorded (k : Microkernel) : ℕ := k.sisInterlock.fuelConsumed.toNat

/-- The guest uses fuel only where it is measured: not in its instantiation,
and not in a call that the timeout cuts off. -/
def GuestEnv.Metered (env : GuestEnv) : Prop :=
  env.component = .ok () → env.instantiate.fuel = 0 ∧
    (env.instantiate.overruns = false → env.instantiate.ends = .ok () →
      env.process.overruns = true → env.process.fuel = 0)

/-- The same for the defence guest, where the constructor is not measured and
nothing is if the destructor fails. -/
def AegisEnv.Metered (env : AegisEnv) : Prop :=
  env.loaded = true → env.instantiate.fuel = 0 ∧
    (env.instantiate.overruns = false → env.instantiate.ends = .ok () →
      env.construct.fuel = 0 ∧
      (env.construct.overruns = false → env.construct.ends = .ok () →
        (env.counter.overruns = true → env.counter.fuel = 0) ∧
        (env.counter.overruns = false → (∃ e, env.resourceDrop.ends = .error e) →
          env.counter.fuel = 0 ∧ env.resourceDrop.fuel = 0)))

theorem Host.exists_account {h : Host} {consumed : ℕ}
    (hfits : h.kernel.recorded + consumed < 2 ^ 64)
    (hlimit : h.kernel.sisInterlock.fuelLimit.toNat * 9 < 2 ^ 64) :
    ∃ trap h', h.account consumed = some (trap, h') ∧ h'.used = h.used ∧
      h'.started = h.started ∧ h'.kernel.recorded = h.kernel.recorded + consumed ∧
      h'.kernel.sisInterlock.fuelLimit = h.kernel.sisInterlock.fuelLimit := by
  have hcast : (UInt64.ofNat consumed).toNat = consumed := by
    rw [UInt64.toNat_ofNat']
    omega
  obtain ⟨s, sis, hconsume, hlimit', hrecorded⟩ :=
    SisInterlock.exists_consumeFuel (.ofNat consumed) (by rwa [hcast]) hlimit
  rw [hcast] at hrecorded
  rw [Host.account, hconsume]
  exact ⟨_, _, rfl, rfl, rfl, hrecorded, hlimit'⟩

/-- Recording the fuel leaves the measurements alone. -/
theorem Host.used_accountThen (consumed : ℕ) (trapMessage : String)
    (result : Except ApiError String) (h : Host) :
    (h.accountThen consumed trapMessage result).2.used = h.used := by
  have hused : ∀ trap h', h.account consumed = some (trap, h') → h'.used = h.used := by
    intro trap h' haccount
    obtain ⟨⟨s, sis⟩, -, heq⟩ := Option.map_eq_some_iff.mp haccount
    obtain ⟨-, rfl⟩ := Prod.mk.inj heq
    rfl
  unfold Host.accountThen
  split
  · rfl
  · rename_i haccount
    exact hused _ _ haccount
  · rename_i haccount
    exact hused _ _ haccount

theorem Host.accountThen_of_fits {h : Host} {consumed : ℕ} (trapMessage : String)
    (result : Except ApiError String) (hfits : h.kernel.recorded + consumed < 2 ^ 64)
    (hlimit : h.kernel.sisInterlock.fuelLimit.toNat * 9 < 2 ^ 64) :
    (h.accountThen consumed trapMessage result).2.started = h.started ∧
    (h.accountThen consumed trapMessage result).2.kernel.recorded =
      h.kernel.recorded + consumed ∧
    (h.accountThen consumed trapMessage result).2.kernel.sisInterlock.fuelLimit =
      h.kernel.sisInterlock.fuelLimit := by
  obtain ⟨trap, h', haccount, -, hstarted, hrecorded, hlimit'⟩ := Host.exists_account hfits hlimit
  unfold Host.accountThen
  rw [haccount]
  cases trap <;> exact ⟨hstarted, hrecorded, hlimit'⟩

/-- What a call that began with the kernel `k` has done: it keeps the limit,
it has entered a guest or not, and what the guest used is recorded or not. -/
structure Accounted (k : Microkernel) (h : Host) (started metered : Prop) : Prop where
  limit_eq : h.kernel.sisInterlock.fuelLimit = k.sisInterlock.fuelLimit
  started_iff : h.started = true ↔ started
  recorded_iff : h.kernel.recorded = k.recorded + h.used ↔ metered

namespace Accounted

variable {k : Microkernel} {h : Host} {started metered : Prop}

/-- A call that ends before anything is recorded. -/
theorem unrecorded (hkernel : h.kernel = k) (hstarted : h.started = true ↔ started)
    (hused : h.used = 0 ↔ metered) : Accounted k h started metered where
  limit_eq := by rw [hkernel]
  started_iff := hstarted
  recorded_iff := by
    rw [hkernel, ← hused]
    omega

theorem recorded {consumed : ℕ} (trapMessage : String) (result : Except ApiError String)
    (hlimit : k.sisInterlock.fuelLimit.toNat * 9 < 2 ^ 64)
    (hfits : k.recorded + (h.accountThen consumed trapMessage result).2.used < 2 ^ 64)
    (hkernel : h.kernel = k) (hstarted : h.started = true ↔ started) (hle : consumed ≤ h.used)
    (hused : h.used = consumed ↔ metered) :
    Accounted k (h.accountThen consumed trapMessage result).2 started metered := by
  rw [Host.used_accountThen] at hfits
  have hfits' : h.kernel.recorded + consumed < 2 ^ 64 := by
    rw [hkernel]
    omega
  obtain ⟨hstarted', hrecorded, hlimit'⟩ :=
    Host.accountThen_of_fits trapMessage result hfits' (by rwa [hkernel])
  refine ⟨by rw [hlimit', hkernel], by rw [hstarted', hstarted], ?_⟩
  rw [hrecorded, hkernel, Host.used_accountThen, ← hused]
  omega

end Accounted

/-! ### The fuel of a host -/

namespace Host

variable {h : Host} {α β : Type} {code : GuestCode α} {code' : GuestCode β}

def Fueled (h : Host) : Prop := h.store + h.used = sisFuelQuota.toNat

theorem fueled_host (k : Microkernel) : Fueled k.host := Nat.add_zero _

theorem Fueled.enter (hfueled : h.Fueled) : (h.enter code).Fueled := by
  have hmin : h.store - code.fuel + (h.used + min code.fuel h.store) = h.store + h.used := by
    omega
  exact hmin.trans hfueled

theorem used_enter (h : Host) (code : GuestCode α) :
    (h.enter code).used = h.used + (h.store - (h.enter code).store) := by
  have hmin : h.used + min code.fuel h.store = h.used + (h.store - (h.store - code.fuel)) := by
    omega
  exact hmin

theorem used_enter_enter (h : Host) (code : GuestCode α) (code' : GuestCode β) :
    ((h.enter code).enter code').used =
      h.used + (h.store - ((h.enter code).enter code').store) := by
  have hle : ((h.enter code).enter code').store ≤ (h.enter code).store := Nat.sub_le ..
  have hle' : (h.enter code).store ≤ h.store := Nat.sub_le ..
  rw [used_enter, used_enter]
  omega

theorem Fueled.used_enter_eq_zero (hfueled : h.Fueled) :
    (h.enter code).used = 0 ↔ h.used = 0 ∧ code.fuel = 0 := by
  have hquota : 0 < sisFuelQuota.toNat := by decide
  have hsum : h.store + h.used = sisFuelQuota.toNat := hfueled
  have hiff : h.used + min code.fuel h.store = 0 ↔ h.used = 0 ∧ code.fuel = 0 := by omega
  exact hiff

theorem used_host_enter (k : Microkernel) (code : GuestCode α) :
    (k.host.enter code).used = 0 ↔ code.fuel = 0 := by
  rw [(fueled_host k).used_enter_eq_zero]
  exact and_iff_right rfl

theorem used_host_enter_enter (k : Microkernel) (code : GuestCode α) (code' : GuestCode β) :
    ((k.host.enter code).enter code').used = 0 ↔ code.fuel = 0 ∧ code'.fuel = 0 := by
  rw [(fueled_host k).enter.used_enter_eq_zero, used_host_enter]

/-- What was used before a measurement begins is what it misses. -/
theorem used_eq_sub_iff {consumed : ℕ} {used : ℕ} (hused : used = h.used + consumed) :
    used = consumed ↔ h.used = 0 := by
  omega

end Host

theorem executeGuest_accounted (env : GuestEnv) (k : Microkernel)
    (hlimit : k.sisInterlock.fuelLimit.toNat * 9 < 2 ^ 64)
    (hfits : k.recorded + (executeGuest env k.host).2.used < 2 ^ 64) :
    Accounted k (executeGuest env k.host).2 (env.component = .ok ()) env.Metered := by
  obtain ⟨component, instantiate, process⟩ := env
  cases component with
  | error e => exact .unrecorded rfl (by simp [executeGuest, Microkernel.host]) (by
      simp [executeGuest, Microkernel.host, GuestEnv.Metered])
  | ok _ =>
      cases hcut : instantiate.overruns with
      | true =>
          simp only [executeGuest, hcut, if_true]
          refine .unrecorded rfl (by simp [Host.enter]) ?_
          rw [Host.used_host_enter]
          simp [GuestEnv.Metered, hcut]
      | false =>
          cases hinstance : instantiate.ends with
          | error e =>
              simp only [executeGuest, hcut, hinstance]
              refine .unrecorded rfl (by simp [Host.enter]) ?_
              refine (Host.used_host_enter k instantiate).trans ?_
              simp [GuestEnv.Metered, hinstance]
          | ok _ =>
              cases hlate : process.overruns with
              | true =>
                  simp only [executeGuest, hcut, hinstance, hlate, if_true]
                  refine .unrecorded rfl (by simp [Host.enter]) ?_
                  refine (Host.used_host_enter_enter k instantiate process).trans ?_
                  simp [GuestEnv.Metered, hcut, hinstance, hlate]
              | false =>
                  simp only [executeGuest, hcut, hinstance, hlate, Bool.false_eq_true,
                    if_false] at hfits ⊢
                  have hused := Host.used_enter (k.host.enter instantiate) process
                  refine .recorded _ _ hlimit hfits rfl (by simp [Host.enter]) ?_ ?_
                  · rw [hused]
                    exact Nat.le_add_left _ _
                  · rw [Host.used_eq_sub_iff hused, Host.used_host_enter]
                    simp [GuestEnv.Metered, hcut, hinstance, hlate]

theorem executeAegis_accounted (ip : String) (env : AegisEnv) (k : Microkernel)
    (hlimit : k.sisInterlock.fuelLimit.toNat * 9 < 2 ^ 64)
    (hfits : k.recorded + (executeAegis ip env k.host).2.used < 2 ^ 64) :
    Accounted k (executeAegis ip env k.host).2 (env.loaded = true) env.Metered := by
  obtain ⟨store, loaded, instantiate, construct, counter, resourceDrop⟩ := env
  cases loaded with
  | false => exact .unrecorded rfl (by simp [executeAegis, Microkernel.host]) (by
      simp [executeAegis, Microkernel.host, AegisEnv.Metered])
  | true =>
      have hentered := Host.used_host_enter_enter k instantiate construct
      have hfueled : ((k.host.enter instantiate).enter construct).Fueled :=
        (Host.fueled_host k).enter.enter
      cases hcut : instantiate.overruns with
      | true =>
          simp only [executeAegis, hcut, if_true]
          refine .unrecorded rfl (by simp [Host.enter]) ?_
          refine (Host.used_host_enter k instantiate).trans ?_
          simp [AegisEnv.Metered, hcut]
      | false =>
          cases hinstance : instantiate.ends with
          | error e =>
              simp only [executeAegis, hcut, hinstance]
              refine .unrecorded rfl (by simp [Host.enter]) ?_
              refine (Host.used_host_enter k instantiate).trans ?_
              simp [AegisEnv.Metered, hinstance]
          | ok _ =>
              cases hlate : construct.overruns with
              | true =>
                  simp only [executeAegis, hcut, hinstance, hlate, if_true]
                  refine .unrecorded rfl (by simp [Host.enter]) ?_
                  refine hentered.trans ?_
                  simp [AegisEnv.Metered, hcut, hinstance, hlate]
              | false =>
                  cases hcontext : construct.ends with
                  | error e =>
                      simp only [executeAegis, hcut, hinstance, hlate, hcontext]
                      refine .unrecorded rfl (by simp [Host.enter]) ?_
                      refine hentered.trans ?_
                      simp [AegisEnv.Metered, hcut, hinstance, hcontext]
                  | ok _ =>
                      cases hlong : counter.overruns with
                      | true =>
                          simp only [executeAegis, hcut, hinstance, hlate, hcontext, hlong,
                            if_true]
                          refine .unrecorded rfl (by simp [Host.enter]) ?_
                          refine hfueled.used_enter_eq_zero.trans ?_
                          rw [hentered]
                          simp [AegisEnv.Metered, hcut, hinstance, hlate, hcontext, hlong,
                            and_assoc]
                      | false =>
                          cases hdrop : resourceDrop.ends with
                          | error e =>
                              simp only [executeAegis, hcut, hinstance, hlate, hcontext, hlong,
                                hdrop]
                              refine .unrecorded rfl (by simp [Host.enter]) ?_
                              refine hfueled.enter.used_enter_eq_zero.trans ?_
                              rw [hfueled.used_enter_eq_zero, hentered]
                              simp [AegisEnv.Metered, hcut, hinstance, hlate, hcontext, hlong,
                                hdrop, and_assoc]
                          | ok _ =>
                              simp only [executeAegis, hcut, hinstance, hlate, hcontext, hlong,
                                hdrop, Bool.false_eq_true, if_false, if_true] at hfits ⊢
                              have hused := Host.used_enter_enter
                                ((k.host.enter instantiate).enter construct) counter resourceDrop
                              refine .recorded _ _ hlimit hfits rfl (by simp [Host.enter]) ?_ ?_
                              · rw [hused]
                                exact Nat.le_add_left _ _
                              · rw [Host.used_eq_sub_iff hused, hentered]
                                simp [AegisEnv.Metered, hcut, hinstance, hlate, hcontext, hlong,
                                  hdrop]

/-! ### Sequences of calls -/

/-- No guest is entered during an emergency shutdown, and the interlock has
recorded what the guest of the call used. -/
def KernelCall.Sound (k : Microkernel) (c : KernelCall) : Prop :=
  (k.sisInterlock.currentState = .emergencyShutdown → (c.run k).started = false) ∧
    (c.run k).kernel.recorded = k.recorded + (c.run k).used

/-- The fuel used so far fits. -/
def KernelCall.Fits (k : Microkernel) (c : KernelCall) : Prop :=
  k.recorded + (c.run k).used < 2 ^ 64

/-- The guest that the request gets to, if any, is metered. -/
def RequestEnv.Metered (env : RequestEnv) : Prop :=
  (env.resourceMonitor = .ok true → env.aegis.store = .ok () → env.aegis.Metered) ∧
    (env.resourceMonitor = .ok false → env.nexus = .ok () → env.oracle = .passed →
      env.proveSafety = true → env.store = .ok () → env.guest.Metered)

/-- The module does not get as far as its guest, or the guest is not entered
in an emergency and uses no fuel. -/
def WasmEnv.Metered (env : WasmEnv) (k : Microkernel) : Prop :=
  env.modulePath ∈ k.moduleCache ∨ env.load = .ok () → env.store = .ok () →
    k.sisInterlock.currentState ≠ .emergencyShutdown ∧ env.instantiate.fuel = 0 ∧
      (env.instantiate.ends = .ok () → env.process.fuel = 0)

def KernelCall.Metered (k : Microkernel) : KernelCall → Prop
  | .processApiRequest env =>
      k.sisInterlock.currentState = .emergencyShutdown ∨ env.Metered
  | .runWasm env => env.Metered k

theorem underTimeout_snd (message : String) (r : Exit ApiError × Host) :
    (underTimeout message r).2 = r.2 := by
  unfold underTimeout
  split <;> rfl

/-- A call that does not get as far as a guest. -/
theorem Accounted.host (k : Microkernel) : Accounted k k.host False True :=
  .unrecorded rfl (by simp [Microkernel.host]) (by simp [Microkernel.host])

theorem Accounted.congr {k : Microkernel} {h : Host} {started metered started' metered' : Prop}
    (h₁ : Accounted k h started metered) (hstarted : started ↔ started')
    (hmetered : metered ↔ metered') : Accounted k h started' metered' :=
  ⟨h₁.limit_eq, h₁.started_iff.trans hstarted, h₁.recorded_iff.trans hmetered⟩

theorem processApiRequest_accounted (env : RequestEnv) (k : Microkernel)
    (hlimit : k.sisInterlock.fuelLimit.toNat * 9 < 2 ^ 64)
    (hopen : k.sisInterlock.currentState ≠ .emergencyShutdown)
    (hfits : k.recorded + (processApiRequest env k).2.used < 2 ^ 64) :
    ∃ started, Accounted k (processApiRequest env k).2 started env.Metered := by
  obtain ⟨ip, resourceMonitor, nexus, oracle, proveSafety, store, guest, aegis⟩ := env
  -- Every stage but two ends the request before a guest.
  have hearly : ∀ metered : Prop, metered →
      ∃ started, Accounted k k.host started metered := by
    intro metered hmetered
    exact ⟨False, (Accounted.host k).congr Iff.rfl (iff_of_true trivial hmetered)⟩
  unfold processApiRequest at hfits ⊢
  unfold RequestEnv.Metered
  simp only [hopen, if_false] at hfits ⊢
  cases resourceMonitor with
  | error e => exact hearly _ (by simp)
  | ok strangled =>
      cases strangled with
      | true =>
          simp only [triggerStrangulationMode] at hfits ⊢
          cases hstore : aegis.store with
          | error e => exact hearly _ (by simp)
          | ok _ =>
              simp only [hstore, underTimeout_snd] at hfits ⊢
              exact ⟨_, (executeAegis_accounted ip aegis k hlimit hfits).congr Iff.rfl
                (by simp)⟩
      | false =>
          cases nexus with
          | error e => exact hearly _ (by simp)
          | ok _ =>
              cases oracle with
              | lowConfidence score threshold => exact hearly _ (by simp)
              | failed e => exact hearly _ (by simp)
              | passed =>
                  cases proveSafety with
                  | false => exact hearly _ (by simp)
                  | true =>
                      cases store with
                      | error e => exact hearly _ (by simp)
                      | ok _ =>
                          simp only [if_true, underTimeout_snd] at hfits ⊢
                          exact ⟨_, (executeGuest_accounted guest k hlimit hfits).congr Iff.rfl
                            (by simp)⟩

theorem runComponent_kernel (env : WasmEnv) (k : Microkernel) :
    (runComponent env k).2.kernel = k := by
  unfold runComponent
  repeat' split
  all_goals rfl

theorem runComponent_started (env : WasmEnv) (k : Microkernel) :
    (runComponent env k).2.started = true ↔ env.store = .ok () := by
  unfold runComponent
  split
  · rename_i hstore
    simp [Microkernel.host, hstore]
  · rename_i hstore
    simp only [hstore, iff_true]
    repeat' split
    all_goals rfl

theorem runComponent_used (env : WasmEnv) (k : Microkernel) :
    (runComponent env k).2.used = 0 ↔ (env.store = .ok () → env.instantiate.fuel = 0 ∧
      (env.instantiate.ends = .ok () → env.process.fuel = 0)) := by
  have hquota : 0 < sisFuelQuota.toNat := by decide
  unfold runComponent
  split
  · rename_i hstore
    simp [Microkernel.host, hstore]
  · rename_i hstore
    split
    · rename_i hinstance
      simp [Host.enter, Microkernel.host, hstore, hinstance]
      omega
    · rename_i hinstance
      have hends : ((k.host.enter env.instantiate).enter env.process).used = 0 ↔
          env.instantiate.fuel = 0 ∧ env.process.fuel = 0 := by
        simp [Host.enter, Microkernel.host]
        omega
      simp only [hstore, hinstance, true_implies, ← hends]
      split <;> rfl

theorem runWasm_accounted (env : WasmEnv) (k : Microkernel) :
    (runWasm env k).2.kernel.sisInterlock = k.sisInterlock ∧
      ((k.sisInterlock.currentState = .emergencyShutdown → (runWasm env k).2.started = false) ∧
        (runWasm env k).2.used = 0 ↔ env.Metered k) := by
  have hrun : ∀ k' : Microkernel, k'.sisInterlock = k.sisInterlock →
      (runComponent env k').2.kernel.sisInterlock = k.sisInterlock ∧
      ((k.sisInterlock.currentState = .emergencyShutdown →
          (runComponent env k').2.started = false) ∧ (runComponent env k').2.used = 0 ↔
        (env.store = .ok () → k.sisInterlock.currentState ≠ .emergencyShutdown ∧
          env.instantiate.fuel = 0 ∧ (env.instantiate.ends = .ok () → env.process.fuel = 0))) := by
    intro k' hk'
    refine ⟨by rw [runComponent_kernel, hk'], ?_⟩
    rw [runComponent_used, ← Bool.not_eq_true, runComponent_started]
    tauto
  unfold runWasm getOrCacheComponent WasmEnv.Metered
  by_cases hcached : env.modulePath ∈ k.moduleCache
  · simpa [hcached] using hrun k rfl
  · cases hload : env.load with
    | error e => simp [hcached, Microkernel.host]
    | ok _ =>
        simpa [hcached] using hrun { k with moduleCache := env.modulePath :: k.moduleCache } rfl

theorem KernelCall.sound_iff {k : Microkernel} {c : KernelCall}
    (hlimit : k.sisInterlock.fuelLimit.toNat * 9 < 2 ^ 64) (hfits : c.Fits k) :
    (c.run k).kernel.sisInterlock.fuelLimit = k.sisInterlock.fuelLimit ∧
      (c.Sound k ↔ c.Metered k) := by
  cases c with
  | processApiRequest env =>
      by_cases hclosed : k.sisInterlock.currentState = .emergencyShutdown
      · have hblocked : (Core.processApiRequest env k).2 = k.host := by
          simp [Core.processApiRequest, hclosed]
        refine ⟨by simp [KernelCall.run, hblocked, Microkernel.host], ?_⟩
        simp [KernelCall.Sound, KernelCall.Metered, KernelCall.run, hblocked, hclosed,
          Microkernel.host]
      · obtain ⟨started, haccounted⟩ := processApiRequest_accounted env k hlimit hclosed hfits
        refine ⟨haccounted.limit_eq, ?_⟩
        simp only [KernelCall.Sound, KernelCall.Metered, KernelCall.run, hclosed, false_or,
          false_implies, true_and]
        exact haccounted.recorded_iff
  | runWasm env =>
      obtain ⟨hkept, hiff⟩ := runWasm_accounted env k
      refine ⟨by rw [KernelCall.run, hkept], ?_⟩
      rw [KernelCall.Metered, ← hiff]
      simp [KernelCall.Sound, KernelCall.run, Microkernel.recorded, hkept]

/-- A property of every call of a sequence, in the state in which it is made. -/
def Along (P : Microkernel → KernelCall → Prop) (k : Microkernel) : List KernelCall → Prop
  | [] => True
  | c :: cs => P k c ∧ Along P (c.run k).kernel cs

/-- Every call of a sequence is sound exactly when every call is metered. -/
theorem guests_metered_iff (executionTimeoutSecs : ℕ) (calls : List KernelCall)
    (hfits : Along (fun k c => c.Fits k) (.new executionTimeoutSecs) calls) :
    Along (fun k c => c.Sound k) (.new executionTimeoutSecs) calls ↔
      Along (fun k c => c.Metered k) (.new executionTimeoutSecs) calls := by
  have hrun : ∀ k : Microkernel, k.sisInterlock.fuelLimit = sisFuelQuota →
      Along (fun k c => c.Fits k) k calls →
      (Along (fun k c => c.Sound k) k calls ↔ Along (fun k c => c.Metered k) k calls) := by
    clear hfits
    induction calls with
    | nil => exact fun _ _ _ => Iff.rfl
    | cons c cs ih =>
        intro k hlimit hfits
        obtain ⟨hfirst, hrest⟩ := hfits
        have hsmall : k.sisInterlock.fuelLimit.toNat * 9 < 2 ^ 64 := by
          rw [hlimit]
          decide
        obtain ⟨hkept, hiff⟩ := KernelCall.sound_iff hsmall hfirst
        exact and_congr hiff (ih _ (hkept.trans hlimit) hrest)
  exact hrun _ rfl hfits

/-- A request whose guest uses some fuel and returns, and then a cached module
that uses none. -/
theorem guests_metered_iff_twice :
    let quiet : GuestCode Unit := ⟨0, .ok (), false⟩
    let calls : List KernelCall :=
      [.processApiRequest
        { ip := "10.0.0.1", resourceMonitor := .ok false, nexus := .ok (), oracle := .passed
          proveSafety := true, store := .ok ()
          guest := ⟨.ok (), quiet, ⟨1000, .ok (.ok "done"), false⟩⟩
          aegis := ⟨.ok (), true, quiet, quiet, ⟨0, .ok "", false⟩, quiet⟩ },
        .runWasm ⟨"plugin.wasm", .ok (), .ok (), quiet, ⟨0, .ok (.ok "done"), false⟩⟩]
    Along (fun k c => c.Fits k) (.new 5) calls ∧ Along (fun k c => c.Sound k) (.new 5) calls := by
  intro quiet calls
  have hfits : Along (fun k c => c.Fits k) (.new 5) calls :=
    ⟨by unfold KernelCall.Fits; decide +kernel, by unfold KernelCall.Fits; decide +kernel, trivial⟩
  refine ⟨hfits, (guests_metered_iff 5 calls hfits).mpr ⟨.inr ?_, ?_, trivial⟩⟩
  · exact ⟨by simp, fun _ _ _ _ _ _ => ⟨rfl, by simp⟩⟩
  · intro _ _
    exact ⟨by decide +kernel, rfl, fun _ => rfl⟩

/-- A cached module uses fuel that the interlock never learns of. -/
theorem guest_unmetered :
    ¬∀ (executionTimeoutSecs : ℕ) (calls : List KernelCall),
      Along (fun k c => c.Fits k) (.new executionTimeoutSecs) calls →
      Along (fun k c => c.Sound k) (.new executionTimeoutSecs) calls := by
  intro hall
  have hsound := hall 5
    [.runWasm ⟨"plugin.wasm", .ok (), .ok (), ⟨0, .ok (), false⟩, ⟨5, .ok (.ok "done"), false⟩⟩]
    ⟨by unfold KernelCall.Fits; decide +kernel, trivial⟩
  obtain ⟨⟨-, hrecorded⟩, -⟩ := hsound
  exact absurd hrecorded (by decide +kernel)

end SereinGateway.Core
