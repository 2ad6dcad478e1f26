import Mathlib
import SereinGateway.Lib.Tally
import SereinGateway.Router.Orchestrator

/-!
Concurrent invocations of the fallback node, in the build without `wasi-nn`.

An invocation waits for one of four permits, counts itself, makes its tests and sleeps;
then it returns the mock output. A test that fails counts an error. The permit goes back
when the invocation returns, or when it is dropped in its wait or its sleep.

The two counters have 64 bits; the numbers of invocations and errors that they count are
not in the program.
-/

namespace SereinGateway.Router

open SereinGateway.Lib

/-- `concurrency_semaphore`. -/
def concurrencyPermits : ℕ := 4

/-- What the invocations share. -/
structure FallbackShared where
  permits : ℕ
  invocationCount : ℕ
  errorCount : ℕ
  invoked : ℕ
  erred : ℕ
  deriving DecidableEq, Repr

/-- Where an invocation stands; it can be dropped where it waits. -/
inductive FallbackPc where
  | idle
  | waiting
  /-- It has a permit. -/
  | admitted
  /-- It has counted itself. -/
  | counted
  /-- In the sleep of 50 milliseconds. -/
  | sleeping
  /-- The result is there, and the permit has not gone back. -/
  | leaving (result : FallbackNodeResult)
  | returned (result : FallbackNodeResult)
  | dropped
  deriving DecidableEq, Repr

structure FallbackCall where
  prompt : String
  pc : FallbackPc
  deriving DecidableEq, Repr

namespace FallbackPc

def holds : FallbackPc → ℤ
  | .admitted | .counted | .sleeping | .leaving _ => 1
  | .idle | .waiting | .returned _ | .dropped => 0

/-- It has counted itself and may still count an error. -/
def opens : FallbackPc → ℤ
  | .counted => 1
  | .idle | .waiting | .admitted | .sleeping | .leaving _ | .returned _ | .dropped => 0

def result? : FallbackPc → Option FallbackNodeResult
  | .leaving result | .returned result => some result
  | .idle | .waiting | .admitted | .counted | .sleeping | .dropped => none

end FallbackPc

inductive FallbackStep where
  | call (prompt : String)
  /-- A permit is there. -/
  | acquire
  /-- The wait of 500 milliseconds is over. -/
  | overloaded
  /-- `invocation_count.fetch_add(1)`. -/
  | count
  /-- A test fails: `error_count.fetch_add(1)`. -/
  | refuse (durationMs : UInt64)
  /-- The tests pass, and the sleep begins. -/
  | sleep
  | wake (durationMs : UInt64)
  /-- The permit is dropped, and the invocation returns. -/
  | release
  /-- The future of the invocation is dropped. -/
  | cancel

namespace PhysicalFallbackNode

variable (node : PhysicalFallbackNode)

/-- A test fails. -/
def Refuses (prompt : String) : Prop :=
  node.endpoint.enabled = false ∨ node.endpoint.maxInputTokens * 4 < prompt.utf8ByteSize

instance (prompt : String) : Decidable (node.Refuses prompt) := inferInstanceAs (Decidable (_ ∨ _))

def act (_ : ℕ) (s : FallbackShared) (c : FallbackCall) :
    FallbackStep → Option (FallbackShared × FallbackCall)
  | .call prompt =>
      if c.pc = .idle then some (s, ⟨prompt, .waiting⟩) else none
  | .acquire =>
      if c.pc = .waiting ∧ 0 < s.permits then
        some ({ s with permits := s.permits - 1 }, { c with pc := .admitted })
      else none
  | .overloaded =>
      if c.pc = .waiting then
        some (s, { c with pc := .returned (node.invoke c.prompt .overloaded) })
      else none
  | .count =>
      if c.pc = .admitted then
        some ({ s with
          invocationCount := fetchAdd s.invocationCount 1
          invoked := s.invoked + 1 }, { c with pc := .counted })
      else none
  | .refuse durationMs =>
      if c.pc = .counted ∧ node.Refuses c.prompt then
        some ({ s with
          errorCount := fetchAdd s.errorCount 1
          erred := s.erred + 1 },
          { c with pc := .leaving (node.infer c.prompt none durationMs) })
      else none
  | .sleep =>
      if c.pc = .counted ∧ ¬node.Refuses c.prompt then some (s, { c with pc := .sleeping })
      else none
  | .wake durationMs =>
      if c.pc = .sleeping then
        some (s, { c with
          pc := .leaving ⟨some mockOutput, none, durationMs, node.endpoint.modelId⟩ })
      else none
  | .release =>
      match c.pc with
      | .leaving result =>
          some ({ s with permits := s.permits + 1 }, { c with pc := .returned result })
      | _ => none
  | .cancel =>
      match c.pc with
      | .waiting => some (s, { c with pc := .dropped })
      | .sleeping => some ({ s with permits := s.permits + 1 }, { c with pc := .dropped })
      | _ => none

end PhysicalFallbackNode

abbrev FallbackPool := Pool FallbackShared FallbackCall

def fallbackStart : FallbackPool :=
  ⟨⟨concurrencyPermits, 0, 0, 0, 0⟩, fun _ => ⟨"", .idle⟩⟩

/-! ### The books of the node -/

structure FallbackInv (p : FallbackPool) : Prop where
  permits : Tally (fun i => (p.task i).pc.holds) (concurrencyPermits - p.shared.permits)
  invocations : p.shared.invocationCount = p.shared.invoked % 2 ^ 64
  errors : p.shared.errorCount = p.shared.erred % 2 ^ 64
  once : ∃ n, Tally (fun i => (p.task i).pc.opens) n ∧ p.shared.erred + n ≤ p.shared.invoked

variable {node : PhysicalFallbackNode} {p q : FallbackPool}

theorem fallbackInv_start : FallbackInv fallbackStart where
  permits := by
    rw [fallbackStart, sub_self]
    exact .zero fun _ => rfl
  invocations := rfl
  errors := rfl
  once := ⟨0, .zero fun _ => rfl, le_rfl⟩

/-- A step of one invocation that keeps the books. -/
structure KeepsBooks (s : FallbackShared) (c : FallbackCall) (s' : FallbackShared)
    (c' : FallbackCall) : Prop where
  permits : (s'.permits : ℤ) + c'.pc.holds = s.permits + c.pc.holds
  invocations : s.invocationCount = s.invoked % 2 ^ 64 →
    s'.invocationCount = s'.invoked % 2 ^ 64
  errors : s.errorCount = s.erred % 2 ^ 64 → s'.errorCount = s'.erred % 2 ^ 64
  once : s'.erred + c'.pc.opens + s.invoked ≤ s.erred + c.pc.opens + s'.invoked

theorem FallbackInv.update (h : FallbackInv p) {i : ℕ} {s : FallbackShared}
    {c : FallbackCall} (hbooks : KeepsBooks p.shared (p.task i) s c) :
    FallbackInv ⟨s, Function.update p.task i c⟩ := by
  obtain ⟨hpermits, hinvocations, herrors, honce⟩ := hbooks
  obtain ⟨n, hn, hcount⟩ := h.once
  refine ⟨?_, hinvocations h.invocations, herrors h.errors,
    n - (p.task i).pc.opens + c.pc.opens, ?_, ?_⟩
  · convert h.permits.update (v := fun t : FallbackCall => t.pc.holds) i c using 1
    dsimp only
    omega
  · exact hn.update (v := fun t : FallbackCall => t.pc.opens) i c
  · dsimp only
    omega

variable {s s' : FallbackShared} {c c' : FallbackCall} {i : ℕ} {a : FallbackStep}

theorem fetchAdd_of_eq_mod {counter n : ℕ} (h : counter = n % 2 ^ 64) :
    fetchAdd counter 1 = (n + 1) % 2 ^ 64 := by
  rw [fetchAdd, h, Nat.mod_add_mod]

theorem keepsBooks_of_act (h : node.act i s c a = some (s', c')) : KeepsBooks s c s' c' := by
  cases a with
  | call prompt =>
      obtain ⟨hpc, h⟩ := Option.ite_none_right_eq_some.mp h
      cases h
      constructor <;> simp [hpc, FallbackPc.holds, FallbackPc.opens]
  | acquire =>
      obtain ⟨⟨hpc, hpos⟩, h⟩ := Option.ite_none_right_eq_some.mp h
      cases h
      constructor <;> simp [hpc, FallbackPc.holds, FallbackPc.opens]
      omega
  | overloaded =>
      obtain ⟨hpc, h⟩ := Option.ite_none_right_eq_some.mp h
      cases h
      constructor <;> simp [hpc, FallbackPc.holds, FallbackPc.opens]
  | count =>
      obtain ⟨hpc, h⟩ := Option.ite_none_right_eq_some.mp h
      cases h
      refine ⟨by rw [hpc]; rfl, fetchAdd_of_eq_mod, id, ?_⟩
      simp only [hpc, FallbackPc.opens]
      omega
  | refuse durationMs =>
      obtain ⟨⟨hpc, -⟩, h⟩ := Option.ite_none_right_eq_some.mp h
      cases h
      refine ⟨by rw [hpc]; rfl, id, fetchAdd_of_eq_mod, ?_⟩
      simp only [hpc, FallbackPc.opens]
      omega
  | sleep =>
      obtain ⟨⟨hpc, -⟩, h⟩ := Option.ite_none_right_eq_some.mp h
      cases h
      constructor <;> simp [hpc, FallbackPc.holds, FallbackPc.opens]
  | wake durationMs =>
      obtain ⟨hpc, h⟩ := Option.ite_none_right_eq_some.mp h
      cases h
      constructor <;> simp [hpc, FallbackPc.holds, FallbackPc.opens]
  | release =>
      unfold PhysicalFallbackNode.act at h
      dsimp only at h
      split at h
      · rename_i result hpc
        cases h
        constructor <;> simp [hpc, FallbackPc.holds, FallbackPc.opens]
      · cases h
  | cancel =>
      unfold PhysicalFallbackNode.act at h
      dsimp only at h
      split at h
      · rename_i hpc
        cases h
        constructor <;> simp [hpc, FallbackPc.holds, FallbackPc.opens]
      · rename_i hpc
        cases h
        constructor <;> simp [hpc, FallbackPc.holds, FallbackPc.opens]
      · cases h

theorem FallbackInv.step {e : ℕ × FallbackStep} (h : FallbackInv p)
    (hstep : p.step node.act e = some q) : FallbackInv q := by
  obtain ⟨s, c, hact, rfl⟩ := Pool.step_eq_some.mp hstep
  exact h.update (keepsBooks_of_act hact)

/-! ### Answers -/

/-- What an invocation returns is what `invoke` does, and only an invocation that passes the
tests sleeps. -/
structure FallbackCall.Follows (node : PhysicalFallbackNode) (c : FallbackCall) : Prop where
  answers : ∀ result, c.pc.result? = some result →
    ∃ attempt, attempt ≠ .semaphoreClosed ∧ result = node.invoke c.prompt attempt
  passed : c.pc = .sleeping → ¬node.Refuses c.prompt

theorem infer_of_refuses {prompt : String} (h : node.Refuses prompt) (durationMs : UInt64) :
    node.infer prompt none durationMs = node.invoke prompt (.admitted (.error "") durationMs) := by
  rw [PhysicalFallbackNode.invoke, PhysicalFallbackNode.infer, PhysicalFallbackNode.infer]
  obtain h | h := h
  · rw [h]
    rfl
  · rw [if_pos h, if_pos h]

theorem invoke_of_passed {prompt : String} (hstub : node.wasiNn = false)
    (h : ¬node.Refuses prompt) (durationMs : UInt64) :
    node.invoke prompt (.admitted (.error "") durationMs) =
      ⟨some mockOutput, none, durationMs, node.endpoint.modelId⟩ := by
  obtain ⟨henabled, hshort⟩ := not_or.mp h
  rw [PhysicalFallbackNode.invoke, PhysicalFallbackNode.infer, if_neg (by simpa using henabled),
    if_neg hshort, hstub]
  rfl

theorem follows_of_act (hstub : node.wasiNn = false) (h : node.act i s c a = some (s', c'))
    (hc : c.Follows node) : c'.Follows node := by
  cases a with
  | call prompt | acquire | count =>
      obtain ⟨-, h⟩ := Option.ite_none_right_eq_some.mp h
      cases h
      exact ⟨nofun, nofun⟩
  | overloaded =>
      obtain ⟨-, h⟩ := Option.ite_none_right_eq_some.mp h
      cases h
      refine ⟨?_, nofun⟩
      rintro result ⟨⟩
      exact ⟨.overloaded, nofun, rfl⟩
  | refuse durationMs =>
      obtain ⟨⟨-, hrefuses⟩, h⟩ := Option.ite_none_right_eq_some.mp h
      cases h
      refine ⟨?_, nofun⟩
      rintro result ⟨⟩
      exact ⟨.admitted (.error "") durationMs, nofun, infer_of_refuses hrefuses durationMs⟩
  | sleep =>
      obtain ⟨⟨-, hpassed⟩, h⟩ := Option.ite_none_right_eq_some.mp h
      cases h
      exact ⟨nofun, fun _ => hpassed⟩
  | wake durationMs =>
      obtain ⟨hpc, h⟩ := Option.ite_none_right_eq_some.mp h
      cases h
      refine ⟨?_, nofun⟩
      rintro result ⟨⟩
      exact ⟨.admitted (.error "") durationMs, nofun,
        (invoke_of_passed hstub (hc.passed hpc) durationMs).symm⟩
  | release =>
      unfold PhysicalFallbackNode.act at h
      dsimp only at h
      split at h
      · rename_i result hpc
        cases h
        refine ⟨?_, nofun⟩
        rintro result ⟨⟩
        exact hc.answers result (by rw [hpc]; rfl)
      · cases h
  | cancel =>
      unfold PhysicalFallbackNode.act at h
      dsimp only at h
      split at h
      · cases h
        exact ⟨nofun, nofun⟩
      · cases h
        exact ⟨nofun, nofun⟩
      · cases h

/-! ### Every interleaving -/

theorem holds_nonneg (pc : FallbackPc) : 0 ≤ pc.holds := by
  unfold FallbackPc.holds
  split <;> decide

theorem opens_nonneg (pc : FallbackPc) : 0 ≤ pc.opens := by
  unfold FallbackPc.opens
  split <;> decide

/-- A node with room for one token. -/
def smallNode : PhysicalFallbackNode := ⟨⟨"serein-slm-v1", 30000, 1, true⟩, false⟩

/-- Four invocations have permits and a fifth one does not get any; of the four, one returns
the mock output, one refuses its prompt, one is cancelled and one sleeps. -/
def fiveCalls : List (ℕ × FallbackStep) :=
  [(0, .call "Hi"), (0, .acquire), (1, .call "Hello"), (1, .acquire), (2, .call ""),
    (2, .acquire), (0, .count), (3, .call ""), (3, .acquire), (4, .call "Hi"), (1, .count),
    (1, .refuse 0), (4, .overloaded), (2, .count), (2, .sleep), (0, .sleep), (2, .cancel),
    (3, .count), (3, .sleep), (0, .wake 51), (1, .release), (0, .release)]

end SereinGateway.Router
