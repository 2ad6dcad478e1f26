import Mathlib
import SereinGateway.Gateway.Refunds
import SereinGateway.Router.Quorum
import SereinGateway.Router.Requests

/-!
`handle_agent_execution` from the deduction to the answer, and the budgets.

A handler runs its call of the orchestrator as the machine of
`Router.Requests` does; the answer, the guard and the refunds are here. The
checks before the deduction are left to the environment: whichever of them
fails, nothing has been deducted and no guard exists. After the deduction a
guard exists, and every way out but the answer 200 drops it, which spawns a
refund of one token that runs at some later time.

The ledger is not in the program. It keeps for each tenant the budget that
was set last, the answers 200 since then, and what refunds have added since
then. `deduct_tokens` deducts nothing, so the balance is the budget and the
refunds (`Booked`).
-/

namespace SereinGateway.Gateway

open SereinGateway.Lib SereinGateway.Router SereinGateway.TrafficControl

/-! ### Checks after the deduction -/

def isAsciiAlphanumeric (c : Char) : Bool :=
  'a' ≤ c && c ≤ 'z' || 'A' ≤ c && c ≤ 'Z' || '0' ≤ c && c ≤ '9'

/-- `is_ascii_whitespace`: space, tab, line feed, form feed, carriage return. -/
def isAsciiWhitespace (c : Char) : Bool :=
  c == ' ' || c == '\t' || c == '\n' || c == '\x0c' || c == '\r'

def validNetworkId (networkId : String) : Bool :=
  networkId ≠ "" && networkId.utf8ByteSize ≤ 64 &&
    networkId.toList.all fun c => isAsciiAlphanumeric c || c == '-' || c == '_'

def validTaskType (taskType : String) : Bool :=
  taskType.utf8ByteSize ≤ 50 &&
    taskType.toList.all fun c => isAsciiAlphanumeric c || isAsciiWhitespace c

/-- The prompt of an agent execution; `network` is in lower case. -/
def executionPrompt (network taskType : String) : String :=
  "You are a deterministic Web3 agent execution engine. Extract execution parameters for network \"" ++
    network ++ "\" and task type \"" ++ taskType ++
    "\".\nRespond ONLY with a JSON object matching this exact schema:\n\x7b\n  \"networkId\": \"" ++
    network ++ "\",\n  \"taskType\": \"" ++ taskType ++
    "\",\n  \"maxGasLimit\": <integer: estimated max gas limit, or 0 if unknown>,\n" ++
    "  \"confidenceScore\": <float: 0.0 to 1.0 representing certainty>,\n" ++
    "  \"sourceUrl\": \"<string: official data source URL or 'unknown'>\"\n\x7d\n" ++
    "No explanation, no markdown fences, just the JSON object."

/-! ### Handlers -/

/-- Where a handler stands. -/
inductive HandlerPc where
  | start
  | deduct
  | validate
  | consensus
  | serialize (result : TmrConsensusResult)
  | record
  | answered (status : ℕ)
  | dropped
  deriving DecidableEq, Repr

/-- A handler; `refundDue` says that its guard was dropped and the refund that
this spawned has not run. -/
structure Handler where
  headers : HeaderMap
  body : AgentExecutionPayload
  tenantId : String
  request : Router.Request
  pc : HandlerPc
  refundDue : Bool

/-- What happened to a budget since it was set. -/
structure Ledger where
  budget : ℤ
  served : ℕ
  refunded : ℤ
  deriving DecidableEq

/-- State shared by the handlers. The ledgers are not in the program. -/
structure BillingState where
  router : RouterState
  store : RedisStore
  now : ℕ
  ledger : String → Option Ledger

inductive HandlerAction where
  | reject (status : ℕ)
  | pass
  | deduct
  | validate
  | router (action : RequestAction)
  | timeout
  | receive
  | serialize (success : Bool)
  | respond
  | dropFuture
  | runRefund
  | setBudget (tenantId : String) (budget : Int64)
  | tick (elapsed : ℕ)

/-- What `execute_consensus_providers` has returned. -/
def returned (c : Router.Request) : Option TmrConsensusResult :=
  match c.stage with
  | .served result _ => some result
  | .dedup =>
      match c.flight.pc with
      | .watcherReturned _ result => some result
      | .leaderReturned result => some result
      | _ => none
  | _ => none

/-- What goes on after the request has been answered: the cache write that it
spawned, and the expiry of the cache. -/
def inBackground : RequestAction → Bool
  | .flushWrite | .loseWrite | .expire => true
  | _ => false

namespace BillingState

/-- Apply a refund and book it. -/
def refund (s : BillingState) (call : RefundCall) : BillingState :=
  { s with
    store := call.apply s.store
    ledger := Function.update s.ledger call.tenantId ((s.ledger call.tenantId).map fun l =>
      { l with refunded := l.refunded + call.change s.store }) }

/-- Book an answer 200. -/
def serve (s : BillingState) (tenantId : String) : BillingState :=
  { s with
    ledger := Function.update s.ledger tenantId ((s.ledger tenantId).map fun l =>
      { l with served := l.served + 1 }) }

def setBudget (s : BillingState) (tenantId : String) (budget : Int64) : BillingState :=
  { s with
    store := (TrafficControl.setBudget s.now tenantId budget s.store).2
    ledger := Function.update s.ledger tenantId (some ⟨budget.toInt, 0, 0⟩) }

end BillingState

namespace Handler

/-- An answer other than 200: the guard is dropped. -/
def fail (c : Handler) (status : ℕ) : Handler :=
  { c with pc := .answered status, refundDue := true }

def receive (c : Handler) (result : TmrConsensusResult) : Handler :=
  if result.consensusAchieved then { c with pc := .serialize result } else c.fail 409

def guardCall (c : Handler) (now : ℕ) : RefundCall := guardRefund c.headers c.tenantId now

/-- The refund that the orchestrator awaits for this request. -/
def orchestratorCall (orch : TmrOrchestrator) (deps : RouterDeps) (c : Handler) (now : ℕ) :
    RefundCall :=
  orchestratorRefund deps.toKeyDeps orch.adapters.length c.request.req.tenantId
    c.request.req.prompt now

end Handler

section Steps

variable (orch : TmrOrchestrator) (deps : RouterDeps) (waf : String → Option String)

/-- A step of the orchestrator in the handler `i`. -/
def routerStep (i : ℕ) (s : BillingState) (c : Handler) (a : RequestAction) :
    Option (BillingState × Handler) :=
  (orch.requestStep deps i s.router c.request a).map fun r =>
    let s' := { s with router := r.1 }
    let c' := { c with request := r.2 }
    match a with
    | .refund => (s'.refund (c.orchestratorCall orch deps s.now), c')
    | _ => (s', c')

def handlerStep (i : ℕ) (s : BillingState) (c : Handler) :
    HandlerAction → Option (BillingState × Handler)
  | .reject status =>
      if c.pc = .start ∧ status ≠ 200 then some (s, { c with pc := .answered status }) else none
  | .pass => if c.pc = .start then some (s, { c with pc := .deduct }) else none
  | .deduct =>
      if c.pc = .deduct then
        match deductTokens c.tenantId 1 s.store with
        | (.ok (.success _), store) => some ({ s with store }, { c with pc := .validate })
        | (.ok (.insufficientFunds _ _), store) =>
            some ({ s with store }, { c with pc := .answered 402 })
        | (.error _, store) => some ({ s with store }, { c with pc := .answered 500 })
      else none
  | .validate =>
      if c.pc = .validate then
        if validNetworkId c.body.networkId = false then some (s, c.fail 400)
        else if validTaskType c.body.taskTypeVal = false then some (s, c.fail 400)
        else
          match waf c.request.req.prompt with
          | some _ => some (s, c.fail 403)
          | none => some (s, { c with pc := .consensus })
      else none
  | .router a =>
      -- The future is dropped with its handler or by the timeout only.
      if inBackground a then routerStep orch deps i s c a
      else
        match c.pc, a with
        | .consensus, .dropFuture => none
        | .consensus, a => routerStep orch deps i s c a
        | _, _ => none
  | .timeout =>
      if c.pc = .consensus then
        (routerStep orch deps i s c .dropFuture).map fun r => (r.1, r.2.receive default)
      else none
  | .receive =>
      if c.pc = .consensus then (returned c.request).map fun result => (s, c.receive result)
      else none
  | .serialize success =>
      match c.pc with
      | .serialize result =>
          if success then
            if 2 ≤ result.agreementCount then some (s, { c with pc := .record })
            else some (s.serve c.tenantId, { c with pc := .answered 200 })
          else some (s, c.fail 500)
      | _ => none
  | .respond =>
      if c.pc = .record then some (s.serve c.tenantId, { c with pc := .answered 200 }) else none
  | .dropFuture =>
      match c.pc with
      | .start | .deduct => some (s, { c with pc := .dropped })
      | .consensus =>
          (routerStep orch deps i s c .dropFuture).map fun r =>
            (r.1, { r.2 with pc := .dropped, refundDue := true })
      | .record => some (s, { c with pc := .dropped, refundDue := true })
      | _ => none
  | .runRefund =>
      if c.refundDue then some (s.refund (c.guardCall s.now), { c with refundDue := false })
      else none
  | .setBudget tenantId budget => some (s.setBudget tenantId budget, c)
  | .tick elapsed => some ({ s with now := s.now + elapsed }, c)

end Steps

/-- A handler that has just been called. -/
def Handler.new (deps : RouterDeps) (headers : HeaderMap) (body : AgentExecutionPayload)
    (tenantId : String) : Handler where
  headers := headers
  body := body
  tenantId := tenantId
  request := .new deps
    ⟨executionPrompt (deps.lower.apply body.networkId) body.taskTypeVal, tenantId⟩
  pc := .start
  refundDue := false

/-- No handler has taken a step and no budget has been set yet. -/
def billingStart (deps : RouterDeps) (store : RedisStore) (now : ℕ)
    (calls : ℕ → HeaderMap × AgentExecutionPayload × String) : Pool BillingState Handler where
  shared := ⟨.new, store, now, fun _ => none⟩
  task i := .new deps (calls i).1 (calls i).2.1 (calls i).2.2

/-! ### What a step does to the books -/

/-- The step answers 200. -/
def Handler.Answers (c : Handler) (a : HandlerAction) : Prop :=
  a = .respond ∨ ∃ result, c.pc = .serialize result ∧ result.agreementCount < 2 ∧
    a = .serialize true

def Handler.refundCall (orch : TmrOrchestrator) (deps : RouterDeps) (c : Handler) (now : ℕ) :
    HandlerAction → Option RefundCall
  | .runRefund => some (c.guardCall now)
  | .router .refund => some (c.orchestratorCall orch deps now)
  | _ => none

section Effects

variable {orch : TmrOrchestrator} {deps : RouterDeps} {waf : String → Option String} {i : ℕ}
  {s s' : BillingState} {c c' : Handler}

/-- A step leaves the books alone, makes a refund, answers 200 or sets a budget. -/
inductive BillingEffect (orch : TmrOrchestrator) (deps : RouterDeps) (s : BillingState)
    (c : Handler) (a : HandlerAction) (s' : BillingState) : Prop
  | none (hstore : s'.store = s.store) (hledger : s'.ledger = s.ledger)
  | refund (call : RefundCall) (hcall : c.refundCall orch deps s.now a = some call)
      (hstore : s'.store = (s.refund call).store) (hledger : s'.ledger = (s.refund call).ledger)
  | serve (hanswer : c.Answers a) (hstore : s'.store = s.store)
      (hledger : s'.ledger = (s.serve c.tenantId).ledger)
  | setBudget (tenantId : String) (budget : Int64) (hs : s' = s.setBudget tenantId budget)

theorem routerStep_effect {a : RequestAction}
    (h : routerStep orch deps i s c a = some (s', c')) :
    BillingEffect orch deps s c (.router a) s' := by
  obtain ⟨r, -, heq⟩ := Option.map_eq_some_iff.mp h
  dsimp only at heq
  split at heq
  · obtain ⟨rfl, -⟩ := Prod.mk.inj heq
    exact .refund _ rfl rfl rfl
  · obtain ⟨rfl, -⟩ := Prod.mk.inj heq
    exact .none rfl rfl

theorem routerStep_dropFuture {r : BillingState × Handler}
    (h : routerStep orch deps i s c .dropFuture = some r) :
    r.1.store = s.store ∧ r.1.ledger = s.ledger := by
  obtain ⟨r', -, rfl⟩ := Option.map_eq_some_iff.mp h
  exact ⟨rfl, rfl⟩

theorem handlerStep_effect {a : HandlerAction}
    (h : handlerStep orch deps waf i s c a = some (s', c')) : BillingEffect orch deps s c a s' := by
  cases a with
  | reject status =>
      simp only [handlerStep, Option.ite_none_right_eq_some, Option.some.injEq, Prod.mk.injEq] at h
      obtain ⟨-, rfl, -⟩ := h
      exact .none rfl rfl
  | pass =>
      simp only [handlerStep, Option.ite_none_right_eq_some, Option.some.injEq, Prod.mk.injEq] at h
      obtain ⟨-, rfl, -⟩ := h
      exact .none rfl rfl
  | deduct =>
      simp only [handlerStep, deductTokens, Option.ite_none_right_eq_some, Option.some.injEq,
        Prod.mk.injEq] at h
      obtain ⟨-, rfl, -⟩ := h
      exact .none rfl rfl
  | validate =>
      simp only [handlerStep, Option.ite_none_right_eq_some] at h
      obtain ⟨-, h⟩ := h
      have hs : s' = s := by
        split at h
        · exact (Prod.mk.inj (Option.some.inj h)).1.symm
        · split at h
          · exact (Prod.mk.inj (Option.some.inj h)).1.symm
          · split at h
            all_goals exact (Prod.mk.inj (Option.some.inj h)).1.symm
      exact hs ▸ .none rfl rfl
  | router a =>
      simp only [handlerStep] at h
      split at h
      · exact routerStep_effect h
      · split at h
        · simp at h
        · exact routerStep_effect h
        · simp at h
  | timeout =>
      simp only [handlerStep, Option.ite_none_right_eq_some] at h
      obtain ⟨r, hdrop, heq⟩ := Option.map_eq_some_iff.mp h.2
      obtain ⟨rfl, -⟩ := Prod.mk.inj heq
      exact .none (routerStep_dropFuture hdrop).1 (routerStep_dropFuture hdrop).2
  | receive =>
      simp only [handlerStep, Option.ite_none_right_eq_some] at h
      obtain ⟨r, -, heq⟩ := Option.map_eq_some_iff.mp h.2
      obtain ⟨rfl, -⟩ := Prod.mk.inj heq
      exact .none rfl rfl
  | serialize success =>
      simp only [handlerStep] at h
      split at h
      · rename_i result hpc
        split at h
        · rename_i hsuccess
          split at h
          · obtain ⟨rfl, -⟩ := Prod.mk.inj (Option.some.inj h)
            exact .none rfl rfl
          · rename_i hfew
            obtain ⟨rfl, -⟩ := Prod.mk.inj (Option.some.inj h)
            refine .serve (.inr ⟨result, hpc, Nat.not_le.mp hfew, ?_⟩) rfl rfl
            rw [hsuccess]
        · obtain ⟨rfl, -⟩ := Prod.mk.inj (Option.some.inj h)
          exact .none rfl rfl
      · simp at h
  | respond =>
      simp only [handlerStep, Option.ite_none_right_eq_some, Option.some.injEq, Prod.mk.injEq] at h
      obtain ⟨-, rfl, -⟩ := h
      exact .serve (.inl rfl) rfl rfl
  | dropFuture =>
      simp only [handlerStep] at h
      split at h
      · obtain ⟨rfl, -⟩ := Prod.mk.inj (Option.some.inj h)
        exact .none rfl rfl
      · obtain ⟨rfl, -⟩ := Prod.mk.inj (Option.some.inj h)
        exact .none rfl rfl
      · obtain ⟨r, hdrop, heq⟩ := Option.map_eq_some_iff.mp h
        obtain ⟨rfl, -⟩ := Prod.mk.inj heq
        exact .none (routerStep_dropFuture hdrop).1 (routerStep_dropFuture hdrop).2
      · obtain ⟨rfl, -⟩ := Prod.mk.inj (Option.some.inj h)
        exact .none rfl rfl
      · simp at h
  | runRefund =>
      simp only [handlerStep, Option.ite_none_right_eq_some, Option.some.injEq, Prod.mk.injEq] at h
      obtain ⟨-, rfl, -⟩ := h
      exact .refund _ rfl rfl rfl
  | setBudget tenantId budget =>
      simp only [handlerStep, Option.some.injEq, Prod.mk.injEq] at h
      exact .setBudget tenantId budget h.1.symm
  | tick elapsed =>
      simp only [handlerStep, Option.some.injEq, Prod.mk.injEq] at h
      obtain ⟨rfl, -⟩ := h
      exact .none rfl rfl

end Effects

/-! ### Balances -/

/-- The balance of a tenant whose budget was set is the budget and the refunds. -/
def Booked (s : BillingState) : Prop :=
  ∀ t l, s.ledger t = some l → 0 ≤ l.refunded ∧
    ∃ n : Int64, n.toInt = l.budget + l.refunded ∧
      ∀ now, s.store.get now (balanceKey t) = some ⟨.integer n, none⟩

/-- The balance is the budget less the answers 200 since it was set. -/
def Conserved (s : BillingState) (t : String) : Prop :=
  ∀ l, s.ledger t = some l → s.store.balance s.now t = l.budget - l.served

theorem Booked.refund {s : BillingState} (h : Booked s) (call : RefundCall) :
    Booked (s.refund call) := by
  intro t l hl
  by_cases ht : t = call.tenantId
  · subst ht
    simp only [BillingState.refund, Function.update_self, Option.map_eq_some_iff] at hl
    obtain ⟨l₀, hl₀, rfl⟩ := hl
    obtain ⟨hnonneg, n, hn, hget⟩ := h _ _ hl₀
    by_cases happlies : call.Applies s.store
    · have hpos : 0 < call.amount.toInt := Int64.lt_iff_toInt_lt.mp happlies.positive
      obtain ⟨sum, expiresAt, hsum, hexpiry, -, happly⟩ := RefundCall.apply_of_applies happlies
      rw [hget, Option.bind_some] at hexpiry
      rw [RedisStore.balance, hget] at hsum
      dsimp only at hexpiry hsum ⊢
      subst hexpiry
      rw [RefundCall.change_of_applies happlies]
      refine ⟨by omega, sum, by omega, fun now => ?_⟩
      simp only [BillingState.refund]
      rw [happly, RedisStore.get_put_of_ne (balanceKey_ne_idempotencyKey _ _)]
      exact RedisStore.get_put_of_live rfl
    · simp only [BillingState.refund, RefundCall.change_of_not_applies happlies, add_zero,
        RefundCall.apply_of_not_applies happlies]
      exact ⟨hnonneg, n, hn, hget⟩
  · simp only [BillingState.refund, Function.update_of_ne ht] at hl
    obtain ⟨hnonneg, n, hn, hget⟩ := h t l hl
    refine ⟨hnonneg, n, hn, fun now => ?_⟩
    exact (RefundCall.get_balance_apply_of_ne now ht).trans (hget now)

theorem Booked.serve {s : BillingState} (h : Booked s) (tenantId : String) :
    Booked (s.serve tenantId) := by
  intro t l hl
  by_cases ht : t = tenantId
  · subst ht
    simp only [BillingState.serve, Function.update_self, Option.map_eq_some_iff] at hl
    obtain ⟨l₀, hl₀, rfl⟩ := hl
    exact h t l₀ hl₀
  · simp only [BillingState.serve, Function.update_of_ne ht] at hl
    exact h t l hl

theorem Booked.setBudget {s : BillingState} (h : Booked s) (tenantId : String) (budget : Int64) :
    Booked (s.setBudget tenantId budget) := by
  intro t l hl
  by_cases ht : t = tenantId
  · subst ht
    simp only [BillingState.setBudget, Function.update_self, Option.some.injEq] at hl
    subst hl
    exact ⟨le_rfl, budget, by simp, fun now => RedisStore.get_put_of_live rfl⟩
  · simp only [BillingState.setBudget, Function.update_of_ne ht] at hl
    obtain ⟨hnonneg, n, hn, hget⟩ := h t l hl
    refine ⟨hnonneg, n, hn, fun now => ?_⟩
    have hkey : balanceKey t ≠ balanceKey tenantId := fun heq => ht (balanceKey_injective heq)
    exact (RedisStore.get_put_of_ne hkey).trans (hget now)

theorem Booked.of_eq {s s' : BillingState} (h : Booked s) (hstore : s'.store = s.store)
    (hledger : s'.ledger = s.ledger) : Booked s' := by
  intro t l hl
  rw [hledger] at hl
  rw [hstore]
  exact h t l hl

section Runs

variable {orch : TmrOrchestrator} {deps : RouterDeps} {waf : String → Option String}
  {p q : Pool BillingState Handler}

theorem Booked.step {e : ℕ × HandlerAction} (h : Booked p.shared)
    (hstep : p.step (handlerStep orch deps waf) e = some q) : Booked q.shared := by
  obtain ⟨s, c, hact, rfl⟩ := Pool.step_eq_some.mp hstep
  cases handlerStep_effect hact with
  | none hstore hledger => exact h.of_eq hstore hledger
  | refund call _ hstore hledger => exact (h.refund call).of_eq hstore hledger
  | serve _ hstore hledger => exact (h.serve _).of_eq hstore hledger
  | setBudget tenantId budget hs => exact hs ▸ h.setBudget tenantId budget

/-- In any state of the books, conservation is that nothing was served and nothing
refunded since the budget was set. -/
theorem Booked.conserved_iff {s : BillingState} {t : String} {l : Ledger} (h : Booked s)
    (hl : s.ledger t = some l) : Conserved s t ↔ l.served = 0 ∧ l.refunded = 0 := by
  obtain ⟨hnonneg, n, hn, hget⟩ := h t l hl
  have hbalance : s.store.balance s.now t = l.budget + l.refunded := by
    rw [RedisStore.balance, hget]
    exact hn
  have hcons : Conserved s t ↔ s.store.balance s.now t = l.budget - l.served := by
    constructor
    · exact fun hall => hall l hl
    · intro heq l' hl'
      obtain rfl := Option.some.inj (hl.symm.trans hl')
      exact heq
  rw [hcons, hbalance]
  omega

/-- The step neither answers 200 to the tenant nor makes a refund to it that the
store accepts. -/
structure Uncharged (orch : TmrOrchestrator) (deps : RouterDeps) (t : String)
    (p : Pool BillingState Handler) (e : ℕ × HandlerAction) : Prop where
  unanswered : (p.task e.1).tenantId = t → ¬(p.task e.1).Answers e.2
  unrefunded : ∀ call, (p.task e.1).refundCall orch deps p.shared.now e.2 = some call →
    call.tenantId = t → ¬call.Applies p.shared.store

theorem Uncharged.step {e : ℕ × HandlerAction} {t : String} (hok : Uncharged orch deps t p e)
    (hclean : ∀ l, p.shared.ledger t = some l → l.served = 0 ∧ l.refunded = 0)
    (hstep : p.step (handlerStep orch deps waf) e = some q) :
    ∀ l, q.shared.ledger t = some l → l.served = 0 ∧ l.refunded = 0 := by
  obtain ⟨s, c, hact, rfl⟩ := Pool.step_eq_some.mp hstep
  intro l hl
  cases handlerStep_effect hact with
  | none _ hledger => exact hclean l (hledger ▸ hl)
  | refund call hcall _ hledger =>
      rw [hledger] at hl
      by_cases ht : t = call.tenantId
      · have hrefused := hok.unrefunded call hcall ht.symm
        subst ht
        simp only [BillingState.refund, Function.update_self, Option.map_eq_some_iff,
          RefundCall.change_of_not_applies hrefused, add_zero] at hl
        obtain ⟨l₀, hl₀, rfl⟩ := hl
        exact hclean l₀ hl₀
      · simp only [BillingState.refund, Function.update_of_ne ht] at hl
        exact hclean l hl
  | serve hanswer _ hledger =>
      have ht : t ≠ (p.task e.1).tenantId := fun heq => hok.unanswered heq.symm hanswer
      rw [hledger] at hl
      simp only [BillingState.serve, Function.update_of_ne ht] at hl
      exact hclean l hl
  | setBudget tenantId budget hs =>
      subst hs
      by_cases ht : t = tenantId
      · subst ht
        simp only [BillingState.setBudget, Function.update_self, Option.some.injEq] at hl
        subst hl
        exact ⟨rfl, rfl⟩
      · simp only [BillingState.setBudget, Function.update_of_ne ht] at hl
        exact hclean l hl

/-- The budget of a tenant is conserved in every run in which no request of the
tenant is answered with 200 and no refund to it is applied. -/
theorem budget_conserved {store : RedisStore} {now : ℕ}
    {calls : ℕ → HeaderMap × AgentExecutionPayload × String} {t : String}
    (h : Reach (Pool.step (handlerStep orch deps waf)) (Uncharged orch deps t)
      (billingStart deps store now calls) p) : Conserved p.shared t := by
  have hbooked : Booked p.shared := by
    refine h.invariant (I := fun p => Booked p.shared) ?_ fun _ _ _ hq _ hstep => hq.step hstep
    intro t l hl
    simp [billingStart] at hl
  have hclean : ∀ l, p.shared.ledger t = some l → l.served = 0 ∧ l.refunded = 0 := by
    refine h.invariant (I := fun p => ∀ l, p.shared.ledger t = some l →
      l.served = 0 ∧ l.refunded = 0) ?_ fun _ _ _ hq hok hstep => hok.step hq hstep
    intro l hl
    simp [billingStart] at hl
  intro l hl
  exact (hbooked.conserved_iff hl).mpr (hclean l hl) l hl

end Runs

/-- Requests of one tenant without a network, the `i`-th with an id of `i` letters. -/
def unnamedCalls (i : ℕ) : HeaderMap × AgentExecutionPayload × String :=
  (idHeader (some (List.replicate i 65)), ⟨"", none⟩, "acme")

theorem requestId_unnamedCalls (i : ℕ) :
    (unnamedCalls i).1.requestId = String.ofList (List.replicate i 'A') := by
  have hvisible : (List.replicate i (65 : UInt8)).all isVisibleAscii = true := by
    rw [List.all_eq_true]
    intro b hb
    rw [List.eq_of_mem_replicate hb]
    decide
  simp only [unnamedCalls, idHeader, HeaderMap.requestId, Option.bind_some, toStr, hvisible,
    if_true, Option.getD_some, List.map_replicate]
  rfl

theorem requestId_unnamedCalls_ne {i j : ℕ} (h : i ≠ j) :
    (unnamedCalls i).1.requestId ≠ (unnamedCalls j).1.requestId := by
  rw [requestId_unnamedCalls, requestId_unnamedCalls]
  intro heq
  have hlist := String.ofList_injective heq
  exact h (by simpa using congrArg List.length hlist)

/-- A request that is turned away before the deduction leaves the budget alone. -/
theorem budget_conserved_rejected :
    ∃ p, Reach (Pool.step (handlerStep fuzzyOrchestrator swapRouterDeps fun _ => none))
        (Uncharged fuzzyOrchestrator swapRouterDeps "acme")
        (billingStart swapRouterDeps .empty 0 unnamedCalls) p ∧
      p.shared.store.balance p.shared.now "acme" = 10 ∧ Conserved p.shared "acme" := by
  have hrun : (exec (Pool.step (handlerStep fuzzyOrchestrator swapRouterDeps fun _ => none))
      (billingStart swapRouterDeps .empty 0 unnamedCalls)
      [(0, .setBudget "acme" 10), (0, .reject 401)]).map
      (fun p => decide (p.shared.store.balance p.shared.now "acme" = 10)) = some true := by
    decide +kernel
  obtain ⟨p, hexec, hbalance⟩ := Option.map_eq_some_iff.mp hrun
  have hreach : Reach (Pool.step (handlerStep fuzzyOrchestrator swapRouterDeps fun _ => none))
      (Uncharged fuzzyOrchestrator swapRouterDeps "acme")
      (billingStart swapRouterDeps .empty 0 unnamedCalls) p := by
    refine Reach.of_exec_forall _ hexec fun e he q => ?_
    simp only [List.mem_cons, List.not_mem_nil, or_false] at he
    obtain rfl | rfl := he
    · exact ⟨fun _ => by simp [Handler.Answers], fun call hcall => by cases hcall⟩
    · exact ⟨fun _ => by simp [Handler.Answers], fun call hcall => by cases hcall⟩
  exact ⟨p, hreach, of_decide_eq_true hbalance, budget_conserved hreach⟩

/-- A request that fails the validation raises the balance by one. -/
theorem failed_request_raises_balance :
    ∃ p, Reach (Pool.step (handlerStep fuzzyOrchestrator swapRouterDeps fun _ => none)) anyStep
        (billingStart swapRouterDeps .empty 0 unnamedCalls) p ∧
      (∀ i j, i ≠ j → (unnamedCalls i).1.requestId ≠ (unnamedCalls j).1.requestId) ∧
      (∀ i, (p.task i).refundDue = false) ∧ p.shared.ledger "acme" = some ⟨10, 0, 1⟩ ∧
      p.shared.store.balance p.shared.now "acme" = 11 ∧ ¬Conserved p.shared "acme" := by
  have hrun : (exec (Pool.step (handlerStep fuzzyOrchestrator swapRouterDeps fun _ => none))
      (billingStart swapRouterDeps .empty 0 unnamedCalls)
      [(0, .setBudget "acme" 10), (0, .pass), (0, .deduct), (0, .validate), (0, .runRefund)]).map
      (fun p => decide (p.shared.ledger "acme" = some ⟨10, 0, 1⟩ ∧ (p.task 0).refundDue = false ∧
        p.shared.store.balance p.shared.now "acme" = 11)) = some true := by
    decide +kernel
  obtain ⟨p, hexec, hdecide⟩ := Option.map_eq_some_iff.mp hrun
  obtain ⟨hledger, hdue, hbalance⟩ := of_decide_eq_true hdecide
  refine ⟨p, Reach.of_exec _ hexec, fun i j => requestId_unnamedCalls_ne, fun i => ?_, hledger,
    hbalance, fun hconserved => ?_⟩
  · by_cases hi : i = 0
    · exact hi ▸ hdue
    · rw [Pool.exec_task_of_ne hexec (j := i) (by simp [Ne.symm hi])]
      rfl
  · have heq := hconserved _ hledger
    rw [hbalance] at heq
    simp at heq

end SereinGateway.Gateway
