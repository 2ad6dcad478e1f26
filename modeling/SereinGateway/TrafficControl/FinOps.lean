import Mathlib

/-!
The budgets of the tenants in Redis: `refund_tokens`, `set_budget` and
`deduct_tokens`, over a store of keys with an optional expiry.

A script runs atomically at one moment, given in milliseconds; an entry is
there until its expiry. `INCRBY` counts an absent key as zero and fails on a
value that is no 64-bit integer and on a sum that does not fit, and a failing
command ends the script. Lua's numbers are doubles and exact up to `2 ^ 53`,
far above the amounts that are refunded.

A refund is applied once under an idempotency key made of its request id
alone (`refundTokens_eq`), and the balance of no other tenant is touched
(`get_refundTokens_of_ne`).
-/

namespace SereinGateway.TrafficControl

/-- A value in Redis: a string that reads as a 64-bit integer, or another one. -/
inductive RedisValue where
  | integer (n : Int64)
  | other (text : String)
  deriving DecidableEq

structure RedisEntry where
  value : RedisValue
  expiresAt : Option ℕ
  deriving DecidableEq

def RedisEntry.live (now : ℕ) (e : RedisEntry) : Bool := e.expiresAt.all fun t => now < t

structure RedisStore where
  entries : String → Option RedisEntry

/-- Addition of 64-bit integers that fails when it overflows. -/
def checkedAdd (a b : Int64) : Option Int64 :=
  if a.toInt + b.toInt < 2 ^ 63 ∧ -2 ^ 63 ≤ a.toInt + b.toInt then some (a + b) else none

namespace RedisStore

def empty : RedisStore := ⟨fun _ => none⟩

def get (s : RedisStore) (now : ℕ) (key : String) : Option RedisEntry :=
  (s.entries key).filter (RedisEntry.live now)

def put (s : RedisStore) (key : String) (e : RedisEntry) : RedisStore :=
  ⟨Function.update s.entries key e⟩

/-- `INCRBY`: the new value, or none for an error. -/
def incrBy (s : RedisStore) (now : ℕ) (key : String) (amount : Int64) :
    Option (Int64 × RedisStore) :=
  match s.get now key with
  | none => some (amount, s.put key ⟨.integer amount, none⟩)
  | some ⟨.integer n, expiresAt⟩ =>
      (checkedAdd n amount).map fun sum => (sum, s.put key ⟨.integer sum, expiresAt⟩)
  | some ⟨.other _, _⟩ => none

end RedisStore

def finopsKeyPrefix : String := "serein:finops:budget"

def balanceKey (tenantId : String) : String := finopsKeyPrefix ++ ":" ++ tenantId

def idempotencyKey (requestId : String) : String := "serein:finops:refund:" ++ requestId

/-- The time to live of an idempotency key: 86400 seconds. -/
def refundTtl : ℕ := 86400 * 1000

/-- `FINOPS_REFUND_LUA`: what it returns, or none for an error. -/
def refundLua (now : ℕ) (balanceKey idempotencyKey : String) (amount : Int64) (ttl : ℕ)
    (s : RedisStore) : Option Int64 × RedisStore :=
  if (s.get now idempotencyKey).isSome then (some 0, s)
  else
    match s.incrBy now balanceKey amount with
    | none => (none, s)
    | some (newBalance, s) =>
        (some newBalance, s.put idempotencyKey ⟨.integer 1, some (now + ttl)⟩)

inductive BudgetRefundResult where
  | success (newBalance : Int64)
  | alreadyRefunded
  | stateStoreInaccessible
  deriving DecidableEq

/-- The reply of the script as `refund_tokens` reads it. A balance of zero
after the refund is taken for a refund made before. -/
def BudgetRefundResult.ofReply : Option Int64 → BudgetRefundResult
  | some newBalance => if newBalance = 0 then .alreadyRefunded else .success newBalance
  | none => .stateStoreInaccessible

def refundTokens (now : ℕ) (tenantId : String) (amount : Int64) (requestId : String)
    (s : RedisStore) : BudgetRefundResult × RedisStore :=
  if amount ≤ 0 then (.success (-1), s)
  else
    let (reply, s) :=
      refundLua now (balanceKey tenantId) (idempotencyKey requestId) amount refundTtl s
    (.ofReply reply, s)

/-- `set_budget` by `GETSET`, which removes an expiry; a previous value that is
no integer is reported as `-1`. -/
def setBudget (now : ℕ) (tenantId : String) (budget : Int64) (s : RedisStore) :
    Int64 × RedisStore :=
  let previous :=
    match s.get now (balanceKey tenantId) with
    | some ⟨.integer n, _⟩ => n
    | _ => -1
  (previous, s.put (balanceKey tenantId) ⟨.integer budget, none⟩)

inductive BudgetDeductionResult where
  | success (remaining : Int64)
  | insufficientFunds (balance required : Int64)
  deriving DecidableEq

inductive FinOpsError where
  | unexpectedScriptResult (value : Int64)
  | redisError (message : String)
  | stateStoreInaccessible
  deriving DecidableEq

/-- `deduct_tokens`: the demo mode returns before the script is run. -/
def deductTokens (_tenantId : String) (_estimatedCost : Int64) (s : RedisStore) :
    Except FinOpsError BudgetDeductionResult × RedisStore :=
  (.ok (.success (-1)), s)

/-- The balance of a tenant. An absent one counts as zero, as it does for `INCRBY`. -/
def RedisStore.balance (s : RedisStore) (now : ℕ) (tenantId : String) : ℤ :=
  match s.get now (balanceKey tenantId) with
  | some ⟨.integer n, _⟩ => n.toInt
  | _ => 0

/-! ### Keys -/

theorem balanceKey_injective {t₁ t₂ : String} (h : balanceKey t₁ = balanceKey t₂) : t₁ = t₂ :=
  (String.append_right_inj _).mp h

theorem idempotencyKey_injective {r₁ r₂ : String}
    (h : idempotencyKey r₁ = idempotencyKey r₂) : r₁ = r₂ :=
  (String.append_right_inj _).mp h

theorem balanceKey_ne_idempotencyKey (t r : String) : balanceKey t ≠ idempotencyKey r := by
  intro h
  have hbalance : (balanceKey t).toList[14]? = some 'b' := by
    rw [balanceKey, finopsKeyPrefix, String.append_assoc, String.toList_append,
      List.getElem?_append_left (by decide)]
    decide
  have hrefund : (idempotencyKey r).toList[14]? = some 'r' := by
    show ("serein:finops:refund:" ++ r).toList[14]? = some 'r'
    rw [String.toList_append, List.getElem?_append_left (by decide)]
    decide
  rw [h, hrefund] at hbalance
  simp at hbalance

/-! ### Store -/

theorem toInt_of_checkedAdd {a b c : Int64} (h : checkedAdd a b = some c) :
    c.toInt = a.toInt + b.toInt := by
  unfold checkedAdd at h
  split at h
  · rename_i hfit
    obtain rfl := Option.some.inj h
    rw [Int64.toInt_add]
    exact Int.bmod_eq_of_le (by omega) (by omega)
  · simp at h

theorem RedisEntry.live_some_eq_false {now t : ℕ} {value : RedisValue} :
    RedisEntry.live now ⟨value, some t⟩ = false ↔ t ≤ now := by
  simp [RedisEntry.live]

namespace RedisStore

variable {s s' : RedisStore} {now : ℕ} {key key' : String} {e : RedisEntry}

theorem get_put_of_ne (h : key' ≠ key) : (s.put key e).get now key' = s.get now key' := by
  simp [get, put, Function.update_of_ne h]

theorem get_put_of_live (h : e.live now = true) : (s.put key e).get now key = some e := by
  simp [get, put, Option.filter, h]

theorem get_put_eq_none_iff : (s.put key e).get now key = none ↔ e.live now = false := by
  cases hlive : e.live now <;> simp [get, put, Option.filter, hlive]

theorem get_eq_none_of_le {later : ℕ} (h : s.get now key = none) (hle : now ≤ later) :
    s.get later key = none := by
  unfold get at h ⊢
  cases hentry : s.entries key with
  | none => rfl
  | some e =>
      rw [hentry, Option.filter_eq_none_iff] at h
      rw [Option.filter_eq_none_iff]
      intro e' he' hlive
      refine h e' he' ?_
      unfold RedisEntry.live at hlive ⊢
      cases hexp : e'.expiresAt with
      | none => rfl
      | some t =>
          rw [hexp, Option.all_some, decide_eq_true_eq] at hlive
          rw [Option.all_some, decide_eq_true_eq]
          omega

theorem incrBy_eq_some {amount sum : Int64} (h : s.incrBy now key amount = some (sum, s')) :
    ∃ expiresAt, s' = s.put key ⟨.integer sum, expiresAt⟩ ∧
      expiresAt = (s.get now key).bind RedisEntry.expiresAt ∧
      (expiresAt.all fun t => now < t) = true := by
  unfold incrBy at h
  split at h
  · rename_i hget
    obtain ⟨rfl, rfl⟩ := Prod.mk.inj (Option.some.inj h)
    exact ⟨none, rfl, by simp [hget], rfl⟩
  · rename_i n expiresAt hget
    obtain ⟨sum', -, heq⟩ := Option.map_eq_some_iff.mp h
    obtain ⟨rfl, rfl⟩ := Prod.mk.inj heq
    refine ⟨expiresAt, rfl, by simp [hget], ?_⟩
    obtain ⟨-, hlive⟩ := Option.filter_eq_some_iff.mp hget
    exact hlive
  · simp at h

theorem toInt_of_incrBy {t : String} {amount sum : Int64}
    (h : s.incrBy now (balanceKey t) amount = some (sum, s')) :
    sum.toInt = s.balance now t + amount.toInt := by
  unfold incrBy at h
  unfold balance
  split at h
  · rename_i hnone
    obtain ⟨rfl, -⟩ := Prod.mk.inj (Option.some.inj h)
    simp [hnone]
  · rename_i n expiresAt hget
    obtain ⟨sum', hadd, heq⟩ := Option.map_eq_some_iff.mp h
    obtain ⟨rfl, -⟩ := Prod.mk.inj heq
    rw [hget]
    exact toInt_of_checkedAdd hadd
  · simp at h

end RedisStore

/-! ### Refunds -/

/-- A call of `refund_tokens` and the time at which its script runs. -/
structure RefundCall where
  tenantId : String
  amount : Int64
  requestId : String
  time : ℕ
  deriving DecidableEq

namespace RefundCall

variable {c : RefundCall} {s : RedisStore}

def apply (c : RefundCall) (s : RedisStore) : RedisStore :=
  (refundTokens c.time c.tenantId c.amount c.requestId s).2

/-- The change of the tenant's balance that the call makes. -/
def change (c : RefundCall) (s : RedisStore) : ℤ :=
  (c.apply s).balance c.time c.tenantId - s.balance c.time c.tenantId

/-- The script gets as far as the balance and the balance takes the amount. -/
structure Applies (c : RefundCall) (s : RedisStore) : Prop where
  positive : 0 < c.amount
  fresh : s.get c.time (idempotencyKey c.requestId) = none
  fits : (s.incrBy c.time (balanceKey c.tenantId) c.amount).isSome

theorem apply_of_applies (h : c.Applies s) :
    ∃ sum expiresAt, sum.toInt = s.balance c.time c.tenantId + c.amount.toInt ∧
      expiresAt = (s.get c.time (balanceKey c.tenantId)).bind RedisEntry.expiresAt ∧
      (expiresAt.all fun t => c.time < t) = true ∧
      c.apply s = (s.put (balanceKey c.tenantId) ⟨.integer sum, expiresAt⟩).put
        (idempotencyKey c.requestId) ⟨.integer 1, some (c.time + refundTtl)⟩ := by
  obtain ⟨⟨sum, s'⟩, hincr⟩ := Option.isSome_iff_exists.mp h.fits
  obtain ⟨expiresAt, rfl, hexpiry, hlive⟩ := RedisStore.incrBy_eq_some hincr
  refine ⟨sum, expiresAt, RedisStore.toInt_of_incrBy hincr, hexpiry, hlive, ?_⟩
  have hpositive : ¬c.amount ≤ 0 := Int64.not_le.mpr h.positive
  have hlua : refundLua c.time (balanceKey c.tenantId) (idempotencyKey c.requestId) c.amount
      refundTtl s = (some sum, (s.put (balanceKey c.tenantId) ⟨.integer sum, expiresAt⟩).put
        (idempotencyKey c.requestId) ⟨.integer 1, some (c.time + refundTtl)⟩) := by
    simp [refundLua, h.fresh, hincr]
  rw [apply, refundTokens, if_neg hpositive, hlua]

theorem apply_of_not_applies (h : ¬c.Applies s) : c.apply s = s := by
  unfold apply refundTokens
  split
  · rfl
  · rename_i hpositive
    show (refundLua c.time (balanceKey c.tenantId) (idempotencyKey c.requestId) c.amount
      refundTtl s).2 = s
    unfold refundLua
    split
    · rfl
    · rename_i hfresh
      split
      · rfl
      · rename_i hincr
        refine absurd ⟨Int64.not_le.mp hpositive, ?_, ?_⟩ h
        · simpa using hfresh
        · simp [hincr]

theorem balance_apply (h : c.Applies s) :
    (c.apply s).balance c.time c.tenantId = s.balance c.time c.tenantId + c.amount.toInt := by
  obtain ⟨sum, expiresAt, hsum, -, hlive, happly⟩ := apply_of_applies h
  have hget : (c.apply s).get c.time (balanceKey c.tenantId) =
      some ⟨.integer sum, expiresAt⟩ := by
    rw [happly, RedisStore.get_put_of_ne (balanceKey_ne_idempotencyKey _ _)]
    exact RedisStore.get_put_of_live hlive
  rw [RedisStore.balance, hget]
  exact hsum

/-- A refund changes the balance by its amount or not at all. -/
theorem change_of_applies (h : c.Applies s) : c.change s = c.amount.toInt := by
  rw [change, balance_apply h]
  omega

theorem change_of_not_applies (h : ¬c.Applies s) : c.change s = 0 := by
  rw [change, apply_of_not_applies h, sub_self]

theorem get_balance_apply_of_ne {t : String} (now : ℕ) (h : t ≠ c.tenantId) :
    (c.apply s).get now (balanceKey t) = s.get now (balanceKey t) := by
  by_cases happlies : c.Applies s
  · obtain ⟨sum, expiresAt, -, -, -, happly⟩ := apply_of_applies happlies
    rw [happly, RedisStore.get_put_of_ne (balanceKey_ne_idempotencyKey _ _),
      RedisStore.get_put_of_ne (fun heq => h (balanceKey_injective heq))]
  · rw [apply_of_not_applies happlies]

theorem get_idempotency_apply_of_ne {r : String} (now : ℕ) (h : r ≠ c.requestId) :
    (c.apply s).get now (idempotencyKey r) = s.get now (idempotencyKey r) := by
  by_cases happlies : c.Applies s
  · obtain ⟨sum, expiresAt, -, -, -, happly⟩ := apply_of_applies happlies
    rw [happly, RedisStore.get_put_of_ne (fun heq => h (idempotencyKey_injective heq)),
      RedisStore.get_put_of_ne (balanceKey_ne_idempotencyKey _ _).symm]
  · rw [apply_of_not_applies happlies]

theorem get_idempotency_apply (now : ℕ) (h : c.Applies s) :
    (c.apply s).get now (idempotencyKey c.requestId) = none ↔ c.time + refundTtl ≤ now := by
  obtain ⟨sum, expiresAt, -, -, -, happly⟩ := apply_of_applies h
  rw [happly]
  exact RedisStore.get_put_eq_none_iff.trans RedisEntry.live_some_eq_false

/-- A call that comes no later than `now` and is not applied under `r` within the
24 hours before it does not change whether `r` is refunded at `now`. -/
theorem idempotency_apply_iff {r : String} {now : ℕ} (htime : c.time ≤ now)
    (h : 0 < c.amount → c.requestId = r → c.time + refundTtl ≤ now) :
    (c.apply s).get now (idempotencyKey r) = none ↔ s.get now (idempotencyKey r) = none := by
  by_cases hr : r = c.requestId
  · subst hr
    by_cases happlies : c.Applies s
    · refine iff_of_true ?_ ?_
      · exact (get_idempotency_apply now happlies).mpr (h happlies.positive rfl)
      · exact RedisStore.get_eq_none_of_le happlies.fresh htime
    · rw [apply_of_not_applies happlies]
  · rw [get_idempotency_apply_of_ne now hr]

theorem idempotency_apply_ne_none {r : String} {now : ℕ} (htime : c.time ≤ now)
    (h : s.get now (idempotencyKey r) ≠ none) : (c.apply s).get now (idempotencyKey r) ≠ none := by
  by_cases hr : r = c.requestId
  · subst hr
    by_cases happlies : c.Applies s
    · exact absurd (RedisStore.get_eq_none_of_le happlies.fresh htime) h
    · rwa [apply_of_not_applies happlies]
  · rwa [get_idempotency_apply_of_ne now hr]

/-- Whether a refund is applied depends on two keys. -/
theorem applies_congr {s' : RedisStore}
    (hbalance : s'.get c.time (balanceKey c.tenantId) = s.get c.time (balanceKey c.tenantId))
    (hfresh : s'.get c.time (idempotencyKey c.requestId) = none ↔
      s.get c.time (idempotencyKey c.requestId) = none) : c.Applies s' ↔ c.Applies s := by
  have hfits : (s'.incrBy c.time (balanceKey c.tenantId) c.amount).isSome =
      (s.incrBy c.time (balanceKey c.tenantId) c.amount).isSome := by
    unfold RedisStore.incrBy
    rw [hbalance]
    split <;> simp
  constructor
  · rintro ⟨hpositive, hfresh', hfits'⟩
    exact ⟨hpositive, hfresh.mp hfresh', hfits ▸ hfits'⟩
  · rintro ⟨hpositive, hfresh', hfits'⟩
    exact ⟨hpositive, hfresh.mpr hfresh', hfits.symm ▸ hfits'⟩

theorem apply_eq_self_of_refunded (h : s.get c.time (idempotencyKey c.requestId) ≠ none) :
    c.apply s = s :=
  apply_of_not_applies fun happlies => h happlies.fresh

end RefundCall

def runRefunds (calls : List RefundCall) (s : RedisStore) : RedisStore :=
  calls.foldl (fun s c => c.apply s) s

/-- The last refund changes the balance of its tenant as if the other calls
had not been made. -/
def Undisturbed (calls : List RefundCall) (last : RefundCall) : Prop :=
  ∀ s, last.change (runRefunds calls s) = last.change s

/-- The balance of the tenant is an integer that does not expire and leaves room for `total`. -/
def RedisStore.Roomy (s : RedisStore) (tenantId : String) (total : ℤ) : Prop :=
  match s.entries (balanceKey tenantId) with
  | none => total < 2 ^ 63
  | some ⟨.integer n, none⟩ => n.toInt + total < 2 ^ 63
  | some _ => False

/-- Two refunds of which neither has been made before are both made, wherever the
balance has room for them. -/
def BothRefunded (first second : RefundCall) : Prop :=
  0 < first.amount → 0 < second.amount → ∀ s : RedisStore,
    s.get first.time (idempotencyKey first.requestId) = none →
    s.get second.time (idempotencyKey second.requestId) = none →
    s.Roomy first.tenantId (first.amount.toInt + second.amount.toInt) →
    first.change s = first.amount.toInt ∧
      second.change (first.apply s) = second.amount.toInt

section Refunds

variable {calls : List RefundCall} {first second last : RefundCall} {s : RedisStore}

theorem get_balance_runRefunds {t : String} (now : ℕ) (h : ∀ c ∈ calls, t ≠ c.tenantId) :
    (runRefunds calls s).get now (balanceKey t) = s.get now (balanceKey t) := by
  induction calls generalizing s with
  | nil => rfl
  | cons c calls ih =>
      have hrest := ih (s := c.apply s) fun d hd => h d (List.mem_cons_of_mem c hd)
      exact hrest.trans (RefundCall.get_balance_apply_of_ne now (h c List.mem_cons_self))

theorem idempotency_runRefunds_iff {r : String} {now : ℕ} (htime : ∀ c ∈ calls, c.time ≤ now)
    (h : ∀ c ∈ calls, 0 < c.amount → c.requestId = r → c.time + refundTtl ≤ now) :
    (runRefunds calls s).get now (idempotencyKey r) = none ↔
      s.get now (idempotencyKey r) = none := by
  induction calls generalizing s with
  | nil => exact Iff.rfl
  | cons c calls ih =>
      have hrest := ih (s := c.apply s) (fun d hd => htime d (List.mem_cons_of_mem c hd))
        fun d hd => h d (List.mem_cons_of_mem c hd)
      exact hrest.trans (RefundCall.idempotency_apply_iff (htime c List.mem_cons_self)
        (h c List.mem_cons_self))

theorem idempotency_runRefunds_ne_none {r : String} {now : ℕ}
    (htime : ∀ c ∈ calls, c.time ≤ now) (h : s.get now (idempotencyKey r) ≠ none) :
    (runRefunds calls s).get now (idempotencyKey r) ≠ none := by
  induction calls generalizing s with
  | nil => exact h
  | cons c calls ih =>
      refine ih (s := c.apply s) (fun d hd => htime d (List.mem_cons_of_mem c hd)) ?_
      exact RefundCall.idempotency_apply_ne_none (htime c List.mem_cons_self) h

theorem runRefunds_eq_self
    (h : ∀ c ∈ calls, ¬c.Applies s) : runRefunds calls s = s := by
  induction calls with
  | nil => rfl
  | cons c calls ih =>
      have hfirst : c.apply s = s := RefundCall.apply_of_not_applies (h c List.mem_cons_self)
      calc runRefunds (c :: calls) s = runRefunds calls (c.apply s) := rfl
        _ = runRefunds calls s := by rw [hfirst]
        _ = s := ih fun d hd => h d (List.mem_cons_of_mem c hd)

/-- A store in which every request has been refunded but the one of `c`, whose
key expires when `c` is made, and in which neither tenant has a balance. -/
def expiringStore (c last : RefundCall) : RedisStore where
  entries key :=
    if key = idempotencyKey c.requestId then some ⟨.integer 1, some c.time⟩
    else if key = balanceKey c.tenantId ∨ key = balanceKey last.tenantId then none
    else some ⟨.integer 1, none⟩

theorem get_expiringStore_self {c : RefundCall} {now : ℕ} :
    (expiringStore c last).get now (idempotencyKey c.requestId) = none ↔ c.time ≤ now := by
  have hentry : (expiringStore c last).entries (idempotencyKey c.requestId) =
      some ⟨.integer 1, some c.time⟩ := if_pos rfl
  rw [RedisStore.get, hentry, Option.filter_eq_none_iff]
  simp [RedisEntry.live]

theorem get_expiringStore_of_ne {c : RefundCall} {now : ℕ} {r : String} (h : r ≠ c.requestId) :
    (expiringStore c last).get now (idempotencyKey r) ≠ none := by
  have hentry : (expiringStore c last).entries (idempotencyKey r) = some ⟨.integer 1, none⟩ := by
    have hother : idempotencyKey r ≠ idempotencyKey c.requestId :=
      fun heq => h (idempotencyKey_injective heq)
    have hbalance : ¬(idempotencyKey r = balanceKey c.tenantId ∨
        idempotencyKey r = balanceKey last.tenantId) := by
      rintro (heq | heq)
      · exact balanceKey_ne_idempotencyKey _ _ heq.symm
      · exact balanceKey_ne_idempotencyKey _ _ heq.symm
    dsimp only [expiringStore]
    rw [if_neg hother, if_neg hbalance]
  simp [RedisStore.get, hentry, RedisEntry.live]

theorem get_balance_expiringStore {c : RefundCall} {now : ℕ} {t : String}
    (h : t = c.tenantId ∨ t = last.tenantId) :
    (expiringStore c last).get now (balanceKey t) = none := by
  have hentry : (expiringStore c last).entries (balanceKey t) = none := by
    have hkey : balanceKey t = balanceKey c.tenantId ∨ balanceKey t = balanceKey last.tenantId :=
      h.imp (congrArg balanceKey) (congrArg balanceKey)
    dsimp only [expiringStore]
    rw [if_neg (balanceKey_ne_idempotencyKey t c.requestId), if_pos hkey]
  simp [RedisStore.get, hentry]

theorem RefundCall.applies_of_absent {c : RefundCall} (hpositive : 0 < c.amount)
    (hfresh : s.get c.time (idempotencyKey c.requestId) = none)
    (habsent : s.get c.time (balanceKey c.tenantId) = none) : c.Applies s := by
  refine ⟨hpositive, hfresh, ?_⟩
  simp [RedisStore.incrBy, habsent]

/-- Refunds for other tenants do not disturb a refund exactly when none of them
is made under the same request id in the 24 hours before it. -/
theorem undisturbed_iff (htenant : ∀ c ∈ calls, last.tenantId ≠ c.tenantId)
    (htime : ∀ c ∈ calls, c.time ≤ last.time) :
    Undisturbed calls last ↔ ∀ c ∈ calls, 0 < c.amount → 0 < last.amount →
      c.requestId = last.requestId → c.time + refundTtl ≤ last.time := by
  constructor
  · intro h c₀ hc₀ hpositive₀ hlast hsame₀
    by_contra hlate₀
    -- The first call that could mark the request of `last`.
    obtain ⟨c, hfind⟩ := Option.isSome_iff_exists.mp
      ((List.find?_isSome (p := fun c : RefundCall => decide (0 < c.amount ∧
        c.requestId = last.requestId ∧ last.time < c.time + refundTtl))).mpr
        ⟨c₀, hc₀, decide_eq_true ⟨hpositive₀, hsame₀, Nat.not_le.mp hlate₀⟩⟩)
    obtain ⟨hbad, before, after, rfl, hbefore⟩ := List.find?_eq_some_iff_append.mp hfind
    obtain ⟨hpositive, hsame, hlate⟩ := of_decide_eq_true hbad
    have hquiet : runRefunds before (expiringStore c last) = expiringStore c last := by
      refine runRefunds_eq_self fun d hd happlies => ?_
      by_cases hid : d.requestId = c.requestId
      · have hfresh := happlies.fresh
        rw [hid, get_expiringStore_self] at hfresh
        have hgood := hbefore d hd
        simp only [Bool.not_eq_true', decide_eq_false_iff_not] at hgood
        refine hgood ⟨happlies.positive, hid.trans hsame, ?_⟩
        omega
      · exact get_expiringStore_of_ne hid happlies.fresh
    have hmarks : c.Applies (expiringStore c last) :=
      RefundCall.applies_of_absent hpositive (get_expiringStore_self.mpr le_rfl)
        (get_balance_expiringStore (.inl rfl))
    have hmarked : (runRefunds (before ++ c :: after) (expiringStore c last)).get last.time
        (idempotencyKey last.requestId) ≠ none := by
      rw [runRefunds, List.foldl_append, List.foldl_cons]
      refine idempotency_runRefunds_ne_none (fun d hd => htime d (by simp [hd])) ?_
      rw [← runRefunds, hquiet, ← hsame, Ne, RefundCall.get_idempotency_apply _ hmarks]
      exact Nat.not_le.mpr hlate
    have hlost : last.change (runRefunds (before ++ c :: after) (expiringStore c last)) = 0 :=
      RefundCall.change_of_not_applies fun happlies => hmarked happlies.fresh
    have hmade : last.change (expiringStore c last) = last.amount.toInt := by
      refine RefundCall.change_of_applies (RefundCall.applies_of_absent hlast ?_ ?_)
      · rw [← hsame]
        exact get_expiringStore_self.mpr (htime c (by simp))
      · exact get_balance_expiringStore (.inr rfl)
    have hzero : last.amount.toInt = 0 := by rw [← hmade, ← h, hlost]
    have hpos : 0 < last.amount.toInt := Int64.lt_iff_toInt_lt.mp hlast
    omega
  · intro h s
    by_cases hlast : 0 < last.amount
    · have hiff : last.Applies (runRefunds calls s) ↔ last.Applies s := by
        refine RefundCall.applies_congr (get_balance_runRefunds _ htenant) ?_
        exact idempotency_runRefunds_iff htime fun c hc hpositive => h c hc hpositive hlast
      by_cases happlies : last.Applies s
      · rw [RefundCall.change_of_applies happlies,
          RefundCall.change_of_applies (hiff.mpr happlies)]
      · rw [RefundCall.change_of_not_applies happlies,
          RefundCall.change_of_not_applies fun hnew => happlies (hiff.mp hnew)]
    · rw [RefundCall.change_of_not_applies fun happlies => hlast happlies.positive,
        RefundCall.change_of_not_applies fun happlies => hlast happlies.positive]

theorem RedisStore.Roomy.get {t : String} {total : ℤ} (h : s.Roomy t total) (now : ℕ) :
    s.get now (balanceKey t) = none ∧ s.entries (balanceKey t) = none ∧ total < 2 ^ 63 ∨
      ∃ n, s.get now (balanceKey t) = some ⟨.integer n, none⟩ ∧ n.toInt + total < 2 ^ 63 := by
  unfold RedisStore.Roomy at h
  split at h
  · rename_i hentry
    exact .inl ⟨by simp [RedisStore.get, hentry], hentry, h⟩
  · rename_i n hentry
    refine .inr ⟨n, ?_, h⟩
    rw [RedisStore.get, hentry]
    rfl
  · exact h.elim

/-- A roomy balance takes a positive amount that fits into the room. -/
theorem RefundCall.applies_of_roomy {c : RefundCall} {total : ℤ} (hpositive : 0 < c.amount)
    (hfresh : s.get c.time (idempotencyKey c.requestId) = none)
    (hroomy : s.Roomy c.tenantId total) (hle : c.amount.toInt ≤ total) : c.Applies s := by
  have hpos : 0 < c.amount.toInt := Int64.lt_iff_toInt_lt.mp hpositive
  obtain ⟨habsent, -, -⟩ | ⟨n, hget, hroom⟩ := hroomy.get c.time
  · exact applies_of_absent hpositive hfresh habsent
  · have hmin := Int64.le_toInt n
    have hfit : n.toInt + c.amount.toInt < 2 ^ 63 ∧ -2 ^ 63 ≤ n.toInt + c.amount.toInt := by
      constructor <;> omega
    refine ⟨hpositive, hfresh, ?_⟩
    rw [RedisStore.incrBy, hget]
    simp only [checkedAdd, if_pos hfit, Option.map_some, Option.isSome_some]

theorem RefundCall.roomy_apply {c : RefundCall} {total : ℤ} (happlies : c.Applies s)
    (hroomy : s.Roomy c.tenantId (c.amount.toInt + total)) :
    (c.apply s).Roomy c.tenantId total := by
  obtain ⟨sum, expiresAt, hsum, hexpiry, -, happly⟩ := RefundCall.apply_of_applies happlies
  have hentry : (c.apply s).entries (balanceKey c.tenantId) = some ⟨.integer sum, expiresAt⟩ := by
    rw [happly]
    simp [RedisStore.put, Function.update_of_ne (balanceKey_ne_idempotencyKey _ _)]
  obtain ⟨habsent, -, hroom⟩ | ⟨n, hget, hroom⟩ := hroomy.get c.time
  · rw [habsent, Option.bind_none] at hexpiry
    rw [RedisStore.balance, habsent] at hsum
    subst hexpiry
    rw [RedisStore.Roomy, hentry]
    simp only at hsum ⊢
    omega
  · rw [hget, Option.bind_some] at hexpiry
    rw [RedisStore.balance, hget] at hsum
    subst hexpiry
    rw [RedisStore.Roomy, hentry]
    simp only at hsum ⊢
    omega

/-- Two refunds of one tenant are both made exactly when they have different
request ids or are 24 hours apart. -/
theorem bothRefunded_iff (htenant : first.tenantId = second.tenantId)
    (htime : first.time ≤ second.time) :
    BothRefunded first second ↔ (0 < first.amount → 0 < second.amount →
      first.requestId = second.requestId → first.time + refundTtl ≤ second.time) := by
  constructor
  · intro h hfirst hsecond hsame
    by_contra hlate
    -- The lowest balance has room for any two amounts.
    let s := RedisStore.empty.put (balanceKey first.tenantId) ⟨.integer Int64.minValue, none⟩
    have hfresh : ∀ now r, s.get now (idempotencyKey r) = none := fun now r =>
      RedisStore.get_put_of_ne (balanceKey_ne_idempotencyKey _ _).symm
    have hroomy : s.Roomy first.tenantId (first.amount.toInt + second.amount.toInt) := by
      have hmax₁ := Int64.toInt_lt first.amount
      have hmax₂ := Int64.toInt_lt second.amount
      have hmin : Int64.minValue.toInt = -2 ^ 63 := rfl
      have hentry : s.entries (balanceKey first.tenantId) =
          some ⟨.integer Int64.minValue, none⟩ := Function.update_self ..
      rw [RedisStore.Roomy, hentry]
      dsimp only
      omega
    have hpos : 0 < second.amount.toInt := Int64.lt_iff_toInt_lt.mp hsecond
    have happlies : first.Applies s :=
      RefundCall.applies_of_roomy hfirst (hfresh _ _) hroomy (by omega)
    have hlost : second.change (first.apply s) = 0 := by
      refine RefundCall.change_of_not_applies fun hagain => hlate ?_
      rw [← RefundCall.get_idempotency_apply second.time happlies, hsame]
      exact hagain.fresh
    have hmade := (h hfirst hsecond s (hfresh _ _) (hfresh _ _) hroomy).2
    omega
  · intro h hfirst hsecond s hfresh hfresh' hroomy
    have hpos : 0 < second.amount.toInt := Int64.lt_iff_toInt_lt.mp hsecond
    have happlies : first.Applies s :=
      RefundCall.applies_of_roomy hfirst hfresh hroomy (by omega)
    have hafter : second.Applies (first.apply s) := by
      refine RefundCall.applies_of_roomy hsecond ?_
        (htenant ▸ RefundCall.roomy_apply happlies hroomy) le_rfl
      exact (RefundCall.idempotency_apply_iff htime fun _ hsame => h hfirst hsecond hsame).mpr
        hfresh'
    exact ⟨RefundCall.change_of_applies happlies, RefundCall.change_of_applies hafter⟩

end Refunds

end SereinGateway.TrafficControl
