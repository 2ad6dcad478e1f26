import SereinGateway.TrafficControl.FinOps

/-!
What `refund_tokens` reports, with Lua's numbers as they are.

The refund script answers zero when the request was refunded before and the new
balance otherwise, and `refund_tokens` tells the two apart by the zero. Besides,
every integer that passes through a script passes through a Lua number, a double:
the amount on its way to `INCRBY` and the new balance on its way back. What Redis
and its Lua make of an integer is a parameter, `LuaNumbers`.

A balance is a 64-bit integer without expiry in every store that `set_budget`, the
deduction script and `refund_tokens` can reach from the empty one. If only
budgets of zero or more are set and Lua is exact on the numbers that occur, no
balance is negative, and a refund never ends in zero.
-/

namespace SereinGateway.TrafficControl

/-- How integers pass through Lua. -/
structure LuaNumbers where
  /-- The number that an integer becomes: `tonumber` on its text, or an integer reply. -/
  number : ℤ → ℤ
  /-- The integer that a command reads from the text that a number is passed as, if any. -/
  argument : ℤ → Option Int64
  /-- The integer reply made from a number that a script returns. -/
  reply : ℤ → Int64
  reply_zero : reply 0 = 0

/-- An integer passes unchanged, in both directions. -/
structure LuaNumbers.Exact (lua : LuaNumbers) (n : Int64) : Prop where
  number : lua.number n.toInt = n.toInt
  argument : lua.argument n.toInt = some n
  reply : lua.reply n.toInt = n

namespace RedisStore

/-- `DECRBY`, which refuses the amount that has no negation. -/
def decrBy (s : RedisStore) (now : ℕ) (key : String) (amount : Int64) :
    Option (Int64 × RedisStore) :=
  if amount = Int64.minValue then none else s.incrBy now key (-amount)

end RedisStore

theorem toInt_neg_of_ne_minValue {n : Int64} (h : n ≠ Int64.minValue) :
    (-n).toInt = -n.toInt := by
  have hlow := Int64.le_toInt n
  have hhigh := Int64.toInt_lt n
  have hne : n.toInt ≠ -2 ^ 63 := fun heq => h (Int64.toInt_inj.mp heq)
  rw [Int64.toInt_neg]
  exact Int.bmod_eq_of_le (by omega) (by omega)

namespace LuaNumbers

variable (lua : LuaNumbers)

/-- `FINOPS_REFUND_LUA` with Lua's numbers. -/
def refundLua (now : ℕ) (balanceKey idempotencyKey : String) (amount : Int64) (ttl : ℕ)
    (s : RedisStore) : Option Int64 × RedisStore :=
  if (s.get now idempotencyKey).isSome then (some (lua.reply 0), s)
  else
    match lua.argument (lua.number amount.toInt) with
    | none => (none, s)
    | some amount =>
        match s.incrBy now balanceKey amount with
        | none => (none, s)
        | some (newBalance, s) =>
            (some (lua.reply (lua.number newBalance.toInt)),
              s.put idempotencyKey ⟨.integer 1, some (now + ttl)⟩)

/-- `FINOPS_DEDUCT_LUA`. A balance that is no integer cannot be decremented. -/
def deductLua (now : ℕ) (balanceKey : String) (cost : Int64) (s : RedisStore) :
    Option Int64 × RedisStore :=
  let cost := lua.number cost.toInt
  let deduct (balance : ℤ) : Option Int64 × RedisStore :=
    if cost ≤ lua.number balance then
      match (lua.argument cost).bind (s.decrBy now balanceKey) with
      | none => (none, s)
      | some (newBalance, s) => (some (lua.reply (lua.number newBalance.toInt)), s)
    else (some (lua.reply (-1)), s)
  match s.get now balanceKey with
  | none => deduct 0
  | some ⟨.integer n, _⟩ => deduct n.toInt
  | some ⟨.other _, _⟩ => (none, s)

/-- `refund_tokens` when Redis answers. -/
def refundTokens (c : RefundCall) (s : RedisStore) : BudgetRefundResult × RedisStore :=
  if c.amount ≤ 0 then (.success (-1), s)
  else
    let (reply, s) := lua.refundLua c.time (balanceKey c.tenantId) (idempotencyKey c.requestId)
      c.amount refundTtl s
    (.ofReply reply, s)

theorem refundLua_eq (h : ∀ n, lua.Exact n) (now : ℕ) (balanceKey idempotencyKey : String)
    (amount : Int64) (ttl : ℕ) (s : RedisStore) :
    lua.refundLua now balanceKey idempotencyKey amount ttl s =
      TrafficControl.refundLua now balanceKey idempotencyKey amount ttl s := by
  rw [refundLua, TrafficControl.refundLua]
  by_cases hdone : (s.get now idempotencyKey).isSome
  · rw [if_pos hdone, if_pos hdone, lua.reply_zero]
  · rw [if_neg hdone, if_neg hdone, (h amount).number, (h amount).argument]
    dsimp only
    cases s.incrBy now balanceKey amount with
    | none => rfl
    | some r =>
        show (some (lua.reply (lua.number r.1.toInt)), _) = (some r.1, _)
        rw [(h r.1).number, (h r.1).reply]

theorem refundTokens_eq (h : ∀ n, lua.Exact n) (c : RefundCall) (s : RedisStore) :
    lua.refundTokens c s =
      TrafficControl.refundTokens c.time c.tenantId c.amount c.requestId s := by
  rw [refundTokens, TrafficControl.refundTokens, lua.refundLua_eq h]

end LuaNumbers

/-! ### Stores that the three operations reach -/

/-- An operation on the budgets. -/
inductive FinOpsCall where
  | setBudget (tenantId : String) (budget : Int64) (time : ℕ)
  | deduct (tenantId : String) (cost : Int64) (time : ℕ)
  | refund (call : RefundCall)

namespace LuaNumbers

variable (lua : LuaNumbers)

def perform (s : RedisStore) : FinOpsCall → RedisStore
  | .setBudget tenantId budget time => (setBudget time tenantId budget s).2
  | .deduct tenantId cost time => (lua.deductLua time (balanceKey tenantId) cost s).2
  | .refund call => (lua.refundTokens call s).2

def stored (calls : List FinOpsCall) : RedisStore := calls.foldl lua.perform .empty

end LuaNumbers

/-- Every balance is an integer that does not expire and satisfies `P`. -/
def RedisStore.Balances (P : ℤ → Prop) (s : RedisStore) : Prop :=
  ∀ t e, s.entries (balanceKey t) = some e → ∃ n : Int64, e = ⟨.integer n, none⟩ ∧ P n.toInt

namespace RedisStore.Balances

variable {P : ℤ → Prop} {s : RedisStore} {t : String}

theorem entries_put (key key' : String) (e : RedisEntry) :
    (s.put key e).entries key' = Function.update s.entries key (some e) key' := rfl

theorem empty : Balances P .empty := by
  intro t e he
  cases he

theorem mono {Q : ℤ → Prop} (h : s.Balances P) (hPQ : ∀ n, P n → Q n) : s.Balances Q := by
  intro t e he
  obtain ⟨n, hn, hP⟩ := h t e he
  exact ⟨n, hn, hPQ _ hP⟩

theorem put_balance (h : s.Balances P) {n : Int64} (hn : P n.toInt) :
    (s.put (balanceKey t) ⟨.integer n, none⟩).Balances P := by
  intro t' e he
  by_cases ht : t' = t
  · subst ht
    rw [entries_put, Function.update_self, Option.some.injEq] at he
    exact ⟨n, he.symm, hn⟩
  · have hkey : balanceKey t' ≠ balanceKey t := fun heq => ht (balanceKey_injective heq)
    rw [entries_put, Function.update_of_ne hkey] at he
    exact h t' e he

theorem put_idempotency (h : s.Balances P) (r : String) (e : RedisEntry) :
    (s.put (idempotencyKey r) e).Balances P := by
  intro t e' he'
  rw [entries_put, Function.update_of_ne (balanceKey_ne_idempotencyKey t r)] at he'
  exact h t e' he'

theorem get_cases (h : s.Balances P) (now : ℕ) (t : String) :
    s.get now (balanceKey t) = none ∧ s.balance now t = 0 ∨
      ∃ n : Int64, s.get now (balanceKey t) = some ⟨.integer n, none⟩ ∧
        s.balance now t = n.toInt ∧ P n.toInt := by
  cases hentry : s.entries (balanceKey t) with
  | none =>
      have hget : s.get now (balanceKey t) = none := by rw [get, hentry, Option.filter_none]
      exact .inl ⟨hget, by rw [balance, hget]⟩
  | some e =>
      obtain ⟨n, rfl, hP⟩ := h t e hentry
      have hget : s.get now (balanceKey t) = some ⟨.integer n, none⟩ := by
        rw [get, hentry]
        rfl
      exact .inr ⟨n, hget, by rw [balance, hget], hP⟩

theorem incrBy_cases (h : s.Balances P) (now : ℕ) (t : String) (amount : Int64) :
    (∃ sum : Int64, sum.toInt = s.balance now t + amount.toInt ∧
      s.incrBy now (balanceKey t) amount =
        some (sum, s.put (balanceKey t) ⟨.integer sum, none⟩)) ∨
    (∀ sum : Int64, sum.toInt ≠ s.balance now t + amount.toInt) ∧
      s.incrBy now (balanceKey t) amount = none := by
  obtain ⟨hget, hzero⟩ | ⟨n, hget, hn, -⟩ := h.get_cases now t
  · refine .inl ⟨amount, by rw [hzero, zero_add], ?_⟩
    rw [incrBy, hget]
  · have hincr : s.incrBy now (balanceKey t) amount =
        (checkedAdd n amount).map fun sum => (sum, s.put (balanceKey t) ⟨.integer sum, none⟩) := by
      rw [incrBy, hget]
    rw [hincr, hn]
    cases hadd : checkedAdd n amount with
    | some sum => exact .inl ⟨sum, toInt_of_checkedAdd hadd, rfl⟩
    | none =>
        refine .inr ⟨fun sum hsum => ?_, rfl⟩
        have hlow := Int64.le_toInt sum
        have hhigh := Int64.toInt_lt sum
        have hfit : n.toInt + amount.toInt < 2 ^ 63 ∧ -2 ^ 63 ≤ n.toInt + amount.toInt := by
          constructor <;> omega
        rw [checkedAdd, if_pos hfit] at hadd
        cases hadd

theorem balance_put (now : ℕ) (n : Int64) :
    (s.put (balanceKey t) ⟨.integer n, none⟩).balance now t = n.toInt := by
  rw [balance, get_put_of_live rfl]

theorem balance_put_idempotency (now : ℕ) (r : String) (e : RedisEntry) :
    (s.put (idempotencyKey r) e).balance now t = s.balance now t := by
  rw [balance, get_put_of_ne (balanceKey_ne_idempotencyKey t r), balance]

end RedisStore.Balances

/-! ### What a refund does -/

namespace LuaNumbers

variable {lua : LuaNumbers} {s : RedisStore} {c : RefundCall}

/-- What a refund of a positive amount can come to. -/
inductive Refunds (lua : LuaNumbers) (c : RefundCall) (s : RedisStore) :
    BudgetRefundResult × RedisStore → Prop
  | marked (hmarked : (s.get c.time (idempotencyKey c.requestId)).isSome) :
      Refunds lua c s (.alreadyRefunded, s)
  | refused (hfresh : s.get c.time (idempotencyKey c.requestId) = none)
      (hnone : ∀ taken sum : Int64, lua.argument (lua.number c.amount.toInt) = some taken →
        sum.toInt ≠ s.balance c.time c.tenantId + taken.toInt) :
      Refunds lua c s (.stateStoreInaccessible, s)
  | applied (taken sum : Int64) (hfresh : s.get c.time (idempotencyKey c.requestId) = none)
      (htaken : lua.argument (lua.number c.amount.toInt) = some taken)
      (hsum : sum.toInt = s.balance c.time c.tenantId + taken.toInt) :
      Refunds lua c s (.ofReply (some (lua.reply (lua.number sum.toInt))),
        (s.put (balanceKey c.tenantId) ⟨.integer sum, none⟩).put (idempotencyKey c.requestId)
          ⟨.integer 1, some (c.time + refundTtl)⟩)

theorem refunds {P : ℤ → Prop} (h : s.Balances P) (hpositive : 0 < c.amount) :
    Refunds lua c s (lua.refundTokens c s) := by
  rw [refundTokens, if_neg (Int64.not_le.mpr hpositive), refundLua]
  cases hmark : s.get c.time (idempotencyKey c.requestId) with
  | some e =>
      have hout : Refunds lua c s (.alreadyRefunded, s) := .marked (by rw [hmark]; rfl)
      simpa [BudgetRefundResult.ofReply, lua.reply_zero] using hout
  | none =>
      simp only [Option.isSome_none, Bool.false_eq_true, if_false]
      cases htaken : lua.argument (lua.number c.amount.toInt) with
      | none =>
          refine .refused hmark fun taken sum htaken' => ?_
          rw [htaken] at htaken'
          cases htaken'
      | some taken =>
          obtain ⟨sum, hsum, hincr⟩ | ⟨hnone, hincr⟩ := h.incrBy_cases c.time c.tenantId taken
          · simp only [hincr]
            exact .applied taken sum hmark htaken hsum
          · simp only [hincr]
            refine .refused hmark fun taken' sum htaken' => ?_
            rw [htaken, Option.some.injEq] at htaken'
            exact htaken' ▸ hnone sum

/-! ### Reports -/

/-- The result tells whether the request was marked, and the new balance if it was not. -/
structure Faithful (c : RefundCall) (s : RedisStore) (out : BudgetRefundResult × RedisStore) :
    Prop where
  alreadyRefunded_iff : out.1 = .alreadyRefunded ↔
    (s.get c.time (idempotencyKey c.requestId)).isSome ∧
      out.2.balance c.time c.tenantId = s.balance c.time c.tenantId
  success_iff : ∀ newBalance, out.1 = .success newBalance ↔
    s.get c.time (idempotencyKey c.requestId) = none ∧
      out.2.balance c.time c.tenantId = s.balance c.time c.tenantId + c.amount.toInt ∧
      newBalance.toInt = out.2.balance c.time c.tenantId

/-- If the request is not marked, what `INCRBY` takes for the amount is the amount, and
the new balance is one that passes through Lua and is not zero. -/
def Readable (lua : LuaNumbers) (c : RefundCall) (s : RedisStore) : Prop :=
  s.get c.time (idempotencyKey c.requestId) = none → ∀ taken sum : Int64,
    lua.argument (lua.number c.amount.toInt) = some taken →
    sum.toInt = s.balance c.time c.tenantId + taken.toInt →
      taken = c.amount ∧ lua.reply (lua.number sum.toInt) = sum ∧ sum ≠ 0

/-- A report of a refund that was made. -/
theorem faithful_applied_iff {s' : RedisStore} {reply sum : Int64}
    (hfresh : s.get c.time (idempotencyKey c.requestId) = none)
    (hbalance : s'.balance c.time c.tenantId = sum.toInt) :
    Faithful c s (.ofReply (some reply), s') ↔
      sum.toInt = s.balance c.time c.tenantId + c.amount.toInt ∧ reply = sum ∧ sum ≠ 0 := by
  have hmark : ¬((s.get c.time (idempotencyKey c.requestId)).isSome = true) := by
    simp [hfresh]
  by_cases hzero : reply = 0
  · subst hzero
    constructor
    · intro hfaithful
      exact absurd (hfaithful.alreadyRefunded_iff.mp rfl).1 hmark
    · rintro ⟨-, rfl, hne⟩
      exact absurd rfl hne
  · have hreply : BudgetRefundResult.ofReply (some reply) = .success reply := if_neg hzero
    rw [hreply]
    constructor
    · intro hfaithful
      obtain ⟨-, hrise, hnew⟩ := (hfaithful.success_iff reply).mp rfl
      dsimp only at hrise hnew
      have hsame : reply = sum := Int64.toInt_inj.mp (hnew.trans hbalance)
      exact ⟨hbalance ▸ hrise, hsame, hsame ▸ hzero⟩
    · rintro ⟨hrise, rfl, -⟩
      refine ⟨⟨nofun, fun h => absurd h.1 hmark⟩, fun newBalance => ?_⟩
      dsimp only
      rw [hbalance, BudgetRefundResult.success.injEq, Int64.toInt_inj]
      exact ⟨fun h => ⟨hfresh, hrise, h.symm⟩, fun h => h.2.2.symm⟩

theorem faithful_iff_readable {P : ℤ → Prop} (h : s.Balances P) (hpositive : 0 < c.amount) :
    Faithful c s (lua.refundTokens c s) ↔ lua.Readable c s := by
  have hpos : 0 < c.amount.toInt := Int64.lt_iff_toInt_lt.mp hpositive
  have hcases : Refunds lua c s (lua.refundTokens c s) := refunds h hpositive
  generalize lua.refundTokens c s = out at hcases ⊢
  cases hcases with
  | marked hmarked =>
      refine iff_of_true ⟨iff_of_true rfl ⟨hmarked, rfl⟩, fun newBalance => ?_⟩ fun hfresh => ?_
      · refine iff_of_false nofun fun h => ?_
        rw [h.1] at hmarked
        cases hmarked
      · rw [hfresh] at hmarked
        cases hmarked
  | refused hfresh hnone =>
      refine iff_of_true ⟨?_, fun newBalance => ?_⟩ fun _ taken sum htaken hsum => ?_
      · refine iff_of_false nofun fun h => ?_
        rw [hfresh] at h
        cases h.1
      · refine iff_of_false nofun fun h => ?_
        have hsame := h.2.1
        dsimp only at hsame
        omega
      · exact absurd hsum (hnone taken sum htaken)
  | applied taken sum hfresh htaken hsum =>
      rw [faithful_applied_iff hfresh
        ((RedisStore.Balances.balance_put_idempotency ..).trans
          (RedisStore.Balances.balance_put ..))]
      constructor
      · rintro ⟨hrise, hreply, hne⟩ - taken' sum' htaken' hsum'
        rw [htaken, Option.some.injEq] at htaken'
        subst htaken'
        have hamount : taken.toInt = c.amount.toInt := by omega
        have hsame : sum' = sum := Int64.toInt_inj.mp (hsum'.trans hsum.symm)
        exact ⟨Int64.toInt_inj.mp hamount, hsame ▸ hreply, hsame ▸ hne⟩
      · intro hreadable
        obtain ⟨htake, hreply, hne⟩ := hreadable hfresh taken sum htaken hsum
        exact ⟨htake ▸ hsum, hreply, hne⟩

/-! ### Runs -/

inductive Performs (lua : LuaNumbers) (s : RedisStore) : FinOpsCall → RedisStore → Prop
  | unchanged (call : FinOpsCall) : Performs lua s call s
  | set (t : String) (budget : Int64) (now : ℕ) :
      Performs lua s (.setBudget t budget now) (s.put (balanceKey t) ⟨.integer budget, none⟩)
  | deducted (t : String) (cost taken left : Int64) (now : ℕ)
      (hcovered : lua.number cost.toInt ≤ lua.number (s.balance now t))
      (htaken : lua.argument (lua.number cost.toInt) = some taken)
      (hleft : left.toInt = s.balance now t - taken.toInt) :
      Performs lua s (.deduct t cost now) (s.put (balanceKey t) ⟨.integer left, none⟩)
  | refunded (c : RefundCall) (taken sum : Int64) (e : RedisEntry) (hpositive : 0 < c.amount)
      (htaken : lua.argument (lua.number c.amount.toInt) = some taken)
      (hsum : sum.toInt = s.balance c.time c.tenantId + taken.toInt) :
      Performs lua s (.refund c) ((s.put (balanceKey c.tenantId) ⟨.integer sum, none⟩).put
        (idempotencyKey c.requestId) e)

theorem deductLua_eq {P : ℤ → Prop} (h : s.Balances P) (now : ℕ) (t : String) (cost : Int64) :
    (lua.deductLua now (balanceKey t) cost s).2 =
      if lua.number cost.toInt ≤ lua.number (s.balance now t) then
        (((lua.argument (lua.number cost.toInt)).bind (s.decrBy now (balanceKey t))).map
          Prod.snd).getD s
      else s := by
  have hscript (balance : ℤ) (hbalance : s.balance now t = balance) :
      (if lua.number cost.toInt ≤ lua.number balance then
        match (lua.argument (lua.number cost.toInt)).bind (s.decrBy now (balanceKey t)) with
        | none => (none, s)
        | some (newBalance, s) => (some (lua.reply (lua.number newBalance.toInt)), s)
      else (some (lua.reply (-1)), s) : Option Int64 × RedisStore).2 =
      if lua.number cost.toInt ≤ lua.number (s.balance now t) then
        (((lua.argument (lua.number cost.toInt)).bind (s.decrBy now (balanceKey t))).map
          Prod.snd).getD s
      else s := by
    rw [hbalance]
    split
    · cases (lua.argument (lua.number cost.toInt)).bind (s.decrBy now (balanceKey t)) <;> rfl
    · rfl
  obtain ⟨hget, hbalance⟩ | ⟨n, hget, hbalance, -⟩ := h.get_cases now t
  · rw [deductLua, hget]
    exact hscript 0 hbalance
  · rw [deductLua, hget]
    exact hscript n.toInt hbalance

theorem performs {P : ℤ → Prop} (h : s.Balances P) (call : FinOpsCall) :
    Performs lua s call (lua.perform s call) := by
  cases call with
  | setBudget t budget now => exact .set t budget now
  | deduct t cost now =>
      rw [perform, deductLua_eq h]
      split
      · rename_i hcovered
        cases htaken : lua.argument (lua.number cost.toInt) with
        | none => exact .unchanged _
        | some taken =>
            by_cases hmin : taken = Int64.minValue
            · have hrefused : s.decrBy now (balanceKey t) taken = none := if_pos hmin
              rw [Option.bind_some, hrefused]
              exact .unchanged _
            · have hdecr : s.decrBy now (balanceKey t) taken =
                  s.incrBy now (balanceKey t) (-taken) := if_neg hmin
              rw [Option.bind_some, hdecr]
              obtain ⟨left, hleft, hincr⟩ | ⟨-, hincr⟩ := h.incrBy_cases now t (-taken)
              · rw [hincr]
                refine .deducted t cost taken left now hcovered htaken ?_
                rw [hleft, toInt_neg_of_ne_minValue hmin]
                rfl
              · rw [hincr]
                exact .unchanged _
      · exact .unchanged _
  | refund c =>
      rw [perform]
      by_cases hpositive : 0 < c.amount
      · have hcases : Refunds lua c s (lua.refundTokens c s) := refunds h hpositive
        generalize lua.refundTokens c s = out at hcases ⊢
        cases hcases with
        | marked _ => exact .unchanged _
        | refused _ _ => exact .unchanged _
        | applied taken sum _ htaken hsum => exact .refunded c taken sum _ hpositive htaken hsum
      · rw [refundTokens, if_pos (Int64.not_lt.mp hpositive)]
        exact .unchanged _

variable (lua)

theorem stored_concat (calls : List FinOpsCall) (call : FinOpsCall) :
    lua.stored (calls ++ [call]) = lua.perform (lua.stored calls) call := by
  rw [stored, List.foldl_append]
  rfl

theorem balances_stored (calls : List FinOpsCall) :
    (lua.stored calls).Balances fun _ => True := by
  induction calls using List.reverseRecOn with
  | nil => exact .empty
  | append_singleton calls call ih =>
      rw [stored_concat]
      have hperforms : Performs lua _ call _ := performs ih call
      generalize lua.perform (lua.stored calls) call = s' at hperforms ⊢
      cases hperforms with
      | unchanged => exact ih
      | set => exact ih.put_balance trivial
      | deducted => exact ih.put_balance trivial
      | refunded => exact (ih.put_balance trivial).put_idempotency _ _

/-- In a store that the three operations reach, the report of a refund is faithful exactly
if it is readable. -/
theorem refund_faithful_iff (calls : List FinOpsCall) (c : RefundCall) (hpositive : 0 < c.amount) :
    Faithful c (lua.stored calls) (lua.refundTokens c (lua.stored calls)) ↔
      lua.Readable c (lua.stored calls) :=
  faithful_iff_readable (lua.balances_stored calls) hpositive

end LuaNumbers

/-! ### Budgets of zero or more -/

def FinOpsCall.size : FinOpsCall → ℕ
  | setBudget _ budget _ => budget.toInt.natAbs
  | deduct _ cost _ => cost.toInt.natAbs
  | refund c => c.amount.toInt.natAbs

def FinOpsCall.volume (calls : List FinOpsCall) : ℕ := (calls.map size).sum

/-- The operation does not set a negative budget. -/
def FinOpsCall.Solvent : FinOpsCall → Prop
  | setBudget _ budget _ => 0 ≤ budget.toInt
  | _ => True

namespace LuaNumbers

variable {lua : LuaNumbers}

theorem Exact.passes {n : Int64} (h : lua.Exact n) :
    lua.argument (lua.number n.toInt) = some n := by
  rw [h.number, h.argument]

/-- A balance stays between zero and the volume of the operations. -/
theorem balances_bounded {calls : List FinOpsCall} (hsolvent : ∀ call ∈ calls, call.Solvent)
    (hexact : ∀ n : Int64, n.toInt.natAbs ≤ FinOpsCall.volume calls → lua.Exact n) :
    (lua.stored calls).Balances fun n => 0 ≤ n ∧ n ≤ FinOpsCall.volume calls := by
  induction calls using List.reverseRecOn with
  | nil => exact .empty
  | append_singleton calls call ih =>
      have hvolume : FinOpsCall.volume (calls ++ [call]) =
          FinOpsCall.volume calls + call.size := by simp [FinOpsCall.volume]
      have hbounded := ih (fun d hd => hsolvent d (List.mem_append_left _ hd))
        fun n hn => hexact n (by omega)
      have hcall : call.Solvent := hsolvent call (by simp)
      have hstored := lua.stored_concat calls call
      rw [hstored, hvolume]
      have hperforms : Performs lua _ call _ := performs hbounded call
      have hkept : (lua.stored calls).Balances
          fun n => 0 ≤ n ∧ n ≤ ↑(FinOpsCall.volume calls + call.size) :=
        hbounded.mono fun n hn => ⟨hn.1, by omega⟩
      have hbalance (now : ℕ) (t : String) : 0 ≤ (lua.stored calls).balance now t ∧
          (lua.stored calls).balance now t ≤ FinOpsCall.volume calls ∧
          ∃ n : Int64, n.toInt = (lua.stored calls).balance now t := by
        obtain ⟨-, hzero⟩ | ⟨n, -, hn, hlow, hhigh⟩ := hbounded.get_cases now t
        · rw [hzero]
          exact ⟨le_rfl, by omega, 0, rfl⟩
        · rw [hn]
          exact ⟨hlow, hhigh, n, rfl⟩
      generalize lua.perform (lua.stored calls) call = s' at hperforms ⊢
      cases hperforms with
      | unchanged => exact hkept
      | set t budget now =>
          refine hkept.put_balance ?_
          have hbudget : 0 ≤ budget.toInt := hcall
          simp only [FinOpsCall.size]
          omega
      | deducted t cost taken left now hcovered htaken hleft =>
          obtain ⟨hlow, hhigh, n, hn⟩ := hbalance now t
          have hcost : lua.Exact cost :=
            hexact cost (by simp only [hvolume, FinOpsCall.size]; omega)
          have hexactN : lua.Exact n := hexact n (by omega)
          rw [hcost.passes, Option.some.injEq] at htaken
          rw [hcost.number, ← hn, hexactN.number] at hcovered
          refine hkept.put_balance ?_
          subst htaken
          simp only [FinOpsCall.size]
          omega
      | refunded c taken sum e hpositive htaken hsum =>
          obtain ⟨hlow, hhigh, -⟩ := hbalance c.time c.tenantId
          have hamount : lua.Exact c.amount :=
            hexact c.amount (by simp only [hvolume, FinOpsCall.size]; omega)
          rw [hamount.passes, Option.some.injEq] at htaken
          have hpos : 0 < c.amount.toInt := Int64.lt_iff_toInt_lt.mp hpositive
          refine (hkept.put_balance ?_).put_idempotency _ _
          subst htaken
          simp only [FinOpsCall.size]
          omega

/-- Where no negative budget is set and Lua is exact up to the volume of all operations,
every refund is readable: the new balance is positive. -/
theorem readable_of_solvent {calls : List FinOpsCall} {c : RefundCall}
    (hsolvent : ∀ call ∈ calls, call.Solvent) (hpositive : 0 < c.amount)
    (hexact : ∀ n : Int64,
      n.toInt.natAbs ≤ FinOpsCall.volume calls + c.amount.toInt.natAbs → lua.Exact n) :
    lua.Readable c (lua.stored calls) := by
  intro _ taken sum htaken hsum
  have hbounded := balances_bounded hsolvent fun n hn => hexact n (by omega)
  have hpos : 0 < c.amount.toInt := Int64.lt_iff_toInt_lt.mp hpositive
  have hamount : lua.Exact c.amount := hexact c.amount (by omega)
  rw [hamount.passes, Option.some.injEq] at htaken
  subst htaken
  have hbalance : 0 ≤ (lua.stored calls).balance c.time c.tenantId ∧
      (lua.stored calls).balance c.time c.tenantId ≤ FinOpsCall.volume calls := by
    obtain ⟨-, hzero⟩ | ⟨n, -, hn, hlow, hhigh⟩ := hbounded.get_cases c.time c.tenantId
    · omega
    · omega
  have hexactSum : lua.Exact sum := hexact sum (by omega)
  refine ⟨rfl, by rw [hexactSum.number, hexactSum.reply], ?_⟩
  rintro rfl
  have hzero : (0 : Int64).toInt = 0 := rfl
  omega

/-- Lua on integers that a double holds. -/
def ofIntegers : LuaNumbers where
  number n := n
  argument n := some (Int64.ofInt n)
  reply n := Int64.ofInt n
  reply_zero := rfl

theorem refund_faithful_iff_first :
    Faithful ⟨"t", 5, "r", 1⟩ (ofIntegers.stored [.setBudget "t" 10 0])
        (ofIntegers.refundTokens ⟨"t", 5, "r", 1⟩ (ofIntegers.stored [.setBudget "t" 10 0])) ↔
      ofIntegers.Readable ⟨"t", 5, "r", 1⟩ (ofIntegers.stored [.setBudget "t" 10 0]) :=
  ofIntegers.refund_faithful_iff [.setBudget "t" 10 0] ⟨"t", 5, "r", 1⟩ (by decide)

/-- A refund that pays off a debt is reported as one made before. -/
theorem refund_of_debt_unfaithful :
    ¬Faithful ⟨"t", 5, "r", 1⟩ (ofIntegers.stored [.setBudget "t" (-5) 0])
      (ofIntegers.refundTokens ⟨"t", 5, "r", 1⟩ (ofIntegers.stored [.setBudget "t" (-5) 0])) := by
  intro h
  have hmarked := (h.alreadyRefunded_iff.mp (by decide)).1
  revert hmarked
  decide

end LuaNumbers

end SereinGateway.TrafficControl
