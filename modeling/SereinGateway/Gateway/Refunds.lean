import Mathlib
import SereinGateway.Gateway.Authentication
import SereinGateway.Router.RequestKey
import SereinGateway.TrafficControl.FinOps

/-!
Who asks for refunds, and under which request id.

The guard of `handle_agent_execution` refunds one token under the
`x-request-id` header, which the client chooses and which is "unknown" when
it can not be read. The orchestrator refunds one token for each provider
under the canonical key of the request, which equal prompts of a tenant
share. The id is all that marks a request as refunded, so refunds with one id
within 24 hours stand for each other, whoever they are for.
-/

namespace SereinGateway.Gateway

open SereinGateway.Router SereinGateway.TrafficControl

/-- `request_id` in `handle_agent_execution`. -/
def HeaderMap.requestId (headers : HeaderMap) : String :=
  (headers.xRequestId.bind toStr).getD "unknown"

/-- `FinOpsRefundGuard::drop`: the refund it spawns, run at `time`. -/
def guardRefund (headers : HeaderMap) (tenantId : String) (time : ℕ) : RefundCall :=
  ⟨tenantId, 1, headers.requestId, time⟩

/-- The refund in `dispatch_consensus_inner` when no consensus is reached. -/
def orchestratorRefund (deps : KeyDeps) (adapters : ℕ) (tenantId prompt : String) (time : ℕ) :
    RefundCall :=
  ⟨tenantId, .ofNat adapters, deps.computeRequestCanonicalKey tenantId prompt, time⟩

/-- The refunds that are asked for on behalf of a tenant. -/
inductive RefundFor (deps : KeyDeps) (tenantId : String) : RefundCall → Prop
  | guard (headers : HeaderMap) (time : ℕ) :
      RefundFor deps tenantId (guardRefund headers tenantId time)
  | orchestrator (adapters : ℕ) (prompt : String) (time : ℕ) :
      RefundFor deps tenantId (orchestratorRefund deps adapters tenantId prompt time)

theorem RefundFor.tenantId_eq {deps : KeyDeps} {tenantId : String} {c : RefundCall}
    (h : RefundFor deps tenantId c) : c.tenantId = tenantId := by
  cases h <;> rfl

/-- Refunds for one tenant leave a refund for another alone exactly when none of
them has its request id in the 24 hours before; and two refunds for one
tenant are both made exactly when their request ids differ or they are 24
hours apart. -/
theorem refunds_isolated_iff (deps : KeyDeps) {t₁ t₂ : String} (hne : t₁ ≠ t₂) :
    (∀ (calls : List RefundCall) (last : RefundCall),
      (∀ c ∈ calls, RefundFor deps t₁ c ∧ c.time ≤ last.time) → RefundFor deps t₂ last →
      (Undisturbed calls last ↔ ∀ c ∈ calls, 0 < c.amount → 0 < last.amount →
        c.requestId = last.requestId → c.time + refundTtl ≤ last.time)) ∧
    (∀ first second : RefundCall, RefundFor deps t₁ first → RefundFor deps t₁ second →
      first.time ≤ second.time →
      (BothRefunded first second ↔ (0 < first.amount → 0 < second.amount →
        first.requestId = second.requestId → first.time + refundTtl ≤ second.time))) := by
  constructor
  · intro calls last hcalls hlast
    refine undisturbed_iff (fun c hc => ?_) fun c hc => (hcalls c hc).2
    rw [hlast.tenantId_eq, (hcalls c hc).1.tenantId_eq]
    exact hne.symm
  · intro first second hfirst hsecond htime
    exact bothRefunded_iff (hfirst.tenantId_eq.trans hsecond.tenantId_eq.symm) htime

def idHeader (requestId : Option (List UInt8)) : HeaderMap where
  authorization := none
  xRequestId := requestId
  xSereinNonce := none
  xSereinTenantId := none
  xSereinTimestamp := none

/-- Different ids do not disturb each other. -/
theorem refunds_isolated_iff_two_ids :
    Undisturbed [guardRefund (idHeader (some (asciiBytes "req-1"))) "acme" 0]
        (guardRefund (idHeader (some (asciiBytes "req-2"))) "globex" 0) ∧
      BothRefunded (guardRefund (idHeader (some (asciiBytes "req-1"))) "acme" 0)
        (guardRefund (idHeader (some (asciiBytes "req-2"))) "acme" 0) := by
  have hid : (idHeader (some (asciiBytes "req-1"))).requestId ≠
      (idHeader (some (asciiBytes "req-2"))).requestId := by decide +kernel
  have hne : "acme" ≠ "globex" := by decide
  obtain ⟨hothers, hown⟩ := refunds_isolated_iff swapDeps hne
  constructor
  · refine (hothers _ _ ?_ (.guard _ _)).mpr ?_
    · simp only [List.mem_singleton, forall_eq]
      exact ⟨.guard _ _, le_rfl⟩
    · simp only [List.mem_singleton, forall_eq]
      exact fun _ _ hsame => absurd hsame hid
  · refine (hown _ _ (.guard _ _) (.guard _ _) (Nat.le_refl 0)).mpr fun _ _ hsame => ?_
    exact absurd hsame hid

/-- Another tenant's request with the same id takes the refund, and so does an
earlier request of the tenant when the ids of both can not be read. -/
theorem refund_lost_to_same_id :
    (guardRefund (idHeader (some (asciiBytes "req-1"))) "globex" 0).change
        ((guardRefund (idHeader (some (asciiBytes "req-1"))) "acme" 0).apply .empty) = 0 ∧
      (guardRefund (idHeader (some (asciiBytes "req-1"))) "globex" 0).change .empty = 1 ∧
      (guardRefund (idHeader none) "acme" 0).change .empty = 1 ∧
      (guardRefund (idHeader (some [200])) "acme" 1000).change
        ((guardRefund (idHeader none) "acme" 0).apply .empty) = 0 := by
  decide +kernel

end SereinGateway.Gateway
