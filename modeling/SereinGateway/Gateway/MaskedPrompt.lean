import Mathlib
import SereinGateway.Gateway.Billing
import SereinGateway.Worker.MaskRoundTrip

/-!
Prompts are masked and restored without loss.

The template of a prompt has no bracket, and neither has what passes the checks
of a request, so no prompt contains the beginning of a placeholder, and what
masking makes of it is undone by restoration.
-/

namespace SereinGateway.Gateway

open SereinGateway.Lib SereinGateway.Worker

theorem notMem_toList_append {c : Char} {a b : String} (ha : c ∉ a.toList) (hb : c ∉ b.toList) :
    c ∉ (a ++ b).toList := by
  rw [String.toList_append, List.mem_append]
  exact not_or.mpr ⟨ha, hb⟩

theorem notMem_literal {c : Char} {s : String} {cs : List Char} (h : s = String.ofList cs)
    (hc : c ∉ cs) : c ∉ s.toList :=
  toList_of_eq_ofList h ▸ hc

theorem bracket_notMem_prompt {network taskType : String} (hnetwork : '[' ∉ network.toList)
    (htask : '[' ∉ taskType.toList) : '[' ∉ (executionPrompt network taskType).toList := by
  unfold executionPrompt
  refine notMem_toList_append ?_ (notMem_literal rfl (by decide))
  refine notMem_toList_append ?_ (notMem_literal rfl (by decide))
  refine notMem_toList_append ?_ (notMem_literal rfl (by decide))
  refine notMem_toList_append ?_ (notMem_literal rfl (by decide))
  refine notMem_toList_append ?_ htask
  refine notMem_toList_append ?_ (notMem_literal rfl (by decide))
  refine notMem_toList_append ?_ hnetwork
  refine notMem_toList_append ?_ (notMem_literal rfl (by decide))
  refine notMem_toList_append ?_ htask
  refine notMem_toList_append ?_ (notMem_literal rfl (by decide))
  exact notMem_toList_append (notMem_literal rfl (by decide)) hnetwork

theorem bracket_notMem_lower (lower : Lowercase) {networkId : String}
    (h : validNetworkId networkId = true) : '[' ∉ (lower.apply networkId).toList := by
  simp only [validNetworkId, Bool.and_eq_true, List.all_eq_true] at h
  have hascii : ∀ c : Char, (isAsciiAlphanumeric c || c == '-' || c == '_') = true →
      c.toNat < 128 ∧ c.toLower ≠ '[' := by
    intro c hc
    have hlow : c.toNat < 128 := by
      simp only [isAsciiAlphanumeric, Bool.or_eq_true, Bool.and_eq_true, decide_eq_true_eq,
        beq_iff_eq, Char.le_def, UInt32.le_iff_toNat_le] at hc
      have hz : 'z'.val.toNat = 122 := rfl
      have hZ : 'Z'.val.toNat = 90 := rfl
      have hnine : '9'.val.toNat = 57 := rfl
      rcases hc with ((hc | hc) | rfl) | rfl
      · show c.val.toNat < 128
        omega
      · show c.val.toNat < 128
        omega
      · decide
      · decide
    have hall : ∀ n < 128, (isAsciiAlphanumeric (Char.ofNat n) || Char.ofNat n == '-' ||
        Char.ofNat n == '_') = true → (Char.ofNat n).toLower ≠ '[' := by
      decide +kernel
    have hchar := hall c.toNat hlow
    rw [Char.ofNat_toNat] at hchar
    exact ⟨hlow, hchar hc⟩
  rw [lower.ascii networkId fun c hc => (hascii c (h.2 c hc)).1, String.toList_map]
  intro hmem
  obtain ⟨c, hc, heq⟩ := List.mem_map.mp hmem
  exact (hascii c (h.2 c hc)).2 heq
/-- What passes the checks of a request has no bracket, so its prompt does not
contain the beginning of a placeholder. -/
theorem prompt_mark_free (lower : Lowercase) {networkId taskType : String}
    (hnetwork : validNetworkId networkId = true) (htask : validTaskType taskType = true) :
    ¬mark <:+: (executionPrompt (lower.apply networkId) taskType).toList := by
  have htask' : '[' ∉ taskType.toList := by
    intro hmem
    simp only [validTaskType, Bool.and_eq_true, List.all_eq_true] at htask
    exact absurd (htask.2 '[' hmem) (by decide)
  intro hoccurs
  exact bracket_notMem_prompt (bracket_notMem_lower lower hnetwork) htask'
    (hoccurs.subset (by decide))

/-- A prompt that leaves the gateway masked can be restored, whichever numbers
its placeholders have. -/
theorem prompt_restored {pats : PiiPatterns} (lower : Lowercase) {networkId taskType : String}
    (hnetwork : validNetworkId networkId = true) (htask : validTaskType taskType = true)
    {ns : List UInt64} (hns : ns.Nodup) {m : Masking}
    (h : pats.Draws (pats.segments (executionPrompt (lower.apply networkId) taskType)) ns .start m)
    (iter : Shuffle (Σ _ : String, String)) :
    restore iter m.result m.map = executionPrompt (lower.apply networkId) taskType :=
  h.restore (prompt_mark_free lower hnetwork htask) hns iter

end SereinGateway.Gateway
