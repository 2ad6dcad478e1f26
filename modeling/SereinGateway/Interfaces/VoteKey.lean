import SereinGateway.Interfaces.Payload
import SereinGateway.Lib.Fields

/-!
When two payloads have the same canonical key.

The fields are written between markers without escaping, and a network id may contain
the text of a marker. But what comes from a field has been lowercased, so the first
capital letter after the prefix of a key is the `T` of `TASK`, and the next one after
that word is the `G` of `GAS`.
-/

namespace SereinGateway.Interfaces

open SereinGateway.Lib

theorem capital_notMem_field (lower : Lowercase) (s : String) {c : Char} (hc : c.isUpper = true) :
    c ∉ (trim (lower.apply s)).toList := by
  intro hmem
  have hlower := lower.no_capital s c (mem_of_mem_trim hmem)
  rw [hc] at hlower
  cases hlower

/-- A field and the colon behind it. -/
theorem capital_notMem_field_colon (lower : Lowercase) (s : String) {c : Char}
    (hc : c.isUpper = true) : c ∉ (trim (lower.apply s)).toList ++ [':'] := by
  intro hmem
  rcases List.mem_append.mp hmem with hfield | hcolon
  · exact capital_notMem_field lower s hc hfield
  · rw [List.mem_singleton.mp hcolon] at hc
    exact absurd hc (by decide)

theorem toDigits_injective {m n : ℕ} (h : Nat.toDigits 10 m = Nat.toDigits 10 n) : m = n := by
  have hparsed := congrArg (Nat.ofDigitChars 10 · 0) h
  simpa only [Nat.ofDigitChars_ten_toDigits] using hparsed

namespace IntermediatePayload

/-- Two payloads have the same key exactly if they agree on the network and on the
task, lowercased and trimmed, and on the gas limit. -/
theorem canonicalKey_eq_iff (lower : Lowercase) (a b : IntermediatePayload) :
    a.canonicalKey lower = b.canonicalKey lower ↔
      trim (lower.apply a.networkId) = trim (lower.apply b.networkId) ∧
        trim (lower.apply a.taskType) = trim (lower.apply b.taskType) ∧
        a.maxGasLimit = b.maxGasLimit := by
  constructor
  · intro hkey
    have htext (p : IntermediatePayload) : (p.canonicalKey lower).toList =
        "NETWORK:".toList ++ (((trim (lower.apply p.networkId)).toList ++ [':']) ++
          'T' :: ("ASK:".toList ++ (((trim (lower.apply p.taskType)).toList ++ [':']) ++
            'G' :: ("AS:".toList ++ Nat.toDigits 10 p.maxGasLimit.toNat)))) := by
      rw [toList_canonicalKey]
      simp
    have hlist := congrArg String.toList hkey
    rw [htext a, htext b] at hlist
    obtain ⟨hnetwork, hrest⟩ := append_sep_inj (capital_notMem_field_colon lower _ (by decide))
      (capital_notMem_field_colon lower _ (by decide)) (List.append_cancel_left hlist)
    obtain ⟨htask, hgas⟩ := append_sep_inj (capital_notMem_field_colon lower _ (by decide))
      (capital_notMem_field_colon lower _ (by decide)) (List.append_cancel_left hrest)
    have hlimit := toDigits_injective (List.append_cancel_left hgas)
    exact ⟨String.toList_injective (List.append_cancel_right hnetwork),
      String.toList_injective (List.append_cancel_right htask), UInt32.toNat_inj.mp hlimit⟩
  · rintro ⟨hnetwork, htask, hgas⟩
    rw [canonicalKey, canonicalKey, hnetwork, htask, hgas]

end IntermediatePayload

end SereinGateway.Interfaces
