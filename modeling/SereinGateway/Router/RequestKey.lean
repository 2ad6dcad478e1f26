import SereinGateway.Interfaces.Payload

/-!
`compute_request_canonical_key`: the key under which a request is
deduplicated and cached.

The tenant id is spliced between colons without escaping. It can still be
read back: whatever follows it is either a payload key, whose only `N` is its
first character and whose last colon is at most ten characters from the end,
or a digest of fixed length without a colon. No such body ends another one
after a colon (`not_body_append_body`), so a tenant id can not swallow the
beginning of a body.
-/

namespace SereinGateway.Router

open SereinGateway.Lib SereinGateway.Interfaces

/-- What request keys are computed with. -/
structure KeyDeps where
  parser : PayloadParser
  lower : Lowercase
  sha256 : ByteArray → Vector UInt8 32

namespace KeyDeps

variable (deps : KeyDeps)

/-- The part of the key that depends on the prompt. -/
def promptKey (prompt : String) : String :=
  match IntermediatePayload.fromLlmOutput deps.parser prompt with
  | .ok payload => payload.canonicalKey deps.lower
  | .error _ => "sha256:" ++ hexEncode (deps.sha256 prompt.toByteArray).toList

def computeRequestCanonicalKey (tenantId prompt : String) : String :=
  "tenant:" ++ tenantId ++ ":" ++ deps.promptKey prompt

end KeyDeps

/-! ### Bodies of keys -/

/-- What can follow the tenant id: a payload key or a digest. -/
inductive KeyBody (lower : Lowercase) : List Char → Prop
  | payload (p : IntermediatePayload) : KeyBody lower (p.canonicalKey lower).toList
  | digest (d : Vector UInt8 32) : KeyBody lower ("sha256:" ++ hexEncode d.toList).toList

theorem KeyDeps.keyBody_promptKey (deps : KeyDeps) (prompt : String) :
    KeyBody deps.lower (deps.promptKey prompt).toList := by
  rw [KeyDeps.promptKey]
  split
  · exact .payload _
  · exact .digest _

theorem not_mem_lowered (lower : Lowercase) (s : String) : 'N' ∉ (trim (lower.apply s)).toList := by
  intro h
  have hcap := lower.no_capital s 'N' (mem_of_mem_trim h)
  revert hcap
  decide

theorem KeyBody.not_mem_tail {lower : Lowercase} {b : List Char} (h : KeyBody lower b) :
    'N' ∉ b.tail := by
  cases h with
  | payload p =>
      have hdigits : 'N' ∉ Nat.toDigits 10 p.maxGasLimit.toNat := by
        intro h
        have hdigit := Nat.isDigit_of_mem_toDigits (by omega) (by omega) h
        revert hdigit
        decide
      rw [toList_canonicalKey]
      simp [not_mem_lowered, hdigits]
  | digest d =>
      have hhex := not_mem_hexEncode d.toList (c := 'N') (.inr (by decide))
      rw [String.toList_append]
      simp [hhex]

theorem exists_colon_suffix (lower : Lowercase) (p : IntermediatePayload) :
    ∃ digits : List Char, ':' :: digits <:+ (p.canonicalKey lower).toList ∧ digits.length ≤ 10 := by
  refine ⟨Nat.toDigits 10 p.maxGasLimit.toNat, ?_, length_toDigits_le _⟩
  refine ⟨'N' :: "ETWORK:".toList ++ (trim (lower.apply p.networkId)).toList ++ ":TASK:".toList ++
    (trim (lower.apply p.taskType)).toList ++ ":GAS".toList, ?_⟩
  rw [toList_canonicalKey]
  simp

theorem length_digestBody (d : Vector UInt8 32) :
    ("sha256:" ++ hexEncode d.toList).toList.length = 71 := by
  rw [String.toList_append, List.length_append, length_hexEncode, Vector.length_toList]
  rfl

theorem not_body_append_body {lower : Lowercase} {a b₁ b₂ : List Char} (h₁ : KeyBody lower b₁)
    (h₂ : KeyBody lower b₂) : b₁ ≠ a ++ ':' :: b₂ := by
  rintro rfl
  cases h₂ with
  | payload p =>
      apply h₁.not_mem_tail
      rw [toList_canonicalKey]
      cases a with
      | nil => simp
      | cons c a => simp
  | digest d =>
      generalize hb : a ++ ':' :: ("sha256:" ++ hexEncode d.toList).toList = b at h₁
      cases h₁ with
      | payload p =>
          -- Both the colon before the gas limit and the digest end the key.
          obtain ⟨digits, hsuffix, hlen⟩ := exists_colon_suffix lower p
          have hhex : (hexEncode d.toList).toList <:+ (p.canonicalKey lower).toList := by
            rw [← hb, String.toList_append]
            exact ⟨a ++ ':' :: "sha256:".toList, by simp⟩
          have hle : (':' :: digits).length ≤ (hexEncode d.toList).toList.length := by
            rw [length_hexEncode, Vector.length_toList, List.length_cons]
            omega
          have hin := List.suffix_of_suffix_length_le hsuffix hhex hle
          exact not_mem_hexEncode d.toList (.inl rfl) (hin.subset List.mem_cons_self)
      | digest d' =>
          have hlen := congrArg List.length hb
          rw [List.length_append, List.length_cons, length_digestBody, length_digestBody] at hlen
          omega

theorem tenant_eq_of_append {lower : Lowercase} {t₁ t₂ b₁ b₂ : List Char}
    (h₁ : KeyBody lower b₁) (h₂ : KeyBody lower b₂) (h : t₁ ++ ':' :: b₁ = t₂ ++ ':' :: b₂) :
    t₁ = t₂ := by
  have hside : ∀ {s t c d : List Char}, KeyBody lower c → KeyBody lower d →
      (∃ a, t = s ++ a ∧ ':' :: c = a ++ ':' :: d) → s = t := by
    rintro s t c d hc hd ⟨a, rfl, heq⟩
    cases a with
    | nil => simp
    | cons x a =>
        rw [List.cons_append, List.cons.injEq] at heq
        exact absurd heq.2 (not_body_append_body hc hd)
  rcases List.append_eq_append_iff.mp h with hleft | ⟨a, ht, heq⟩
  · exact hside h₁ h₂ hleft
  · exact (hside h₂ h₁ ⟨a, ht, heq⟩).symm

/-! ### Tenant isolation -/

/-- Equal request keys have equal tenants; and when neither prompt parses as
a payload and SHA-256 does not confuse the two prompts, equal prompts. -/
theorem KeyDeps.computeRequestCanonicalKey_inj (deps : KeyDeps) (t₁ t₂ p₁ p₂ : String)
    (h : deps.computeRequestCanonicalKey t₁ p₁ = deps.computeRequestCanonicalKey t₂ p₂) :
    t₁ = t₂ ∧
      ∀ e₁ e₂, IntermediatePayload.fromLlmOutput deps.parser p₁ = .error e₁ →
        IntermediatePayload.fromLlmOutput deps.parser p₂ = .error e₂ →
        Distinguishes deps.sha256 p₁.toByteArray p₂.toByteArray → p₁ = p₂ := by
  have hlist : t₁.toList ++ ':' :: (deps.promptKey p₁).toList =
      t₂.toList ++ ':' :: (deps.promptKey p₂).toList := by
    have hkey := congrArg String.toList h
    simpa [KeyDeps.computeRequestCanonicalKey, String.toList_append] using hkey
  have ht := tenant_eq_of_append (deps.keyBody_promptKey p₁) (deps.keyBody_promptKey p₂) hlist
  refine ⟨String.toList_injective ht, ?_⟩
  intro e₁ e₂ he₁ he₂ hsha
  rw [ht] at hlist
  have hbody := List.append_cancel_left hlist
  rw [List.cons.injEq, String.toList_inj, KeyDeps.promptKey, KeyDeps.promptKey, he₁, he₂] at hbody
  have hhex : hexEncode (deps.sha256 p₁.toByteArray).toList =
      hexEncode (deps.sha256 p₂.toByteArray).toList := by
    have := congrArg String.toList hbody.2
    simp only [String.toList_append] at this
    exact String.toList_injective (List.append_cancel_left this)
  exact String.toByteArray_inj.mp (hsha (Vector.toList_inj.mp (hexEncode_injective hhex)))

/-- A request for a swap, with the network spelled as given. -/
def swapPrompt (network : String) : String :=
  "\x7b\"network_id\":\"" ++ network ++ "\",\"task_type\":\"SWAP\",\"max_gas_limit\":21000," ++
    "\"confidence_score\":1,\"source_url\":\"\"\x7d"

/-- A swap request is an object whose text holds the network once. -/
theorem toList_swapPrompt (network : String) :
    ∃ front back, (swapPrompt network).toList =
        '\x7b' :: (front ++ network.toList ++ back ++ ['\x7d']) ∧ '`' ∉ front ∧ '`' ∉ back := by
  refine ⟨"\"network_id\":\"".toList, ("\",\"task_type\":\"SWAP\",\"max_gas_limit\":21000," ++
    "\"confidence_score\":1,\"source_url\":\"\"").toList, ?_, ?_, ?_⟩
  -- A literal is `String.ofList` of its characters, so its list need not be decoded.
  · unfold swapPrompt
    simp only [String.toList_append]
    rw [String.toList_ofList, String.toList_ofList, String.toList_ofList, String.toList_ofList,
      String.toList_ofList]
    simp only [List.cons_append, List.nil_append, List.append_assoc]
  · rw [String.toList_ofList]
    decide
  · rw [String.toList_append, String.toList_ofList, String.toList_ofList]
    decide

theorem not_mem_swapPrompt {network : String} (h : '`' ∉ network.toList) :
    '`' ∉ (swapPrompt network).toList := by
  obtain ⟨front, back, heq, hfront, hback⟩ := toList_swapPrompt network
  rw [heq]
  simp [hfront, h, hback]

theorem trim_swapPrompt (network : String) : trim (swapPrompt network) = swapPrompt network := by
  obtain ⟨front, back, heq, -, -⟩ := toList_swapPrompt network
  exact trim_eq_self heq rfl rfl

theorem swapPrompt_ne_empty (network : String) : swapPrompt network ≠ "" := by
  intro h
  obtain ⟨front, back, heq, -, -⟩ := toList_swapPrompt network
  rw [h] at heq
  simp at heq

theorem swapPrompt_eth_ne : swapPrompt "eth " ≠ swapPrompt "ETH" := by
  intro h
  have hlist := congrArg String.toList h
  unfold swapPrompt at hlist
  simp only [String.toList_append] at hlist
  rw [String.toList_ofList, String.toList_ofList, String.toList_ofList, String.toList_ofList,
    String.toList_ofList] at hlist
  revert hlist
  decide

/-- Both parsers as they act on two spellings of one request. -/
def swapDeps : KeyDeps where
  parser :=
    { simdJson := fun bytes =>
        if bytes = (swapPrompt "ETH").toByteArray then
          (bytes, some ⟨"ETH", "SWAP", 21000, 1, ""⟩)
        else if bytes = (swapPrompt "eth ").toByteArray then
          (bytes, some ⟨"eth ", "SWAP", 21000, 1, ""⟩)
        else (bytes, none)
      fromUtf8Lossy := fun bytes => (String.fromUTF8? bytes).getD ""
      serdeJson := fun _ => .error "expected value at line 1 column 1" }
  lower := asciiLowercase
  sha256 _ := Vector.replicate 32 0

theorem fromLlmOutput_swap :
    IntermediatePayload.fromLlmOutput swapDeps.parser (swapPrompt "ETH") =
      .ok ⟨"ETH", "SWAP", 21000, 1, ""⟩ := by
  refine IntermediatePayload.fromLlmOutput_of_simdJson (not_mem_swapPrompt ?_)
    (trim_swapPrompt "ETH") ?_
  · rw [String.toList_ofList]
    decide
  · unfold swapDeps
    exact congrArg Prod.snd (if_pos rfl)

theorem fromLlmOutput_swap_lower :
    IntermediatePayload.fromLlmOutput swapDeps.parser (swapPrompt "eth ") =
      .ok ⟨"eth ", "SWAP", 21000, 1, ""⟩ := by
  have hne : (swapPrompt "eth ").toByteArray ≠ (swapPrompt "ETH").toByteArray :=
    fun h => swapPrompt_eth_ne (String.toByteArray_inj.mp h)
  refine IntermediatePayload.fromLlmOutput_of_simdJson (not_mem_swapPrompt ?_)
    (trim_swapPrompt "eth ") ?_
  · rw [String.toList_ofList]
    decide
  · unfold swapDeps
    exact congrArg Prod.snd ((if_neg hne).trans (if_pos rfl))

/-- Other texts are no payload for these parsers. -/
theorem simdJson_of_ne {raw : String} (h : ∀ network, raw ≠ swapPrompt network) :
    swapDeps.parser.simdJson raw.toByteArray = (raw.toByteArray, none) := by
  have hne : ∀ network, raw.toByteArray ≠ (swapPrompt network).toByteArray :=
    fun network heq => h network (String.toByteArray_inj.mp heq)
  unfold swapDeps
  dsimp only
  rw [if_neg (hne "ETH"), if_neg (hne "eth ")]

theorem KeyDeps.computeRequestCanonicalKey_inj_swap : ∃ t₁ t₂,
    swapDeps.computeRequestCanonicalKey t₁ (swapPrompt "ETH") =
        "tenant:acme:NETWORK:eth:TASK:swap:GAS:21000" ∧
      swapDeps.computeRequestCanonicalKey t₂ (swapPrompt "eth ") =
        "tenant:acme:NETWORK:eth:TASK:swap:GAS:21000" ∧
      swapPrompt "eth " ≠ swapPrompt "ETH" ∧ t₁ = t₂ := by
  have hkey : swapDeps.computeRequestCanonicalKey "acme" (swapPrompt "ETH") =
      "tenant:acme:NETWORK:eth:TASK:swap:GAS:21000" := by
    rw [KeyDeps.computeRequestCanonicalKey, KeyDeps.promptKey, fromLlmOutput_swap]
    decide +kernel
  have hlower : swapDeps.computeRequestCanonicalKey "acme" (swapPrompt "eth ") =
      "tenant:acme:NETWORK:eth:TASK:swap:GAS:21000" := by
    rw [KeyDeps.computeRequestCanonicalKey, KeyDeps.promptKey, fromLlmOutput_swap_lower]
    decide +kernel
  exact ⟨"acme", "acme", hkey, hlower, swapPrompt_eth_ne,
    (KeyDeps.computeRequestCanonicalKey_inj swapDeps "acme" "acme" (swapPrompt "ETH")
      (swapPrompt "eth ") (hkey.trans hlower.symm)).1⟩

end SereinGateway.Router
