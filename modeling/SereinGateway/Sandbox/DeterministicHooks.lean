import Mathlib
import SereinGateway.Lib.Grouping
import SereinGateway.Lib.Text

/-!
The gate before the execution of a tool: a scan for prompt injections, then patterns
of destructive commands.

The scan folds the case of the payload and not that of the signatures, so a signature
with a capital letter never fires; it may have one only where another signature, in
small letters, occurs in it. The gate reports the matching pattern of the largest
`RiskClass as u8`, and the classes are declared from `Critical` down, so what it
reports is the least severe class.
-/

namespace SereinGateway.Sandbox

open SereinGateway.Lib

/-! ### The signatures -/

inductive InjectionCategory where
  | instructionOverride
  | systemEscape
  | roleManipulation
  | dataExfiltration
  | encodingEvasion
  deriving DecidableEq

structure WafSignatureEntry where
  pattern : String
  category : String

def parseCategory (lower : Lowercase) (cat : String) : InjectionCategory :=
  let cat := lower.apply cat
  if cat = "instruction_override" ∨ cat = "instructionoverride" then .instructionOverride
  else if cat = "system_escape" ∨ cat = "systemescape" then .systemEscape
  else if cat = "role_manipulation" ∨ cat = "rolemanipulation" then .roleManipulation
  else if cat = "data_exfiltration" ∨ cat = "dataexfiltration" then .dataExfiltration
  else if cat = "encoding_evasion" ∨ cat = "encodingevasion" then .encodingEvasion
  else .instructionOverride

def fallbackSignatures : List (String × InjectionCategory) :=
  [("ignore all previous instructions", .instructionOverride),
    ("ignore all prior instructions", .instructionOverride),
    ("ignore previous instructions", .instructionOverride),
    ("ignore the above instructions", .instructionOverride),
    ("disregard all previous", .instructionOverride),
    ("disregard the above", .instructionOverride),
    ("forget your instructions", .instructionOverride),
    ("forget all instructions", .instructionOverride),
    ("system override", .systemEscape),
    ("override system", .systemEscape),
    ("bypass safety", .systemEscape),
    ("bypass restrictions", .systemEscape),
    ("bypass filter", .systemEscape),
    ("bypass content filter", .systemEscape),
    ("disable safety", .systemEscape),
    ("disable your safety", .systemEscape),
    ("jailbreak", .systemEscape),
    ("you are now", .roleManipulation),
    ("you are no longer", .roleManipulation),
    ("pretend you are", .roleManipulation),
    ("act as if you are", .roleManipulation),
    ("act as", .roleManipulation),
    ("roleplay as", .roleManipulation),
    ("new instructions", .instructionOverride),
    ("new directive", .instructionOverride),
    ("reveal your prompt", .dataExfiltration),
    ("show your instructions", .dataExfiltration),
    ("show your system prompt", .dataExfiltration),
    ("output your instructions", .dataExfiltration),
    ("print your instructions", .dataExfiltration),
    ("what are your instructions", .dataExfiltration),
    ("reveal your system prompt", .dataExfiltration),
    ("base64 decode", .encodingEvasion),
    ("decode this base64", .encodingEvasion),
    ("rot13", .encodingEvasion),
    ("hex decode", .encodingEvasion),
    ("url decode", .encodingEvasion)]

/-- `RuleLoader::load_signatures`. The file is what reading and parsing it came to. -/
def loadSignatures (lower : Lowercase) (file : Except String (List WafSignatureEntry)) :
    List (String × InjectionCategory) :=
  match file with
  | .ok [] | .error _ => fallbackSignatures
  | .ok entries => entries.map fun e => (e.pattern, parseCategory lower e.category)

/-! ### The scan -/

/-- An Aho-Corasick automaton, given by the patterns that it finds in a text, in the
order of the matches. -/
structure AhoCorasick where
  findIter : List String → String → List ℕ
  sound : ∀ {patterns haystack i}, i ∈ findIter patterns haystack →
    ∃ p, patterns[i]? = some p ∧ p.toList <:+: haystack.toList
  complete : ∀ {patterns haystack p}, p ∈ patterns → p.toList <:+: haystack.toList →
    findIter patterns haystack ≠ []

structure WafViolation where
  signature : String
  category : InjectionCategory
  deriving DecidableEq

inductive WafResult where
  | clean
  | blocked (violation : WafViolation)
  deriving DecidableEq

structure PromptInjectionWaf where
  automaton : AhoCorasick
  signatureMap : List (String × InjectionCategory)

def toAsciiLowercase (s : String) : String := s.map Char.toLower

namespace PromptInjectionWaf

def new (automaton : AhoCorasick) (signatures : List (String × InjectionCategory)) :
    PromptInjectionWaf :=
  ⟨automaton, signatures⟩

def scan (waf : PromptInjectionWaf) (payload : String) : WafResult :=
  let lowerPayload := toAsciiLowercase payload
  let found := waf.automaton.findIter (waf.signatureMap.map Prod.fst) lowerPayload
  match found.findSome? (waf.signatureMap[·]?) with
  | some (signature, category) => .blocked ⟨signature, category⟩
  | none => .clean

end PromptInjectionWaf

/-! ### The patterns -/

/-- The classes in the order of their declaration. -/
inductive RiskClass where
  | critical
  | high
  | medium
  | low
  deriving DecidableEq

def RiskClass.asU8 : RiskClass → ℕ
  | critical => 0
  | high => 1
  | medium => 2
  | low => 3

inductive DestructivePattern where
  | fileDestruction
  | databaseDestruction
  | systemCompromise
  | networkExfiltration
  | privilegeEscalation
  | dataTampering
  | sandboxEscape
  | other (text : String)
  deriving DecidableEq

/-- A compiled pattern, with its entry in the pattern map. -/
structure DestructiveRule where
  isMatch : String → Bool
  pattern : DestructivePattern
  risk : RiskClass

inductive HookResult where
  | allowed (attestationToken : String)
  | blocked (patternMatched : DestructivePattern) (riskClass : RiskClass)
  deriving DecidableEq

structure PreToolUseHook where
  rules : List DestructiveRule
  waf : PromptInjectionWaf

namespace PreToolUseHook

/-- The rules that match. The source collects their indices. -/
def matching (hook : PreToolUseHook) (payload : String) : List DestructiveRule :=
  hook.rules.filter (·.isMatch payload)

/-- `evaluate`. The token has the clock and a random number in it. -/
def evaluate (hook : PreToolUseHook) (rawPayload : String) (nanos : ℕ) (random : UInt64) :
    HookResult :=
  match hook.waf.scan rawPayload with
  | .blocked violation => .blocked (.other ("PromptInjection: " ++ violation.signature)) .critical
  | .clean =>
      match maxByKey (·.risk.asU8) (hook.matching rawPayload) with
      | none => .allowed ("aegis_token_" ++ toString nanos ++ "_" ++ toString random)
      | some rule => .blocked rule.pattern rule.risk

end PreToolUseHook

/-! ### What the scan finds -/

def OccursIgnoringCase (signature payload : String) : Prop :=
  (toAsciiLowercase signature).toList <:+: (toAsciiLowercase payload).toList

section Scan

variable {waf : PromptInjectionWaf} {payload : String} {s p : String}

theorem toLower_idem (c : Char) : c.toLower.toLower = c.toLower := by
  rw [Char.toLower, dif_neg]
  have hlower := isUpper_toLower c
  simpa [Char.isUpper] using hlower

theorem occursIgnoringCase_of_occurs (h : s.toList <:+: (toAsciiLowercase payload).toList) :
    toAsciiLowercase s = s ∧ OccursIgnoringCase s payload := by
  have hsmall : toAsciiLowercase s = s := by
    apply String.toList_injective
    rw [toAsciiLowercase, String.toList_map]
    refine (List.map_congr_left fun c hc => ?_).trans (List.map_id _)
    obtain ⟨d, -, rfl⟩ := List.mem_map.mp (String.toList_map ▸ h.subset hc)
    exact toLower_idem d
  exact ⟨hsmall, by rwa [OccursIgnoringCase, hsmall]⟩

theorem scan_sound {v : WafViolation} (h : waf.scan payload = .blocked v) :
    (v.signature, v.category) ∈ waf.signatureMap ∧
      v.signature.toList <:+: (toAsciiLowercase payload).toList := by
  unfold PromptInjectionWaf.scan at h
  dsimp only at h
  split at h
  · rename_i signature category hfound
    obtain rfl := WafResult.blocked.inj h
    obtain ⟨i, hi, hget⟩ := List.exists_of_findSome?_eq_some hfound
    obtain ⟨q, hq, hoccurs⟩ := waf.automaton.sound hi
    rw [List.getElem?_map, hget] at hq
    obtain rfl := Option.some.inj hq
    exact ⟨List.mem_of_getElem? hget, hoccurs⟩
  · cases h

/-- And it reports one if there is one. -/
theorem scan_complete {e : String × InjectionCategory} (he : e ∈ waf.signatureMap)
    (hoccurs : e.1.toList <:+: (toAsciiLowercase payload).toList) : waf.scan payload ≠ .clean := by
  have hfind := waf.automaton.complete (List.mem_map_of_mem (f := Prod.fst) he) hoccurs
  obtain ⟨i, rest, hlist⟩ := List.exists_cons_of_ne_nil hfind
  obtain ⟨q, hq, -⟩ := waf.automaton.sound (hlist ▸ List.mem_cons_self)
  rw [List.getElem?_map] at hq
  obtain ⟨entry, hentry, -⟩ := Option.map_eq_some_iff.mp hq
  simp [PromptInjectionWaf.scan, hlist, hentry]

theorem scan_eq_clean_iff : waf.scan payload = .clean ↔
    ∀ e ∈ waf.signatureMap, ¬e.1.toList <:+: (toAsciiLowercase payload).toList := by
  constructor
  · intro hclean e he hoccurs
    exact scan_complete he hoccurs hclean
  · intro hnone
    cases hscan : waf.scan payload with
    | clean => rfl
    | blocked v =>
        obtain ⟨hmem, hoccurs⟩ := scan_sound hscan
        exact absurd hoccurs (hnone _ hmem)

end Scan

/-- The scan blocks a payload exactly if a signature occurs in it ignoring case, and
reports such a signature. -/
structure PromptInjectionWaf.Exact (waf : PromptInjectionWaf) (payload : String) : Prop where
  blocked_iff : waf.scan payload ≠ .clean ↔
    ∃ e ∈ waf.signatureMap, OccursIgnoringCase e.1 payload
  reported : ∀ v, waf.scan payload = .blocked v →
    (v.signature, v.category) ∈ waf.signatureMap ∧ OccursIgnoringCase v.signature payload

/-- The scan is exact for every payload exactly if each signature, written in small
letters, contains a signature that is written in small letters. -/
theorem scan_exact_iff (automaton : AhoCorasick) (lower : Lowercase)
    (file : Except String (List WafSignatureEntry)) :
    (∀ payload, (PromptInjectionWaf.new automaton (loadSignatures lower file)).Exact payload) ↔
      ∀ e ∈ loadSignatures lower file, ∃ e' ∈ loadSignatures lower file,
        toAsciiLowercase e'.1 = e'.1 ∧ e'.1.toList <:+: (toAsciiLowercase e.1).toList := by
  generalize loadSignatures lower file = signatures
  constructor
  · intro hexact e he
    have hoccurs : OccursIgnoringCase e.1 e.1 := List.infix_refl _
    have hblocked := (hexact e.1).blocked_iff.mpr ⟨e, he, hoccurs⟩
    cases hscan : (PromptInjectionWaf.new automaton signatures).scan e.1 with
    | clean => exact absurd hscan hblocked
    | blocked v =>
        obtain ⟨hmem, hfound⟩ := scan_sound hscan
        exact ⟨_, hmem, (occursIgnoringCase_of_occurs hfound).1, hfound⟩
  · intro hsmall payload
    refine ⟨⟨fun hblocked => ?_, ?_⟩, fun v hscan => ?_⟩
    · cases hscan : (PromptInjectionWaf.new automaton signatures).scan payload with
      | clean => exact absurd hscan hblocked
      | blocked v =>
          obtain ⟨hmem, hfound⟩ := scan_sound hscan
          exact ⟨_, hmem, (occursIgnoringCase_of_occurs hfound).2⟩
    · rintro ⟨e, he, hoccurs⟩
      obtain ⟨e', he', -, hfound⟩ := hsmall e he
      exact scan_complete he' (hfound.trans hoccurs)
    · obtain ⟨hmem, hfound⟩ := scan_sound hscan
      exact ⟨hmem, (occursIgnoringCase_of_occurs hfound).2⟩

/-- An automaton that tries the patterns one after the other. -/
def tryPatterns : AhoCorasick where
  findIter patterns haystack := (List.range patterns.length).filter fun i =>
    (patterns[i]?).any fun p => decide (p.toList <:+: haystack.toList)
  sound := by
    intro patterns haystack i hi
    have hany := (List.mem_filter.mp hi).2
    cases hp : patterns[i]? with
    | none => simp [hp] at hany
    | some p => exact ⟨p, rfl, by simpa [hp] using hany⟩
  complete := by
    intro patterns haystack p hp hfound hnil
    obtain ⟨i, hi, rfl⟩ := List.getElem_of_mem hp
    rw [List.filter_eq_nil_iff] at hnil
    refine hnil i (List.mem_range.mpr hi) ?_
    rw [List.getElem?_eq_getElem hi]
    exact decide_eq_true hfound

/-- A signature with a capital letter. -/
theorem capital_signature_never_fires :
    ¬∀ (automaton : AhoCorasick) (lower : Lowercase)
      (file : Except String (List WafSignatureEntry)) (payload : String),
      (PromptInjectionWaf.new automaton (loadSignatures lower file)).Exact payload := by
  intro hall
  have hexact := hall tryPatterns asciiLowercase (.ok [⟨"Jailbreak", "system_escape"⟩]) "Jailbreak"
  have hname := toList_of_eq_ofList (s := "Jailbreak") rfl
  have hblocked := hexact.blocked_iff.mpr ⟨_, List.mem_singleton_self _, List.infix_refl _⟩
  refine hblocked (scan_eq_clean_iff.mpr fun e he hfound => ?_)
  obtain rfl := List.mem_singleton.mp he
  rw [toAsciiLowercase, String.toList_map, hname] at hfound
  exact absurd hfound (by decide)

/-! ### What the gate reports -/

/-- How severe a class is. -/
def RiskClass.severity : RiskClass → ℕ
  | critical => 3
  | high => 2
  | medium => 1
  | low => 0

/-- The gate lets pass what nothing objects to, and reports the worst class. -/
structure PreToolUseHook.ReportsWorst (hook : PreToolUseHook) (payload : String)
    (result : HookResult) : Prop where
  allowed_iff : (∃ token, result = .allowed token) ↔
    hook.waf.scan payload = .clean ∧ hook.matching payload = []
  injection : ∀ v, hook.waf.scan payload = .blocked v →
    ∃ pattern, result = .blocked pattern .critical
  worst : ∀ pattern risk, hook.waf.scan payload = .clean → result = .blocked pattern risk →
    (∃ rule ∈ hook.matching payload, rule.risk = risk) ∧
      ∀ rule ∈ hook.matching payload, rule.risk.severity ≤ risk.severity

theorem RiskClass.asU8_add_severity (risk : RiskClass) : risk.asU8 + risk.severity = 3 := by
  cases risk <;> rfl

theorem RiskClass.severity_injective : Function.Injective RiskClass.severity := by
  intro a b h
  cases a <;> cases b <;> first | rfl | cases h

/-- The gate reports the worst class exactly if the scan finds something or the
patterns that match have one class. -/
theorem evaluate_reports_worst_iff (hook : PreToolUseHook) (payload : String) (nanos : ℕ)
    (random : UInt64) :
    hook.ReportsWorst payload (hook.evaluate payload nanos random) ↔
      hook.waf.scan payload ≠ .clean ∨
        ∀ rule ∈ hook.matching payload, ∀ rule' ∈ hook.matching payload,
          rule.risk = rule'.risk := by
  cases hscan : hook.waf.scan payload with
  | blocked v =>
      refine iff_of_true ⟨?_, ?_, ?_⟩ (.inl (by simp))
      · simp [PreToolUseHook.evaluate, hscan]
      · intro v' _
        exact ⟨_, by rw [PreToolUseHook.evaluate, hscan]⟩
      · intro pattern risk hclean
        rw [hscan] at hclean
        cases hclean
  | clean =>
      simp only [ne_eq, not_true_eq_false, false_or]
      cases hmax : maxByKey (·.risk.asU8) (hook.matching payload) with
      | none =>
          have hnil := maxByKey_eq_none.mp hmax
          have hresult : hook.evaluate payload nanos random =
              .allowed ("aegis_token_" ++ toString nanos ++ "_" ++ toString random) := by
            simp only [PreToolUseHook.evaluate, hscan, hmax]
          rw [hresult]
          refine iff_of_true ⟨?_, ?_, ?_⟩ (by simp [hnil])
          · exact iff_of_true ⟨_, rfl⟩ ⟨hscan, hnil⟩
          · intro v hv
            rw [hscan] at hv
            cases hv
          · intro pattern risk _ hblocked
            cases hblocked
      | some rule =>
          have hmem := maxByKey_mem hmax
          have hge := maxByKey_ge hmax
          have hresult : hook.evaluate payload nanos random = .blocked rule.pattern rule.risk := by
            simp only [PreToolUseHook.evaluate, hscan, hmax]
          rw [hresult]
          constructor
          · intro hworst
            have hleast : ∀ r ∈ hook.matching payload, r.risk = rule.risk := by
              intro r hr
              have hsevere := (hworst.worst _ _ hscan rfl).2 r hr
              have hcast := hge r hr
              have hsum := r.risk.asU8_add_severity
              have hsum' := rule.risk.asU8_add_severity
              exact RiskClass.severity_injective (by omega)
            intro r hr r' hr'
            rw [hleast r hr, hleast r' hr']
          · intro hsame
            refine ⟨?_, ?_, ?_⟩
            · have hne : hook.matching payload ≠ [] := List.ne_nil_of_mem hmem
              simp [hne]
            · intro v hv
              rw [hscan] at hv
              cases hv
            · intro pattern risk _ hblocked
              obtain ⟨rfl, rfl⟩ := HookResult.blocked.inj hblocked
              refine ⟨⟨rule, hmem, rfl⟩, fun r hr => ?_⟩
              rw [hsame r hr rule hmem]

/-- A payload that a critical pattern and a medium one match. -/
theorem medium_hides_critical :
    ¬∀ (hook : PreToolUseHook) (payload : String) (nanos : ℕ) (random : UInt64),
      hook.ReportsWorst payload (hook.evaluate payload nanos random) := by
  intro hall
  have hworst := hall ⟨[⟨fun _ => true, .fileDestruction, .critical⟩,
    ⟨fun _ => true, .dataTampering, .medium⟩], .new tryPatterns []⟩ "shred --force" 0 0
  have hclean : (PromptInjectionWaf.new tryPatterns []).scan "shred --force" = .clean :=
    scan_eq_clean_iff.mpr (by simp [PromptInjectionWaf.new])
  have hsevere := (hworst.worst .dataTampering .medium hclean (by
    simp only [PreToolUseHook.evaluate, hclean]
    rfl)).2 _ List.mem_cons_self
  exact absurd hsevere (by decide)

end SereinGateway.Sandbox
