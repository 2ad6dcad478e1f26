import Mathlib
import SereinGateway.Gateway.Billing
import SereinGateway.Worker.RestoredPayload

/-!
The answer to an agent execution, after the un-masking.

Providers see a masked prompt and are voted on by their masked answers. The
router restores the text of the winner, and the handler parses this text. An
answer 200 without a payload is therefore possible: what stands for a
placeholder may have a line break, and a line break may not stand in a JSON
string.
-/

namespace SereinGateway.Gateway

open SereinGateway.Lib SereinGateway.Lib.JsonText SereinGateway.Consensus SereinGateway.Interfaces
open SereinGateway.Worker SereinGateway.Router

/-! ### The end of `handle_agent_execution` -/

structure TmrConsensus where
  result : String
  agreeingNodes : UInt8
  totalNodes : UInt8
  adjudicationLogic : String
  deriving DecidableEq

/-- How the handler answers; the receipt of an answer 200 is left out. -/
inductive ExecutionAnswer where
  | error (status : ℕ) (error code : String)
  | ok (consensus : TmrConsensus) (payload : Option IntermediatePayload) (tenantId : String)

def consensusPayload (parser : PayloadParser) (result : TmrConsensusResult) :
    Option IntermediatePayload :=
  result.majorityOutput.bind fun output =>
    (IntermediatePayload.fromLlmOutput parser output).toOption

def reportedConsensus (result : TmrConsensusResult) (adjudicatedJson : String) : TmrConsensus where
  result := adjudicatedJson
  agreeingNodes := .ofNat result.agreementCount
  totalNodes := .ofNat result.totalNodes
  adjudicationLogic :=
    if result.fallbackActivated then "canonical_key_majority_with_fallback"
    else "canonical_key_majority"

/-- `handle_agent_execution` once the router has returned. -/
def answerResult (parser : PayloadParser) (toJson : IntermediatePayload → Option String)
    (tenantId : String) (result : TmrConsensusResult) : ExecutionAnswer :=
  if result.consensusAchieved then
    match consensusPayload parser result with
    -- Without a payload the answer is 200 all the same, with an empty result.
    | none => .ok (reportedConsensus result "") none tenantId
    | some p =>
        match toJson p with
        | some json => .ok (reportedConsensus result json) (some p) tenantId
        | none => .error 500 "Internal serialization failure" "SERIALIZATION_FAILED"
  else
    .error 409 ("TMR consensus failed: no majority agreement among " ++
      toString (UInt8.ofNat result.totalNodes) ++ " providers") "CONSENSUS_FAILED"

theorem payload_of_answer {parser : PayloadParser} {toJson : IntermediatePayload → Option String}
    {tenantId : String} {result : TmrConsensusResult} {consensus : TmrConsensus}
    {payload : Option IntermediatePayload} {tenantId' : String}
    (h : answerResult parser toJson tenantId result = .ok consensus payload tenantId') :
    payload = consensusPayload parser result := by
  unfold answerResult at h
  split at h
  · cases hpayload : consensusPayload parser result with
    | none =>
        rw [hpayload] at h
        cases h
        rfl
    | some p =>
        simp only [hpayload] at h
        split at h
        · cases h
          rfl
        · cases h
  · cases h

/-! ### Un-masking the winner -/

/-- The result of the router for a winner. -/
def unmaskedResult (orch : TmrOrchestrator) (round : ProviderRound) (elapsedMs : UInt64)
    (iter : Shuffle (Σ _ : String, String)) (map : MaskingMap) (won : ConsensusResult) :
    TmrConsensusResult :=
  TmrOrchestrator.restoreOutput iter (some map)
    (orch.handleConsensusSuccess won (orch.nodeResults round) elapsedMs)

theorem consensusPayload_unmasked {parser : PayloadParser} {orch : TmrOrchestrator}
    {round : ProviderRound} {elapsedMs : UInt64} {iter : Shuffle (Σ _ : String, String)}
    {map : MaskingMap} {won : ConsensusResult} :
    consensusPayload parser (unmaskedResult orch round elapsedMs iter map won) =
      (IntermediatePayload.fromLlmOutput parser (restore iter won.content map)).toOption := rfl

/-- Un-masking keeps the answer: the restored text parses to the restored
payload, and an answer 200 carries it. -/
def KeepsAnswer (parser : PayloadParser) (orch : TmrOrchestrator)
    (iter : Shuffle (Σ _ : String, String)) (map : MaskingMap) (won : ConsensusResult)
    (p : IntermediatePayload) : Prop :=
  IntermediatePayload.fromLlmOutput parser (restore iter won.content map) =
      .ok (restorePayload iter map p) ∧
    ∀ round elapsedMs toJson tenantId consensus payload tenantId',
      answerResult parser toJson tenantId (unmaskedResult orch round elapsedMs iter map won) =
        .ok consensus payload tenantId' → payload = some (restorePayload iter map p)

section Winners

variable {parser : PayloadParser} {ds : Dialects} {iter : Shuffle (Σ _ : String, String)}
variable {map : MaskingMap} {won : ConsensusResult} {p : IntermediatePayload}

theorem keepsAnswer_iff (orch : TmrOrchestrator) :
    KeepsAnswer parser orch iter map won p ↔
      IntermediatePayload.fromLlmOutput parser (restore iter won.content map) =
        .ok (restorePayload iter map p) := by
  refine ⟨fun h => h.1, fun h => ⟨h, ?_⟩⟩
  intro round elapsedMs toJson tenantId consensus payload tenantId' hanswer
  rw [payload_of_answer hanswer, consensusPayload_unmasked, h]
  rfl

end Winners

/-- A winner parses: an answer that does not parse has no vote key. -/
theorem parses_of_won {orch : TmrOrchestrator} {deps : RouterDeps} {round : ProviderRound}
    {won : ConsensusResult} (h : orch.adjudicate deps round = some (.consensus won)) :
    ∃ p, IntermediatePayload.fromLlmOutput deps.parser won.content = .ok p := by
  obtain ⟨-, key, heval⟩ := TmrOrchestrator.evaluate_of_consensus h
  obtain ⟨-, hfrom, -⟩ := TmrConsensusEngine.evaluateKeyed_ok heval
  obtain ⟨r, hr, hcontent⟩ := hfrom.content
  obtain ⟨hkey, i, hi, durationMs, houtcome⟩ :=
    TmrOrchestrator.exists_agreeing_of_vote orch deps round hr
  have hvote : deps.voteKey won.content = key := by
    rw [hcontent]
    simpa [TmrOrchestrator.agreeing, houtcome, ProviderOutcome.votesFor] using
      (Finset.mem_filter.mp hi).2
  cases hparsed : IntermediatePayload.fromLlmOutput deps.parser won.content with
  | ok p => exact ⟨p, rfl⟩
  | error e =>
      rw [RouterDeps.voteKey, hparsed] at hvote
      exact absurd hvote.symm hkey

/-- A dispatch that does not end in the fallback un-masks a winner that
parses, and keeps its answer exactly if it is restorable. -/
theorem dispatch_keeps_answer {orch : TmrOrchestrator} {deps : RouterDeps} {env : DispatchEnv}
    {req : ProviderRequest} {res : TmrConsensusResult} {nd : DigitClass} {ds : Dialects}
    (hpats : deps.patterns.FollowPattern nd) (hjson : deps.parser.ReadsJson ds)
    (hres : orch.dispatchConsensusInner deps env req = some res)
    (hfallback : res.fallbackActivated = false) :
    ∃ won p, IntermediatePayload.fromLlmOutput deps.parser won.content = .ok p ∧
      res = unmaskedResult orch env.round env.elapsedMs env.restoreOrder
        (deps.patterns.mask env.counter req.prompt).2.map won ∧
      (ds.ReadAsItStands (sanitizeLlmResponse won.content).toList →
        (KeepsAnswer deps.parser orch env.restoreOrder
            (deps.patterns.mask env.counter req.prompt).2.map won p ↔
          Restorable ds
            (entriesIn env.restoreOrder (deps.patterns.mask env.counter req.prompt).2.map)
            (sanitizeLlmResponse won.content).toList)) := by
  obtain ⟨won, hwon, -⟩ := consensus_of_dispatch hres hfallback
  obtain ⟨p, hp⟩ := parses_of_won hwon
  refine ⟨won, p, hp, ?_, fun hread => ?_⟩
  · rw [TmrOrchestrator.dispatchConsensusInner, hwon, Option.map_some, Option.some.injEq] at hres
    exact hres.symm
  · have hmask := deps.patterns.masks_mask env.counter req.prompt
    rw [keepsAnswer_iff]
    exact fromLlmOutput_restore_iff hjson (hmask.issued hpats env.restoreOrder) hp hread

/-- Un-masking keeps the answer of a winner exactly if the answer is
restorable. -/
theorem keeps_answer_iff_restorable {pats : PiiPatterns} {nd : DigitClass}
    (hpats : pats.FollowPattern nd) {parser : PayloadParser} {ds : Dialects}
    (hjson : parser.ReadsJson ds) {prompt : String} {m : Masking}
    (hmask : pats.Masks (pats.segments prompt) .start m) (iter : Shuffle (Σ _ : String, String))
    (orch : TmrOrchestrator) {won : ConsensusResult} {p : IntermediatePayload}
    (hwon : IntermediatePayload.fromLlmOutput parser won.content = .ok p)
    (hread : ds.ReadAsItStands (sanitizeLlmResponse won.content).toList) :
    KeepsAnswer parser orch iter m.map won p ↔
      Restorable ds (entriesIn iter m.map) (sanitizeLlmResponse won.content).toList := by
  rw [keepsAnswer_iff]
  exact fromLlmOutput_restore_iff hjson (hmask.issued hpats iter) hwon hread

/-! ### A telephone number as task type -/

def asciiDigits : DigitClass where
  mem c := c.isDigit = true
  ascii _ _ := Iff.rfl
  not_space _ := not_space_of_isDigit

def phoneNumber (sep : Char) : String := .ofList ['5', '5', '5', sep, '1', '2', '3', '4']

theorem mem_digits {nd : DigitClass} {w : List Char} (h : ∀ c ∈ w, nd.mem c) :
    w ∈ digits nd w.length := by
  induction w with
  | nil => exact Set.mem_singleton []
  | cons c w ih =>
      rw [List.length_cons, digits, pow_succ']
      exact ⟨[c], ⟨c, h c List.mem_cons_self, rfl⟩, w,
        ih fun d hd => h d (List.mem_cons_of_mem c hd), rfl⟩

theorem phoneNumber_mem {sep : Char} (hsep : isWhitespace sep = true) :
    (phoneNumber sep).toList ∈ piiPattern asciiDigits := by
  have hdigits : ∀ c : Char, c.isDigit = true → asciiDigits.mem c := fun c hc => hc
  have hfirst : ['5', '5', '5'] ∈ digits asciiDigits 3 :=
    mem_digits (w := ['5', '5', '5']) fun c hc => hdigits c (List.all_eq_true.mp rfl c hc)
  have hsecond : ['1', '2', '3', '4'] ∈ digits asciiDigits 4 :=
    mem_digits (w := ['1', '2', '3', '4']) fun c hc =>
      hdigits c (List.all_eq_true.mp rfl c hc)
  have hseparator : [sep] ∈ phoneSeparator := .inl ⟨sep, .inr (.inr hsep), rfl⟩
  have hnumber : ['5', '5', '5', sep, '1', '2', '3', '4'] ∈ phonePattern asciiDigits :=
    ⟨[], .inr rfl, _, ⟨[], .inr rfl, _, ⟨_, hfirst, _, ⟨_, hseparator, _, hsecond, rfl⟩, rfl⟩,
      rfl⟩, rfl⟩
  rw [phoneNumber, String.toList_ofList]
  exact .inr hnumber

/-- The prompt of an agent execution around the two places of its task type. -/
def promptParts : String × String × String :=
  ("You are a deterministic Web3 agent execution engine. Extract execution parameters for network \"" ++
    "ethereum" ++ "\" and task type \"",
   "\".\nRespond ONLY with a JSON object matching this exact schema:\n\x7b\n  \"networkId\": \"" ++
    "ethereum" ++ "\",\n  \"taskType\": \"",
   "\",\n  \"maxGasLimit\": <integer: estimated max gas limit, or 0 if unknown>,\n" ++
    "  \"confidenceScore\": <float: 0.0 to 1.0 representing certainty>,\n" ++
    "  \"sourceUrl\": \"<string: official data source URL or 'unknown'>\"\n\x7d\n" ++
    "No explanation, no markdown fences, just the JSON object.")

theorem append_parts (a b c d e f g h k l m n : String) :
    a ++ b ++ c ++ d ++ e ++ f ++ g ++ h ++ k ++ l ++ m ++ n =
      (a ++ b ++ c) ++ d ++ (e ++ f ++ g) ++ h ++ (k ++ l ++ m ++ n) := by
  simp only [String.append_assoc]

theorem executionPrompt_eq (taskType : String) :
    executionPrompt "ethereum" taskType =
      promptParts.1 ++ taskType ++ promptParts.2.1 ++ taskType ++ promptParts.2.2 :=
  append_parts ..

def cutPrompt (taskType s : String) : List Segment :=
  if s = executionPrompt "ethereum" taskType then
    [.plain promptParts.1, .pii taskType, .plain promptParts.2.1, .pii taskType,
      .plain promptParts.2.2]
  else [.plain s]

theorem cutPrompt_prompt (taskType : String) :
    cutPrompt taskType (executionPrompt "ethereum" taskType) =
      [.plain promptParts.1, .pii taskType, .plain promptParts.2.1, .pii taskType,
        .plain promptParts.2.2] := by
  rw [cutPrompt, if_pos rfl]

theorem cutPrompt_of_ne {taskType s : String} (h : s ≠ executionPrompt "ethereum" taskType) :
    cutPrompt taskType s = [.plain s] := by
  rw [cutPrompt, if_neg h]

theorem join_cutPrompt (taskType s : String) :
    String.join ((cutPrompt taskType s).map Segment.text) = s := by
  by_cases h : s = executionPrompt "ethereum" taskType
  · rw [h, cutPrompt_prompt, executionPrompt_eq]
    simp only [List.map_cons, List.map_nil, Segment.text, String.join, List.foldl_cons,
      List.foldl_nil, String.empty_append]
  · rw [cutPrompt_of_ne h]
    simp only [List.map_cons, List.map_nil, Segment.text, String.join, List.foldl_cons,
      List.foldl_nil, String.empty_append]

/-- The patterns on a prompt in which only the task type is a match. -/
def taskTypePatterns (taskType : String) : PiiPatterns where
  segments := cutPrompt taskType
  segments_text := join_cutPrompt taskType
  email _ := false
  financial _ := false
  identity _ := false
  phone _ := true

theorem followPattern_taskType {sep : Char} (hsep : isWhitespace sep = true) :
    (taskTypePatterns (phoneNumber sep)).FollowPattern asciiDigits := by
  intro text matched h
  replace h : .pii matched ∈ cutPrompt (phoneNumber sep) text := h
  have hmatched : matched = phoneNumber sep := by
    by_cases htext : text = executionPrompt "ethereum" (phoneNumber sep)
    · rw [htext, cutPrompt_prompt] at h
      simpa using h
    · rw [cutPrompt_of_ne htext] at h
      simp at h
  rw [hmatched]
  exact phoneNumber_mem hsep

def taskTypeMasking (taskType : String) : Masking :=
  ((taskTypePatterns taskType).mask 0 (executionPrompt "ethereum" taskType)).2

theorem masks_taskType (taskType : String) :
    (taskTypePatterns taskType).Masks
      ((taskTypePatterns taskType).segments (executionPrompt "ethereum" taskType)) .start
      (taskTypeMasking taskType) := by
  rw [taskTypeMasking]
  exact (taskTypePatterns taskType).masks_mask 0 _

theorem entries_taskTypeMasking (taskType : String) :
    entriesIn .id (taskTypeMasking taskType).map =
      [("[MASKED_PHONE_1]".toList, taskType.toList),
        ("[MASKED_PHONE_0]".toList, taskType.toList)] := by
  have hzero : placeholder .phone 0 = "[MASKED_PHONE_0]" := by decide
  have hone : placeholder .phone (0 + 1) = "[MASKED_PHONE_1]" := by decide
  have hne : "[MASKED_PHONE_0]" ≠ "[MASKED_PHONE_1]" := by decide
  have hmap : (taskTypeMasking taskType).map =
      (AList.insert (placeholder .phone (0 + 1)) taskType
        (AList.insert (placeholder .phone 0) taskType ∅)) := by
    have hsegments : (taskTypePatterns taskType).segments = cutPrompt taskType := rfl
    have hclass : (taskTypePatterns taskType).classifyPii taskType = .phone := rfl
    rw [taskTypeMasking, PiiPatterns.mask, hsegments, cutPrompt_prompt]
    simp only [List.foldl_cons, List.foldl_nil, PiiPatterns.maskSegment, hclass, Masking.start]
  rw [hmap, hzero, hone, entriesIn, Shuffle.id, AList.entries_insert_of_notMem,
    AList.entries_insert_of_notMem (AList.notMem_empty _)]
  · rfl
  · rw [AList.mem_insert]
    exact not_or.mpr ⟨hne.symm, AList.notMem_empty _⟩

/-! ### Parsers of plain numbers -/

def decimal (digits : List Char) : ℕ := digits.foldl (fun n c => 10 * n + (c.toNat - 48)) 0

def plainDialect : Dialect where
  limit := 128
  sequences := true
  toU32 text := if decimal text < 2 ^ 32 then some (.ofNat (decimal text)) else none
  toF64 text :=
    let fraction := (text.dropWhile Char.isDigit).drop 1
    some (decimal (text.takeWhile Char.isDigit) + mkRat (decimal fraction) (10 ^ fraction.length))

/-- Two parsers of one dialect; the first leaves its buffer alone. -/
def plainParser : PayloadParser where
  simdJson bytes := (bytes, (String.fromUTF8? bytes).bind fun text =>
    (readPayload plainDialect text.toList).map RawPayload.payload)
  fromUtf8Lossy bytes := (String.fromUTF8? bytes).getD ""
  serdeJson text :=
    match readPayload plainDialect text.toList with
    | some raw => .ok raw.payload
    | none => .error "expected value at line 1 column 1"

def plainDialects : Dialects := ⟨plainDialect, plainDialect⟩

theorem plainParser_readsJson : plainParser.ReadsJson plainDialects := by
  have hbytes : ∀ text : String, String.fromUTF8? text.toByteArray = some text := fun text =>
    dif_pos text.isValidUTF8
  constructor
  · intro text
    show (String.fromUTF8? text.toByteArray).bind _ = _
    rw [hbytes]
    rfl
  · intro text _ _
    show (plainParser.serdeJson ((String.fromUTF8? text.toByteArray).getD "")).toOption = _
    rw [hbytes, Option.getD_some]
    show Except.toOption (match readPayload plainDialect text.toList with
      | some raw => .ok raw.payload
      | none => .error _) = _
    rw [plainDialects]
    cases readPayload plainDialect text.toList <;> rfl

/-- The answer to the masked prompt, as the prompt asks for it. -/
def maskedAnswer : String :=
  "\x7b\"networkId\":\"ethereum\",\"taskType\":\"[MASKED_PHONE_1]\",\"maxGasLimit\":21000," ++
    "\"confidenceScore\":0.5,\"sourceUrl\":\"unknown\"\x7d"

/-- Its strings are written without escapes. -/
def maskedRaw : RawPayload (List Item) :=
  ⟨"ethereum".toList.map .lit, "[MASKED_PHONE_1]".toList.map .lit, 21000, 1 / 2,
    "unknown".toList.map .lit⟩

def maskedWinner : ConsensusResult :=
  ⟨maskedAnswer, [.custom "moonshot", .custom "deepseek"], 20, false, 0⟩

/-- What the proofs need of the answer's characters. -/
theorem maskedAnswer_toList :
    readPayload plainDialect maskedAnswer.toList = some maskedRaw ∧
      maskedAnswer.toList.all (fun c => c != '`' && !isWhitespace c) = true ∧
      "[MASKED_PHONE_1]".toList <:+: maskedAnswer.toList := by
  have hstart := toList_of_eq_ofList (s :=
    "\x7b\"networkId\":\"ethereum\",\"taskType\":\"[MASKED_PHONE_1]\",\"maxGasLimit\":21000,") rfl
  have hend := toList_of_eq_ofList (s :=
    "\"confidenceScore\":0.5,\"sourceUrl\":\"unknown\"\x7d") rfl
  have htoken := toList_of_eq_ofList (s := "[MASKED_PHONE_1]") rfl
  have htext : maskedAnswer.toList = _ := String.toList_append.trans (congrArg₂ _ hstart hend)
  rw [htext, htoken]
  exact ⟨by decide +kernel, by decide +kernel, by decide +kernel⟩

theorem readPayload_maskedAnswer :
    readPayload plainDialect maskedAnswer.toList = some maskedRaw := maskedAnswer_toList.1

theorem read_maskedAnswer : plainDialects.read maskedAnswer.toList = some maskedRaw := by
  rw [Dialects.read, plainDialects, readPayload_maskedAnswer, Option.some_or]

theorem bare_maskedAnswer : '`' ∉ maskedAnswer.toList ∧ trim maskedAnswer = maskedAnswer := by
  obtain ⟨-, hchars, -⟩ := maskedAnswer_toList
  rw [List.all_eq_true] at hchars
  simp only [Bool.and_eq_true, bne_iff_ne, Bool.not_eq_true'] at hchars
  exact ⟨fun hmem => (hchars _ hmem).1 rfl, trim_eq_self_of_forall fun c hc => (hchars c hc).2⟩

theorem sanitize_maskedAnswer : sanitizeLlmResponse maskedAnswer = maskedAnswer := by
  rw [sanitizeLlmResponse_of_not_mem bare_maskedAnswer.1, bare_maskedAnswer.2]

theorem fromLlmOutput_maskedAnswer :
    IntermediatePayload.fromLlmOutput plainParser maskedAnswer = .ok maskedRaw.payload := by
  refine IntermediatePayload.fromLlmOutput_of_simdJson bare_maskedAnswer.1 bare_maskedAnswer.2 ?_
  rw [plainParser_readsJson.simdJson, plainDialects, readPayload_maskedAnswer, Option.map_some]

theorem readAsItStands_maskedAnswer :
    plainDialects.ReadAsItStands (sanitizeLlmResponse maskedAnswer).toList := by
  left
  rw [sanitize_maskedAnswer, plainDialects, readPayload_maskedAnswer]
  rfl

/-- With a space between its groups the number is restored. -/
theorem restorable_maskedAnswer :
    Restorable plainDialects (entriesIn .id (taskTypeMasking (phoneNumber ' ')).map)
      (sanitizeLlmResponse maskedAnswer).toList := by
  have hes : ∀ e ∈ entriesIn .id (taskTypeMasking (phoneNumber ' ')).map, ∀ c ∈ e.2,
      32 ≤ c.toNat := by
    rw [entries_taskTypeMasking, phoneNumber, String.toList_ofList]
    have hall : ['5', '5', '5', ' ', '1', '2', '3', '4'].all (32 ≤ ·.toNat) = true := by decide
    have hchars : ∀ c ∈ ['5', '5', '5', ' ', '1', '2', '3', '4'], 32 ≤ c.toNat := fun c hc =>
      of_decide_eq_true (List.all_eq_true.mp hall c hc)
    exact List.forall_mem_cons.mpr ⟨hchars, List.forall_mem_singleton.mpr hchars⟩
  rw [sanitize_maskedAnswer]
  exact restorable_of_lit hes read_maskedAnswer

theorem keeps_answer_of_space :
    KeepsAnswer plainParser strictOrchestrator .id (taskTypeMasking (phoneNumber ' ')).map
      maskedWinner maskedRaw.payload := by
  have hpats : (taskTypePatterns (phoneNumber ' ')).FollowPattern asciiDigits :=
    followPattern_taskType rfl
  have hwon : IntermediatePayload.fromLlmOutput plainParser maskedWinner.content =
      .ok maskedRaw.payload := fromLlmOutput_maskedAnswer
  exact (keeps_answer_iff_restorable hpats plainParser_readsJson (masks_taskType (phoneNumber ' '))
    .id strictOrchestrator hwon readAsItStands_maskedAnswer).mpr restorable_maskedAnswer

/-- With a line break it is not, although the handler accepts the task type:
the answer is 200 and has no payload. -/
theorem line_break_loses_answer :
    validTaskType (phoneNumber '\n') = true ∧
      (taskTypePatterns (phoneNumber '\n')).FollowPattern asciiDigits ∧
      plainParser.ReadsJson plainDialects ∧
      IntermediatePayload.fromLlmOutput plainParser maskedWinner.content =
        .ok maskedRaw.payload ∧
      ¬KeepsAnswer plainParser strictOrchestrator .id
        (taskTypeMasking (phoneNumber '\n')).map maskedWinner
        maskedRaw.payload ∧
      ∀ round elapsedMs toJson tenantId, ∃ consensus,
        answerResult plainParser toJson tenantId (unmaskedResult strictOrchestrator round elapsedMs
          .id (taskTypeMasking (phoneNumber '\n')).map maskedWinner) =
            .ok consensus none tenantId := by
  have hpats : (taskTypePatterns (phoneNumber '\n')).FollowPattern asciiDigits :=
    followPattern_taskType rfl
  have hes := (masks_taskType (phoneNumber '\n')).issued hpats .id
  have hcontrol : ¬CleanThroughout (entriesIn .id (taskTypeMasking (phoneNumber '\n')).map)
      (sanitizeLlmResponse maskedAnswer).toList := by
    rw [entries_taskTypeMasking, sanitize_maskedAnswer, CleanThroughout]
    rintro ⟨hclean, -⟩
    have hoccurs := maskedAnswer_toList.2.2
    have hbreak : '\n' ∈ (phoneNumber '\n').toList := by decide
    exact absurd (hclean hoccurs '\n' hbreak) (by decide)
  obtain ⟨-, -, -, -, hnone⟩ := fromLlmOutput_restore plainParser_readsJson hes
    fromLlmOutput_maskedAnswer readAsItStands_maskedAnswer
  refine ⟨by decide, hpats, plainParser_readsJson, fromLlmOutput_maskedAnswer, ?_, ?_⟩
  · rw [keepsAnswer_iff]
    intro hparses
    have hlost := hnone hcontrol
    rw [show maskedAnswer = maskedWinner.content from rfl, hparses] at hlost
    cases hlost
  · intro round elapsedMs toJson tenantId
    have hlost : consensusPayload plainParser (unmaskedResult strictOrchestrator round elapsedMs
        .id (taskTypeMasking (phoneNumber '\n')).map maskedWinner) = none := by
      rw [consensusPayload_unmasked]
      exact hnone hcontrol
    refine ⟨reportedConsensus (unmaskedResult strictOrchestrator round elapsedMs .id
      (taskTypeMasking (phoneNumber '\n')).map maskedWinner) "", ?_⟩
    rw [answerResult, hlost]
    rfl

end SereinGateway.Gateway
