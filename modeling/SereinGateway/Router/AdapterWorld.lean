import Mathlib
import SereinGateway.Router.Providers
import SereinGateway.Router.Quorum

/-!
Adapters that are built for the world `adapter-world`, and the one of this repository.

The world exports the functions under `api-adapter`, and the host looks for them under
another name. A provider with such an adapter therefore never sends anything, and an
orchestrator that has less than two other providers always falls back
(`falls_back_of_adapters`). What the functions of `openai-compatible` compute agrees
with `GenericOpenAiProvider` (`openAiCompatible_agrees`).
-/

namespace SereinGateway.Router

open SereinGateway.Lib SereinGateway.Worker

/-! ### `openai-compatible` -/

structure StandardizedRequest (F : Type) where
  model : String
  prompt : String
  temperature : F
  baseUrl : String

namespace OpenAiCompatibleAdapter

variable {F : Type} (deps : ProviderDeps F)

/-- `OpenAiChatRequest`, serialised; a temperature of zero is skipped. -/
def body (req : StandardizedRequest F) : Json F :=
  .object ([("model", .string req.model),
      ("messages",
        .array [.object [("role", .string "user"), ("content", .string req.prompt)]])] ++
    (if deps.isZero req.temperature then [] else [("temperature", .number req.temperature)]) ++
    [("stream", .bool false)])

def endpoint (baseUrl : String) : String :=
  if baseUrl.toList.getLast? = some '/' then baseUrl ++ "chat/completions"
  else baseUrl ++ "/chat/completions"

def transformRequest (req : StandardizedRequest F) (apiKey : String) :
    Except String HttpRequest :=
  .ok {
    endpoint := endpoint req.baseUrl
    headers := [("Authorization", "Bearer " ++ apiKey), ("Content-Type", "application/json")]
    body := deps.serialize (body deps req) }

def parseResponse (rawBody : String) : Except String String :=
  match deps.parseChat (utf8Bytes rawBody) with
  | .error e => .error ("Failed to parse OpenAI response JSON: " ++ e)
  | .ok [] => .error "OpenAI response contained no choices"
  | .ok (content :: _) => .ok content

/-- An `http-request-spec`. -/
def specVal (spec : HttpRequest) : Val F :=
  .record [("url", .string spec.endpoint),
    ("headers", .list (spec.headers.map fun h => .tuple [.string h.1, .string h.2])),
    ("body", .string spec.body)]

def transformRequestFunc : WasmFunc F
  | _, [.record [("model", .string model), ("prompt", .string prompt),
        ("temperature", .float32 temperature), ("base-url", .string baseUrl)], .string apiKey] =>
      match transformRequest deps ⟨model, prompt, temperature, baseUrl⟩ apiKey with
      | .ok spec => .ok (.ok (some (specVal spec)))
      | .error e => .ok (.err (some (.string e)))
  | _, _ => .error "type mismatch with parameters"

def parseResponseFunc : WasmFunc F
  | _, [.string rawBody] =>
      match parseResponse deps rawBody with
      | .ok content => .ok (.ok (some (.string content)))
      | .error e => .ok (.err (some (.string e)))
  | _, _ => .error "type mismatch with parameters"

/-- The two functions, as `adapter-world` has them exported. `lib.rs` implements them for
`Guest` and does not say `export!`, so that the component that is built exports none. -/
def apiAdapter (name : String) : Option (WasmFunc F) :=
  if name = "transform-request" then some (transformRequestFunc deps)
  else if name = "parse-response" then some (parseResponseFunc deps)
  else none

end OpenAiCompatibleAdapter

section Agreement

variable {F : Type} (deps : ProviderDeps F)

theorem two_slashes_suffix {front : List Char} {c : Char} :
    ['/', '/'] <:+ front ++ [c] ↔ c = '/' ∧ ['/'] <:+ front := by
  constructor
  · rintro ⟨t, ht⟩
    rw [show ['/', '/'] = ['/'] ++ ['/'] from rfl, ← List.append_assoc] at ht
    obtain ⟨rfl, hc⟩ := List.append_inj' ht rfl
    exact ⟨(List.singleton_inj.mp hc).symm, List.suffix_append t ['/']⟩
  · rintro ⟨rfl, t, rfl⟩
    exact ⟨t, by rw [List.append_assoc]; rfl⟩

theorem rdropWhile_slash_eq_self {front : List Char} :
    front.rdropWhile (fun c => decide (c = '/')) = front ↔ ¬['/'] <:+ front := by
  obtain rfl | ⟨rest, c, rfl⟩ := front.eq_nil_or_concat
  · exact iff_of_true rfl (by decide)
  · rw [List.concat_eq_append, List.rdropWhile_eq_self_iff]
    simp only [List.getLast_append_singleton, decide_eq_true_eq, ne_eq, List.append_eq_nil_iff,
      List.cons_ne_self, and_false, not_false_eq_true, forall_true_left]
    refine not_congr ⟨?_, ?_⟩
    · rintro rfl
      exact List.suffix_append rest ['/']
    · rintro ⟨t, ht⟩
      exact (List.singleton_inj.mp (List.append_inj' ht rfl).2).symm

theorem endpoint_eq_iff (baseUrl : String) :
    OpenAiCompatibleAdapter.endpoint baseUrl = trimEndSlashes baseUrl ++ "/chat/completions" ↔
      ¬['/', '/'] <:+ baseUrl.toList := by
  have htail : "/chat/completions".toList = ['/'] ++ "chat/completions".toList := rfl
  rw [← String.toList_inj, String.toList_append, trimEndSlashes, String.toList_ofList,
    OpenAiCompatibleAdapter.endpoint]
  obtain hbase | ⟨front, c, hbase⟩ := baseUrl.toList.eq_nil_or_concat
  · rw [if_neg (by rw [hbase]; decide), String.toList_append, hbase]
    exact iff_of_true rfl (by decide)
  · rw [List.concat_eq_append] at hbase
    have hlast : baseUrl.toList.getLast? = some c := by
      rw [hbase, List.getLast?_append, List.getLast?_singleton, Option.some_or]
    by_cases hc : c = '/'
    · subst hc
      rw [if_pos hlast, String.toList_append, hbase, htail, List.append_assoc,
        List.append_cancel_right_eq, List.rdropWhile_concat_pos _ _ _ (by simp), two_slashes_suffix,
        and_iff_right rfl, ← rdropWhile_slash_eq_self, eq_comm]
    · rw [if_neg (by rw [hlast, Option.some.injEq]; exact hc), String.toList_append, hbase,
        List.rdropWhile_concat_neg _ _ _ (by simpa using hc)]
      refine iff_of_true rfl ?_
      rw [two_slashes_suffix]
      exact fun h => hc h.1

theorem transformRequest_eq_request_iff (p : GenericOpenAiProvider) (apiKey prompt : String)
    (temperature : F) :
    OpenAiCompatibleAdapter.transformRequest deps ⟨p.model, prompt, temperature, p.baseUrl⟩
        apiKey = .ok (p.request deps apiKey prompt temperature) ↔
      ¬['/', '/'] <:+ p.baseUrl.toList ∧ containsText p.baseUrl "googleapis.com" = false := by
  rw [OpenAiCompatibleAdapter.transformRequest, GenericOpenAiProvider.request,
    Except.ok.injEq, HttpRequest.mk.injEq, endpoint_eq_iff]
  refine and_congr_right fun _ => ?_
  cases containsText p.baseUrl "googleapis.com" with
  | true => exact iff_of_false (fun h => by simpa using h.1) Bool.true_eq_false.mp
  | false => exact iff_of_true ⟨rfl, rfl⟩ rfl

theorem parseResponse_eq_ok_iff (p : GenericOpenAiProvider) (rawBody content : String) :
    OpenAiCompatibleAdapter.parseResponse deps rawBody = .ok content ↔
      p.parse deps (utf8Bytes rawBody) = .ok content := by
  rw [OpenAiCompatibleAdapter.parseResponse, GenericOpenAiProvider.parse]
  cases deps.parseChat (utf8Bytes rawBody) with
  | error e => exact iff_of_false nofun nofun
  | ok contents =>
      cases contents with
      | nil => exact iff_of_false nofun nofun
      | cons first rest => simp only [Except.ok.injEq]

theorem readHeaders_map (headers : List (String × String)) :
    readHeaders (headers.map fun h => (.tuple [.string h.1, .string h.2] : Val F)) = headers := by
  induction headers with
  | nil => rfl
  | cons h headers ih => rw [List.map_cons, readHeaders, ih]

theorem readSpec_specVal (spec : HttpRequest) :
    readSpec deps (.ok (some (OpenAiCompatibleAdapter.specVal spec))) = .ok spec := by
  rw [OpenAiCompatibleAdapter.specVal, readSpec, List.foldl_cons, List.foldl_cons,
    List.foldl_cons, List.foldl_nil]
  simp only [readField, readHeaders_map, List.nil_append]

/-- Called by the host, the component specifies the request that the provider would send,
unless the base URL ends in two slashes or belongs to a service that wants its key in a
header of its own. Of a response it reads what the provider reads. -/
theorem openAiCompatible_agrees (env : String → Option String) (config : ProviderConfig)
    (past : List (List (Val F))) (apiKey prompt : String) (temperature : F) :
    (∃ f v, OpenAiCompatibleAdapter.apiAdapter deps "transform-request" = some f ∧
        f past ((WasmAdapterProvider.fromConfig env config).transformArgs apiKey prompt
          temperature) = .ok v ∧
        (readSpec deps v = .ok ((GenericOpenAiProvider.fromConfig env config).request deps apiKey
            prompt temperature) ↔
          ¬['/', '/'] <:+ config.baseUrl.toList ∧
            containsText config.baseUrl "googleapis.com" = false)) ∧
      ∀ rawBody : String, ∃ g v, OpenAiCompatibleAdapter.apiAdapter deps "parse-response" = some g ∧
        g past [.string rawBody] = .ok v ∧
        ∀ content, readContent deps v = .ok content ↔
          (GenericOpenAiProvider.fromConfig env config).parse deps (utf8Bytes rawBody) =
            .ok content := by
  constructor
  · refine ⟨_, _, rfl, rfl, ?_⟩
    have hagree := transformRequest_eq_request_iff deps (.fromConfig env config) apiKey prompt
      temperature
    rw [OpenAiCompatibleAdapter.transformRequest, Except.ok.injEq] at hagree
    rw [readSpec_specVal, Except.ok.injEq]
    exact hagree
  · intro rawBody
    cases hparse : OpenAiCompatibleAdapter.parseResponse deps rawBody with
    | error e =>
        refine ⟨_, .err (some (.string e)), rfl, ?_, ?_⟩
        · rw [OpenAiCompatibleAdapter.parseResponseFunc, hparse]
        · intro content
          rw [← parseResponse_eq_ok_iff, hparse]
          exact iff_of_false nofun nofun
    | ok first =>
        refine ⟨_, .ok (some (.string first)), rfl, ?_, ?_⟩
        · rw [OpenAiCompatibleAdapter.parseResponseFunc, hparse]
        · intro content
          rw [← parseResponse_eq_ok_iff, hparse, readContent, Except.ok.injEq, Except.ok.injEq]

end Agreement

/-! ### The world and the host -/

def apiAdapterInterface : String := "serein:adapter/api-adapter@1.0.0"

/-- The component exports what `adapter-world` exports, and nothing else. -/
def WasmInstance.FollowsWorld {F : Type} (inst : WasmInstance F) : Prop :=
  (∀ name, name ≠ apiAdapterInterface → inst.interface name = none) ∧
    ∀ name, inst.root name = none

def AdapterLoad.FollowsWorld {F : Type} : AdapterLoad F → Prop
  | .loaded inst => inst.FollowsWorld
  | .engineFailed _ | .unreadable _ | .uncompilable _ | .uninstantiable _ => True

/-- A component for `adapter-world` with the functions of `openai-compatible`. -/
def OpenAiCompatibleAdapter.component {F : Type} (deps : ProviderDeps F) : WasmInstance F where
  interface name := if name = apiAdapterInterface then some (apiAdapter deps) else none
  root _ := none

theorem OpenAiCompatibleAdapter.followsWorld_component {F : Type} (deps : ProviderDeps F) :
    (component deps).FollowsWorld :=
  ⟨fun _ h => if_neg h, fun _ => rfl⟩

section Host

variable {F : Type} {load : AdapterLoad F}

theorem WasmInstance.FollowsWorld.export_eq_none {inst : WasmInstance F}
    (h : inst.FollowsWorld) (name : String) : inst.export name = none := by
  rw [WasmInstance.export, h.1 hostInterface (by decide), h.2]
  rfl

theorem invoke_followsWorld (deps : ProviderDeps F) (h : load.FollowsWorld)
    (p : WasmAdapterProvider) (transport : Transport) (prompt : String) (temperature : F) :
    ∃ message, p.invoke deps load transport prompt temperature =
      ⟨none, .error (.networkError message)⟩ := by
  rw [WasmAdapterProvider.invoke]
  cases p.apiKey with
  | none => exact ⟨_, rfl⟩
  | some apiKey =>
      dsimp only
      rw [WasmAdapterProvider.transform]
      cases load with
      | loaded inst =>
          rw [WasmAdapterProvider.loadError]
          dsimp only
          rw [h.export_eq_none]
          exact ⟨_, rfl⟩
      | engineFailed e => exact ⟨_, rfl⟩
      | unreadable e => exact ⟨_, rfl⟩
      | uncompilable e => exact ⟨_, rfl⟩
      | uninstantiable e => exact ⟨_, rfl⟩

end Host

/-! ### The orchestrator -/

/-- What becomes of an invocation that returns in time. -/
def Invocation.outcome (call : Invocation) (durationMs : UInt64) : ProviderOutcome :=
  match call.result with
  | .ok content => .answered content durationMs
  | .error e => .failed e durationMs

/-- Each provider was blocked, was cut off, or was invoked, if it has an adapter, with
one that follows the world. -/
def Invoked {F : Type} (deps : ProviderDeps F) (providers : List Provider)
    (round : ProviderRound) : Prop :=
  ∀ i p, providers[i]? = some p →
    round.outcome i = .breakerOpen ∨ round.outcome i = .elapsed ∨
      ∃ load transport prompt temperature durationMs, AdapterLoad.FollowsWorld load ∧
        round.outcome i =
          (p.invoke deps load transport prompt temperature).outcome durationMs

variable {F : Type} {deps : ProviderDeps F} {providers : List Provider} {round : ProviderRound}

theorem hasContent_of_isAdapter (hround : Invoked deps providers round) {i : ℕ} {p : Provider}
    (hp : providers[i]? = some p) (hadapter : p.isAdapter = true) :
    (round.outcome i).hasContent = false := by
  obtain h | h | ⟨load, transport, prompt, temperature, durationMs, hload, h⟩ := hround i p hp
  · rw [h]
    rfl
  · rw [h]
    rfl
  · cases p with
    | openAi _ | gemini _ => cases hadapter
    | wasmAdapter p =>
        obtain ⟨message, hinvoke⟩ :=
          invoke_followsWorld deps hload p transport prompt temperature
        rw [h, Provider.invoke, hinvoke]
        rfl

/-- The positions that are counted hold members that are counted. -/
theorem card_positions_le {α : Type*} (l : List α) {P : ℕ → Bool} {Q : α → Bool}
    (h : ∀ i a, l[i]? = some a → Q a = false → P i = false) :
    ((Finset.range l.length).filter fun i => P i).card ≤ (l.filter Q).length := by
  induction l using List.reverseRecOn with
  | nil => exact Nat.le_refl 0
  | append_singleton l a ih =>
      have hfront := ih fun i b hb => h i b (by
        rw [List.getElem?_append_left (List.getElem?_eq_some_iff.mp hb).1]
        exact hb)
      have hlast := h l.length a List.getElem?_concat_length
      rw [List.length_append, List.length_singleton, Finset.range_add_one, Finset.filter_insert,
        List.filter_append, List.length_append]
      cases hQ : Q a with
      | true =>
          rw [List.filter_cons_of_pos hQ, List.filter_nil, List.length_singleton]
          split
          · exact (Finset.card_insert_le _ _).trans (Nat.add_le_add_right hfront 1)
          · exact hfront.trans (Nat.le_succ _)
      | false =>
          rw [if_neg (by rw [hlast hQ]; decide), List.filter_cons_of_neg (by rw [hQ]; decide)]
          exact hfront

theorem sent_of_isAdapter (deps : ProviderDeps F) {p : Provider} (hadapter : p.isAdapter = true)
    {load : AdapterLoad F} (hload : load.FollowsWorld) (transport : Transport) (prompt : String)
    (temperature : F) : (p.invoke deps load transport prompt temperature).sent = none := by
  cases p with
  | openAi _ | gemini _ => cases hadapter
  | wasmAdapter p =>
      obtain ⟨message, hinvoke⟩ := invoke_followsWorld deps hload p transport prompt temperature
      rw [Provider.invoke, hinvoke]

/-- With less than two entries without an adapter in the configuration, the quorum fails and
the answer is that of the fallback node, un-masked; and the providers with an adapter send
nothing. -/
theorem falls_back_of_adapters (rdeps : RouterDeps) (lower : Lowercase) (settings : TmrSettings)
    (fallback : PhysicalFallbackNode) (vars : String → Option String)
    {configs : List ProviderConfig} (env : DispatchEnv) (req : ProviderRequest)
    (hbuild : buildProviders lower vars configs = .ok providers)
    (hfew : (configs.filter fun config => config.adapter.isNone).length < 2)
    (hround : Invoked deps providers env.round) :
    (∃ result, (TmrOrchestrator.withProviders lower settings fallback
        (providers.map Provider.llmProvider)).dispatchConsensusInner rdeps env req = some result ∧
      result.fallbackActivated = true ∧
      result.fallbackResult = some (fallback.invoke req.prompt env.attempt) ∧
      result.majorityOutput = (fallback.invoke req.prompt env.attempt).output.map
        (fun output => restore env.restoreOrder output
          (rdeps.patterns.mask env.counter req.prompt).2.map) ∧
      result.agreementCount ≤ 1) ∧
    ∀ p ∈ providers, p.isAdapter = true → ∀ load : AdapterLoad F, load.FollowsWorld →
      ∀ transport prompt temperature, (p.invoke deps load transport prompt temperature).sent =
        none := by
  refine ⟨?_, fun p _ hadapter load hload => sent_of_isAdapter deps hadapter hload⟩
  have hcount : (TmrOrchestrator.successful ((TmrOrchestrator.withProviders lower settings fallback
      (providers.map Provider.llmProvider)).responses rdeps env.round)).length < 2 := by
    rw [TmrOrchestrator.length_successful]
    have hlength : (TmrOrchestrator.withProviders lower settings fallback
        (providers.map Provider.llmProvider)).adapters.length = providers.length := by
      rw [TmrOrchestrator.withProviders, List.length_map, List.length_map]
    rw [hlength]
    rw [← length_filter_isAdapter hbuild] at hfew
    refine (card_positions_le providers fun i p hp hQ => ?_).trans_lt hfew
    exact hasContent_of_isAdapter hround hp (by simpa using hQ)
  have hmin : 2 ≤ (TmrOrchestrator.withProviders lower settings fallback
      (providers.map Provider.llmProvider)).minAgreement := le_max_right ..
  have hverdict : (TmrOrchestrator.withProviders lower settings fallback
      (providers.map Provider.llmProvider)).adjudicate rdeps env.round = some .stasis := by
    rw [TmrOrchestrator.adjudicate]
    exact if_pos (hcount.trans_le hmin)
  refine ⟨_, by rw [TmrOrchestrator.dispatchConsensusInner, hverdict]; rfl, ?_⟩
  simp only [TmrOrchestrator.restoreOutput, TmrOrchestrator.resultOf,
    TmrOrchestrator.handleConsensusFailureStasis]
  rw [show (TmrOrchestrator.withProviders lower settings fallback
    (providers.map Provider.llmProvider)).fallbackNode = fallback from rfl]
  cases (fallback.invoke req.prompt env.attempt).output with
  | none => exact ⟨rfl, rfl, rfl, Nat.zero_le 1⟩
  | some output => exact ⟨rfl, rfl, rfl, Nat.le_refl 1⟩

/-- The one response that can be parsed. -/
def chatReply : String :=
  "\x7b\"choices\":[\x7b\"message\":\x7b\"content\":\"Hello\"\x7d\x7d]\x7d"

/-- Temperatures, and one response. -/
def ratDeps : ProviderDeps ℚ where
  isZero x := x = 0
  isPositive x := 0 < x
  serialize _ := ""
  parseChat bytes := if bytes = utf8Bytes chatReply then .ok ["Hello"] else .error "EOF"
  parseGemini _ := .error "EOF"
  debugVal _ := ""

/-- A provider of the format of OpenAI. -/
def chatConfig : ProviderConfig :=
  ⟨"qianfan", "Qianfan", "openai", "https://api.test.com/v1", "test-model", "test-key", "", 15000,
    5242880, "", none, none⟩

/-- The same with an adapter. -/
def adapterConfig (id : String) : ProviderConfig :=
  { chatConfig with id := id, adapter := some "openai_compatible.wasm" }

def mixedConfigs : List ProviderConfig := [adapterConfig "a", chatConfig, adapterConfig "b"]

/-- The client answers each request. -/
def chatTransport : Transport := fun _ => .answered 200 (.ok ⟨utf8Bytes chatReply, chatReply⟩)

/-- The providers of the configuration, in order. -/
def mixedProviders : List Provider :=
  [.wasmAdapter (.fromConfig (fun _ => none) (adapterConfig "a")),
    .openAi (.fromConfig (fun _ => none) chatConfig),
    .wasmAdapter (.fromConfig (fun _ => none) (adapterConfig "b"))]

/-- The round in which all of them are invoked. -/
def mixedRound : ProviderRound where
  outcome i := ((mixedProviders[i]?.getD (.openAi (.fromConfig (fun _ => none) chatConfig))).invoke
    ratDeps (.loaded (OpenAiCompatibleAdapter.component ratDeps)) chatTransport "Hi" 0).outcome 7
  completion := .id
  scan := .id

/-- One of the three providers answers, and two have adapters. -/
theorem falls_back_of_adapters_mixed : mixedRound.outcome 1 = .answered "Hello" 7 ∧
    ∃ result, (TmrOrchestrator.withProviders asciiLowercase ⟨none, none, none, none⟩ stubFallback
        (mixedProviders.map Provider.llmProvider)).dispatchConsensusInner swapRouterDeps
          ⟨0, mixedRound, .admitted (.ok "") 3, 20, .id⟩ ⟨"Hi", "acme"⟩ = some result ∧
      result.fallbackResult = some ⟨some mockOutput, none, 3, "serein-slm-v1"⟩ := by
  have hround : Invoked ratDeps mixedProviders mixedRound := by
    intro i p hp
    refine .inr (.inr ⟨.loaded (OpenAiCompatibleAdapter.component ratDeps), chatTransport, "Hi", 0,
      7, OpenAiCompatibleAdapter.followsWorld_component ratDeps, ?_⟩)
    dsimp only [mixedRound]
    rw [hp]
    rfl
  have hbuild : buildProviders asciiLowercase (fun _ => none) mixedConfigs =
      .ok mixedProviders := by
    have hformat : asciiLowercase.apply chatConfig.apiFormat = "openai" := by decide +kernel
    have hchat : chatConfig.buildProvider asciiLowercase (fun _ => none) =
        .ok (.openAi (.fromConfig (fun _ => none) chatConfig)) := by
      rw [ProviderConfig.buildProvider, if_neg (by decide), if_pos hformat]
    have hadapter (id : String) : (adapterConfig id).buildProvider asciiLowercase (fun _ => none) =
        .ok (.wasmAdapter (.fromConfig (fun _ => none) (adapterConfig id))) := rfl
    rw [buildProviders, mixedConfigs, List.mapM_cons, List.mapM_cons, List.mapM_cons, hchat,
      hadapter, hadapter]
    rfl
  obtain ⟨⟨result, hresult, -, hfallback, -⟩, -⟩ := falls_back_of_adapters swapRouterDeps
    asciiLowercase ⟨none, none, none, none⟩ stubFallback (fun _ => none)
    ⟨0, mixedRound, .admitted (.ok "") 3, 20, .id⟩ ⟨"Hi", "acme"⟩ hbuild (by decide) hround
  exact ⟨by rfl, result, hresult, hfallback⟩

end SereinGateway.Router
