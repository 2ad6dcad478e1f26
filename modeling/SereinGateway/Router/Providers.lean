import Mathlib
import SereinGateway.Lib.Checks
import SereinGateway.Lib.Hex
import SereinGateway.Lib.Json
import SereinGateway.Router.EgressGuard
import SereinGateway.Router.Orchestrator

/-!
The providers: how they are built from their configuration and how they are invoked.

The HTTP client, `serde_json` and Wasmtime are parameters. Of a request it is recorded
what was sent, if anything. A Wasm adapter is known by what it exports, and its functions
see the arguments of earlier calls. Two shapes of provider speak the protocol of OpenAI:
`GenericOpenAiProvider`, and `WasmAdapterProvider` with the plugin of this repository.
-/

namespace SereinGateway.Router

open SereinGateway.Lib

/-! ### Configuration -/

/-- The fields of a `[[provider]]` entry that the code reads. -/
structure ProviderConfig where
  id : String
  displayName : String
  apiFormat : String
  baseUrl : String
  model : String
  apiKey : String
  apiKeyEnv : String
  timeoutMs : UInt64
  maxResponseBytes : ℕ
  cacheProvider : String
  geoRegion : Option String
  adapter : Option String

inductive ProviderError where
  | configError (reason : String)
  | unknownFormat (format id : String)
  deriving DecidableEq, Repr

def ProviderError.display : ProviderError → String
  | .configError reason => "Provider configuration error: " ++ reason
  | .unknownFormat format id =>
      "Unknown api_format '" ++ format ++ "' for provider '" ++ id ++ "'"

namespace ProviderConfig

/-- The environment takes precedence; an empty key is none. -/
def resolveApiKey (env : String → Option String) (config : ProviderConfig) : Option String :=
  if config.apiKeyEnv ≠ "" then (env config.apiKeyEnv).filter (· ≠ "")
  else if config.apiKey ≠ "" then some config.apiKey
  else none

def resolveCacheProvider (config : ProviderConfig) : String :=
  if config.cacheProvider ≠ "" then config.cacheProvider else config.id

def satisfiesGeoRequirement (config : ProviderConfig) (requiredRegion : String) : Bool :=
  match config.geoRegion with
  | none => true
  | some region => eqIgnoreAsciiCase region requiredRegion

end ProviderConfig

/-! ### The world outside -/

/-- A value of the component model. -/
inductive Val (F : Type) where
  | bool (b : Bool)
  | string (s : String)
  | float32 (x : F)
  | record (fields : List (String × Val F))
  | list (items : List (Val F))
  | tuple (items : List (Val F))
  | ok (payload : Option (Val F))
  | err (payload : Option (Val F))

structure ProviderDeps (F : Type) where
  isZero : F → Bool
  isPositive : F → Bool
  /-- `serde_json::to_string`. -/
  serialize : Json F → String
  /-- The contents of the choices of an `OpenAiResponse`. -/
  parseChat : List UInt8 → Except String (List String)
  /-- The texts of the parts of the candidates of a `GeminiResponseBody`. -/
  parseGemini : List UInt8 → Except String (List (List String))
  debugVal : Val F → String

/-- The body of a response, as bytes and as the text that is made of them. -/
structure ReplyBody where
  bytes : List UInt8
  text : String

inductive Reply where
  | failed (reason : String)
  | answered (status : UInt16) (body : Except String ReplyBody)

/-- What a client answers to a request. -/
abbrev Transport := HttpRequest → Reply

/-- What was sent, and what came of it. -/
structure Invocation where
  sent : Option HttpRequest
  result : Except TmrNodeError String

/-- An exported function; `past` are the arguments of the calls before. -/
abbrev WasmFunc (F : Type) := (past : List (List (Val F))) → List (Val F) → Except String (Val F)

structure WasmInstance (F : Type) where
  interface : String → Option (String → Option (WasmFunc F))
  root : String → Option (WasmFunc F)

/-- How far the loading of an adapter gets. -/
inductive AdapterLoad (F : Type) where
  | engineFailed (reason : String)
  | unreadable (reason : String)
  | uncompilable (reason : String)
  | uninstantiable (reason : String)
  | loaded (inst : WasmInstance F)

/-! ### Status codes and bodies -/

def TmrNodeError.fromHttpStatus (status : UInt16) : Option TmrNodeError :=
  if status = 403 then some .httpForbidden
  else if status = 429 then some .httpRateLimited
  else if 500 ≤ status ∧ status ≤ 599 then some (.serverError status)
  else none

/-- The three tests that the HTTP providers make themselves. -/
def statusError (status : UInt16) : Option TmrNodeError :=
  if status = 403 then some .httpForbidden
  else if status = 429 then some .httpRateLimited
  else if 500 ≤ status then some (.serverError status)
  else none

def notConfigured (displayName : String) : TmrNodeError :=
  .networkError (displayName ++ " API key not configured")

def oversized (displayName : String) (maxResponseBytes : ℕ) : TmrNodeError :=
  .parseError (displayName ++ " response exceeded " ++ toString maxResponseBytes ++
    "B safety limit")

/-- From the response to the content, for a provider that parses the bytes. -/
def readReply (displayName : String) (maxResponseBytes : ℕ) (redact : String → String)
    (parse : List UInt8 → Except TmrNodeError String) : Reply → Except TmrNodeError String
  | .failed reason =>
      .error (.networkError (displayName ++ " request failed: " ++ redact reason))
  | .answered status body =>
      match statusError status with
      | some e => .error e
      | none =>
          match body with
          | .error reason =>
              .error (.parseError ("Failed to read " ++ displayName ++ " bytes: " ++ reason))
          | .ok body =>
              if maxResponseBytes < body.bytes.length then
                .error (oversized displayName maxResponseBytes)
              else parse body.bytes

/-! ### `GenericOpenAiProvider` -/

structure GenericOpenAiProvider where
  id : String
  displayName : String
  baseUrl : String
  model : String
  apiKey : Option String
  timeoutMs : UInt64
  maxResponseBytes : ℕ
  cacheProvider : String

/-- `trim_end_matches('/')`. -/
def trimEndSlashes (s : String) : String := .ofList (s.toList.rdropWhile (· = '/'))

/-- `str::contains`. -/
def containsText (s pat : String) : Bool := (findChars pat.toList s.toList).isSome

namespace GenericOpenAiProvider

variable {F : Type} (deps : ProviderDeps F) (p : GenericOpenAiProvider)

def fromConfig (env : String → Option String) (config : ProviderConfig) :
    GenericOpenAiProvider where
  id := config.id
  displayName := config.displayName
  baseUrl := config.baseUrl
  model := config.model
  apiKey := config.resolveApiKey env
  timeoutMs := config.timeoutMs
  maxResponseBytes := config.maxResponseBytes
  cacheProvider := config.resolveCacheProvider

/-- `OpenAiRequest`, serialised; a temperature of zero is skipped. -/
def body (prompt : String) (temperature : F) : Json F :=
  .object ([("model", .string p.model),
      ("messages", .array [.object [("role", .string "user"), ("content", .string prompt)]])] ++
    (if deps.isZero temperature then [] else [("temperature", .number temperature)]) ++
    [("stream", .bool false)])

/-- `json` adds the type of the content. -/
def request (apiKey prompt : String) (temperature : F) : HttpRequest where
  endpoint := trimEndSlashes p.baseUrl ++ "/chat/completions"
  headers := [("Authorization", "Bearer " ++ apiKey), ("Content-Type", "application/json")] ++
    if containsText p.baseUrl "googleapis.com" then [("x-goog-api-key", apiKey)] else []
  body := deps.serialize (p.body deps prompt temperature)

/-- The content of the first choice. -/
def parse (bytes : List UInt8) : Except TmrNodeError String :=
  match deps.parseChat bytes with
  | .error e => .error (.parseError (p.displayName ++ " response parse failed: " ++ e))
  | .ok [] => .error (.parseError (p.displayName ++ " returned no choices"))
  | .ok (content :: _) => .ok content

def invoke (transport : Transport) (prompt : String) (temperature : F) : Invocation :=
  match p.apiKey with
  | none => ⟨none, .error (notConfigured p.displayName)⟩
  | some apiKey =>
      let request := p.request deps apiKey prompt temperature
      ⟨some request,
        readReply p.displayName p.maxResponseBytes (fun reason => reason) (p.parse deps)
          (transport request)⟩

end GenericOpenAiProvider

/-! ### `GeminiProvider` -/

structure GeminiProvider where
  id : String
  displayName : String
  baseUrl : String
  apiKey : Option String
  timeoutMs : UInt64
  maxResponseBytes : ℕ

/-- `GeminiRequestBody`, serialised. -/
def geminiBody {F : Type} (deps : ProviderDeps F) (prompt : String) (temperature : F) : Json F :=
  .object ([("contents",
      .array [.object [("parts", .array [.object [("text", .string prompt)]])]])] ++
    if deps.isPositive temperature then
      [("generationConfig", .object [("temperature", .number temperature)])]
    else [])

namespace GeminiProvider

variable {F : Type} (deps : ProviderDeps F) (p : GeminiProvider)

def fromConfig (env : String → Option String) (config : ProviderConfig) : GeminiProvider where
  id := config.id
  displayName := config.displayName
  baseUrl := config.baseUrl
  apiKey := config.resolveApiKey env
  timeoutMs := config.timeoutMs
  maxResponseBytes := config.maxResponseBytes

def request (apiKey prompt : String) (temperature : F) : HttpRequest where
  endpoint := p.baseUrl ++ "?key=" ++ apiKey
  headers := [("Content-Type", "application/json")]
  body := deps.serialize (geminiBody deps prompt temperature)

/-- The text of the first part of the first candidate. -/
def parse (bytes : List UInt8) : Except TmrNodeError String :=
  match deps.parseGemini bytes with
  | .error e => .error (.parseError (p.displayName ++ " response parse failed: " ++ e))
  | .ok candidates =>
      match candidates.head?.bind (·.head?) with
      | none => .error (.parseError (p.displayName ++ " returned no content"))
      | some text => .ok text

def invoke (transport : Transport) (prompt : String) (temperature : F) : Invocation :=
  match p.apiKey with
  | none => ⟨none, .error (notConfigured p.displayName)⟩
  | some apiKey =>
      let request := p.request deps apiKey prompt temperature
      -- Only the error of `send` is redacted.
      let redact := fun reason => replace reason apiKey "[REDACTED]"
      ⟨some request,
        readReply p.displayName p.maxResponseBytes redact (p.parse deps) (transport request)⟩

end GeminiProvider

/-! ### `WasmAdapterProvider` -/

structure WasmAdapterProvider where
  id : String
  displayName : String
  baseUrl : String
  model : String
  apiKey : Option String
  timeoutMs : UInt64
  maxResponseBytes : ℕ
  cacheProvider : String
  adapterPath : String

def hostInterface : String := "serein:adapter/provider-adapter@1.0.0"

/-- An export of the interface, or else of the component itself. -/
def WasmInstance.export {F : Type} (inst : WasmInstance F) (name : String) :
    Option (WasmFunc F) :=
  ((inst.interface hostInterface).bind fun interface => interface name).or (inst.root name)

section Values

variable {F : Type} (deps : ProviderDeps F)

/-- The text of the payload of an `err`. -/
def errorText : Option (Val F) → String
  | none => "unknown error"
  | some (.string s) => s
  | some other => deps.debugVal other

def readHeaders : List (Val F) → List (String × String)
  | [] => []
  | .tuple [.string name, .string value] :: items => (name, value) :: readHeaders items
  | _ :: items => readHeaders items

/-- A field of an `HttpRequestSpec`; unknown fields and fields of another type are skipped. -/
def readField (spec : HttpRequest) : String × Val F → HttpRequest
  | ("url", .string s) => { spec with endpoint := s }
  | ("headers", .list items) => { spec with headers := spec.headers ++ readHeaders items }
  | ("body", .string s) => { spec with body := s }
  | _ => spec

/-- From the result of `transform-request` to the request that is specified. -/
def readSpec : Val F → Except TmrNodeError HttpRequest
  | .ok none => .error (.networkError "WASM adapter 'transform-request' returned empty result")
  | .ok (some (.record fields)) => .ok (fields.foldl readField ⟨"", [], ""⟩)
  | .ok (some other) =>
      .error (.networkError
        ("WASM adapter returned unexpected HttpRequestSpec: " ++ deps.debugVal other))
  | .err payload =>
      .error (.networkError
        ("WASM adapter 'transform-request' returned error: " ++ errorText deps payload))
  | other =>
      .error (.networkError
        ("WASM adapter 'transform-request' returned unexpected value: " ++ deps.debugVal other))

/-- From the result of `parse-response` to the content. -/
def readContent : Val F → Except TmrNodeError String
  | .ok none => .error (.parseError "WASM adapter 'parse-response' returned empty result")
  | .ok (some (.string s)) => .ok s
  | .ok (some other) =>
      .error (.parseError
        ("WASM adapter 'parse-response' returned non-string: " ++ deps.debugVal other))
  | .err payload =>
      .error (.parseError
        ("WASM adapter 'parse-response' returned error: " ++ errorText deps payload))
  | other =>
      .error (.parseError
        ("WASM adapter 'parse-response' returned unexpected value: " ++ deps.debugVal other))

end Values

namespace WasmAdapterProvider

variable {F : Type} (deps : ProviderDeps F) (p : WasmAdapterProvider)

def fromConfig (env : String → Option String) (config : ProviderConfig) :
    WasmAdapterProvider where
  id := config.id
  displayName := config.displayName
  baseUrl := config.baseUrl
  model := config.model
  apiKey := config.resolveApiKey env
  timeoutMs := config.timeoutMs
  maxResponseBytes := config.maxResponseBytes
  cacheProvider := config.resolveCacheProvider
  adapterPath := config.adapter.getD (config.id ++ "_adapter.wasm")

/-- The arguments of `transform-request`. -/
def transformArgs (apiKey prompt : String) (temperature : F) : List (Val F) :=
  [.record [("model", .string p.model), ("prompt", .string prompt),
    ("temperature", .float32 temperature), ("base-url", .string p.baseUrl)], .string apiKey]

def loadError (load : AdapterLoad F) : Except TmrNodeError (WasmInstance F) :=
  match load with
  | .engineFailed e => .error (.networkError ("Failed to create WASM engine: " ++ e))
  | .unreadable e =>
      .error (.networkError ("Failed to read adapter '" ++ p.adapterPath ++ "': " ++ e))
  | .uncompilable e =>
      .error (.networkError ("Failed to compile adapter '" ++ p.adapterPath ++ "': " ++ e))
  | .uninstantiable e =>
      .error (.networkError ("Failed to instantiate adapter '" ++ p.adapterPath ++ "': " ++ e))
  | .loaded inst => .ok inst

/-- The part before the request is sent. -/
def transform (apiKey prompt : String) (temperature : F) (load : AdapterLoad F) :
    Except TmrNodeError (WasmInstance F × HttpRequest) :=
  match p.loadError load with
  | .error e => .error e
  | .ok inst =>
      match inst.export "transform-request" with
      | none =>
          .error (.networkError "Export 'transform-request' not found in component")
      | some f =>
          match f [] (p.transformArgs apiKey prompt temperature) with
          | .error e =>
              .error (.networkError ("WASM adapter 'transform-request' call trapped: " ++ e))
          | .ok v =>
              match readSpec deps v with
              | .error e => .error e
              | .ok spec =>
                  -- The type of the content is set before the headers of the adapter.
                  .ok (inst,
                    { spec with headers := ("Content-Type", "application/json") :: spec.headers })

/-- The part after the response has come. -/
def readText (past : List (List (Val F))) (inst : WasmInstance F) :
    Reply → Except TmrNodeError String
  | .failed reason => .error (.networkError (p.displayName ++ " request failed: " ++ reason))
  | .answered status body =>
      match TmrNodeError.fromHttpStatus status with
      | some e => .error e
      | none =>
          match body with
          | .error reason =>
              .error (.parseError
                ("Failed to read " ++ p.displayName ++ " response text: " ++ reason))
          | .ok body =>
              if p.maxResponseBytes < body.text.utf8ByteSize then
                .error (oversized p.displayName p.maxResponseBytes)
              else
                match inst.export "parse-response" with
                | none => .error (.networkError "Export 'parse-response' not found in component")
                | some f =>
                    match f past [.string body.text] with
                    | .error e =>
                        .error (.parseError
                          ("WASM adapter 'parse-response' call trapped: " ++ e))
                    | .ok v => readContent deps v

def invoke (load : AdapterLoad F) (transport : Transport) (prompt : String) (temperature : F) :
    Invocation :=
  match p.apiKey with
  | none => ⟨none, .error (notConfigured p.displayName)⟩
  | some apiKey =>
      match p.transform deps apiKey prompt temperature load with
      | .error e => ⟨none, .error e⟩
      | .ok (inst, request) =>
          ⟨some request, p.readText deps [p.transformArgs apiKey prompt temperature] inst
            (transport request)⟩

end WasmAdapterProvider

/-! ### Providers of a configuration -/

inductive Provider where
  | openAi (p : GenericOpenAiProvider)
  | gemini (p : GeminiProvider)
  | wasmAdapter (p : WasmAdapterProvider)

namespace Provider

def llmProvider : Provider → LlmProvider
  | .openAi p => ⟨p.id, p.displayName, p.timeoutMs⟩
  | .gemini p => ⟨p.id, p.displayName, p.timeoutMs⟩
  | .wasmAdapter p => ⟨p.id, p.displayName, p.timeoutMs⟩

def isAdapter : Provider → Bool
  | .wasmAdapter _ => true
  | .openAi _ | .gemini _ => false

def invoke {F : Type} (deps : ProviderDeps F) (load : AdapterLoad F) (transport : Transport)
    (prompt : String) (temperature : F) : Provider → Invocation
  | .openAi p => p.invoke deps transport prompt temperature
  | .gemini p => p.invoke deps transport prompt temperature
  | .wasmAdapter p => p.invoke deps load transport prompt temperature

end Provider

/-- An adapter takes precedence over the format. -/
def ProviderConfig.buildProvider (lower : Lowercase) (env : String → Option String)
    (config : ProviderConfig) : Except ProviderError Provider :=
  if config.adapter.isSome then .ok (.wasmAdapter (.fromConfig env config))
  else if lower.apply config.apiFormat = "openai" then .ok (.openAi (.fromConfig env config))
  else if lower.apply config.apiFormat = "gemini" then .ok (.gemini (.fromConfig env config))
  else .error (.unknownFormat (lower.apply config.apiFormat) config.id)

def buildProviders (lower : Lowercase) (env : String → Option String)
    (configs : List ProviderConfig) : Except ProviderError (List Provider) :=
  configs.mapM (·.buildProvider lower env)

def filterByGeo (configs : List ProviderConfig) (requiredRegion : String) :
    List ProviderConfig :=
  configs.filter (·.satisfiesGeoRequirement requiredRegion)

def buildProvidersForRegion (lower : Lowercase) (env : String → Option String)
    (configs : List ProviderConfig) (requiredRegion : String) :
    Except ProviderError (List Provider) :=
  buildProviders lower env (filterByGeo configs requiredRegion)

section Building

variable {lower : Lowercase} {env : String → Option String} {configs : List ProviderConfig}
  {providers : List Provider}

theorem isAdapter_of_buildProvider {config : ProviderConfig} {p : Provider}
    (h : config.buildProvider lower env = .ok p) : p.isAdapter = config.adapter.isSome := by
  rw [ProviderConfig.buildProvider] at h
  split at h
  · rename_i hadapter
    cases h
    exact hadapter.symm
  · rename_i hadapter
    rw [Bool.not_eq_true] at hadapter
    rw [hadapter]
    split at h
    · cases h
      rfl
    · split at h
      · cases h
        rfl
      · cases h

theorem length_filter_isAdapter (h : buildProviders lower env configs = .ok providers) :
    (providers.filter fun p => !p.isAdapter).length =
      (configs.filter fun config => config.adapter.isNone).length := by
  have hbuilt := mapM_eq_ok_iff.mp h
  clear h
  induction hbuilt with
  | nil => rfl
  | cons hbuild _ ih =>
      rw [List.filter_cons, List.filter_cons, isAdapter_of_buildProvider hbuild,
        Option.not_isSome]
      split
      · rw [List.length_cons, List.length_cons, ih]
      · exact ih

/-- What is built for a region comes from the entries that may be used there. -/
theorem mem_buildProvidersForRegion {region : String} {p : Provider}
    (h : buildProvidersForRegion lower env configs region = .ok providers) (hp : p ∈ providers) :
    ∃ config ∈ configs, config.satisfiesGeoRequirement region = true ∧
      config.buildProvider lower env = .ok p := by
  obtain ⟨hlength, hbuilt⟩ := List.forall₂_iff_get.mp (mapM_eq_ok_iff.mp h)
  obtain ⟨i, hi, rfl⟩ := List.getElem_of_mem hp
  have hmem := List.getElem_mem (hlength ▸ hi)
  obtain ⟨hconfig, hregion⟩ := List.mem_filter.mp hmem
  exact ⟨_, hconfig, hregion, hbuilt i (hlength ▸ hi) hi⟩

end Building

end SereinGateway.Router
