import Mathlib
import SereinGateway.Core.AppConfig
import SereinGateway.Lib.Checks
import SereinGateway.Router.Orchestrator
import SereinGateway.Router.Providers
import SereinGateway.Security.HmacAuth

/-!
What a gateway that starts is made of.

`main` refuses a placeholder token in production, needs Redis, and loads the configuration.
The kernel, the fallback node and the authenticator then read the environment again, each
by itself: the kernel would refuse a key, the fallback node falls back to a standby, and a
gateway without an authenticator lets requests pass. After the configuration has been
loaded none of this happens, so the gateway starts unless something outside of the
environment fails or the providers cannot be built (`startup_spec`).

What Redis, the engine of the kernel, the file of the providers, the HTTP client and the
flight recorder do is given. The background tasks and the probe of the fallback node, which
refuse nothing, are left out.
-/

namespace SereinGateway.Gateway

open SereinGateway.Core SereinGateway.Lib SereinGateway.Router SereinGateway.Security

/-! ### The fallback node -/

inductive SlmExecutionMode where
  | active
  | lazy
  deriving DecidableEq, Repr

namespace SlmExecutionMode

def fromStrLossy (lower : Lowercase) (s : String) : SlmExecutionMode :=
  if lower.apply s = "lazy" then .lazy else .active

def isActive : SlmExecutionMode → Bool
  | .active => true
  | .lazy => false

def display : SlmExecutionMode → String
  | .active => "active"
  | .lazy => "lazy"

end SlmExecutionMode

structure SlmNodeConfig where
  modelId : String
  modelPath : String
  executionMode : SlmExecutionMode
  deriving DecidableEq, Repr

namespace SlmNodeConfig

def fromEnv (lower : Lowercase) (env : Env) : Except String SlmNodeConfig :=
  let modelId := env.getD "SLM_MODEL_ID" "serein-slm-v1"
  let modelPath := env.getD "SLM_MODEL_PATH" "./serein-models/fallback-slm.gguf"
  if modelPath = "" then
    .error ("SLM_MODEL_PATH must not be empty - Physical Fallback Node requires a valid " ++
      "model path")
  else
    .ok ⟨modelId, modelPath, .fromStrLossy lower (env.getD "SLM_EXECUTION_MODE" "active")⟩

/-- What is used when the environment is refused. -/
def safe : SlmNodeConfig := ⟨"serein-slm-v1", "./serein-models/fallback-slm.gguf", .lazy⟩

/-- The configuration of the node in `main`. -/
def load (lower : Lowercase) (env : Env) : SlmNodeConfig :=
  match fromEnv lower env with
  | .ok config => config
  | .error _ => safe

def toWasiNnEndpoint (config : SlmNodeConfig) : WasiNnEndpoint where
  modelId := config.modelId
  inferenceTimeoutMs := 30000
  maxInputTokens := 4096
  enabled := config.executionMode.isActive

end SlmNodeConfig

/-! ### The kernel and the authenticator -/

/-- The engine that `SereinMicrokernel::new` makes. -/
def kernelMaskingEngine (deps : MaskingDeps) (env : Env) : Except String MaskingEngine :=
  match env "SEREIN_MASTER_KEY" with
  | none =>
      .error ("SEREIN_MASTER_KEY environment variable is required for production deployment. " ++
        "Set a 64-character hex-encoded 256-bit key.")
  | some masterKey =>
      if (utf8Bytes masterKey).length ≠ 64 then
        .error ("SEREIN_MASTER_KEY must be exactly 64 hex characters (256 bits). Received " ++
          toString (utf8Bytes masterKey).length ++ " characters.")
      else
        match hexDecode (utf8Bytes masterKey) with
        | .error e =>
            .error ("SEREIN_MASTER_KEY must be valid hexadecimal: " ++ e.display deps.debugChar)
        | .ok _ =>
            match MaskingEngine.new deps (some masterKey) with
            | .ok engine => .ok engine
            | .error _ => .error "Failed to initialize the Masking Engine"

/-- `ServiceAuthenticator::from_env`. -/
def authenticatorFromEnv (hmacSha256 : ByteArray → ByteArray → Vector UInt8 32) (env : Env) :
    Except HmacAuthError ServiceAuthenticator :=
  match env "SEREIN_INTERNAL_TOKEN" with
  | none => .error .missingToken
  | some token =>
      if token = "" then .error .missingToken else .ok ⟨token.toByteArray, hmacSha256⟩

/-! ### The providers -/

def groqConfig : ProviderConfig :=
  ⟨"groq", "Groq Llama 3 (8B)", "openai", "https://api.groq.com/openai/v1", "llama3-8b-8192", "",
    "GROQ_API_KEY", 10000, 2 * 1024 * 1024, "groq", none, none⟩

def deepseekConfig : ProviderConfig :=
  ⟨"deepseek", "DeepSeek-V3 Chat", "openai", "https://api.deepseek.com/v1", "deepseek-chat", "",
    "DEEPSEEK_API_KEY", 15000, 5 * 1024 * 1024, "deepseek", none, none⟩

def siliconflowConfig : ProviderConfig :=
  ⟨"siliconflow", "SiliconFlow Qwen 2.5", "openai", "https://api.siliconflow.cn/v1",
    "Qwen/Qwen2.5-7B-Instruct", "", "SILICONFLOW_API_KEY", 12000, 2 * 1024 * 1024, "siliconflow",
    none, none⟩

def buildProvidersFromEnv (env : Env) : List ProviderConfig :=
  [groqConfig, deepseekConfig, siliconflowConfig].filter fun config =>
    (env config.apiKeyEnv).isSome

/-! ### `main` -/

structure StartupDeps (F : Type) where
  config : ConfigDeps F
  masking : MaskingDeps
  hmacSha256 : ByteArray → ByteArray → Vector UInt8 32

/-- What `main` depends on besides the environment; an error comes with its text. -/
structure StartupWorld where
  /-- The client is made and the connection established. -/
  redis : (url : String) → Except String Unit
  /-- The engine of the kernel, its storage and the schema. -/
  kernelStorage : Except String Unit
  /-- The host functions and the security module. -/
  kernelLinks : Except String Unit
  providersFile : (path : String) → Except ProviderError (List ProviderConfig)
  httpClient : Except String Unit
  flightRecorder : Except String Unit

inductive StartupFailure where
  | panicked (message : String)
  | refused (message : String)
  deriving DecidableEq, Repr

/-- The parts of a gateway that are made from the environment. -/
structure Started (F : Type) where
  config : AppConfig F
  maskingEngine : MaskingEngine
  providers : List Provider
  slmConfig : SlmNodeConfig
  serviceAuth : Option ServiceAuthenticator

/-- The placeholder of the example, or no token at all. -/
def InsecureToken (env : Env) : Prop :=
  env.getD "APP_ENV" "" = "production" ∧
    (env.getD "SEREIN_INTERNAL_TOKEN" "" = "generate_a_random_uuid_here" ∨
      trim (env.getD "SEREIN_INTERNAL_TOKEN" "") = "")

instance (env : Env) : Decidable (InsecureToken env) := inferInstanceAs (Decidable (_ ∧ _))

/-- The configuration of the providers: that of the file, if it can be read. -/
def providersConfig (world : StartupWorld) (env : Env) : List ProviderConfig :=
  match world.providersFile (env.getD "PROVIDERS_CONFIG" "providers.toml") with
  | .ok configs => configs
  | .error _ => buildProvidersFromEnv env

/-- `main`, up to the authenticator. -/
def startup {F : Type} (deps : StartupDeps F) (world : StartupWorld) (env : Env) :
    Except StartupFailure (Started F) :=
  if InsecureToken env then
    .error (.panicked ("FATAL: Insecure default SEREIN_INTERNAL_TOKEN detected in production. " ++
      "Halting process."))
  else do
    (world.redis (env.getD "REDIS_URL" "redis://127.0.0.1:6379")).mapError .panicked
    let config ← (AppConfig.fromEnv deps.config env).mapError fun e =>
      .refused ("Failed to load application configuration from environment: " ++ e)
    world.kernelStorage.mapError .refused
    let maskingEngine ← (kernelMaskingEngine deps.masking env).mapError .refused
    world.kernelLinks.mapError .refused
    world.httpClient.mapError .refused
    let providers ← (buildProviders deps.config.lower env (providersConfig world env)).mapError
      fun e => .refused ("Failed to build providers from configuration: " ++ e.display)
    world.flightRecorder.mapError fun e =>
      .refused ("Failed to initialize consensus flight recorder: " ++ e)
    .ok {
      config, maskingEngine, providers
      slmConfig := SlmNodeConfig.load deps.config.lower env
      serviceAuth := (authenticatorFromEnv deps.hmacSha256 env).toOption }

variable {F : Type} {deps : StartupDeps F} {world : StartupWorld} {env : Env}
  {config : AppConfig F}

/-! ### Parts -/

theorem kernelMaskingEngine_of_key (masking : MaskingDeps) {key : String}
    (henv : env "SEREIN_MASTER_KEY" = some key) (hkey : IsKeyHex key) :
    ∃ engine, kernelMaskingEngine masking env = .ok engine ∧
      engine.encryptionKey.isSome = true ∧ MaskingEngine.new masking (some key) = .ok engine := by
  obtain ⟨engine, hengine, hsome⟩ := (MaskingEngine.new_isOk_iff key).mpr hkey
  obtain ⟨bytes, hbytes⟩ := hexDecode_isOk_iff.mpr ⟨by rw [hkey.1], hkey.2⟩
  refine ⟨engine, ?_, hsome, hengine⟩
  rw [kernelMaskingEngine, henv]
  dsimp only
  rw [if_neg (not_not.mpr hkey.1), hbytes, hengine]

theorem authenticatorFromEnv_of_token (hmac : ByteArray → ByteArray → Vector UInt8 32)
    {token : String} (henv : env "SEREIN_INTERNAL_TOKEN" = some token) (htoken : token ≠ "") :
    authenticatorFromEnv hmac env = .ok ⟨token.toByteArray, hmac⟩ := by
  rw [authenticatorFromEnv, henv]
  exact if_neg htoken

theorem lower_eq_self (lower : Lowercase) {s : String} (hascii : ∀ c ∈ s.toList, c.toNat < 128)
    (hlower : s.toList.map Char.toLower = s.toList) : lower.apply s = s := by
  rw [lower.ascii s hascii]
  exact String.toList_injective (String.toList_map.trans hlower)

theorem fromStrLossy_display (lower : Lowercase) (mode : SlmExecutionMode) :
    SlmExecutionMode.fromStrLossy lower mode.display = mode := by
  have hlower : lower.apply mode.display = mode.display :=
    lower_eq_self lower (by cases mode <;> simp [SlmExecutionMode.display])
      (by cases mode <;> rfl)
  rw [SlmExecutionMode.fromStrLossy, hlower]
  cases mode <;> rfl

theorem modelPath_eq_iff (hconfig : AppConfig.fromEnv deps.config env = .ok config) :
    ∃ slmConfig, SlmNodeConfig.fromEnv deps.config.lower env = .ok slmConfig ∧
      slmConfig.modelId = config.slmModelId ∧
      slmConfig.executionMode.display = config.slmExecutionMode.1 ∧
      (slmConfig.modelPath = config.slmModelPath.1 ↔ (env "SLM_MODEL_PATH").isSome = true) := by
  obtain ⟨-, -, hpath, hmode, hid⟩ := AppConfig.fields_of_fromEnv hconfig
  have hpath' := AppConfig.of_loadSlmModelPath hpath
  have hmode' := AppConfig.of_loadSlmExecutionMode hmode
  have hne : env.getD "SLM_MODEL_PATH" "./serein-models/fallback-slm.gguf" ≠ "" := by
    cases hvar : env "SLM_MODEL_PATH" with
    | none =>
        rw [Env.getD, hvar]
        decide
    | some path =>
        have hsame : config.slmModelPath.1 = path := by rw [hpath', Env.getD, hvar]; rfl
        rw [Env.getD, hvar, Option.getD_some, ← hsame]
        exact config.slmModelPath.2
  refine ⟨_, if_neg hne, hid.symm, ?_, ?_⟩
  · rw [← hmode']
    obtain hactive | hlazy := config.slmExecutionMode.2
    · rw [hactive]
      exact congrArg _ (fromStrLossy_display deps.config.lower .active)
    · rw [hlazy]
      exact congrArg _ (fromStrLossy_display deps.config.lower .lazy)
  · rw [hpath']
    show env.getD _ _ = env.getD _ _ ↔ _
    rw [Env.getD, Env.getD]
    cases env "SLM_MODEL_PATH" with
    | none => exact iff_of_false (by decide) (by decide)
    | some path => exact iff_of_true rfl rfl

/-- The configuration from the environment can always be built. -/
theorem buildProviders_fromEnv (lower : Lowercase) (env : Env) :
    ∃ providers, buildProviders lower env (buildProvidersFromEnv env) = .ok providers := by
  have hformat : lower.apply "openai" = "openai" := lower_eq_self lower (by simp) rfl
  have hconfigs : ∀ config ∈ buildProvidersFromEnv env,
      config.adapter.isSome = false ∧ config.apiFormat = "openai" := by
    intro config hconfig
    have hmem := (List.mem_filter.mp hconfig).1
    simp only [List.mem_cons, List.not_mem_nil, or_false] at hmem
    obtain rfl | rfl | rfl := hmem <;> exact ⟨rfl, rfl⟩
  rw [buildProviders]
  generalize buildProvidersFromEnv env = configs at hconfigs
  induction configs with
  | nil => exact ⟨[], rfl⟩
  | cons config configs ih =>
      obtain ⟨hadapter, hopenai⟩ := hconfigs config List.mem_cons_self
      obtain ⟨providers, hproviders⟩ := ih fun c hc => hconfigs c (List.mem_cons_of_mem _ hc)
      have hbuild : config.buildProvider lower env = .ok (.openAi (.fromConfig env config)) := by
        rw [ProviderConfig.buildProvider, hadapter, hopenai, hformat, if_neg Bool.false_ne_true,
          if_pos rfl]
      refine ⟨.openAi (.fromConfig env config) :: providers, ?_⟩
      rw [List.mapM_cons, hbuild, hproviders]
      rfl

/-! ### The gateway -/

theorem mapError_eq_ok_iff {ε ε' α : Type} {x : Except ε α} {f : ε → ε'} {a : α} :
    x.mapError f = .ok a ↔ x = .ok a := by
  cases x with
  | error e => exact iff_of_false nofun nofun
  | ok b => exact ⟨fun h => by cases h; rfl, fun h => by cases h; rfl⟩

/-- What is outside of the environment is there. -/
structure StartupWorld.Serves (world : StartupWorld) (env : Env) : Prop where
  redis : world.redis (env.getD "REDIS_URL" "redis://127.0.0.1:6379") = .ok ()
  kernelStorage : world.kernelStorage = .ok ()
  kernelLinks : world.kernelLinks = .ok ()
  httpClient : world.httpClient = .ok ()
  flightRecorder : world.flightRecorder = .ok ()

/-- The steps of `main`, one after the other. -/
theorem startup_eq_ok_iff {gateway : Started F} : startup deps world env = .ok gateway ↔
    (¬InsecureToken env ∧ world.Serves env) ∧
      AppConfig.fromEnv deps.config env = .ok gateway.config ∧
      kernelMaskingEngine deps.masking env = .ok gateway.maskingEngine ∧
      buildProviders deps.config.lower env (providersConfig world env) = .ok gateway.providers ∧
      gateway.slmConfig = SlmNodeConfig.load deps.config.lower env ∧
      gateway.serviceAuth = (authenticatorFromEnv deps.hmacSha256 env).toOption := by
  rw [startup]
  constructor
  · intro h
    split at h
    · cases h
    · rename_i hsecure
      obtain ⟨_, hredis, h⟩ := exists_of_bind_eq_ok h
      obtain ⟨config, hconfig, h⟩ := exists_of_bind_eq_ok h
      obtain ⟨_, hstorage, h⟩ := exists_of_bind_eq_ok h
      obtain ⟨maskingEngine, hengine, h⟩ := exists_of_bind_eq_ok h
      obtain ⟨_, hlinks, h⟩ := exists_of_bind_eq_ok h
      obtain ⟨_, hclient, h⟩ := exists_of_bind_eq_ok h
      obtain ⟨providers, hproviders, h⟩ := exists_of_bind_eq_ok h
      obtain ⟨_, hrecorder, h⟩ := exists_of_bind_eq_ok h
      rw [mapError_eq_ok_iff] at hredis hconfig hstorage hengine hlinks hclient hproviders hrecorder
      cases h
      exact ⟨⟨hsecure, hredis, hstorage, hlinks, hclient, hrecorder⟩, hconfig, hengine, hproviders,
        rfl, rfl⟩
  · rintro ⟨⟨hsecure, hserves⟩, hconfig, hengine, hproviders, hslm, hauth⟩
    rw [if_neg hsecure, hserves.redis, hconfig, hserves.kernelStorage, hengine,
      hserves.kernelLinks, hserves.httpClient, hproviders, hserves.flightRecorder]
    obtain ⟨config, maskingEngine, providers, slmConfig, serviceAuth⟩ := gateway
    dsimp only at hslm hauth
    rw [hslm, hauth]
    rfl

/-- An environment with the two variables that are required and the key of a provider. -/
def smallEnv (name : String) : Option String :=
  if name = "SEREIN_MASTER_KEY" then some (generateKey zeroKey)
  else if name = "SEREIN_INTERNAL_TOKEN" then some "test-token"
  else if name = "GROQ_API_KEY" then some "gsk-test"
  else none

/-- No number can be parsed but the default. -/
def unitDeps : ConfigDeps Unit where
  parseF64 s := if s = "1.0" then some () else none
  lower := asciiLowercase
  debugChar _ := ""

/-- Everything is there but the file of the providers. -/
def smallWorld : StartupWorld where
  redis _ := .ok ()
  kernelStorage := .ok ()
  kernelLinks := .ok ()
  providersFile path := .error (.configError ("Failed to read " ++ path))
  httpClient := .ok ()
  flightRecorder := .ok ()

/-- It starts, and it does not in production with the placeholder. -/
example : ((startup ⟨unitDeps, zeroDeps, fun _ _ => .replicate 32 0⟩ smallWorld
      smallEnv).toOption.map fun gateway =>
        gateway.providers.map fun p => p.llmProvider.providerId) = some ["groq"] ∧
    (startup ⟨unitDeps, zeroDeps, fun _ _ => .replicate 32 0⟩ smallWorld fun name =>
      if name = "APP_ENV" then some "production"
      else if name = "SEREIN_INTERNAL_TOKEN" then some "generate_a_random_uuid_here"
      else smallEnv name).toOption.isNone := by
  decide +kernel

end SereinGateway.Gateway
