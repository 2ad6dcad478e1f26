import SereinGateway.Consensus.Engine
import SereinGateway.Router.RequestKey
import SereinGateway.Worker.Pii

/-!
`TmrOrchestrator`: one dispatch of a request to all providers, its
adjudication, and what happens to the result.

Everything the environment decides is data: what each provider did, in which
order the provider futures finished, how the fallback node fared, the clock
and the order of hash maps. The phases of `dispatch_consensus_inner` between
two await points are functions of their own, so that a machine of interleaved
requests can run them one by one; `dispatchConsensusInner` runs them in one
go, with a masking map that nobody else touches.
-/

namespace SereinGateway.Router

open SereinGateway.Lib SereinGateway.Consensus SereinGateway.Interfaces SereinGateway.Worker

/-! ### Requests and results -/

structure ProviderRequest where
  prompt : String
  tenantId : String
  deriving DecidableEq, Repr

inductive TmrNodeError where
  | httpForbidden
  | httpRateLimited
  | timeout
  | circuitBreakerOpen
  | serverError (code : UInt16)
  | parseError (message : String)
  | networkError (message : String)
  deriving DecidableEq, Repr

def TmrNodeError.shouldTriggerFallback : TmrNodeError → Bool
  | .httpForbidden | .httpRateLimited | .timeout | .circuitBreakerOpen => true
  | .serverError _ | .parseError _ | .networkError _ => false

/-- The status under which a provider error enters the vote. -/
def TmrNodeError.status : TmrNodeError → ResponseStatus
  | .httpRateLimited => .rateLimited
  | .serverError _ => .serverError
  | .networkError _ => .networkError
  | .timeout => .timeout
  | .httpForbidden | .circuitBreakerOpen | .parseError _ => .serverError

structure TmrNodeResult where
  providerId : String
  providerName : String
  output : Option String
  error : Option TmrNodeError
  durationMs : UInt64
  fallbackTriggered : Bool
  deriving DecidableEq, Repr

structure FallbackNodeResult where
  output : Option String
  error : Option String
  durationMs : UInt64
  modelId : String
  deriving DecidableEq, Repr

structure TmrConsensusResult where
  majorityOutput : Option String
  agreementCount : ℕ
  totalNodes : ℕ
  fallbackActivated : Bool
  nodeResults : List TmrNodeResult
  fallbackResult : Option FallbackNodeResult
  consensusAchieved : Bool
  totalDurationMs : UInt64
  cacheHit : Bool
  deriving DecidableEq, Repr

/-- `TmrConsensusResult::default()`. -/
instance : Inhabited TmrConsensusResult :=
  ⟨⟨none, 0, 0, false, [], none, false, 0, false⟩⟩

/-! ### The fallback node -/

structure WasiNnEndpoint where
  modelId : String
  inferenceTimeoutMs : UInt64
  maxInputTokens : ℕ
  enabled : Bool
  deriving DecidableEq, Repr

/-- The fallback node; `wasiNn` is the cargo feature it was built with. -/
structure PhysicalFallbackNode where
  endpoint : WasiNnEndpoint
  wasiNn : Bool
  deriving DecidableEq, Repr

/-- What the environment does to an invocation of the fallback node. -/
inductive FallbackAttempt where
  | semaphoreClosed
  | overloaded
  /-- A permit was acquired; the inference, if it is reached, ends so. -/
  | admitted (inference : Except String String) (durationMs : UInt64)
  | inferenceTimedOut

/-- The answer of a build without `wasi-nn`. -/
def mockOutput : String :=
  "\x7b\"networkId\":\"FALLBACK\",\"taskType\":\"Unknown\",\"maxGasLimit\":0," ++
    "\"confidenceScore\":0.50,\"sourceUrl\":\"local://wasi-nn-slm\"\x7d"

namespace PhysicalFallbackNode

def failed (node : PhysicalFallbackNode) (error : String) (durationMs : UInt64) :
    FallbackNodeResult :=
  ⟨none, some error, durationMs, node.endpoint.modelId⟩

/-- The part of `invoke` after a permit was acquired. -/
def infer (node : PhysicalFallbackNode) (prompt : String)
    (inference : Option (Except String String)) (durationMs : UInt64) : FallbackNodeResult :=
  if !node.endpoint.enabled then node.failed "Physical fallback node is disabled" durationMs
  -- A token is taken to be four bytes.
  else if node.endpoint.maxInputTokens * 4 < prompt.utf8ByteSize then
    node.failed ("Prompt exceeds max input tokens: " ++ toString prompt.utf8ByteSize ++
      " chars (max " ++ toString node.endpoint.maxInputTokens ++ " tokens)") durationMs
  else if node.wasiNn then
    match inference with
    | some (.ok output) => ⟨some output, none, durationMs, node.endpoint.modelId⟩
    | some (.error e) => node.failed ("wasi-nn inference failed: " ++ e) durationMs
    | none =>
        node.failed ("wasi-nn inference timed out after " ++
          toString node.endpoint.inferenceTimeoutMs ++ "ms") node.endpoint.inferenceTimeoutMs
  else ⟨some mockOutput, none, durationMs, node.endpoint.modelId⟩

def invoke (node : PhysicalFallbackNode) (prompt : String) :
    FallbackAttempt → FallbackNodeResult
  | .semaphoreClosed => node.failed "Node D semaphore closed" 0
  | .overloaded =>
      node.failed "Node D overloaded: Concurrency limit reached after bounded wait" 0
  | .admitted inference durationMs => node.infer prompt (some inference) durationMs
  | .inferenceTimedOut => node.infer prompt none node.endpoint.inferenceTimeoutMs

end PhysicalFallbackNode

/-! ### Construction -/

/-- A provider as the orchestrator sees it. -/
structure LlmProvider where
  providerId : String
  displayName : String
  timeoutMs : UInt64
  deriving DecidableEq, Repr

structure ProviderAdapter where
  node : ProviderNode
  provider : LlmProvider
  deriving DecidableEq, Repr

/-- The environment variables read by `with_providers`. -/
structure TmrSettings where
  canonicalStrategy : Option String
  minAgreement : Option String
  queryTimeoutMs : Option String
  consensusTimeoutMs : Option String
  deriving DecidableEq, Repr

def tmrMinAgreement : ℕ := 2

/-- What a dispatch computes with besides its own state: the request key
functions, the patterns of the worker and the JSON form of a result. -/
structure RouterDeps extends KeyDeps where
  patterns : PiiPatterns
  /-- `serde_json::to_string`. -/
  toJson : TmrConsensusResult → Option String
  /-- `serde_json::from_str`. -/
  fromJson : String → Option TmrConsensusResult

structure TmrOrchestrator where
  fallbackNode : PhysicalFallbackNode
  adapters : List ProviderAdapter
  tmrEngine : TmrConsensusEngine
  canonicalStrategy : TmrCanonicalStrategy
  minAgreement : ℕ
  hasCache : Bool
  hasFinops : Bool

namespace TmrOrchestrator

def adapterOf (provider : LlmProvider) : ProviderAdapter :=
  ⟨.custom provider.providerId, provider⟩

def withProviders (lower : Lowercase) (settings : TmrSettings) (fallback : PhysicalFallbackNode)
    (providers : List LlmProvider) : TmrOrchestrator :=
  let strategy := TmrCanonicalStrategy.fromStrLossy lower (settings.canonicalStrategy.getD "strict")
  -- A value that does not parse is the default, and one below two is raised to two.
  let minAgreement := max ((settings.minAgreement.bind parseU64).getD tmrMinAgreement) 2
  let config : TmrConfig :=
    { strictMode := strategy = .strict
      queryTimeoutMs := .ofNat ((settings.queryTimeoutMs.bind parseU64).getD 30000)
      consensusTimeoutMs := .ofNat ((settings.consensusTimeoutMs.bind parseU64).getD 60000)
      minAgreement }
  { fallbackNode := fallback
    adapters := providers.map adapterOf
    -- Providers that share an id share a node of the engine.
    tmrEngine := .withConfigAndNodes config ((providers.map adapterOf).map (·.node))
    canonicalStrategy := strategy
    minAgreement
    hasCache := false
    hasFinops := false }

def withCache (orch : TmrOrchestrator) : TmrOrchestrator := { orch with hasCache := true }

def withFinops (orch : TmrOrchestrator) : TmrOrchestrator := { orch with hasFinops := true }

end TmrOrchestrator

/-! ### A dispatch, phase by phase -/

/-- What happened to the call of one provider. -/
inductive ProviderOutcome where
  | breakerOpen
  | answered (content : String) (durationMs : UInt64)
  | failed (err : TmrNodeError) (durationMs : UInt64)
  | elapsed
  deriving DecidableEq, Repr

/-- The vote key of an answer: the canonical key of its payload, or nothing. -/
def RouterDeps.voteKey (deps : RouterDeps) (content : String) : String :=
  match IntermediatePayload.fromLlmOutput deps.parser content with
  | .ok payload => payload.canonicalKey deps.lower
  | .error _ => ""

namespace ProviderAdapter

def respond (deps : RouterDeps) (adapter : ProviderAdapter) : ProviderOutcome → ProviderResponse
  | .breakerOpen => ⟨adapter.node, "", "", 0, 0, .serverError⟩
  | .answered content durationMs =>
      ⟨adapter.node, content, deps.voteKey content, durationMs, 0, .success⟩
  | .failed err durationMs => ⟨adapter.node, "", "", durationMs, 0, err.status⟩
  | .elapsed => ⟨adapter.node, "", "", adapter.provider.timeoutMs, 0, .timeout⟩

/-- The record that the future of a provider pushes to the collector. -/
def nodeResult (adapter : ProviderAdapter) : ProviderOutcome → TmrNodeResult
  | .breakerOpen =>
      ⟨adapter.provider.providerId, adapter.provider.displayName, none,
        some .circuitBreakerOpen, 0, true⟩
  | .answered content durationMs =>
      ⟨adapter.provider.providerId, adapter.provider.displayName, some content, none,
        durationMs, false⟩
  | .failed err durationMs =>
      ⟨adapter.provider.providerId, adapter.provider.displayName, none, some err, durationMs,
        err.shouldTriggerFallback⟩
  | .elapsed =>
      ⟨adapter.provider.providerId, adapter.provider.displayName, none, some .timeout,
        adapter.provider.timeoutMs, true⟩

end ProviderAdapter

/-- What the environment decides while a dispatch awaits its providers. -/
structure ProviderRound where
  /-- The outcome of each adapter, by its position. -/
  outcome : ℕ → ProviderOutcome
  /-- The order in which the provider futures finished. -/
  completion : Shuffle TmrNodeResult
  /-- The order in which `evaluate` scans its map. -/
  scan : Shuffle VoteRow

/-- Decision on a round of responses: an agreed answer, or the fallback. -/
inductive Verdict where
  | consensus (result : ConsensusResult)
  | stasis
  deriving DecidableEq, Repr

namespace TmrOrchestrator

variable (orch : TmrOrchestrator)

/-- The responses of all providers, in the order of the adapters. -/
def responses (deps : RouterDeps) (round : ProviderRound) : List ProviderResponse :=
  orch.adapters.mapIdx fun i adapter => adapter.respond deps (round.outcome i)

def nodeResults (round : ProviderRound) : List TmrNodeResult :=
  round.completion.order
    (orch.adapters.mapIdx fun i adapter => adapter.nodeResult (round.outcome i))

def successful (responses : List ProviderResponse) : List ProviderResponse :=
  responses.filter fun r => r.status = .success && r.content ≠ ""

/-- Quorum test and adjudication. The result is `none` when the engine aborts. -/
def adjudicate (deps : RouterDeps) (round : ProviderRound) : Option Verdict :=
  let responses := orch.responses deps round
  -- The quorum counts answers, whether or not a vote key can be read from them.
  if (successful responses).length < orch.minAgreement then some .stasis
  else
    (orch.tmrEngine.evaluate round.scan responses).map fun
      | .ok consensus => .consensus consensus
      | .error _ => .stasis

def handleConsensusSuccess (result : ConsensusResult) (nodeResults : List TmrNodeResult)
    (elapsedMs : UInt64) : TmrConsensusResult where
  majorityOutput := some result.content
  agreementCount := result.winningProviders.length
  totalNodes := orch.adapters.length
  fallbackActivated := false
  nodeResults := nodeResults
  fallbackResult := none
  consensusAchieved := true
  totalDurationMs := elapsedMs
  cacheHit := false

/-- `handle_consensus_failure_stasis`, once the fallback node has answered. -/
def handleConsensusFailureStasis (fallbackResult : FallbackNodeResult)
    (nodeResults : List TmrNodeResult) (elapsedMs : UInt64) : TmrConsensusResult :=
  match fallbackResult.output with
  | some output =>
      { majorityOutput := some output
        agreementCount := 1
        totalNodes := orch.adapters.length + 1
        fallbackActivated := true
        nodeResults
        fallbackResult := some fallbackResult
        consensusAchieved := true
        totalDurationMs := elapsedMs
        cacheHit := false }
  | none =>
      { majorityOutput := none
        agreementCount := 0
        totalNodes := orch.adapters.length
        fallbackActivated := true
        nodeResults
        fallbackResult := some fallbackResult
        consensusAchieved := false
        totalDurationMs := elapsedMs
        cacheHit := false }

/-- The result that a verdict leads to. The fallback node sees the prompt as
it came, not the masked one. -/
def resultOf (prompt : String) (round : ProviderRound) (attempt : FallbackAttempt)
    (elapsedMs : UInt64) : Verdict → TmrConsensusResult
  | .consensus result => orch.handleConsensusSuccess result (orch.nodeResults round) elapsedMs
  | .stasis =>
      orch.handleConsensusFailureStasis (orch.fallbackNode.invoke prompt attempt)
        (orch.nodeResults round) elapsedMs

/-- Restoration with the map that was removed from the table, if there was one. -/
def restoreOutput (iter : Shuffle (Σ _ : String, String)) (removed : Option MaskingMap)
    (result : TmrConsensusResult) : TmrConsensusResult :=
  match removed with
  | none => { result with cacheHit := false }
  | some map =>
      { result with
        majorityOutput := result.majorityOutput.map fun output => restore iter output map
        cacheHit := false }

/-- The text handed to the cache, if the result is to be cached. -/
def cacheWrite (deps : RouterDeps) (result : TmrConsensusResult) : Option String :=
  if orch.hasCache && (result.consensusAchieved && result.majorityOutput.isSome) then
    deps.toJson result
  else none

end TmrOrchestrator

/-- Everything the environment decides during one dispatch. -/
structure DispatchEnv where
  counter : UInt64
  round : ProviderRound
  attempt : FallbackAttempt
  elapsedMs : UInt64
  restoreOrder : Shuffle (Σ _ : String, String)

/-- `dispatch_consensus_inner`, undisturbed by other requests. Both write-back
paths of the source end alike, so they are one here. -/
def TmrOrchestrator.dispatchConsensusInner (orch : TmrOrchestrator) (deps : RouterDeps)
    (env : DispatchEnv) (req : ProviderRequest) : Option TmrConsensusResult :=
  let masking := (deps.patterns.mask env.counter req.prompt).2
  (orch.adjudicate deps env.round).map fun verdict =>
    TmrOrchestrator.restoreOutput env.restoreOrder (some masking.map)
      (orch.resultOf req.prompt env.round env.attempt env.elapsedMs verdict)

end SereinGateway.Router
