import Mathlib
import SereinGateway.Core.WasmTransfer
import SereinGateway.Gateway.HotSwap
import SereinGateway.Gateway.UnmaskedAnswer
import SereinGateway.Router.EgressGuard
import SereinGateway.Sandbox.DeterministicHooks
import SereinGateway.TrafficControl.Eviction
import SereinGateway.Worker.ComplianceBus

/-!
What the worker of the compliance bus logs of the requests.

The two handlers are here from their first line to the answer, with the event
that each of them emits on its way. `Tells` is the relation between an answer and
its event: a request has one event, of the action that its code stands for, but
for a network id that is refused, a payload that cannot be serialised and a hot
swap that fails, which have none.

The handlers of the gateway run concurrently and share the nonce cache, the
limiter and the store. A handler visits each of these once, and what it finds
there is an argument here, so that the statements hold of every interleaving;
the requests are listed in the order in which they emit.
-/

namespace SereinGateway.Gateway

open SereinGateway.Lib SereinGateway.Core SereinGateway.Interfaces SereinGateway.Router
open SereinGateway.Sandbox SereinGateway.Security SereinGateway.TrafficControl
open SereinGateway.Worker

/-! ### The address of the client -/

/-- A network of the `ipnet` crate; an address is the number of its octets. -/
inductive IpNet where
  | v4 (addr prefixLen : ℕ)
  | v6 (addr prefixLen : ℕ)

def IpNet.contains : IpNet → IpAddr → Bool
  | .v4 net len, .v4 addr => net >>> (32 - len) == addr.toNat >>> (32 - len)
  | .v6 net len, .v6 a =>
      let addr := [a.s0, a.s1, a.s2, a.s3, a.s4, a.s5, a.s6, a.s7].foldl
        (fun n s => n * 65536 + s.toNat) 0
      net >>> (128 - len) == addr >>> (128 - len)
  | _, _ => false

def ipv4Net (a b c d len : ℕ) : IpNet := .v4 (((a * 256 + b) * 256 + c) * 256 + d) len

/-- A network whose address ends after two groups. -/
def ipv6Net (s0 s1 len : ℕ) : IpNet := .v6 ((s0 * 65536 + s1) * 2 ^ 96) len

def cloudflareCidrs : List IpNet :=
  [ipv4Net 173 245 48 0 20, ipv4Net 103 21 244 0 22, ipv4Net 103 22 200 0 22,
    ipv4Net 103 31 4 0 22, ipv4Net 141 101 64 0 18, ipv4Net 108 162 192 0 18,
    ipv4Net 190 93 240 0 20, ipv4Net 188 114 96 0 20, ipv4Net 197 234 240 0 22,
    ipv4Net 198 41 128 0 17, ipv4Net 162 158 0 0 15, ipv4Net 104 16 0 0 13,
    ipv4Net 104 24 0 0 14, ipv4Net 172 64 0 0 13, ipv4Net 131 0 72 0 22,
    ipv6Net 0x2400 0xcb00 32, ipv6Net 0x2606 0x4700 32, ipv6Net 0x2803 0xf800 32,
    ipv6Net 0x2405 0xb500 32, ipv6Net 0x2405 0x8100 32, ipv6Net 0x2a06 0x98c0 29,
    ipv6Net 0x2c0f 0xf248 32]

def isTrustedProxy (socketIp : IpAddr) : Bool := cloudflareCidrs.any (·.contains socketIp)

/-- `extract_trusted_ip`; `parseIp` is the parser of the standard library. -/
def extractTrustedIp (parseIp : String → Option IpAddr) (cfConnectingIp : Option (List UInt8))
    (socketIp : IpAddr) : IpAddr :=
  if isTrustedProxy socketIp then
    match cfConnectingIp.bind toStr with
    | some cfIp => (parseIp (trim (.ofList (cfIp.toList.takeWhile (· ≠ ','))))).getD socketIp
    | none => socketIp
  else socketIp

/-! ### Rejections -/

/-- The arguments of `emit_audit_event` but for the address. -/
structure AuditNote where
  tenantId : String
  rawPayload : String
  action : AuditAction
  deriving DecidableEq

/-- A response that ends a handler, and the event that is emitted with it. -/
structure Rejection where
  response : ErrorResponse
  note : Option AuditNote
  deriving DecidableEq

/-- `handle_agent_execution` up to the end of the authentication, with its events. -/
def auditAuthentication (serviceAuth : Option (String → String → Except HmacAuthError Unit))
    (moment : Moment) (headers : HeaderMap) (body : AgentExecutionPayload)
    (cache : NonceCacheInner) : Except Rejection String × NonceCacheInner :=
  match headers.extractTenantId with
  | none =>
      (.error ⟨⟨401, "Missing or empty x-serein-tenant-id header - tenant identity required for " ++
        "billing", "MISSING_TENANT_ID"⟩, some ⟨"unknown", "missing tenant ID", .blockedByAuth⟩⟩,
        cache)
  | some tenantId =>
      match serviceAuth with
      | none => (.ok tenantId, cache)
      | some verify =>
          match headers.authorization.bind toStr with
          | some authHeader =>
              if headers.nonce = "" then
                (.error ⟨⟨401,
                  "Missing x-serein-nonce header - UUID nonce required for idempotency",
                  "MISSING_NONCE"⟩, some ⟨tenantId, "missing nonce", .blockedByAuth⟩⟩, cache)
              else if headers.requestTimestamp = 0 then
                (.error ⟨⟨401, "Missing or invalid x-serein-timestamp header - epoch seconds " ++
                  "required", "MISSING_TIMESTAMP"⟩,
                  some ⟨tenantId, "missing timestamp", .blockedByAuth⟩⟩, cache)
              else
                let payload := agentExecutionText tenantId body.networkId body.taskTypeVal
                  headers.requestTimestamp headers.nonce
                match validateWith verify moment authHeader payload headers.requestTimestamp
                  cache with
                | (.error e, cache) =>
                    let action := if e = .replayDetected then AuditAction.blockedByReplay
                      else .blockedByAuth
                    (.error ⟨⟨401, "HMAC signature verification failed", HmacAuthError.code e⟩,
                      some ⟨tenantId, "HMAC auth failed", action⟩⟩, cache)
                | (.ok (), cache) => (.ok tenantId, cache)
          | none =>
              (.error ⟨⟨401, "Authorization header required for HMAC authentication",
                "MISSING_AUTH_HEADER"⟩, some ⟨tenantId, "missing auth header", .blockedByAuth⟩⟩,
                cache)

theorem auditAuthentication_response
    (serviceAuth : Option (String → String → Except HmacAuthError Unit)) (moment : Moment)
    (headers : HeaderMap) (body : AgentExecutionPayload) (cache : NonceCacheInner) :
    ((auditAuthentication serviceAuth moment headers body cache).1.mapError Rejection.response,
      (auditAuthentication serviceAuth moment headers body cache).2) =
        authenticateAgentExecution serviceAuth moment headers body cache := by
  cases htenant : headers.extractTenantId with
  | none => simp [auditAuthentication, authenticateAgentExecution, htenant, Except.mapError]
  | some tenantId =>
      cases serviceAuth with
      | none => simp [auditAuthentication, authenticateAgentExecution, htenant, Except.mapError]
      | some verify =>
          cases hheader : headers.authorization.bind toStr with
          | none =>
              simp [auditAuthentication, authenticateAgentExecution, htenant, hheader,
                Except.mapError]
          | some authHeader =>
              simp only [auditAuthentication, authenticateAgentExecution, htenant, hheader]
              split
              · rfl
              · split
                · rfl
                · generalize validateWith verify moment authHeader _ headers.requestTimestamp cache =
                    validated
                  obtain ⟨_ | _, cache'⟩ := validated <;> rfl

/-! ### `handle_agent_execution` -/

structure ProviderResultEntry where
  provider : String
  status : String
  canonicalKey : Option String
  deriving DecidableEq

/-- What is written to the corpus. Times are in nanoseconds since the epoch. -/
structure ConsensusEvent where
  timestamp : ℕ
  requestId : String
  tenantId : String
  prompt : String
  cloudTimeoutMs : ℕ
  agreeingNodes : UInt8
  totalNodes : UInt8
  adjudicationLogic : String
  /-- Without a payload this is `null`. -/
  consensusPayload : Option IntermediatePayload
  providerResults : List ProviderResultEntry
  fallbackActivated : Bool
  deriving DecidableEq

/-- What the handlers are given when the gateway starts. -/
structure GatewayDeps where
  serviceAuth : Option (String → String → Except HmacAuthError Unit)
  /-- `API_RATE_LIMITER`, if it has been initialised. -/
  rateLimiter : Option ApiConfig
  waf : PromptInjectionWaf
  lower : Lowercase
  parser : PayloadParser
  toJson : IntermediatePayload → Option String
  parseIp : String → Option IpAddr
  displayIp : IpAddr → String
  displayNetworkError : NetworkError → String
  /-- `{:?}` -/
  debugNodeError : TmrNodeError → String

/-- What the handlers share. A handler finds each part as it is when it gets there. -/
structure GatewayState (κ : Type*) extends AppState κ where
  limiter : ApiMemory
  store : RedisStore

/-- The connection and the clocks of a request. -/
structure RequestContext where
  headers : HeaderMap
  cfConnectingIp : Option (List UInt8)
  socketIp : IpAddr
  moment : Moment
  /-- The time of the event, in milliseconds. -/
  emittedAt : UInt64

/-- An agent execution, with the consensus of the providers; `none` is the timeout. -/
structure AgentExecution where
  body : AgentExecutionPayload
  readings : AcquireReadings
  execute : ProviderRequest → Option TmrConsensusResult
  /-- The two readings of the clock for the consensus event. -/
  timestamp : ℕ
  requestIdMillis : ℕ

/-- `acquire_api_token` of the crate. -/
def GatewayDeps.acquireApiToken (deps : GatewayDeps) (tenantId : String)
    (readings : AcquireReadings) (limiter : ApiMemory) : Except NetworkError Unit × ApiMemory :=
  match deps.rateLimiter with
  | none => (.error (.globalRateLimitExceeded 0 0), limiter)
  | some config => limiter.acquireApiToken config tenantId readings

/-- The checks between the deduction and the providers: the request for the providers. -/
def GatewayDeps.checkExecution (deps : GatewayDeps) (tenantId : String)
    (body : AgentExecutionPayload) : Except Rejection ProviderRequest :=
  if validNetworkId body.networkId then
    if validTaskType body.taskTypeVal then
      let prompt := executionPrompt (deps.lower.apply body.networkId) body.taskTypeVal
      match deps.waf.scan prompt with
      | .blocked violation =>
          .error ⟨⟨403, "Prompt injection detected: " ++ violation.signature, "WAF_BLOCKED"⟩,
            some ⟨tenantId, "WAF blocked: " ++ violation.signature, .blockedByWasm⟩⟩
      | .clean => .ok ⟨prompt, tenantId⟩
    else
      .error ⟨⟨400, "task_type contains invalid characters or exceeds length limits",
        "SECURITY_VIOLATION"⟩, some ⟨tenantId, "prompt injection attempt", .blockedByWasm⟩⟩
  else
    .error ⟨⟨400, "network_id must be a non-empty alphanumeric string (max 64 chars)",
      "INVALID_NETWORK_ID"⟩, none⟩

def GatewayDeps.providerResults (deps : GatewayDeps) (result : TmrConsensusResult) :
    List (String × String) :=
  (result.nodeResults.filterMap fun node =>
    match node.output, node.error with
    | some text, none => some (node.providerName, text)
    | _, some err => some (node.providerName, "ERROR: " ++ deps.debugNodeError err)
    | none, none => none) ++
  ((result.fallbackResult.bind FallbackNodeResult.output).map fun output =>
    ("FallbackNodeD", output)).toList

/-- The entry of a provider in the consensus event. -/
def GatewayDeps.resultEntry (deps : GatewayDeps) (result : String × String) :
    ProviderResultEntry where
  provider := result.1
  status := if "ERROR:".toList <+: result.2.toList then "error" else "success"
  canonicalKey :=
    if "ERROR:".toList <+: result.2.toList then none
    else (IntermediatePayload.fromLlmOutput deps.parser result.2).toOption.map
      (·.canonicalKey deps.lower)

def GatewayDeps.consensusEvent (deps : GatewayDeps) (call : AgentExecution)
    (request : ProviderRequest) (result : TmrConsensusResult) : ConsensusEvent :=
  let consensus := reportedConsensus result ""
  { timestamp := call.timestamp
    requestId := "tmr-" ++ toString call.requestIdMillis
    tenantId := request.tenantId
    prompt := request.prompt
    cloudTimeoutMs := 30000
    agreeingNodes := consensus.agreeingNodes
    totalNodes := consensus.totalNodes
    adjudicationLogic := consensus.adjudicationLogic
    consensusPayload := consensusPayload deps.parser result
    providerResults := (deps.providerResults result).map deps.resultEntry
    fallbackActivated := result.fallbackActivated }

/-- What `record_consensus_event` sends on to its writer. -/
def recordConsensusEvent (event : ConsensusEvent) : Option ConsensusEvent :=
  if event.agreeingNodes < 2 then none else some event

/-- How a handler ends. -/
structure ExecutionOutcome (κ : Type*) where
  answer : ExecutionAnswer
  note : Option AuditNote
  recorded : Option ConsensusEvent
  state : GatewayState κ

variable {κ : Type*}

def Rejection.outcome (r : Rejection) (state : GatewayState κ) : ExecutionOutcome κ :=
  ⟨.error r.response.status r.response.error r.response.code, r.note, none, state⟩

/-- `handle_agent_execution` from the result of the providers. -/
def GatewayDeps.answerExecution (deps : GatewayDeps) (call : AgentExecution)
    (request : ProviderRequest) (result : TmrConsensusResult) (state : GatewayState κ) :
    ExecutionOutcome κ :=
  match answerResult deps.parser deps.toJson request.tenantId result with
  | .error status error code =>
      -- Of the two errors only that of the vote is audited.
      ⟨.error status error code,
        if result.consensusAchieved then none
        else some ⟨request.tenantId, "TMR consensus failed", .blockedByOracle⟩, none, state⟩
  | .ok consensus payload tenantId =>
      ⟨.ok consensus payload tenantId,
        some ⟨tenantId, sanitizeForWasmTransfer consensus.result, .allowed⟩,
        if 2 ≤ result.agreementCount then
          recordConsensusEvent (deps.consensusEvent call request result)
        else none, state⟩

def GatewayDeps.handleAgentExecution (deps : GatewayDeps) (context : RequestContext)
    (call : AgentExecution) (state : GatewayState κ) : ExecutionOutcome κ :=
  match auditAuthentication deps.serviceAuth context.moment context.headers call.body
    state.nonceCache with
  | (.error r, cache) => r.outcome { state with nonceCache := cache }
  | (.ok tenantId, cache) =>
      let state := { state with nonceCache := cache }
      match deps.acquireApiToken tenantId call.readings state.limiter with
      | (.error e, limiter) =>
          let r : Rejection := ⟨⟨429, "Tenant rate limit exceeded: " ++ deps.displayNetworkError e,
            "RATE_LIMITED"⟩, some ⟨tenantId, "rate limited", .blockedBySis⟩⟩
          r.outcome { state with limiter := limiter }
      | (.ok (), limiter) =>
          let state := { state with limiter := limiter }
          match deductTokens tenantId 1 state.store with
          | (.error _, store) =>
              let r : Rejection := ⟨⟨500,
                "Billing infrastructure unavailable - please try again later",
                "FINOPS_UNAVAILABLE"⟩,
                some ⟨tenantId, "finops state store inaccessible", .blockedBySis⟩⟩
              r.outcome { state with store := store }
          | (.ok (.insufficientFunds _ _), store) =>
              let r : Rejection := ⟨⟨402,
                "Insufficient token budget - please top up your account", "INSUFFICIENT_FUNDS"⟩,
                some ⟨tenantId, "insufficient funds", .blockedBySis⟩⟩
              r.outcome { state with store := store }
          | (.ok (.success _), store) =>
              let state := { state with store := store }
              match deps.checkExecution tenantId call.body with
              | .error r => r.outcome state
              | .ok request =>
                  deps.answerExecution call request ((call.execute request).getD default) state

/-! ### Requests of either kind -/

/-- What a handler is called with. -/
inductive GatewayRequest where
  | agentExecution (call : AgentExecution)
  | hotSwap (body : List UInt8)

inductive GatewayAnswer where
  | execution (answer : ExecutionAnswer)
  /-- `none` is a handler that panics. -/
  | hotSwap (response : Option HotSwapResponse)

/-- A request that a handler has ended, with what it found of the shared state. -/
structure Handled (κ : Type*) where
  context : RequestContext
  request : GatewayRequest
  found : GatewayState κ

namespace Handled

variable (deps : GatewayDeps) (compile : List UInt8 → Compilation κ) (h : Handled κ)

def hotSwapOutcome (body : List UInt8) : HotSwapOutcome κ :=
  handleHotSwap deps.serviceAuth h.context.moment compile h.context.headers body
    h.found.toAppState

def answer : GatewayAnswer :=
  match h.request with
  | .agentExecution call => .execution (deps.handleAgentExecution h.context call h.found).answer
  | .hotSwap body => .hotSwap (h.hotSwapOutcome deps compile body).response

def note : Option AuditNote :=
  match h.request with
  | .agentExecution call => (deps.handleAgentExecution h.context call h.found).note
  | .hotSwap body => (h.hotSwapOutcome deps compile body).event.map fun event =>
      ⟨event.tenantId, event.action, .modified⟩

def event : Option AuditEvent :=
  (h.note deps compile).map fun note =>
    .new h.context.emittedAt note.tenantId
      (deps.displayIp (extractTrustedIp deps.parseIp h.context.cfConnectingIp h.context.socketIp))
      note.rawPayload note.action

end Handled

/-! ### What the events say -/

/-- The events of the errors that have a fixed text, by the code of the error. -/
def refusals : List (String × String × AuditAction) :=
  [("MISSING_TENANT_ID", "missing tenant ID", .blockedByAuth),
    ("MISSING_AUTH_HEADER", "missing auth header", .blockedByAuth),
    ("MISSING_NONCE", "missing nonce", .blockedByAuth),
    ("MISSING_TIMESTAMP", "missing timestamp", .blockedByAuth),
    ("TIMESTAMP_MISMATCH", "HMAC auth failed", .blockedByAuth),
    ("REPLAY_WINDOW_VIOLATION", "HMAC auth failed", .blockedByAuth),
    ("HMAC_INVALID_FORMAT", "HMAC auth failed", .blockedByAuth),
    ("REPLAY_ATTACK_DETECTED", "HMAC auth failed", .blockedByReplay),
    ("HMAC_COMPUTATION_FAILED", "HMAC auth failed", .blockedByAuth),
    ("HMAC_TOKEN_MISSING", "HMAC auth failed", .blockedByAuth),
    ("RATE_LIMITED", "rate limited", .blockedBySis),
    ("INSUFFICIENT_FUNDS", "insufficient funds", .blockedBySis),
    ("FINOPS_UNAVAILABLE", "finops state store inaccessible", .blockedBySis),
    ("SECURITY_VIOLATION", "prompt injection attempt", .blockedByWasm),
    ("CONSENSUS_FAILED", "TMR consensus failed", .blockedByOracle)]

/-- The errors that leave no event. -/
def unaudited : List String := ["INVALID_NETWORK_ID", "SERIALIZATION_FAILED"]

/-- The tenant that an event names. -/
def HeaderMap.auditedTenant (headers : HeaderMap) : String :=
  headers.extractTenantId.getD "unknown"

inductive Tells (waf : PromptInjectionWaf) (tenantId : String) :
    GatewayAnswer → Option AuditNote → Prop
  | refused {status : ℕ} {error code text : String} {action : AuditAction}
      (row : (code, text, action) ∈ refusals) :
      Tells waf tenantId (.execution (.error status error code)) (some ⟨tenantId, text, action⟩)
  | blocked {entry : String × InjectionCategory} (listed : entry ∈ waf.signatureMap) :
      Tells waf tenantId
        (.execution (.error 403 ("Prompt injection detected: " ++ entry.1) "WAF_BLOCKED"))
        (some ⟨tenantId, "WAF blocked: " ++ entry.1, .blockedByWasm⟩)
  | silent {status : ℕ} {error code : String} (row : code ∈ unaudited) :
      Tells waf tenantId (.execution (.error status error code)) none
  | allowed {consensus : TmrConsensus} {payload : Option IntermediatePayload} :
      Tells waf tenantId (.execution (.ok consensus payload tenantId))
        (some ⟨tenantId, sanitizeForWasmTransfer consensus.result, .allowed⟩)
  | swapped {previousSizeBytes newSizeBytes : ℕ} :
      Tells waf tenantId (.hotSwap (some (.swapped previousSizeBytes newSizeBytes)))
        (some ⟨tenantId, "hot-swap: " ++ toString newSizeBytes ++ " bytes", .modified⟩)
  | kept {response : Option HotSwapResponse}
      (h : ∀ previousSizeBytes newSizeBytes,
        response ≠ some (.swapped previousSizeBytes newSizeBytes)) :
      Tells waf tenantId (.hotSwap response) none

section Answers

variable {deps : GatewayDeps} {compile : List UInt8 → Compilation κ} {context : RequestContext}
  {tenantId : String}

theorem tells_reject {r : Rejection} {text : String} {action : AuditAction}
    (hnote : r.note = some ⟨tenantId, text, action⟩)
    (hrow : (r.response.code, text, action) ∈ refusals) (state : GatewayState κ) :
    Tells deps.waf tenantId (.execution (r.outcome state).answer) (r.outcome state).note := by
  show Tells deps.waf tenantId (.execution (.error _ _ _)) r.note
  rw [hnote]
  exact .refused hrow

theorem tells_authentication {body : AgentExecutionPayload} {cache cache' : NonceCacheInner}
    {r : Rejection} (state : GatewayState κ)
    (h : auditAuthentication deps.serviceAuth context.moment context.headers body cache =
      (.error r, cache')) :
    Tells deps.waf context.headers.auditedTenant (.execution (r.outcome state).answer)
      (r.outcome state).note := by
  unfold auditAuthentication at h
  dsimp only at h
  split at h
  · rename_i htenant
    cases h
    rw [HeaderMap.auditedTenant, htenant]
    exact tells_reject rfl (by simp [refusals]) state
  · rename_i tenantId htenant
    rw [HeaderMap.auditedTenant, htenant]
    split at h
    · cases h
    · split at h
      · split at h
        · cases h
          exact tells_reject rfl (by simp [refusals]) state
        · split at h
          · cases h
            exact tells_reject rfl (by simp [refusals]) state
          · split at h
            · rename_i e cache'' hvalid
              cases h
              cases e <;> exact tells_reject rfl (by simp [refusals, HmacAuthError.code]) state
            · cases h
      · cases h
        exact tells_reject rfl (by simp [refusals]) state

theorem tenant_of_authentication {body : AgentExecutionPayload} {cache cache' : NonceCacheInner}
    (h : auditAuthentication deps.serviceAuth context.moment context.headers body cache =
      (.ok tenantId, cache')) : context.headers.auditedTenant = tenantId := by
  unfold auditAuthentication at h
  dsimp only at h
  split at h
  · cases h
  · rename_i tenantId' htenant
    rw [HeaderMap.auditedTenant, htenant, Option.getD_some]
    split at h
    · cases h
      rfl
    · split at h
      · split at h
        · cases h
        · split at h
          · cases h
          · split at h
            · cases h
            · cases h
              rfl
      · cases h

theorem mem_signatures_of_blocked {waf : PromptInjectionWaf} {prompt : String}
    {violation : WafViolation} (h : waf.scan prompt = .blocked violation) :
    ∃ entry ∈ waf.signatureMap, entry.1 = violation.signature := by
  rw [PromptInjectionWaf.scan] at h
  split at h
  · rename_i signature category hfound
    cases h
    obtain ⟨i, -, hi⟩ := List.exists_of_findSome?_eq_some hfound
    exact ⟨_, List.mem_of_getElem? hi, rfl⟩
  · cases h

theorem tells_check {body : AgentExecutionPayload} {r : Rejection}
    (h : deps.checkExecution tenantId body = .error r) (state : GatewayState κ) :
    Tells deps.waf tenantId (.execution (r.outcome state).answer) (r.outcome state).note := by
  unfold GatewayDeps.checkExecution at h
  split at h
  · split at h
    · dsimp only at h
      split at h
      · rename_i violation hscan
        cases h
        obtain ⟨entry, hentry, hsignature⟩ := mem_signatures_of_blocked hscan
        show Tells deps.waf tenantId (.execution (.error 403 ("Prompt injection detected: " ++
          violation.signature) "WAF_BLOCKED")) (some ⟨tenantId, "WAF blocked: " ++
          violation.signature, .blockedByWasm⟩)
        rw [← hsignature]
        exact .blocked hentry
      · cases h
    · cases h
      exact tells_reject rfl (by simp [refusals]) state
  · cases h
    exact .silent List.mem_cons_self

theorem tenant_of_check {body : AgentExecutionPayload} {request : ProviderRequest}
    (h : deps.checkExecution tenantId body = .ok request) : request.tenantId = tenantId := by
  unfold GatewayDeps.checkExecution at h
  split at h
  · split at h
    · dsimp only at h
      split at h
      · cases h
      · cases h
        rfl
    · cases h
  · cases h

theorem tells_answer (call : AgentExecution) (request : ProviderRequest)
    (result : TmrConsensusResult) (state : GatewayState κ) :
    Tells deps.waf request.tenantId
      (.execution (deps.answerExecution call request result state).answer)
      (deps.answerExecution call request result state).note := by
  unfold GatewayDeps.answerExecution answerResult
  by_cases hconsensus : result.consensusAchieved
  · rw [if_pos hconsensus]
    cases hpayload : consensusPayload deps.parser result with
    | none => exact .allowed
    | some payload =>
        dsimp only
        cases hjson : deps.toJson payload with
        | none =>
            dsimp only
            rw [if_pos hconsensus]
            exact .silent (by simp [unaudited])
        | some json => exact .allowed
  · rw [if_neg hconsensus]
    dsimp only
    rw [if_neg hconsensus]
    exact .refused (by simp [refusals])

theorem tells_execution (deps : GatewayDeps) (context : RequestContext) (call : AgentExecution)
    (state : GatewayState κ) :
    Tells deps.waf context.headers.auditedTenant
      (.execution (deps.handleAgentExecution context call state).answer)
      (deps.handleAgentExecution context call state).note := by
  unfold GatewayDeps.handleAgentExecution
  split
  · rename_i r cache hauth
    exact tells_authentication _ hauth
  · rename_i tenantId cache hauth
    rw [tenant_of_authentication hauth]
    dsimp only
    split
    · exact tells_reject rfl (by simp [refusals]) _
    · split
      · exact tells_reject rfl (by simp [refusals]) _
      · exact tells_reject rfl (by simp [refusals]) _
      · split
        · rename_i r hcheck
          exact tells_check hcheck _
        · rename_i request hcheck
          rw [← tenant_of_check hcheck]
          exact tells_answer call request _ _

theorem tenant_of_authenticateHotSwap {cache cache' : NonceCacheInner}
    (h : authenticateHotSwap deps.serviceAuth context.moment context.headers cache =
      (.ok tenantId, cache')) : context.headers.auditedTenant = tenantId := by
  unfold authenticateHotSwap at h
  dsimp only at h
  split at h
  · cases h
  · rename_i tenantId' htenant
    rw [HeaderMap.auditedTenant, htenant, Option.getD_some]
    split at h
    · cases h
      rfl
    · split at h
      · cases h
      · split at h
        · cases h
        · split at h
          · cases h
          · cases h
            rfl

theorem tells_hotSwap (waf : PromptInjectionWaf) (context : RequestContext) (body : List UInt8)
    (state : AppState κ) {outcome : HotSwapOutcome κ}
    (h : handleHotSwap deps.serviceAuth context.moment compile context.headers body state =
      outcome) :
    Tells waf context.headers.auditedTenant (.hotSwap outcome.response)
      (outcome.event.map fun event => ⟨event.tenantId, event.action, .modified⟩) := by
  subst h
  unfold handleHotSwap
  split
  · exact .kept nofun
  · rename_i tenantId cache hauth
    rw [tenant_of_authenticateHotSwap hauth]
    unfold swapModule
    split
    · exact .kept nofun
    · split
      · exact .kept nofun
      · split
        · exact .kept nofun
        · split
          · exact .kept nofun
          · dsimp only
            split
            · exact .kept nofun
            · exact .swapped

end Answers

/-! ### The log -/

namespace GatewayAnswer

def served : GatewayAnswer → Bool
  | .execution (.ok _ _ _) => true
  | _ => false

def swapped : GatewayAnswer → Bool
  | .hotSwap (some (.swapped _ _)) => true
  | _ => false

end GatewayAnswer

namespace Tells

variable {waf : PromptInjectionWaf} {tenantId : String} {answer : GatewayAnswer}
  {note : Option AuditNote}

theorem action_of_refusals {code text : String} {action : AuditAction}
    (h : (code, text, action) ∈ refusals) : action ≠ .allowed ∧ action ≠ .modified := by
  simp only [refusals, List.mem_cons, Prod.mk.injEq, List.not_mem_nil, or_false] at h
  obtain h | h | h | h | h | h | h | h | h | h | h | h | h | h | h := h <;> simp [h]

theorem action_iff (h : Tells waf tenantId answer note) :
    (note.any (·.action == .allowed)) = answer.served ∧
      (note.any (·.action == .modified)) = answer.swapped := by
  cases h with
  | refused row =>
      obtain ⟨hallowed, hmodified⟩ := action_of_refusals row
      simp [GatewayAnswer.served, GatewayAnswer.swapped, hallowed, hmodified]
  | blocked _ => exact ⟨rfl, rfl⟩
  | silent _ => exact ⟨rfl, rfl⟩
  | allowed => exact ⟨rfl, rfl⟩
  | swapped => exact ⟨rfl, rfl⟩
  | @kept response hkept =>
      refine ⟨rfl, ?_⟩
      cases response with
      | none => rfl
      | some response =>
          cases response with
          | error e => rfl
          | swapped previous size => exact absurd rfl (hkept previous size)

end Tells

namespace Handled

variable {deps : GatewayDeps} {compile : List UInt8 → Compilation κ}

theorem tells (deps : GatewayDeps) (compile : List UInt8 → Compilation κ) (h : Handled κ) :
    Tells deps.waf h.context.headers.auditedTenant (h.answer deps compile)
      (h.note deps compile) := by
  obtain ⟨context, request, found⟩ := h
  cases request with
  | agentExecution call => exact tells_execution deps context call found
  | hotSwap body => exact tells_hotSwap deps.waf context body found.toAppState rfl

theorem countP_events (requests : List (Handled κ)) (action : AuditAction) :
    (requests.filterMap (event deps compile)).countP action.marks =
      requests.countP fun h => (h.note deps compile).any (·.action == action) := by
  rw [List.countP_filterMap]
  refine List.countP_congr fun h _ => ?_
  rw [event]
  cases h.note deps compile with
  | none => exact Iff.rfl
  | some note =>
      show (note.action.asStr == action.asStr) = true ↔ (note.action == action) = true
      rw [beq_iff_eq, beq_iff_eq, AuditAction.asStr_injective.eq_iff]

end Handled

section Log

variable {bus : BusDeps} {p : ComplianceBus.BusPool} {schedule : List (ℕ × BusStep)}

theorem marks_of_line {event : AuditEvent} {action : AuditAction}
    (h : (event.line bus).reports action = true) : action.marks event = true := by
  unfold AuditEvent.line at h
  dsimp only at h
  split at h
  · exact h
  · cases h

theorem line_reports {event : AuditEvent} {action : AuditAction} {json : String}
    (h : bus.toJson (event.sanitized bus.pats) = .ok json) :
    (event.line bus).reports action = action.marks event := by
  unfold AuditEvent.line
  dsimp only
  rw [h]
  rfl

theorem countP_line_le (events : List AuditEvent) (action : AuditAction) :
    (events.map (AuditEvent.line bus)).countP (BusLine.reports action) ≤
      events.countP action.marks := by
  rw [List.countP_map]
  exact List.countP_mono_left fun _ _ => marks_of_line

theorem countP_line {events : List AuditEvent}
    (h : ∀ event, ∃ json, bus.toJson event = .ok json) (action : AuditAction) :
    (events.map (AuditEvent.line bus)).countP (BusLine.reports action) =
      events.countP action.marks := by
  rw [List.countP_map]
  refine List.countP_congr fun event _ => ?_
  obtain ⟨json, hjson⟩ := h (event.sanitized bus.pats)
  rw [Function.comp_apply, line_reports hjson]

/-- The handlers emit, in any interleaving with each other and with the worker of the bus.
Each answer and its event tell the same. The lines that the worker logs are those of events
of the requests, in the order of the requests, so that they report no more allowed executions
than there are answers 200 and no more modifications than swaps. If no event was refused or
failed and the worker has terminated, they are the lines of all events, and if serialisation
does not fail either, they report as many. -/
theorem log_tells (deps : GatewayDeps) (compile : List UInt8 → Compilation κ)
    (requests : List (Handled κ))
    (h : exec (Pool.step (ComplianceBus.act bus)) ComplianceBus.start schedule = some p)
    (hemits : schedule.filterMap (fun e => e.2.event?) =
      requests.filterMap (Handled.event deps compile)) :
    (∀ r ∈ requests, Tells deps.waf r.context.headers.auditedTenant (r.answer deps compile)
      (r.note deps compile)) ∧
    p.shared.records.Sublist
      ((requests.filterMap (Handled.event deps compile)).map (AuditEvent.line bus)) ∧
    p.shared.records.countP (BusLine.reports .allowed) ≤
      requests.countP (fun r => (r.answer deps compile).served) ∧
    p.shared.records.countP (BusLine.reports .modified) ≤
      requests.countP (fun r => (r.answer deps compile).swapped) ∧
    (p.shared.worker = .terminated → p.shared.refused = 0 → p.shared.failed = 0 →
      p.shared.records =
        (requests.filterMap (Handled.event deps compile)).map (AuditEvent.line bus) ∧
      ((∀ event, ∃ json, bus.toJson event = .ok json) →
        p.shared.records.countP (BusLine.reports .allowed) =
          requests.countP (fun r => (r.answer deps compile).served) ∧
        p.shared.records.countP (BusLine.reports .modified) =
          requests.countP (fun r => (r.answer deps compile).swapped))) := by
  have haccepted := ComplianceBus.accepted_sublist_of_exec h
  have haccounted := ComplianceBus.accounted_of_exec h
  rw [hemits] at haccepted
  have hallowed : (requests.filterMap (Handled.event deps compile)).countP
      AuditAction.allowed.marks = requests.countP fun r => (r.answer deps compile).served := by
    rw [Handled.countP_events]
    exact List.countP_congr fun r _ => by rw [(r.tells deps compile).action_iff.1]
  have hmodified : (requests.filterMap (Handled.event deps compile)).countP
      AuditAction.modified.marks = requests.countP fun r => (r.answer deps compile).swapped := by
    rw [Handled.countP_events]
    exact List.countP_congr fun r _ => by rw [(r.tells deps compile).action_iff.2]
  have hrecords : p.shared.records.Sublist
      ((requests.filterMap (Handled.event deps compile)).map (AuditEvent.line bus)) := by
    obtain ⟨handled, lost, hcarries, hrecords, -⟩ := haccounted.recorded
    rw [hrecords]
    refine List.Sublist.map _ (List.Sublist.trans ?_ haccepted)
    rw [hcarries.order, List.append_assoc, List.append_assoc]
    exact List.sublist_append_left _ _
  refine ⟨fun r _ => r.tells deps compile, hrecords, ?_, ?_, ?_⟩
  · rw [← hallowed]
    exact hrecords.countP_le.trans (countP_line_le _ _)
  · rw [← hmodified]
    exact hrecords.countP_le.trans (countP_line_le _ _)
  · intro hworker hrefused hfailed
    have hcalls := haccounted.calls_eq
    have hlength : (requests.filterMap (Handled.event deps compile)).length =
        schedule.countP fun e => e.2.isEmit := by
      rw [← hemits, List.length_filterMap_eq_countP]
      refine List.countP_congr fun e _ => ?_
      cases e.2 <;> exact Iff.rfl
    have hall : p.shared.accepted = requests.filterMap (Handled.event deps compile) :=
      haccepted.eq_of_length (by omega)
    have hlog : p.shared.records =
        (requests.filterMap (Handled.event deps compile)).map (AuditEvent.line bus) := by
      rw [haccounted.records_of_terminated hworker, hall]
    refine ⟨hlog, fun hjson => ⟨?_, ?_⟩⟩
    · rw [hlog, countP_line hjson, hallowed]
    · rw [hlog, countP_line hjson, hmodified]

/-- A gateway without authentication. -/
def openGateway : GatewayDeps where
  serviceAuth := none
  rateLimiter := some .production
  waf := .new tryPatterns []
  lower := asciiLowercase
  parser := plainParser
  toJson _ := none
  parseIp _ := none
  displayIp _ := "10.0.0.1"
  displayNetworkError _ := ""
  debugNodeError _ := ""

/-- A gateway to which no request has come. -/
def idleGateway : GatewayState Unit :=
  { freshState with
    limiter := (apiStart .production 0).shared
    store := .empty }

/-- The hot swap of a module that is its magic number. -/
def handledSwap : Handled Unit where
  context := ⟨tenantHeaders, none, .v4 0x0a000001, ⟨0, 0, .id⟩, 1700000000000⟩
  request := .hotSwap magicNumber
  found := idleGateway

/-- An agent execution for which the providers agree on an empty text. -/
def handledCall : Handled Unit where
  context := ⟨tenantHeaders, none, .v4 0x0a000001, ⟨0, 0, .id⟩, 1700000000001⟩
  request := .agentExecution
    { body := ⟨"mainnet", none⟩
      readings := ⟨0, 0, 0, 0, 0, 0, 0, by decide⟩
      execute := fun _ => some
        { (default : TmrConsensusResult) with
          majorityOutput := some ""
          agreementCount := 2
          totalNodes := 2
          consensusAchieved := true }
      timestamp := 0
      requestIdMillis := 1700000000001 }
  found := idleGateway

def swapEvent : AuditEvent := .new 1700000000000 "t" "10.0.0.1" "hot-swap: 4 bytes" .modified

def callEvent : AuditEvent := .new 1700000000001 "t" "10.0.0.1" "" .allowed

theorem event_handledSwap :
    handledSwap.event openGateway (fun _ => .compiled ()) = some swapEvent := by
  have houtcome : handledSwap.hotSwapOutcome openGateway (fun _ => .compiled ()) magicNumber =
      swapModule (fun _ => .compiled ()) "t" magicNumber freshState := by
    show handleHotSwap none ⟨0, 0, .id⟩ _ tenantHeaders magicNumber freshState = _
    rw [handleHotSwap, authenticate_tenantHeaders]
    rfl
  have hnote : handledSwap.note openGateway (fun _ => .compiled ()) =
      some ⟨"t", "hot-swap: 4 bytes", .modified⟩ := by
    show (handledSwap.hotSwapOutcome openGateway (fun _ => .compiled ()) magicNumber).event.map
      (fun event => AuditNote.mk event.tenantId event.action .modified) = _
    rw [houtcome]
    rfl
  rw [Handled.event, hnote]
  rfl

theorem event_handledCall :
    handledCall.event openGateway (fun _ => .compiled ()) = some callEvent := by
  have hnote : handledCall.note openGateway (fun _ => .compiled ()) =
      some ⟨"t", "", .allowed⟩ := by
    decide +kernel
  rw [Handled.event, hnote]
  rfl

/-- Both events go through the bus. -/
def bothEvents : List (ℕ × BusStep) :=
  [(0, .emit swapEvent), (1, .emit callEvent), (0, .receive), (0, .record), (0, .dropSenders),
    (0, .receive), (0, .record), (0, .finish)]

theorem log_tells_both : ∃ p : ComplianceBus.BusPool,
    p.shared.records = [swapEvent, callEvent].map (AuditEvent.line ComplianceBus.plainBus) ∧
    p.shared.records.countP (BusLine.reports .allowed) =
      [handledSwap, handledCall].countP
        (fun r => (r.answer openGateway fun _ => .compiled ()).served) ∧
    p.shared.records.countP (BusLine.reports .modified) =
      [handledSwap, handledCall].countP
        fun r => (r.answer openGateway fun _ => .compiled ()).swapped := by
  have hevents : [handledSwap, handledCall].filterMap
      (Handled.event openGateway fun _ => .compiled ()) = [swapEvent, callEvent] := by
    rw [List.filterMap_cons_some event_handledSwap, List.filterMap_cons_some event_handledCall]
    rfl
  have hlog := log_tells openGateway (fun _ => .compiled ()) [handledSwap, handledCall]
    (rfl : exec (Pool.step (ComplianceBus.act ComplianceBus.plainBus)) ComplianceBus.start
      bothEvents = some _) hevents.symm
  exact ⟨_, rfl, (hlog.2.2.2.2 rfl rfl rfl).2 fun _ => ⟨_, rfl⟩⟩

end Log

end SereinGateway.Gateway
