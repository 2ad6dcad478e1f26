import SereinGateway.Lib.Grouping

/-!
The TMR consensus engine: data model, streaming arbitration (`query`) and
batch arbitration (`evaluate`).

Both arbitrations scan a hash map keyed by semantic key. The order of that
scan is a `Shuffle` argument, and the row that wins keeps its key: the
source's `values()` forgets it, so the functions of the source are the
projections of the keyed ones. Token counters are `u32` with checked
addition (`overflow-checks = true`); an addition that does not fit aborts the
process, which is the result `none`.
-/

namespace SereinGateway.Consensus

open SereinGateway.Lib

inductive ProviderNode where
  | googleGemini
  | deepSeek
  | groq
  | custom (id : String)
  deriving DecidableEq, Repr

/-- Health reported by the circuit breaker. -/
inductive NodeHealth where
  | healthy
  | degraded
  | tripped
  deriving DecidableEq, Repr

inductive ResponseStatus where
  | success
  | rateLimited
  | serverError
  | networkError
  | timeout
  deriving DecidableEq, Repr

structure ProviderResponse where
  provider : ProviderNode
  content : String
  semanticKey : String
  latencyMs : UInt64
  tokensUsed : UInt32
  status : ResponseStatus
  deriving DecidableEq, Repr

structure ConsensusResult where
  content : String
  winningProviders : List ProviderNode
  totalLatencyMs : UInt64
  degraded : Bool
  totalTokensUsed : UInt32
  deriving DecidableEq, Repr

inductive ConsensusError where
  | allProvidersUnavailable
  | noConsensus (message : String)
  | providerError (provider error : String)
  | backpressure (pending : ℕ)
  deriving DecidableEq, Repr

structure TmrConfig where
  strictMode : Bool
  queryTimeoutMs : UInt64
  consensusTimeoutMs : UInt64
  minAgreement : ℕ
  deriving DecidableEq, Repr

def TmrConfig.default : TmrConfig where
  strictMode := true
  queryTimeoutMs := 30000
  consensusTimeoutMs := 60000
  minAgreement := 2

abbrev NodeMap := AList fun _ : ProviderNode => NodeHealth

structure TmrConsensusEngine where
  config : TmrConfig
  nodeHealth : NodeMap

namespace TmrConsensusEngine

/-- Collecting `(node, Healthy)` pairs into the node map. -/
def healthyMap (nodes : List ProviderNode) : NodeMap :=
  nodes.foldl (fun m n => m.insert n .healthy) ∅

/-- `new`: the three built-in providers under the default configuration. -/
def new : TmrConsensusEngine :=
  ⟨.default, healthyMap [.googleGemini, .deepSeek, .groq]⟩

def withConfig (config : TmrConfig) : TmrConsensusEngine :=
  ⟨config, healthyMap [.googleGemini, .deepSeek, .groq]⟩

def withNodes (nodes : List ProviderNode) : TmrConsensusEngine :=
  ⟨.default, healthyMap nodes⟩

def withConfigAndNodes (config : TmrConfig) (nodes : List ProviderNode) :
    TmrConsensusEngine :=
  ⟨config, healthyMap nodes⟩

def registerNode (engine : TmrConsensusEngine) (node : ProviderNode)
    (health : NodeHealth) : TmrConsensusEngine :=
  { engine with nodeHealth := engine.nodeHealth.insert node health }

def updateNodeHealth (engine : TmrConsensusEngine) (node : ProviderNode)
    (health : NodeHealth) : TmrConsensusEngine :=
  { engine with nodeHealth := engine.nodeHealth.insert node health }

/-- The nodes that are not tripped. The source lists them in hash order;
`evaluate` reads only their number and `query` only the order in which they
answer. -/
def healthyNodes (engine : TmrConsensusEngine) : List ProviderNode :=
  (engine.nodeHealth.entries.filter fun e => e.2 ≠ .tripped).map (·.1)

end TmrConsensusEngine

/-- A row of the consensus map: number of votes, content of the latest vote,
voters in order of arrival. -/
structure VoteEntry where
  count : ℕ
  content : String
  providers : List ProviderNode
  deriving DecidableEq, Repr

abbrev ConsensusMap := AList fun _ : String => VoteEntry

abbrev VoteRow := Σ _ : String, VoteEntry

/-- A response is a vote when it succeeded and has a semantic key. -/
def ProviderResponse.isVote (r : ProviderResponse) : Bool :=
  r.status = .success && r.semanticKey ≠ ""

def VoteEntry.add (e : VoteEntry) (r : ProviderResponse) : VoteEntry :=
  ⟨e.count + 1, r.content, e.providers ++ [r.provider]⟩

/-- `entry(key).or_insert((0, "", []))` and the three updates after it. -/
def recordVote (m : ConsensusMap) (r : ProviderResponse) : ConsensusMap :=
  if r.isVote then upsert r.semanticKey ⟨0, "", []⟩ (fun e => e.add r) m else m

/-- Votes needed among `totalNodes` nodes. -/
def requiredAgreement (config : TmrConfig) (totalNodes : ℕ) : ℕ :=
  if config.strictMode then
    -- With fewer than three nodes left, all of them have to agree.
    if 3 ≤ totalNodes then config.minAgreement else totalNodes
  else 1

/-- `u32` addition with overflow checks. -/
def checkedAdd (a b : UInt32) : Option UInt32 :=
  if a.toNat + b.toNat < 2 ^ 32 then some (a + b) else none

/-- `iter().map(|r| r.tokens_used).sum::<u32>()`. -/
def sumTokens (responses : List ProviderResponse) : Option UInt32 :=
  responses.foldlM (fun acc r => checkedAdd acc r.tokensUsed) 0

namespace TmrConsensusEngine

/-- What the task of `node` yields: the provider's response, or the timeout
response when none came within the query timeout. -/
def respond (engine : TmrConsensusEngine)
    (outcome : ProviderNode → Option ProviderResponse) (node : ProviderNode) :
    ProviderResponse :=
  (outcome node).getD
    { provider := node, content := "", semanticKey := "",
      latencyMs := engine.config.queryTimeoutMs, tokensUsed := 0, status := .timeout }

/-- The arrival loop of `query`, with the responses received so far and their
consensus map. `elapsed n` is the clock reading after `n` arrivals. -/
def queryLoop (engine : TmrConsensusEngine) (iter : Shuffle VoteRow)
    (elapsed : ℕ → UInt64) (received : List ProviderResponse) (m : ConsensusMap) :
    List ProviderResponse → Option (Except ConsensusError (String × ConsensusResult))
  | [] =>
      some (.error (.noConsensus
        ("Received " ++ toString received.length ++ " responses, no majority achieved")))
  | r :: rest =>
      let m := recordVote m r
      let received := received ++ [r]
      -- The threshold counts the nodes asked, not the responses so far.
      let available := engine.healthyNodes.length
      let required := requiredAgreement engine.config available
      match (iter.order m.entries).find? (fun row => required ≤ row.2.count) with
      | some row => do
          let totalTokens ← sumTokens received
          return .ok (row.1,
            { content := row.2.content, winningProviders := row.2.providers,
              totalLatencyMs := elapsed received.length,
              degraded := available < 3, totalTokensUsed := totalTokens })
      | none => queryLoop engine iter elapsed received m rest

/-- `query`, its winner keyed. The nodes answer in the order `arrival`. -/
def queryKeyed (engine : TmrConsensusEngine) (iter : Shuffle VoteRow)
    (elapsed : ℕ → UInt64) (outcome : ProviderNode → Option ProviderResponse)
    (arrival : List ProviderNode) :
    Option (Except ConsensusError (String × ConsensusResult)) :=
  if engine.healthyNodes = [] then some (.error .allProvidersUnavailable)
  else queryLoop engine iter elapsed [] ∅ (arrival.map (engine.respond outcome))

def query (engine : TmrConsensusEngine) (iter : Shuffle VoteRow)
    (elapsed : ℕ → UInt64) (outcome : ProviderNode → Option ProviderResponse)
    (arrival : List ProviderNode) : Option (Except ConsensusError ConsensusResult) :=
  (engine.queryKeyed iter elapsed outcome arrival).map (Except.map Prod.snd)

end TmrConsensusEngine

/-- Accumulators of the vote loop of `evaluate`. -/
structure Tally where
  consensusMap : ConsensusMap
  totalTokens : UInt32
  totalLatency : UInt64

def Tally.empty : Tally := ⟨∅, 0, 0⟩

def Tally.step (t : Tally) (r : ProviderResponse) : Option Tally := do
  let totalTokens ← checkedAdd t.totalTokens r.tokensUsed
  return { consensusMap := recordVote t.consensusMap r, totalTokens,
           totalLatency := max t.totalLatency r.latencyMs }

/-- `values().map(count).max().unwrap_or(0)`. -/
def bestAgreement (m : ConsensusMap) : ℕ :=
  (m.entries.map (·.2.count)).foldl max 0

def noMajorityMessage (received best required : ℕ) : String :=
  "Received " ++ toString received ++ " responses, no majority achieved (best agreement: " ++
    toString best ++ ", required: " ++ toString required ++ ")"

namespace TmrConsensusEngine

/-- Nodes the threshold is computed from: the healthy ones, or the responses
when every node is tripped. -/
def totalNodes (engine : TmrConsensusEngine) (responses : List ProviderResponse) : ℕ :=
  if engine.healthyNodes = [] then responses.length else engine.healthyNodes.length

/-- `evaluate`, its winner keyed. -/
def evaluateKeyed (engine : TmrConsensusEngine) (iter : Shuffle VoteRow)
    (responses : List ProviderResponse) :
    Option (Except ConsensusError (String × ConsensusResult)) :=
  if responses = [] then some (.error .allProvidersUnavailable)
  else do
    let total := engine.totalNodes responses
    let tally ← responses.foldlM Tally.step Tally.empty
    let required := requiredAgreement engine.config total
    -- `max_by_key` keeps the last of several maximal rows.
    match (maxByKey (·.2.count) (iter.order tally.consensusMap.entries)).filter
        (fun row => required ≤ row.2.count) with
    | some row =>
        return .ok (row.1,
          { content := row.2.content, winningProviders := row.2.providers,
            totalLatencyMs := tally.totalLatency, degraded := total < 3,
            totalTokensUsed := tally.totalTokens })
    | none =>
        return .error (.noConsensus
          (noMajorityMessage responses.length (bestAgreement tally.consensusMap) required))

def evaluate (engine : TmrConsensusEngine) (iter : Shuffle VoteRow)
    (responses : List ProviderResponse) : Option (Except ConsensusError ConsensusResult) :=
  (engine.evaluateKeyed iter responses).map (Except.map Prod.snd)

/-- The semantic key `evaluate` selects, if it succeeds. -/
def selectedKey (engine : TmrConsensusEngine) (iter : Shuffle VoteRow)
    (responses : List ProviderResponse) : Option String :=
  match engine.evaluateKeyed iter responses with
  | some (.ok (key, _)) => some key
  | _ => none

end TmrConsensusEngine

end SereinGateway.Consensus
