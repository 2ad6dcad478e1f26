import Mathlib
import SereinGateway.Lib.Fields
import SereinGateway.Lib.Text
import SereinGateway.Lib.Transition
import SereinGateway.Security.HmacAuth
import SereinGateway.Security.ReplayWindow

/-!
Authentication in the handlers of the gateway, and replays.

Both handlers build the payload that the client signed from the request:
tenant, network, task type, the timestamp and nonce of two headers of their
own. `validate_auth_header` looks the other nonce up, the one inside the
`Authorization` header, which is not signed. Who resends a request with that
one changed is let in again. `Bound` is the condition under which the two
are one, and with it a payload is accepted once.
-/

namespace SereinGateway.Gateway

open SereinGateway.Lib SereinGateway.Security

/-! ### Requests -/

/-- The headers that the handlers read. Values are bytes. -/
structure HeaderMap where
  authorization : Option (List UInt8)
  xRequestId : Option (List UInt8)
  xSereinNonce : Option (List UInt8)
  xSereinTenantId : Option (List UInt8)
  xSereinTimestamp : Option (List UInt8)
  deriving DecidableEq, Repr

def isVisibleAscii (b : UInt8) : Bool := 32 ≤ b && b < 127 || b == 9

def toStr (value : List UInt8) : Option String :=
  if value.all isVisibleAscii then some (.ofList (value.map fun b => Char.ofNat b.toNat)) else none

namespace HeaderMap

variable (headers : HeaderMap)

/-- `extract_tenant_id`, without the status of its error. -/
def extractTenantId : Option String :=
  match headers.xSereinTenantId.bind toStr with
  | some tenant =>
      let clean := trim tenant
      if clean ≠ "" then some clean else none
  | none => none

def requestTimestamp : ℤ := ((headers.xSereinTimestamp.bind toStr).bind parseI64).getD 0

def nonce : String := (headers.xSereinNonce.bind toStr).getD ""

end HeaderMap

structure AgentExecutionPayload where
  networkId : String
  taskType : Option String
  deriving DecidableEq, Repr

/-- The default of the task type is applied by the handler. -/
def AgentExecutionPayload.taskTypeVal (body : AgentExecutionPayload) : String :=
  body.taskType.getD "default"

structure ErrorResponse where
  status : ℕ
  error : String
  code : String
  deriving DecidableEq, Repr

/-- The payload that is signed for an agent execution. -/
def agentExecutionText (tenantId networkId taskType : String) (timestamp : ℤ) (nonce : String) :
    String :=
  tenantId ++ ":" ++ networkId ++ ":" ++ taskType ++ ":" ++ toString timestamp ++ ":" ++ nonce

/-- The payload that is signed for a hot swap. -/
def hotSwapText (tenantId : String) (timestamp : ℤ) (nonce : String) : String :=
  tenantId ++ ":hot-swap:" ++ toString timestamp ++ ":" ++ nonce

def HmacAuthError.code : HmacAuthError → String
  | .timestampMismatch => "TIMESTAMP_MISMATCH"
  | .verificationFailed _ => "REPLAY_WINDOW_VIOLATION"
  | .invalidFormat => "HMAC_INVALID_FORMAT"
  | .replayDetected => "REPLAY_ATTACK_DETECTED"
  | .computationFailed _ => "HMAC_COMPUTATION_FAILED"
  | .missingToken => "HMAC_TOKEN_MISSING"

section Handlers

variable (serviceAuth : Option (String → String → Except HmacAuthError Unit)) (moment : Moment)
  (headers : HeaderMap)

/-- `handle_agent_execution` up to the end of the authentication: the tenant,
or the response. -/
def authenticateAgentExecution (body : AgentExecutionPayload) (cache : NonceCacheInner) :
    Except ErrorResponse String × NonceCacheInner :=
  match headers.extractTenantId with
  | none =>
      (.error ⟨401, "Missing or empty x-serein-tenant-id header - tenant identity required for " ++
        "billing", "MISSING_TENANT_ID"⟩, cache)
  | some tenantId =>
      match serviceAuth with
      | none => (.ok tenantId, cache)
      | some verify =>
          match headers.authorization.bind toStr with
          | none =>
              (.error ⟨401, "Authorization header required for HMAC authentication",
                "MISSING_AUTH_HEADER"⟩, cache)
          | some authHeader =>
              if headers.nonce = "" then
                (.error ⟨401, "Missing x-serein-nonce header - UUID nonce required for idempotency",
                  "MISSING_NONCE"⟩, cache)
              else if headers.requestTimestamp = 0 then
                (.error ⟨401, "Missing or invalid x-serein-timestamp header - epoch seconds " ++
                  "required", "MISSING_TIMESTAMP"⟩, cache)
              else
                let payload := agentExecutionText tenantId body.networkId body.taskTypeVal
                  headers.requestTimestamp headers.nonce
                match validateWith verify moment authHeader payload headers.requestTimestamp
                  cache with
                | (.error e, cache) =>
                    (.error ⟨401, "HMAC signature verification failed", HmacAuthError.code e⟩,
                      cache)
                | (.ok (), cache) => (.ok tenantId, cache)

/-- `handle_hot_swap` up to the end of the authentication. -/
def authenticateHotSwap (cache : NonceCacheInner) :
    Except ErrorResponse String × NonceCacheInner :=
  match headers.extractTenantId with
  | none => (.error ⟨401, "Missing or empty x-serein-tenant-id header", "MISSING_TENANT_ID"⟩, cache)
  | some tenantId =>
      match serviceAuth with
      | none => (.ok tenantId, cache)
      | some verify =>
          match headers.authorization.bind toStr with
          | none =>
              (.error ⟨401, "Authorization header required for hot-swap", "MISSING_AUTH_HEADER"⟩,
                cache)
          | some authHeader =>
              if headers.nonce = "" ∨ headers.requestTimestamp = 0 then
                (.error ⟨401, "HMAC authentication required for hot-swap", "MISSING_AUTH"⟩, cache)
              else
                let payload := hotSwapText tenantId headers.requestTimestamp headers.nonce
                match validateWith verify moment authHeader payload headers.requestTimestamp
                  cache with
                | (.error _, cache) =>
                    (.error ⟨401, "HMAC signature verification failed", "HMAC_FAILED"⟩, cache)
                | (.ok (), cache) => (.ok tenantId, cache)

end Handlers

/-! ### Header texts -/

/-- The header value with the given text. -/
def asciiBytes (s : String) : List UInt8 := s.toList.map fun c => UInt8.ofNat c.toNat

/-- A character that a header value may hold. -/
def isVisibleChar (c : Char) : Bool := 32 ≤ c.toNat && c.toNat < 127 || c.toNat == 9

def visible (s : String) : Bool := s.toList.all isVisibleChar

@[simp] theorem visible_append (s t : String) : visible (s ++ t) = (visible s && visible t) := by
  simp [visible]

theorem visible_hexEncode (bytes : List UInt8) : visible (hexEncode bytes) = true := by
  rw [visible, List.all_eq_true]
  intro c hc
  obtain ⟨n, rfl⟩ := mem_hexEncode hc
  have hall : ∀ d ∈ ['0', '1', '2', '3', '4', '5', '6', '7', '8', '9', 'a', 'b', 'c', 'd', 'e',
      'f'], isVisibleChar d = true := by simp [isVisibleChar]
  exact hall _ (hexDigit_mem n)

theorem isVisibleAscii_eq (b : UInt8) : isVisibleAscii b = isVisibleChar (Char.ofNat b.toNat) := by
  have hchar : (Char.ofNat b.toNat).toNat = b.toNat := by
    have := b.toNat_lt
    rw [Char.toNat_ofNat, if_pos (.inl (by omega))]
  simp only [isVisibleAscii, isVisibleChar, hchar, UInt8.le_iff_toNat_le, UInt8.lt_iff_toNat_lt,
    UInt8.reduceToNat]
  congr 1
  rw [Bool.eq_iff_iff, beq_iff_eq, beq_iff_eq, ← UInt8.toNat_inj]
  rfl

theorem visible_of_toStr {value : List UInt8} {s : String} (h : toStr value = some s) :
    visible s = true := by
  rw [toStr, Option.ite_none_right_eq_some, Option.some.injEq] at h
  obtain ⟨hall, rfl⟩ := h
  rw [visible, List.all_eq_true]
  intro c hc
  rw [String.toList_ofList] at hc
  obtain ⟨b, hb, rfl⟩ := List.mem_map.mp hc
  rw [← isVisibleAscii_eq]
  exact List.all_eq_true.mp hall b hb

theorem toStr_asciiBytes {s : String} (h : visible s = true) :
    toStr (asciiBytes s) = some s := by
  rw [visible, List.all_eq_true] at h
  have hback : ∀ c ∈ s.toList, Char.ofNat (UInt8.ofNat c.toNat).toNat = c := by
    intro c hc
    have hlt : c.toNat < 256 := by
      have := h c hc
      simp only [isVisibleChar, Bool.or_eq_true, Bool.and_eq_true, decide_eq_true_eq,
        beq_iff_eq] at this
      omega
    rw [UInt8.toNat_ofNat', Nat.mod_eq_of_lt hlt, Char.ofNat_toNat]
  have hmap : (asciiBytes s).map (fun b => Char.ofNat b.toNat) = s.toList := by
    rw [asciiBytes, List.map_map]
    exact (List.map_congr_left hback).trans (List.map_id _)
  rw [toStr, hmap, String.ofList_toList, if_pos]
  rw [List.all_eq_true]
  intro b hb
  obtain ⟨c, hc, rfl⟩ := List.mem_map.mp hb
  rw [isVisibleAscii_eq, hback c hc]
  exact h c hc

/-! ### Calls of the handlers -/

inductive Endpoint where
  | agentExecution (body : AgentExecutionPayload)
  | hotSwap
  deriving DecidableEq, Repr

structure Request where
  headers : HeaderMap
  endpoint : Endpoint
  deriving DecidableEq, Repr

/-- The arguments of a call of `validate_auth_header`. -/
structure Validation where
  headerValue : String
  payload : String
  timestamp : ℤ
  deriving DecidableEq, Repr

namespace Request

variable (r : Request)

/-- The authentication of a request by its handler. -/
def authenticate (verify : String → String → Except HmacAuthError Unit) (moment : Moment)
    (cache : NonceCacheInner) : Except ErrorResponse String × NonceCacheInner :=
  match r.endpoint with
  | .agentExecution body => authenticateAgentExecution (some verify) moment r.headers body cache
  | .hotSwap => authenticateHotSwap (some verify) moment r.headers cache

def signedText (tenantId : String) : String :=
  match r.endpoint with
  | .agentExecution body =>
      agentExecutionText tenantId body.networkId body.taskTypeVal r.headers.requestTimestamp
        r.headers.nonce
  | .hotSwap => hotSwapText tenantId r.headers.requestTimestamp r.headers.nonce

/-- What is validated, if the handler gets that far. -/
def validation : Option Validation := do
  let tenantId ← r.headers.extractTenantId
  let headerValue ← r.headers.authorization.bind toStr
  if r.headers.nonce = "" ∨ r.headers.requestTimestamp = 0 then none
  else some ⟨headerValue, r.signedText tenantId, r.headers.requestTimestamp⟩

variable {r} {verify : String → String → Except HmacAuthError Unit} {moment : Moment}
  {cache : NonceCacheInner}

/-- A request is accepted when its validation succeeds, and nothing else
touches the cache. -/
theorem authenticate_cases (r : Request) (verify : String → String → Except HmacAuthError Unit)
    (moment : Moment) (cache : NonceCacheInner) :
    (r.validation = none ∧ ∃ e, r.authenticate verify moment cache = (.error e, cache)) ∨
    ∃ tenantId v, r.headers.extractTenantId = some tenantId ∧ r.validation = some v ∧
      (((validateWith verify moment v.headerValue v.payload v.timestamp cache).1 = .ok () ∧
        r.authenticate verify moment cache = (.ok tenantId,
          (validateWith verify moment v.headerValue v.payload v.timestamp cache).2)) ∨
      ((validateWith verify moment v.headerValue v.payload v.timestamp cache).1 ≠ .ok () ∧
        ∃ e, r.authenticate verify moment cache = (.error e,
          (validateWith verify moment v.headerValue v.payload v.timestamp cache).2))) := by
  obtain ⟨headers, endpoint⟩ := r
  cases htenant : headers.extractTenantId with
  | none =>
      refine .inl ⟨by simp [validation, htenant], ?_⟩
      cases endpoint <;> simp [authenticate, authenticateAgentExecution, authenticateHotSwap,
        htenant]
  | some tenantId =>
      cases hheader : headers.authorization.bind toStr with
      | none =>
          refine .inl ⟨by simp [validation, htenant, hheader], ?_⟩
          cases endpoint <;> simp [authenticate, authenticateAgentExecution, authenticateHotSwap,
            htenant, hheader]
      | some headerValue =>
          by_cases hmissing : headers.nonce = "" ∨ headers.requestTimestamp = 0
          · refine .inl ⟨by simp [validation, htenant, hheader, hmissing], ?_⟩
            cases endpoint <;> by_cases hnonce : headers.nonce = "" <;>
              simp_all [authenticate, authenticateAgentExecution, authenticateHotSwap]
          · have hnonce : ¬headers.nonce = "" := fun h => hmissing (.inl h)
            have hts : ¬headers.requestTimestamp = 0 := fun h => hmissing (.inr h)
            refine .inr ⟨tenantId, ⟨headerValue, signedText ⟨headers, endpoint⟩ tenantId,
              headers.requestTimestamp⟩, rfl,
              by simp [validation, htenant, hheader, hmissing], ?_⟩
            cases endpoint with
            | agentExecution body =>
                simp only [authenticate, authenticateAgentExecution, htenant, hheader, hnonce, hts,
                  if_false, signedText]
                split
                next h => simp [h]
                next h => simp [h]
            | hotSwap =>
                simp only [authenticate, authenticateHotSwap, htenant, hheader, hmissing, if_false,
                  signedText]
                split
                next h => simp [h]
                next h => simp [h]

end Request

/-! ### Replays -/

/-- A request that was let in. -/
structure Pass where
  payload : String
  signature : String
  timestamp : ℤ
  nonce : String
  instant : ℕ
  deriving DecidableEq, Repr

/-- The cache, the time of the latest call and, not in the program, the
requests let in so far, the latest first. -/
structure GatewayClock where
  cache : NonceCacheInner
  now : ℕ
  passed : List Pass

def GatewayClock.start : GatewayClock := ⟨.new, 0, []⟩

/-- A request, with the reading of the monotonic clock and the order of the
hash map of the cache while it is authenticated. -/
structure GatewayCall where
  instant : ℕ
  drain : Shuffle (Σ _ : String, ℕ)
  request : Request

/-- The wall clock is in step with the monotonic one. -/
def GatewayCall.moment (c : GatewayCall) (epoch : ℕ) : Moment :=
  ⟨utcAt epoch c.instant, c.instant, c.drain⟩

def GatewayCall.pass (c : GatewayCall) : Option Pass := do
  let v ← c.request.validation
  let (_, nonce, signature) ← parseAuthHeader v.headerValue
  some ⟨v.payload, signature, v.timestamp, nonce, c.instant⟩

/-- A request is authenticated, at a time that is not before the latest one. -/
def gatewayStep (verify : String → String → Except HmacAuthError Unit) (epoch : ℕ)
    (s : GatewayClock) (c : GatewayCall) : Option GatewayClock :=
  if s.now ≤ c.instant then
    let r := c.request.authenticate verify (c.moment epoch) s.cache
    some ⟨r.2, c.instant, if r.1.isOk then c.pass.toList ++ s.passed else s.passed⟩
  else none

/-- No payload and signature are let in a second time as long as the timestamp
of the first time is in the window. -/
def AcceptedOnce (epoch : ℕ) (passed : List Pass) : Prop :=
  passed.Pairwise fun later earlier =>
    later.payload = earlier.payload → later.signature = earlier.signature →
      hmacReplayWindowSecs < (utcAt epoch later.instant - earlier.timestamp).natAbs

/-- The condition on a request: the nonce that the cache looks up is the one in
the payload and has no colon, the timestamp is from an earlier second, and
the cache does not evict. -/
structure Bound (epoch : ℕ) (s : GatewayClock) (c : GatewayCall) : Prop where
  nonce : ∀ e, c.pass = some e → e.nonce = c.request.headers.nonce ∧ ':' ∉ e.nonce.toList
  stamped : ∀ e, c.pass = some e → e.timestamp < utcAt epoch c.instant
  room : ∀ e, c.pass = some e →
    Presentation.evicts ⟨c.instant, e.nonce, c.drain⟩ ⟨s.cache, s.now⟩ = false

section Replays

variable {verify : String → String → Except HmacAuthError Unit} {epoch : ℕ}
  {s s' : GatewayClock} {c : GatewayCall} {e : Pass}

theorem exists_payload_eq (h : c.pass = some e) :
    ∃ front, e.payload = front ++ ":" ++ c.request.headers.nonce := by
  simp only [GatewayCall.pass, Request.validation, Option.bind_eq_bind,
    Option.bind_eq_some_iff] at h
  obtain ⟨v, ⟨tenantId, -, headerValue, -, hv⟩, r, -, hr⟩ := h
  rw [Option.ite_none_left_eq_some, Option.some.injEq] at hv
  obtain ⟨-, rfl⟩ := hv
  rw [Option.some.injEq] at hr
  rw [← hr]
  show ∃ front, c.request.signedText tenantId = front ++ ":" ++ c.request.headers.nonce
  rw [Request.signedText]
  split
  · exact ⟨_, rfl⟩
  · exact ⟨_, rfl⟩

theorem gatewayStep_cases (h : gatewayStep verify epoch s c = some s') :
    s.now ≤ c.instant ∧ s'.now = c.instant ∧
    ((s'.cache = s.cache ∧ s'.passed = s.passed) ∨
      ∃ e, c.pass = some e ∧ e.instant = c.instant ∧
        (utcAt epoch c.instant - e.timestamp).natAbs ≤ hmacReplayWindowSecs ∧
        s.cache.holds c.instant e.nonce = false ∧
        s'.cache = (s.cache.checkAndInsert c.drain c.instant e.nonce).2 ∧
        (s'.passed = s.passed ∨ s'.passed = e :: s.passed)) := by
  rw [gatewayStep, Option.ite_none_right_eq_some, Option.some.injEq] at h
  obtain ⟨hnow, rfl⟩ := h
  refine ⟨hnow, rfl, ?_⟩
  rcases c.request.authenticate_cases verify (c.moment epoch) s.cache with
    ⟨-, e, hrejected⟩ | ⟨tenantId, v, -, hv, hauth⟩
  · exact .inl (by simp [hrejected, Except.isOk, Except.toBool])
  · rcases validateWith_cases verify (c.moment epoch) v.headerValue v.payload v.timestamp
      s.cache with
      ⟨nonce, signature, hread, hwindow, hfresh, heq⟩ | ⟨e, heq⟩
    · have hpass : c.pass = some ⟨v.payload, signature, v.timestamp, nonce, c.instant⟩ := by
        simp [GatewayCall.pass, hv, hread]
      rw [heq] at hauth
      refine .inr ⟨_, hpass, rfl, hwindow, hfresh, ?_⟩
      rcases hauth with ⟨-, hok⟩ | ⟨-, e, hrejected⟩
      · exact ⟨by rw [hok]; rfl, .inr (by simp [hok, hpass, Except.isOk, Except.toBool])⟩
      · exact ⟨by rw [hrejected]; rfl, .inl (by simp [hrejected, Except.isOk, Except.toBool])⟩
    · rw [heq] at hauth
      rcases hauth with ⟨hok, -⟩ | ⟨-, e', hrejected⟩
      · simp at hok
      · exact .inl (by simp [hrejected, Except.isOk, Except.toBool])

/-- What is known of a request that was let in under the condition. -/
structure PassHeld (epoch : ℕ) (s : GatewayClock) (e : Pass) : Prop where
  before : e.instant ≤ s.now
  stamped : e.timestamp < utcAt epoch e.instant
  held : s.now - e.instant < nonceTtlSecs * nanosPerSec →
    s.cache.entries.lookup e.nonce = some e.instant
  payload_eq : ∃ front, e.payload = front ++ ":" ++ e.nonce
  nonce_colon : ':' ∉ e.nonce.toList

/-- A nonce stays in the cache under a step that does not evict. -/
theorem PassHeld.step {e' : Pass} (h : PassHeld epoch s e') (hok : Bound epoch s c)
    (hstep : gatewayStep verify epoch s c = some s') : PassHeld epoch s' e' := by
  obtain ⟨hnow, hnow', hcases⟩ := gatewayStep_cases hstep
  refine ⟨hnow' ▸ h.before.trans hnow, h.stamped, fun hage => ?_, h.payload_eq, h.nonce_colon⟩
  rw [hnow'] at hage
  have hlookup := h.held (by omega)
  rcases hcases with ⟨hcache, -⟩ | ⟨e, hpass, -, -, hfresh, hcache, -⟩
  · rw [hcache]
    exact hlookup
  · rw [hcache]
    refine NonceCacheInner.lookup_checkAndInsert c.drain hlookup
      (NonceCacheInner.unexpired_iff.mpr hage) ?_
    intro _
    simpa [Presentation.evicts, hfresh] using hok.room e hpass

theorem nonce_eq_of_payload {e e' : Pass} {front front' : String}
    (h : e.payload = front ++ ":" ++ e.nonce) (h' : e'.payload = front' ++ ":" ++ e'.nonce)
    (hcolon : ':' ∉ e.nonce.toList) (hcolon' : ':' ∉ e'.nonce.toList)
    (heq : e.payload = e'.payload) : e.nonce = e'.nonce := by
  have hlist := congrArg String.toList (h.symm.trans (heq.trans h'))
  simp only [String.toList_append] at hlist
  have hsep : front.toList ++ ':' :: e.nonce.toList = front'.toList ++ ':' :: e'.nonce.toList := by
    simpa using hlist
  exact String.toList_injective (append_sep_inj_right hcolon hcolon' hsep).2

/-- In every run in which the nonce that is looked up is the signed one, a
header is not younger than its request and the cache does not evict, no
payload and signature are let in twice. -/
theorem acceptedOnce_of_bound (auth : ServiceAuthenticator) (epoch : ℕ) {s : GatewayClock}
    (hreach : Reach (gatewayStep auth.verifyExact epoch) (Bound epoch) .start s) :
    AcceptedOnce epoch s.passed := by
  have hinv : (∀ e ∈ s.passed, PassHeld epoch s e) ∧ AcceptedOnce epoch s.passed := by
    refine hreach.invariant (I := fun s => (∀ e ∈ s.passed, PassHeld epoch s e) ∧
      AcceptedOnce epoch s.passed) ⟨by simp [GatewayClock.start], .nil⟩ ?_
    rintro s c s' ⟨hheld, honce⟩ hok hstep
    have hkept : ∀ e ∈ s.passed, PassHeld epoch s' e := fun e he => (hheld e he).step hok hstep
    obtain ⟨hnow, hnow', ⟨-, hpassed⟩ | ⟨e, hpass, hinstant, hwindow, hfresh, hcache, hpassed⟩⟩ :=
      gatewayStep_cases hstep
    · rw [hpassed]
      exact ⟨hkept, honce⟩
    · rcases hpassed with hpassed | hpassed
      · rw [hpassed]
        exact ⟨hkept, honce⟩
      · obtain ⟨hnonce, hcolon⟩ := hok.nonce e hpass
        obtain ⟨front, hfront⟩ := exists_payload_eq hpass
        rw [← hnonce] at hfront
        rw [hpassed]
        constructor
        · intro e' he'
          rcases List.mem_cons.mp he' with rfl | he'
          · refine ⟨by omega, hinstant ▸ hok.stamped _ hpass, fun _ => ?_, ⟨front, hfront⟩, hcolon⟩
            rw [hcache, hinstant]
            exact NonceCacheInner.lookup_of_accepted c.drain hfresh
          · exact hkept e' he'
        · refine List.pairwise_cons.mpr ⟨?_, honce⟩
          intro e' he' hpayload _
          by_contra hin
          -- The nonce of the first time has not expired yet.
          have hold := hheld e' he'
          obtain ⟨front', hfront'⟩ := hold.payload_eq
          have hsame := nonce_eq_of_payload hfront hfront' hcolon hold.nonce_colon hpayload
          have hage := age_lt_of_window hold.stamped (not_lt.mp hin)
          rw [hinstant] at hage
          have hlookup := hold.held (by omega)
          rw [NonceCacheInner.holds, hsame, hlookup] at hfresh
          simp [NonceCacheInner.unexpired_iff.mpr hage] at hfresh
  exact hinv.2

end Replays

/-! The request of `testAuth`, with any nonce in its `Authorization` header. -/

def testHeader (innerNonce : String) : String :=
  headerPrefix ++ "1700000000" ++ "." ++ innerNonce ++ "." ++ hexEncode testDigest.toList

def testRequest (innerNonce : String) : Request where
  headers :=
    { authorization := some (asciiBytes (testHeader innerNonce))
      xRequestId := none
      xSereinNonce := some (asciiBytes "n-1")
      xSereinTenantId := some (asciiBytes "acme-corp")
      xSereinTimestamp := some (asciiBytes "1700000000") }
  endpoint := .agentExecution ⟨"US", none⟩

def testCall (innerNonce : String) (instant : ℕ) : GatewayCall where
  instant := instant
  drain := .id
  request := testRequest innerNonce

def testPass (innerNonce : String) (instant : ℕ) : Pass :=
  ⟨"acme-corp:US:default:1700000000:n-1", hexEncode testDigest.toList, 1700000000, innerNonce,
    instant⟩

/-- The epoch at which the request is one second old. -/
def testEpoch : ℕ := 1700000001 * nanosPerSec

section TestCall

variable {innerNonce : String} {instant : ℕ}

theorem toStr_testHeader (hvisible : visible innerNonce = true) :
    toStr (asciiBytes (testHeader innerNonce)) = some (testHeader innerNonce) := by
  refine toStr_asciiBytes ?_
  simp only [testHeader, visible_append, hvisible, visible_hexEncode, Bool.and_true]
  decide

theorem nonce_testRequest (innerNonce : String) :
    (testRequest innerNonce).headers.nonce = "n-1" := by
  simp [HeaderMap.nonce, testRequest, toStr_asciiBytes (by decide : visible "n-1")]

theorem validation_testRequest (hvisible : visible innerNonce = true) :
    (testRequest innerNonce).validation =
      some ⟨testHeader innerNonce, "acme-corp:US:default:1700000000:n-1", 1700000000⟩ := by
  have htenant : (testRequest innerNonce).headers.extractTenantId = some "acme-corp" := by
    have htrim : trim "acme-corp" = "acme-corp" := by decide +kernel
    simp [HeaderMap.extractTenantId, testRequest,
      toStr_asciiBytes (by decide : visible "acme-corp"), htrim]
  have hts : (testRequest innerNonce).headers.requestTimestamp = 1700000000 := by
    have hparse : parseI64 "1700000000" = some 1700000000 := by decide +kernel
    simp [HeaderMap.requestTimestamp, testRequest,
      toStr_asciiBytes (by decide : visible "1700000000"), hparse]
  have hnonce := nonce_testRequest innerNonce
  have htext : (testRequest innerNonce).signedText "acme-corp" =
      "acme-corp:US:default:1700000000:n-1" := by
    show agentExecutionText _ _ _ (testRequest innerNonce).headers.requestTimestamp
      (testRequest innerNonce).headers.nonce = _
    rw [hts, hnonce]
    decide +kernel
  have hheader : (testRequest innerNonce).headers.authorization.bind toStr =
      some (testHeader innerNonce) := toStr_testHeader hvisible
  simp [Request.validation, htenant, hheader, hnonce, hts, htext]

theorem parseAuthHeader_testHeader (hne : innerNonce ≠ "") (hdot : '.' ∉ innerNonce.toList) :
    parseAuthHeader (testHeader innerNonce) =
      some (1700000000, innerNonce, hexEncode testDigest.toList) := by
  have hparse : parseI64 "1700000000" = some 1700000000 := by decide +kernel
  exact parseAuthHeader_eq_some.mpr ⟨"1700000000", rfl, hparse, hne, hdot⟩

theorem pass_testCall (hvisible : visible innerNonce = true) (hne : innerNonce ≠ "")
    (hdot : '.' ∉ innerNonce.toList) :
    (testCall innerNonce instant).pass = some (testPass innerNonce instant) := by
  have hrequest : (testCall innerNonce instant).request = testRequest innerNonce := rfl
  simp [GatewayCall.pass, hrequest, validation_testRequest hvisible,
    parseAuthHeader_testHeader hne hdot]
  rfl

theorem gatewayStep_testCall (innerNonce : String) (instant : ℕ) (s : GatewayClock)
    (hvisible : visible innerNonce = true)
    (hne : innerNonce ≠ "") (hdot : '.' ∉ innerNonce.toList) (hnow : s.now ≤ instant)
    (hwindow : (utcAt testEpoch instant - 1700000000).natAbs ≤ hmacReplayWindowSecs)
    (hfresh : s.cache.holds instant innerNonce = false) :
    gatewayStep testAuth.verifyExact testEpoch s (testCall innerNonce instant) =
      some ⟨(s.cache.checkAndInsert .id instant innerNonce).2, instant,
        testPass innerNonce instant :: s.passed⟩ := by
  have hread := parseAuthHeader_testHeader hne hdot
  have hpass : (testCall innerNonce instant).pass = some (testPass innerNonce instant) :=
    pass_testCall hvisible hne hdot
  have hvalid := validateWith_of_fresh testAuth.verifyExact
    ⟨utcAt testEpoch instant, instant, .id⟩ "acme-corp:US:default:1700000000:n-1" hread hwindow
    hfresh
  have hverify : testAuth.verifyExact "acme-corp:US:default:1700000000:n-1"
      (hexEncode testDigest.toList) = .ok () := by
    rw [ServiceAuthenticator.verifyExact]
    exact if_pos rfl
  rcases (testRequest innerNonce).authenticate_cases testAuth.verifyExact
    ⟨utcAt testEpoch instant, instant, .id⟩ s.cache with
    ⟨hnone, -⟩ | ⟨tenantId, v, -, hv, hauth⟩
  · rw [validation_testRequest hvisible] at hnone
    simp at hnone
  · rw [validation_testRequest hvisible, Option.some.injEq] at hv
    subst hv
    rw [hvalid, hverify] at hauth
    rcases hauth with ⟨-, hok⟩ | ⟨hne, -⟩
    · rw [gatewayStep, if_pos (by exact hnow)]
      simp only [testCall, GatewayCall.moment] at hpass ⊢
      simp [hok, hpass, Except.isOk, Except.toBool]
    · simp at hne

end TestCall

theorem bound_testCall (s : GatewayClock) (instant : ℕ)
    (hstamp : 1700000000 < utcAt testEpoch instant)
    (hroom : Presentation.evicts ⟨instant, "n-1", .id⟩ ⟨s.cache, s.now⟩ = false) :
    Bound testEpoch s (testCall "n-1" instant) := by
  have hpass : (testCall "n-1" instant).pass = some (testPass "n-1" instant) :=
    pass_testCall (by decide) (by decide) (by decide)
  have hnonce : (testCall "n-1" instant).request.headers.nonce = "n-1" := nonce_testRequest "n-1"
  refine ⟨?_, ?_, ?_⟩ <;> intro e he <;> obtain rfl := Option.some.inj (hpass.symm.trans he)
  · rw [hnonce]
    exact ⟨rfl, (by decide : ':' ∉ "n-1".toList)⟩
  · exact hstamp
  · exact hroom

/-- A request is let in, and refused when it comes again after a second. -/
theorem acceptedOnce_testCall :
    ∃ s, Reach (gatewayStep testAuth.verifyExact testEpoch) (Bound testEpoch) .start s ∧
      s.now = nanosPerSec ∧ s.passed = [testPass "n-1" 0] ∧ AcceptedOnce testEpoch s.passed := by
  have hfirst := gatewayStep_testCall "n-1" 0 .start
    (by decide) (by decide) (by decide) le_rfl (by decide) (by decide)
  let s : GatewayClock :=
    ⟨(NonceCacheInner.new.checkAndInsert .id 0 "n-1").2, 0, [testPass "n-1" 0]⟩
  have hreach : Reach (gatewayStep testAuth.verifyExact testEpoch) (Bound testEpoch) .start s :=
    Reach.refl.tail (bound_testCall .start 0 (by decide) (by decide)) hfirst
  obtain ⟨s', hreplay⟩ : ∃ s', gatewayStep testAuth.verifyExact testEpoch s
      (testCall "n-1" nanosPerSec) = some s' := ⟨_, if_pos (Nat.zero_le _)⟩
  obtain ⟨-, hnow, ⟨-, hpassed⟩ | ⟨e, hpass, -, -, hfresh, -⟩⟩ := gatewayStep_cases hreplay
  · have hreach' := hreach.tail (bound_testCall s nanosPerSec (by decide) (by decide)) hreplay
    exact ⟨s', hreach', hnow, hpassed, acceptedOnce_of_bound testAuth testEpoch hreach'⟩
  · -- The cache still holds the nonce.
    obtain rfl := Option.some.inj
      ((pass_testCall (by decide) (by decide) (by decide)).symm.trans hpass)
    exact absurd hfresh (by decide)

/-- A request with a changed nonce in its `Authorization` header is let in a
second time. -/
theorem replayed_with_other_nonce :
    ¬∀ (auth : ServiceAuthenticator) (epoch : ℕ) (s : GatewayClock),
      Reach (gatewayStep auth.verifyExact epoch) anyStep .start s →
      AcceptedOnce epoch s.passed := by
  intro hall
  have hfirst := gatewayStep_testCall "n-1" 0 .start
    (by decide) (by decide) (by decide) le_rfl (by decide) (by decide)
  have hsecond := gatewayStep_testCall "n-2" nanosPerSec
    ⟨(NonceCacheInner.new.checkAndInsert .id 0 "n-1").2, 0, [testPass "n-1" 0]⟩
    (by decide) (by decide) (by decide) (Nat.zero_le _) (by decide) (by decide)
  have honce := hall testAuth testEpoch _
    ((Reach.refl.tail trivial hfirst).tail trivial hsecond)
  have hlate := (List.pairwise_cons.mp honce).1 _ List.mem_cons_self rfl rfl
  revert hlate
  decide

end SereinGateway.Gateway
