import Mathlib

/-!
The egress guard.

A call is checked against the list of hosts, then the host is looked up and
every address found is checked against the reserved ranges. What is handed to
the HTTP client is the URL, not the addresses, so the client looks the host up
again when it connects. Nothing ties its answer to the one that was checked: a
request goes to public addresses only, exactly if the resolver does not answer
the client with a reserved address after it has answered the guard without one.

`url::Url::parse`, the resolver and the client are parameters. The addresses a
client may connect to are those of its own lookup of the host; a request that
it makes on its own after an answer (a redirect) is not part of the model.
-/

namespace SereinGateway.Router

/-! ### Addresses -/

structure Ipv6Addr where
  s0 : UInt16
  s1 : UInt16
  s2 : UInt16
  s3 : UInt16
  s4 : UInt16
  s5 : UInt16
  s6 : UInt16
  s7 : UInt16
  deriving DecidableEq, Repr

/-- An address; one of version 4 is the number of its octets in network order. -/
inductive IpAddr where
  | v4 (addr : UInt32)
  | v6 (addr : Ipv6Addr)
  deriving DecidableEq, Repr

structure SocketAddr where
  ip : IpAddr
  port : UInt16
  deriving DecidableEq, Repr

namespace Ipv6Addr

def isUnspecified (a : Ipv6Addr) : Bool := a == ⟨0, 0, 0, 0, 0, 0, 0, 0⟩

def isLoopback (a : Ipv6Addr) : Bool := a == ⟨0, 0, 0, 0, 0, 0, 0, 1⟩

def toIpv4Mapped (a : Ipv6Addr) : Option UInt32 :=
  if a.s0 = 0 ∧ a.s1 = 0 ∧ a.s2 = 0 ∧ a.s3 = 0 ∧ a.s4 = 0 ∧ a.s5 = 0xffff then
    some ((a.s6.toUInt32 <<< 16) ||| a.s7.toUInt32)
  else none

end Ipv6Addr

def reservedIpv4Prefixes : List (UInt32 × UInt32) :=
  [(0x00000000, 8), (0x0a000000, 8), (0x64400000, 10), (0x7f000000, 8), (0xa9fe0000, 16),
    (0xac100000, 12), (0xc0a80000, 16), (0xc6120000, 15)]

def isReservedIpv4 (addr : UInt32) : Bool :=
  reservedIpv4Prefixes.any fun (bits, maskLen) =>
    let mask : UInt32 := if maskLen = 0 then 0 else 0xffffffff <<< (32 - maskLen)
    (addr ^^^ bits) &&& mask == 0

def isReservedIp : IpAddr → Bool
  | .v4 v4 => isReservedIpv4 v4
  | .v6 v6 =>
      if v6.isLoopback || v6.isUnspecified then true
      else
        let highBytes := (v6.s0.toUInt32 <<< 16) ||| v6.s1.toUInt32
        if highBytes &&& 0xfe000000 = 0xfc000000 then true
        else if highBytes &&& 0xffc00000 = 0xfe800000 then true
        else
          match v6.toIpv4Mapped with
          | some mappedV4 => isReservedIpv4 mappedV4
          | none => false

/-! ### The guard -/

inductive SecurityError where
  | egressViolation (endpoint : String)
  | ssrfDetected (ip : String)
  | invalidEndpoint (reason : String)
  | transportFailure (detail : String)
  deriving DecidableEq, Repr

/-- What the guard reads of a URL. -/
structure Url where
  hostStr : Option String
  port : Option UInt16
  deriving DecidableEq, Repr

/-- `get_allowlist`. -/
def allowlist : List String :=
  ["api.deepseek.com", "api.anthropic.com", "api.openai.com",
    "generativelanguage.googleapis.com", "cdn.openai.com", "storage.googleapis.com",
    "api.groq.com"]

/-- What the guard calls: the URL parser, the resolver with the answer to each
of the lookups in the order in which they are made, and the text of an address. -/
structure Resolution where
  parse : String → Except String Url
  lookup : ℕ → String → Except String (List IpAddr)
  display : IpAddr → String

namespace Resolution

variable (r : Resolution)

def validateEndpoint (endpoint : String) : Except SecurityError Unit :=
  match r.parse endpoint with
  | .error e => .error (.invalidEndpoint ("failed to parse URL: " ++ e))
  | .ok url =>
      match url.hostStr with
      | none => .error (.invalidEndpoint "URL has no host component")
      | some host =>
          if host ∈ allowlist then .ok () else .error (.egressViolation endpoint)

/-- `tokio::net::lookup_host`, the first lookup of a call. -/
def lookupHost (host : String) (port : UInt16) : Except String (List SocketAddr) :=
  (r.lookup 0 host).map fun addrs => addrs.map fun ip => ⟨ip, port⟩

/-- What both calls do before they turn to the client. The result is the host. -/
def checkEgress (endpoint : String) : Except SecurityError String :=
  match r.validateEndpoint endpoint with
  | .error e => .error e
  | .ok () =>
      match r.parse endpoint with
      | .error e =>
          .error (.invalidEndpoint ("failed to parse URL after allowlist check: " ++ e))
      | .ok url =>
          let host := url.hostStr.getD ""
          let port := url.port.getD 443
          match r.lookupHost host port with
          | .error e => .error (.transportFailure ("DNS lookup failed: " ++ e))
          | .ok addrs =>
              match addrs.find? fun addr => isReservedIp addr.ip with
              | some addr => .error (.ssrfDetected (r.display addr.ip))
              | none => .ok host

end Resolution

/-! ### The client -/

structure HttpResponse where
  status : ℕ
  text : Except String String

structure HttpRequest where
  endpoint : String
  headers : List (String × String)
  body : String

/-- A `reqwest::Client`. It may refuse to build a request; else it connects to
one of the addresses that its own lookup has found. -/
structure Client where
  build : HttpRequest → Except String Unit
  connect : List IpAddr → Except String IpAddr
  exchange : HttpRequest → IpAddr → Except String HttpResponse
  connect_mem : ∀ {addrs ip}, connect addrs = .ok ip → ip ∈ addrs

/-- How a call ends, and the address to which it has sent the request. -/
structure Outcome where
  sentTo : Option IpAddr
  result : Except SecurityError String

/-- `send`, with the second lookup of a call. -/
def Client.send (client : Client) (r : Resolution) (host : String) (request : HttpRequest) :
    Option IpAddr × Except String HttpResponse :=
  match client.build request with
  | .error e => (none, .error e)
  | .ok () =>
      match r.lookup 1 host with
      | .error e => (none, .error e)
      | .ok addrs =>
          match client.connect addrs with
          | .error e => (none, .error e)
          | .ok ip => (some ip, client.exchange request ip)

def isSuccess (status : ℕ) : Bool := decide (200 ≤ status ∧ status < 300)

def readResponse : Except String HttpResponse → Except SecurityError String
  | .error e => .error (.transportFailure ("HTTP request failed: " ++ e))
  | .ok response =>
      match response.text with
      | .error e => .error (.transportFailure ("response body read failed: " ++ e))
      | .ok body =>
          if isSuccess response.status then .ok body
          else .error (.transportFailure
            ("remote server returned status " ++ toString response.status))

/-- The two calls, which differ in their headers. -/
def guardedCall (r : Resolution) (client : Client) (request : HttpRequest) : Outcome :=
  match r.checkEgress request.endpoint with
  | .error e => ⟨none, .error e⟩
  | .ok host =>
      let (sentTo, response) := client.send r host request
      ⟨sentTo, readResponse response⟩

def secureCloudApiCall (r : Resolution) (client : Client) (endpoint payload : String) : Outcome :=
  guardedCall r client
    ⟨endpoint, [("Content-Type", "application/json"), ("Cache-Control", "ephemeral")], payload⟩

def eqIgnoreAsciiCase (a b : String) : Bool := a.map Char.toLower == b.map Char.toLower

def defaultHeader (name value : String) (extraHeaders : List (String × String)) :
    List (String × String) :=
  if extraHeaders.any fun h => eqIgnoreAsciiCase h.1 name then [] else [(name, value)]

def secureCloudApiCallWithHeaders (r : Resolution) (client : Client) (endpoint payload : String)
    (extraHeaders : List (String × String)) : Outcome :=
  guardedCall r client
    ⟨endpoint, extraHeaders ++ defaultHeader "Content-Type" "application/json" extraHeaders ++
      defaultHeader "Cache-Control" "ephemeral" extraHeaders, payload⟩

/-! ### Where requests go -/

def Resolution.HostOf (r : Resolution) (endpoint host : String) : Prop :=
  ∃ url, r.parse endpoint = .ok url ∧ url.hostStr = some host

/-- A request to this address is what the guard is for. -/
def Permitted (r : Resolution) (endpoint : String) (ip : IpAddr) : Prop :=
  (∃ host ∈ allowlist, r.HostOf endpoint host) ∧ isReservedIp ip = false

/-- The resolver answers the guard and then the client: when the first answer
holds no reserved address, neither does the second. -/
def Resolution.Steady (r : Resolution) (host : String) : Prop :=
  ∀ checked used, r.lookup 0 host = .ok checked → r.lookup 1 host = .ok used →
    (∀ ip ∈ checked, isReservedIp ip = false) → ∀ ip ∈ used, isReservedIp ip = false

section Calls

variable {r : Resolution} {client : Client} {request : HttpRequest} {endpoint host : String}
  {ip : IpAddr}

theorem validateEndpoint_eq_ok :
    r.validateEndpoint endpoint = .ok () ↔ ∃ host ∈ allowlist, r.HostOf endpoint host := by
  unfold Resolution.validateEndpoint Resolution.HostOf
  cases hparse : r.parse endpoint with
  | error e => simp
  | ok url =>
      cases hhost : url.hostStr with
      | none => simp [hhost]
      | some host =>
          simp only [Except.ok.injEq, exists_eq_left', hhost, Option.some.injEq]
          split <;> simp_all

/-- The guard lets a call pass exactly if the host is on the list and its
lookup finds no reserved address. -/
theorem checkEgress_eq_ok :
    r.checkEgress endpoint = .ok host ↔
      host ∈ allowlist ∧ r.HostOf endpoint host ∧
        ∃ checked, r.lookup 0 host = .ok checked ∧ ∀ ip ∈ checked, isReservedIp ip = false := by
  unfold Resolution.checkEgress
  cases hvalid : r.validateEndpoint endpoint with
  | error e =>
      refine ⟨fun h => (by cases h), ?_⟩
      rintro ⟨hlist, hhost, -⟩
      rw [validateEndpoint_eq_ok.mpr ⟨host, hlist, hhost⟩] at hvalid
      cases hvalid
  | ok u =>
      obtain ⟨h₀, hlist, url, hparse, hhost⟩ := validateEndpoint_eq_ok.mp hvalid
      have hunique : ∀ h, r.HostOf endpoint h ↔ h = h₀ := by
        intro h
        simp only [Resolution.HostOf, hparse, Except.ok.injEq, exists_eq_left', hhost,
          Option.some.injEq]
        exact eq_comm
      simp only [hparse, hhost, Option.getD_some, hunique, Resolution.lookupHost]
      cases hlookup : r.lookup 0 h₀ with
      | error e =>
          refine ⟨fun h => (by cases h), ?_⟩
          rintro ⟨-, rfl, checked, hchecked, -⟩
          rw [hlookup] at hchecked
          cases hchecked
      | ok addrs =>
          have hfind : ((addrs.map fun ip => (⟨ip, url.port.getD 443⟩ : SocketAddr)).find?
              fun addr => isReservedIp addr.ip) = none ↔
              ∀ ip ∈ addrs, isReservedIp ip = false := by
            simp
          simp only [Except.map]
          split
          · rename_i addr haddr
            refine ⟨fun h => (by cases h), ?_⟩
            rintro ⟨-, rfl, checked, hchecked, hclean⟩
            rw [hlookup] at hchecked
            obtain rfl := Except.ok.inj hchecked
            rw [hfind.mpr hclean] at haddr
            cases haddr
          · rename_i haddr
            constructor
            · intro h
              obtain rfl := Except.ok.inj h
              exact ⟨hlist, rfl, addrs, hlookup, hfind.mp haddr⟩
            · rintro ⟨-, rfl, -⟩
              rfl

theorem send_sentTo (h : (client.send r host request).1 = some ip) :
    ∃ used, r.lookup 1 host = .ok used ∧ ip ∈ used := by
  unfold Client.send at h
  split at h
  · cases h
  · split at h
    · cases h
    · rename_i used hlookup
      split at h
      · cases h
      · rename_i addr hconnect
        obtain rfl := Option.some.inj h
        exact ⟨used, hlookup, client.connect_mem hconnect⟩

/-- What a call that sends something has gone through. -/
theorem guardedCall_sentTo (h : (guardedCall r client request).sentTo = some ip) :
    ∃ host ∈ allowlist, r.HostOf request.endpoint host ∧
      (∃ checked, r.lookup 0 host = .ok checked ∧ ∀ a ∈ checked, isReservedIp a = false) ∧
      ∃ used, r.lookup 1 host = .ok used ∧ ip ∈ used := by
  unfold guardedCall at h
  split at h
  · cases h
  · rename_i host hcheck
    obtain ⟨hlist, hhost, hchecked⟩ := checkEgress_eq_ok.mp hcheck
    exact ⟨host, hlist, hhost, hchecked, send_sentTo h⟩

/-- A client that connects to the address as soon as it is offered. -/
def clientTo (ip : IpAddr) : Client where
  build _ := .ok ()
  connect addrs := if ip ∈ addrs then .ok ip else .error "connection refused"
  exchange _ _ := .ok ⟨200, .ok ""⟩
  connect_mem := by
    intro addrs a h
    split at h
    · rename_i hmem
      exact Except.ok.inj h ▸ hmem
    · cases h

theorem clientTo_sentTo {checked used : List IpAddr} (hlist : host ∈ allowlist)
    (hhost : r.HostOf request.endpoint host) (hlookup : r.lookup 0 host = .ok checked)
    (hclean : ∀ a ∈ checked, isReservedIp a = false) (hused : r.lookup 1 host = .ok used)
    (hip : ip ∈ used) : (guardedCall r (clientTo ip) request).sentTo = some ip := by
  have hcheck := checkEgress_eq_ok.mpr ⟨hlist, hhost, checked, hlookup, hclean⟩
  simp [guardedCall, hcheck, Client.send, clientTo, hused, hip]

end Calls

/-- Requests of both calls go where they may, whatever client is used, exactly
if the resolver is steady on the host of the endpoint, in case it is listed. What a
client does besides its own look-up is outside: redirects that it follows, a proxy, a
connection that it has kept. -/
theorem egress_permitted_iff (r : Resolution) (endpoint : String) :
    (∀ (client : Client) (payload : String) (ip : IpAddr),
      ((secureCloudApiCall r client endpoint payload).sentTo = some ip →
        Permitted r endpoint ip) ∧
      ∀ extraHeaders,
        (secureCloudApiCallWithHeaders r client endpoint payload extraHeaders).sentTo = some ip →
          Permitted r endpoint ip) ↔
    ∀ host ∈ allowlist, r.HostOf endpoint host → r.Steady host := by
  constructor
  · intro hall host hlist hhost checked used hchecked hused hclean ip hip
    have hsent : (secureCloudApiCall r (clientTo ip) endpoint "").sentTo = some ip :=
      clientTo_sentTo hlist hhost hchecked hclean hused hip
    exact ((hall (clientTo ip) "" ip).1 hsent).2
  · intro hsteady client payload ip
    have hcall : ∀ request : HttpRequest, request.endpoint = endpoint →
        (guardedCall r client request).sentTo = some ip → Permitted r endpoint ip := by
      rintro request rfl hsent
      obtain ⟨host, hlist, hhost, ⟨checked, hchecked, hclean⟩, used, hused, hip⟩ :=
        guardedCall_sentTo hsent
      exact ⟨⟨host, hlist, hhost⟩,
        hsteady host hlist hhost checked used hchecked hused hclean ip hip⟩
    exact ⟨hcall _ rfl, fun extraHeaders => hcall _ rfl⟩

/-- The metadata address of cloud machines, 169.254.169.254. -/
def metadataAddress : IpAddr := .v4 0xa9fea9fe

/-- A listed host whose public address is gone at the second lookup. -/
def rebinding : Resolution where
  parse _ := .ok ⟨some "api.openai.com", none⟩
  lookup n _ := if n = 0 then .ok [.v4 0x68120721] else .ok [metadataAddress]
  display _ := ""

/-- A host that is bound to another address between the check and the use. -/
theorem rebinding_reaches_metadata :
    ¬∀ (r : Resolution) (client : Client) (endpoint payload : String) (ip : IpAddr),
      (secureCloudApiCall r client endpoint payload).sentTo = some ip →
        Permitted r endpoint ip := by
  intro hall
  have hsent : (secureCloudApiCall rebinding (clientTo metadataAddress)
      "https://api.openai.com/v1/chat/completions" "").sentTo = some metadataAddress := by decide
  have hpermitted := hall rebinding (clientTo metadataAddress)
    "https://api.openai.com/v1/chat/completions" "" metadataAddress hsent
  exact absurd hpermitted.2 (by decide)

end SereinGateway.Router
