import Mathlib
import SereinGateway.Lib.Fields
import SereinGateway.Lib.Text
import SereinGateway.Gateway.Authentication

/-!
Which signed payloads can be read in one way only.

The payload of an agent execution joins five fields with colons and escapes
nothing, and the characters of the network id and of the task type are
checked only after the authentication. A payload can therefore be that of
several requests: a colon may belong to a field or end it. `Unambiguous`
lists what a request must not have for its payload to be its own.
-/

namespace SereinGateway.Gateway

open SereinGateway.Lib SereinGateway.Security

/-- The fields that are signed for an agent execution. -/
structure AgentFields where
  tenantId : String
  networkId : String
  taskType : String
  timestamp : ℤ
  nonce : String
  deriving DecidableEq, Repr

structure HotSwapFields where
  tenantId : String
  timestamp : ℤ
  nonce : String
  deriving DecidableEq, Repr

def AgentFields.text (f : AgentFields) : String :=
  agentExecutionText f.tenantId f.networkId f.taskType f.timestamp f.nonce

def HotSwapFields.text (h : HotSwapFields) : String := hotSwapText h.tenantId h.timestamp h.nonce

/-- The fields of a request that the handler accepts up to the check of the signature. -/
def AgentFields.Accepted (f : AgentFields) : Prop :=
  ∃ (moment : Moment) (headers : HeaderMap) (body : AgentExecutionPayload)
    (cache : NonceCacheInner),
    (authenticateAgentExecution (some fun _ _ => .ok ()) moment headers body cache).1 =
      .ok f.tenantId ∧
    body.networkId = f.networkId ∧ body.taskTypeVal = f.taskType ∧
    headers.requestTimestamp = f.timestamp ∧ headers.nonce = f.nonce

def HotSwapFields.Accepted (h : HotSwapFields) : Prop :=
  ∃ (moment : Moment) (headers : HeaderMap) (cache : NonceCacheInner),
    (authenticateHotSwap (some fun _ _ => .ok ()) moment headers cache).1 = .ok h.tenantId ∧
    headers.requestTimestamp = h.timestamp ∧ headers.nonce = h.nonce

/-! ### What is accepted -/

def IsTenant (t : String) : Prop := t ≠ "" ∧ trim t = t ∧ visible t = true

/-- A timestamp that can be read from a header, zero apart. -/
def IsTimestamp (d : ℤ) : Prop := d ≠ 0 ∧ -2 ^ 63 ≤ d ∧ d < 2 ^ 63

def IsNonce (n : String) : Prop := n ≠ "" ∧ visible n = true

theorem visible_trim {s : String} (h : visible s = true) : visible (trim s) = true := by
  rw [visible, List.all_eq_true] at h ⊢
  exact fun c hc => h c (mem_of_mem_trim hc)

theorem visible_toString (d : ℤ) : visible (toString d) = true := by
  rw [visible, List.all_eq_true]
  intro c hc
  rcases mem_toString_int hc with hdigit | rfl
  · rw [Char.isDigit_iff_toNat] at hdigit
    simp only [isVisibleChar, Bool.or_eq_true, Bool.and_eq_true, decide_eq_true_eq, beq_iff_eq]
    left
    have h0 : '0'.toNat = 48 := rfl
    have h9 : '9'.toNat = 57 := rfl
    omega
  · decide

theorem isTenant_of_extractTenantId {headers : HeaderMap} {t : String}
    (h : headers.extractTenantId = some t) : IsTenant t := by
  rw [HeaderMap.extractTenantId] at h
  split at h
  next tenant hread =>
    obtain ⟨value, -, hvalue⟩ := Option.bind_eq_some_iff.mp hread
    simp only [ne_eq, ite_not, Option.ite_none_left_eq_some, Option.some.injEq] at h
    obtain ⟨hne, rfl⟩ := h
    exact ⟨hne, trim_trim tenant, visible_trim (visible_of_toStr hvalue)⟩
  next => simp at h

theorem isTimestamp_requestTimestamp {headers : HeaderMap} (h : headers.requestTimestamp ≠ 0) :
    IsTimestamp headers.requestTimestamp := by
  refine ⟨h, ?_⟩
  rw [HeaderMap.requestTimestamp] at h ⊢
  cases hread : (headers.xSereinTimestamp.bind toStr).bind parseI64 with
  | none => simp [hread] at h
  | some d =>
      obtain ⟨s, -, hparse⟩ := Option.bind_eq_some_iff.mp hread
      exact parseI64_eq_some_range hparse

theorem isNonce_nonce {headers : HeaderMap} (h : headers.nonce ≠ "") : IsNonce headers.nonce := by
  refine ⟨h, ?_⟩
  rw [HeaderMap.nonce] at h ⊢
  cases hread : headers.xSereinNonce.bind toStr with
  | none => simp [hread] at h
  | some n =>
      obtain ⟨value, -, hvalue⟩ := Option.bind_eq_some_iff.mp hread
      exact visible_of_toStr hvalue

/-- Headers from which the given values are read. -/
def headersFor (tenantId : String) (timestamp : ℤ) (nonce : String) : HeaderMap where
  authorization := some (asciiBytes (headerPrefix ++ toString timestamp ++ "." ++ "n" ++ "." ++ ""))
  xRequestId := none
  xSereinNonce := some (asciiBytes nonce)
  xSereinTenantId := some (asciiBytes tenantId)
  xSereinTimestamp := some (asciiBytes (toString timestamp))

section HeadersFor

variable {tenantId nonce : String} {timestamp : ℤ}

theorem extractTenantId_headersFor (timestamp : ℤ) (nonce : String) (h : IsTenant tenantId) :
    (headersFor tenantId timestamp nonce).extractTenantId = some tenantId := by
  obtain ⟨hne, htrim, hvisible⟩ := h
  simp [HeaderMap.extractTenantId, headersFor, toStr_asciiBytes hvisible, htrim, hne]

theorem requestTimestamp_headersFor (h : IsTimestamp timestamp) :
    (headersFor tenantId timestamp nonce).requestTimestamp = timestamp := by
  have hread : (headersFor tenantId timestamp nonce).xSereinTimestamp.bind toStr =
      some (toString timestamp) := toStr_asciiBytes (visible_toString timestamp)
  rw [HeaderMap.requestTimestamp, hread, Option.bind_some, parseI64_toString h.2.1 h.2.2]
  rfl

theorem nonce_headersFor (h : IsNonce nonce) :
    (headersFor tenantId timestamp nonce).nonce = nonce := by
  simp [HeaderMap.nonce, headersFor, toStr_asciiBytes h.2]

/-- A request with these headers is accepted at the time of its timestamp, by
an empty cache and up to the signature. -/
theorem authenticate_headersFor (htenant : IsTenant tenantId) (hts : IsTimestamp timestamp)
    (hnonce : IsNonce nonce) (endpoint : Endpoint) :
    (Request.authenticate ⟨headersFor tenantId timestamp nonce, endpoint⟩ (fun _ _ => .ok ())
      ⟨timestamp, 0, .id⟩ .new).1 = .ok tenantId := by
  have hheader : (headersFor tenantId timestamp nonce).authorization.bind toStr =
      some (headerPrefix ++ toString timestamp ++ "." ++ "n" ++ "." ++ "") := by
    refine toStr_asciiBytes ?_
    simp only [visible_append, visible_toString, Bool.and_true]
    decide
  have hpresents : Presents ⟨timestamp, 0, .id⟩ .new
      (headerPrefix ++ toString timestamp ++ "." ++ "n" ++ "." ++ "") timestamp "" :=
    ⟨toString timestamp, "n", rfl, parseI64_toString hts.2.1 hts.2.2, by decide, by decide,
      by simp, rfl⟩
  have hread := extractTenantId_headersFor timestamp nonce htenant
  rcases Request.authenticate_cases ⟨headersFor tenantId timestamp nonce, endpoint⟩
    (fun _ _ => .ok ()) ⟨timestamp, 0, .id⟩ .new with
    ⟨hnone, -⟩ | ⟨tenantId', v, htenant', hv, hauth⟩
  · simp [Request.validation, hread, hheader, nonce_headersFor hnonce, hnonce.1,
      requestTimestamp_headersFor hts, hts.1] at hnone
  · obtain rfl : tenantId = tenantId' := Option.some.inj (hread.symm.trans htenant')
    simp only [Request.validation, hread, hheader, nonce_headersFor hnonce, hnonce.1,
      requestTimestamp_headersFor hts, hts.1, Option.bind_eq_bind, Option.bind_some, or_self,
      if_false, Option.some.injEq] at hv
    subst hv
    rcases hauth with ⟨-, hok⟩ | ⟨hne, -⟩
    · rw [hok]
    · exact absurd (validateWith_eq_ok.mpr ⟨"", hpresents, rfl⟩) hne

end HeadersFor

theorem read_of_authenticate {r : Request} {verify : String → String → Except HmacAuthError Unit}
    {moment : Moment} {cache : NonceCacheInner} {tenantId : String}
    (h : (r.authenticate verify moment cache).1 = .ok tenantId) :
    IsTenant tenantId ∧ IsTimestamp r.headers.requestTimestamp ∧ IsNonce r.headers.nonce := by
  rcases r.authenticate_cases verify moment cache with ⟨-, e, hrejected⟩ |
    ⟨tenantId', v, htenant, hv, ⟨-, hok⟩ | ⟨-, e, hrejected⟩⟩
  · rw [hrejected] at h
    simp at h
  · rw [hok, Except.ok.injEq] at h
    subst h
    simp only [Request.validation, htenant, Option.bind_eq_bind, Option.bind_some,
      Option.bind_eq_some_iff, Option.ite_none_left_eq_some, not_or] at hv
    obtain ⟨-, -, ⟨hnonce, hts⟩, -⟩ := hv
    exact ⟨isTenant_of_extractTenantId htenant, isTimestamp_requestTimestamp hts,
      isNonce_nonce hnonce⟩
  · rw [hrejected] at h
    simp at h

theorem AgentFields.accepted_iff (f : AgentFields) :
    f.Accepted ↔ IsTenant f.tenantId ∧ IsTimestamp f.timestamp ∧ IsNonce f.nonce := by
  constructor
  · rintro ⟨moment, headers, body, cache, hok, -, -, hts, hnonce⟩
    have hread := read_of_authenticate (r := ⟨headers, .agentExecution body⟩) hok
    exact hts ▸ hnonce ▸ hread
  · rintro ⟨htenant, hts, hnonce⟩
    exact ⟨⟨f.timestamp, 0, .id⟩, headersFor f.tenantId f.timestamp f.nonce,
      ⟨f.networkId, some f.taskType⟩, .new,
      authenticate_headersFor htenant hts hnonce (.agentExecution ⟨f.networkId, some f.taskType⟩),
      rfl, rfl, requestTimestamp_headersFor hts, nonce_headersFor hnonce⟩

theorem HotSwapFields.accepted_iff (h : HotSwapFields) :
    h.Accepted ↔ IsTenant h.tenantId ∧ IsTimestamp h.timestamp ∧ IsNonce h.nonce := by
  constructor
  · rintro ⟨moment, headers, cache, hok, hts, hnonce⟩
    have hread := read_of_authenticate (r := ⟨headers, .hotSwap⟩) hok
    exact hts ▸ hnonce ▸ hread
  · rintro ⟨htenant, hts, hnonce⟩
    exact ⟨⟨h.timestamp, 0, .id⟩, headersFor h.tenantId h.timestamp h.nonce, .new,
      authenticate_headersFor htenant hts hnonce .hotSwap, requestTimestamp_headersFor hts,
      nonce_headersFor hnonce⟩

/-! ### What can be read in one way only -/

/-- What a request must not have for its payload to be its own: a colon in the
network id or the task type, a tenant id that goes on after another tenant
id, a timestamp inside the nonce, or the fields of a hot swap. -/
structure Unambiguous (f : AgentFields) : Prop where
  networkId : ':' ∉ f.networkId.toList
  taskType : ':' ∉ f.taskType.toList
  tenantId : ∀ a b, IsTenant a → f.tenantId ≠ a ++ ":" ++ b
  nonce : ∀ d rest, IsTimestamp d → rest ≠ "" → f.nonce ≠ toString d ++ ":" ++ rest
  nonce_inside : ∀ front d rest, IsTimestamp d → rest ≠ "" →
    f.nonce ≠ front ++ ":" ++ toString d ++ ":" ++ rest
  hotSwap_network : f.networkId = "hot-swap" → ∀ d, IsTimestamp d → f.taskType ≠ toString d
  hotSwap_task : f.taskType = "hot-swap" → ¬IsTenant (f.tenantId ++ ":" ++ f.networkId)

theorem colon_toString (d : ℤ) : ':' ∉ (toString d).toList := by
  intro h
  rcases mem_toString_int h with h | h
  · revert h
    decide
  · revert h
    decide

theorem AgentFields.toList_text (f : AgentFields) :
    f.text.toList =
      (f.tenantId.toList ++ ':' :: (f.networkId.toList ++ ':' :: f.taskType.toList)) ++
        ':' :: ((toString f.timestamp).toList ++ ':' :: f.nonce.toList) := by
  simp [AgentFields.text, agentExecutionText]

theorem HotSwapFields.toList_text (h : HotSwapFields) :
    h.text.toList = (h.tenantId.toList ++ ':' :: "hot-swap".toList) ++
      ':' :: ((toString h.timestamp).toList ++ ':' :: h.nonce.toList) := by
  simp [HotSwapFields.text, hotSwapText]

section Unambiguous

variable {f g : AgentFields}

theorem Unambiguous.tenant_toList (h : Unambiguous f) {t : String} (ht : IsTenant t)
    {m : List Char} : f.tenantId.toList ≠ t.toList ++ ':' :: m := by
  intro heq
  refine h.tenantId t (.ofList m) ht (String.toList_injective ?_)
  simpa using heq

theorem Unambiguous.not_timestamp (h : Unambiguous f) {d : ℤ} (hd : IsTimestamp d) {rest : String}
    (hrest : rest ≠ "") {m : List Char}
    (heq : (toString f.timestamp).toList ++ ':' :: f.nonce.toList =
      m ++ ':' :: ((toString d).toList ++ ':' :: rest.toList)) : False := by
  rcases append_sep_of_notMem (colon_toString f.timestamp) heq with ⟨-, hx⟩ | ⟨m', -, hx⟩
  · refine h.nonce d rest hd hrest (String.toList_injective ?_)
    simpa using hx
  · refine h.nonce_inside (.ofList m') d rest hd hrest (String.toList_injective ?_)
    simpa using hx

theorem Unambiguous.eq_of_text (h : Unambiguous f) (hg : g.Accepted) (heq : g.text = f.text) :
    g = f := by
  obtain ⟨htenant, hts, hnonce⟩ := g.accepted_iff.mp hg
  have hlist := congrArg String.toList heq.symm
  rw [f.toList_text, g.toList_text] at hlist
  rcases append_sep_cases hlist with ⟨hfront, hrest⟩ | ⟨m, -, hrest⟩ | ⟨m, hfront, -⟩
  · obtain ⟨hd, hx⟩ := append_sep_inj (colon_toString _) (colon_toString _) hrest
    rcases append_sep_three h.networkId h.taskType hfront with ⟨ht, hn, hk⟩ | ⟨m, hm⟩
    · have hd' : f.timestamp = g.timestamp :=
        Int.repr_injective (String.toList_injective hd)
      rw [String.toList_inj] at ht hn hk hx
      cases f
      cases g
      simp_all
    · exact absurd hm (h.tenant_toList htenant)
  · exact (h.not_timestamp hts hnonce.1 hrest).elim
  · have hthree : f.tenantId.toList ++ ':' :: (f.networkId.toList ++ ':' :: f.taskType.toList) =
        g.tenantId.toList ++
          ':' :: (g.networkId.toList ++ ':' :: (g.taskType.toList ++ ':' :: m)) := by
      simpa using hfront
    rcases append_sep_three h.networkId h.taskType hthree with ⟨-, -, hk⟩ | ⟨m', hm⟩
    · have := h.taskType
      simp [hk] at this
    · exact absurd hm (h.tenant_toList htenant)

theorem Unambiguous.text_ne_hotSwap (h : Unambiguous f) {s : HotSwapFields} (hs : s.Accepted) :
    s.text ≠ f.text := by
  intro heq
  obtain ⟨htenant, hts, hnonce⟩ := s.accepted_iff.mp hs
  have hcolon : ':' ∉ "hot-swap".toList := by decide
  have hlist := congrArg String.toList heq.symm
  rw [f.toList_text, s.toList_text] at hlist
  rcases append_sep_cases hlist with ⟨hfront, -⟩ | ⟨m, -, hrest⟩ | ⟨m, hfront, hrest⟩
  · -- The hot swap of the tenant id and the network id together.
    rcases append_sep_cases hfront with ⟨-, hbad⟩ | ⟨m, ht, hbad⟩ | ⟨m, hm, -⟩
    · rw [← hbad] at hcolon
      simp at hcolon
    · rcases append_sep_of_notMem h.networkId hbad with ⟨rfl, hk⟩ | ⟨m', -, hk⟩
      · refine h.hotSwap_task (String.toList_injective hk) ?_
        have htext : s.tenantId = f.tenantId ++ ":" ++ f.networkId := by
          apply String.toList_injective
          simpa using ht
        exact htext ▸ htenant
      · have := h.taskType
        simp [hk] at this
    · exact h.tenant_toList htenant hm
  · exact h.not_timestamp hts hnonce.1 hrest
  · -- The hot swap with the task type as its timestamp.
    have hthree : f.tenantId.toList ++ ':' :: (f.networkId.toList ++ ':' :: f.taskType.toList) =
        s.tenantId.toList ++ ':' :: ("hot-swap".toList ++ ':' :: m) := by
      simpa using hfront
    rcases append_sep_three h.networkId h.taskType hthree with ⟨-, hn, hk⟩ | ⟨m', hm⟩
    · have hmcolon : ':' ∉ m := hk ▸ h.taskType
      obtain ⟨hd, -⟩ := append_sep_inj (colon_toString _) hmcolon hrest
      refine h.hotSwap_network (String.toList_injective hn) s.timestamp hts ?_
      exact String.toList_injective (hk.trans hd.symm)
    · exact h.tenant_toList htenant hm

/-- The payload of the request is that of no other agent execution and of no
hot swap. -/
def OwnPayload (f : AgentFields) : Prop :=
  (∀ g : AgentFields, g.Accepted → g.text = f.text → g = f) ∧
    ∀ s : HotSwapFields, s.Accepted → s.text ≠ f.text

theorem exists_append_of_colon {s : String} (h : ':' ∈ s.toList) : ∃ a b, s = a ++ ":" ++ b := by
  obtain ⟨a, b, hab⟩ := List.append_of_mem h
  refine ⟨.ofList a, .ofList b, String.toList_injective ?_⟩
  simpa using hab

theorem ne_append_left (a b : String) : a ≠ a ++ ":" ++ b := by
  intro h
  have hlen := congrArg (fun s => s.toList.length) h
  simp at hlen

theorem ne_append_right (a b : String) : b ≠ a ++ ":" ++ b := by
  intro h
  have hlen := congrArg (fun s => s.toList.length) h
  simp at hlen
  omega

/-- Each of the excluded shapes has a second reading. -/
theorem unambiguous_of_own (hf : f.Accepted) (h : OwnPayload f) : Unambiguous f := by
  obtain ⟨honly, hswap⟩ := h
  obtain ⟨htenant, hts, hnonce⟩ := f.accepted_iff.mp hf
  obtain ⟨tenantId, networkId, taskType, timestamp, nonce⟩ := f
  refine ⟨fun hcolon => ?_, fun hcolon => ?_, ?_, ?_, ?_, ?_, ?_⟩
  · obtain ⟨a, b, rfl⟩ := exists_append_of_colon hcolon
    have hsame := honly ⟨tenantId, a, b ++ ":" ++ taskType, timestamp, nonce⟩
      ((AgentFields.accepted_iff _).mpr ⟨htenant, hts, hnonce⟩)
      (by simp only [AgentFields.text, agentExecutionText, String.append_assoc])
    exact ne_append_left a b (congrArg AgentFields.networkId hsame)
  · obtain ⟨a, b, rfl⟩ := exists_append_of_colon hcolon
    have hsame := honly ⟨tenantId, networkId ++ ":" ++ a, b, timestamp, nonce⟩
      ((AgentFields.accepted_iff _).mpr ⟨htenant, hts, hnonce⟩)
      (by simp only [AgentFields.text, agentExecutionText, String.append_assoc])
    exact ne_append_right a b (congrArg AgentFields.taskType hsame)
  · rintro a b ha rfl
    have hsame := honly ⟨a, b, networkId ++ ":" ++ taskType, timestamp, nonce⟩
      ((AgentFields.accepted_iff _).mpr ⟨ha, hts, hnonce⟩)
      (by simp only [AgentFields.text, agentExecutionText, String.append_assoc])
    exact ne_append_left a b (congrArg AgentFields.tenantId hsame)
  · rintro d rest hd hrest rfl
    have hvisible : visible rest = true := by
      have := hnonce.2
      simp only [visible_append, Bool.and_eq_true] at this
      exact this.2
    have hsame := honly ⟨tenantId, networkId, taskType ++ ":" ++ toString timestamp, d, rest⟩
      ((AgentFields.accepted_iff _).mpr ⟨htenant, hd, hrest, hvisible⟩)
      (by simp only [AgentFields.text, agentExecutionText, String.append_assoc])
    exact ne_append_right _ rest (congrArg AgentFields.nonce hsame)
  · rintro front d rest hd hrest rfl
    have hvisible : visible rest = true := by
      have := hnonce.2
      simp only [visible_append, Bool.and_eq_true] at this
      exact this.2
    have hsame := honly ⟨tenantId, networkId,
        taskType ++ ":" ++ toString timestamp ++ ":" ++ front, d, rest⟩
      ((AgentFields.accepted_iff _).mpr ⟨htenant, hd, hrest, hvisible⟩)
      (by simp only [AgentFields.text, agentExecutionText, String.append_assoc])
    exact ne_append_right _ rest (congrArg AgentFields.nonce hsame)
  · rintro rfl d hd rfl
    refine hswap ⟨tenantId, d, toString timestamp ++ ":" ++ nonce⟩
      ((HotSwapFields.accepted_iff _).mpr ⟨htenant, hd, ?_, ?_⟩) (String.toList_injective ?_)
    · intro hempty
      have hlen := congrArg (fun s => s.toList.length) hempty
      simp at hlen
    · simp only [visible_append, visible_toString, hnonce.2, Bool.and_true, Bool.true_and]
      decide
    · rw [AgentFields.toList_text, HotSwapFields.toList_text]
      simp
  · rintro rfl hboth
    refine hswap ⟨tenantId ++ ":" ++ networkId, timestamp, nonce⟩
      ((HotSwapFields.accepted_iff _).mpr ⟨hboth, hts, hnonce⟩) (String.toList_injective ?_)
    rw [AgentFields.toList_text, HotSwapFields.toList_text]
    simp

end Unambiguous

/-- The payload of an accepted request is its own exactly when the request is
unambiguous. -/
theorem ownPayload_iff (f : AgentFields) (hf : f.Accepted) : OwnPayload f ↔ Unambiguous f :=
  ⟨unambiguous_of_own hf, fun h => ⟨fun _ hg => h.eq_of_text hg, fun _ => h.text_ne_hotSwap⟩⟩

def colonInNetwork : AgentFields := ⟨"acme", "US:east", "default", 1700000000, "n-1"⟩

def colonInTenant : AgentFields := ⟨"acme:US", "east", "default", 1700000000, "n-1"⟩

theorem isTenant_acme : IsTenant "acme" := ⟨by decide, by decide +kernel, by decide⟩

theorem isTenant_acme_us : IsTenant "acme:US" := ⟨by decide, by decide +kernel, by decide⟩

theorem isTimestamp_test : IsTimestamp 1700000000 := ⟨by decide, by decide, by decide⟩

theorem isNonce_test : IsNonce "n-1" := ⟨by decide, by decide⟩

theorem accepted_colonInNetwork : colonInNetwork.Accepted :=
  colonInNetwork.accepted_iff.mpr ⟨isTenant_acme, isTimestamp_test, isNonce_test⟩

/-- The request with a colon in its network id has not its payload for itself. -/
theorem ownPayload_iff_colonInNetwork : colonInNetwork.Accepted ∧ ¬OwnPayload colonInNetwork := by
  refine ⟨accepted_colonInNetwork, fun hown => ?_⟩
  have h := (ownPayload_iff colonInNetwork accepted_colonInNetwork).mp hown
  exact h.networkId (by decide)

/-- Two accepted requests of different tenants with one payload. -/
theorem payload_of_two_tenants :
    ¬((∀ f g : AgentFields, f.Accepted → g.Accepted → f.text = g.text → f = g) ∧
      ∀ (f : AgentFields) (s : HotSwapFields), f.Accepted → s.Accepted → f.text ≠ s.text) := by
  rintro ⟨hall, -⟩
  have hsame := hall colonInNetwork colonInTenant accepted_colonInNetwork
    (colonInTenant.accepted_iff.mpr ⟨isTenant_acme_us, isTimestamp_test, isNonce_test⟩)
    (by decide +kernel)
  revert hsame
  decide

end SereinGateway.Gateway
