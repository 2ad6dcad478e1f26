import Mathlib
import SereinGateway.Lib.Fields
import SereinGateway.Lib.Grouping
import SereinGateway.Lib.Text

/-!
Authentication headers and the replay cache.

HMAC-SHA256 is not part of this repository and is a field of
`ServiceAuthenticator`; it takes keys of any length and does not fail. The
wall clock is read in whole seconds and the monotonic clock, by which the
cache measures the age of a nonce, in nanoseconds; both readings are
arguments. So is the order in which the hash map of the cache is drained. The
counter of insertions, of which only divisibility matters, is a natural
number.

`verify` accepts every signature. `validateWith` is the body of
`validate_auth_header` for any check of signatures, so that the same code can
be studied with `verify` as it is and with `verifyExact`, which is what
`verify` is described to do.
-/

namespace SereinGateway.Security

open SereinGateway.Lib

def nonceTtlSecs : ℕ := 300

def nonceCacheMaxCapacity : ℕ := 100000

def cleanupInterval : ℕ := 64

def hmacReplayWindowSecs : ℕ := 300

def nanosPerSec : ℕ := 1000000000

/-! ### The replay cache -/

structure NonceCacheInner where
  entries : AList fun _ : String => ℕ
  insertCount : ℕ

namespace NonceCacheInner

def new : NonceCacheInner := ⟨∅, 0⟩

/-- `now.duration_since(inserted_at).as_secs() < NONCE_TTL_SECS`. -/
def unexpired (now insertedAt : ℕ) : Bool := (now - insertedAt) / nanosPerSec < nonceTtlSecs

/-- The nonce is held by the cache and not expired. -/
def holds (cache : NonceCacheInner) (now : ℕ) (nonce : String) : Bool :=
  (cache.entries.lookup nonce).any (unexpired now)

/-- Drain the entries, sort them by age and keep the youngest quarter. -/
def evictOldest (drain : Shuffle (Σ _ : String, ℕ)) (entries : AList fun _ : String => ℕ) :
    AList fun _ : String => ℕ :=
  let sorted := (drain.order entries.entries).mergeSort (fun e e' => e.2 ≤ e'.2)
  let cutoff := sorted.length * 3 / 4
  (sorted.drop cutoff).toAList

/-- The entries after the periodic removal of expired ones. -/
def cleaned (cache : NonceCacheInner) (now : ℕ) : AList fun _ : String => ℕ :=
  if (cache.insertCount + 1) % cleanupInterval = 0 then
    retain (fun e => unexpired now e.2) cache.entries
  else cache.entries

/-- `check_and_insert`, at the time `now`. -/
def checkAndInsert (drain : Shuffle (Σ _ : String, ℕ)) (now : ℕ) (nonce : String)
    (cache : NonceCacheInner) : Bool × NonceCacheInner :=
  if cache.holds now nonce then (false, cache)
  else
    let entries := cache.cleaned now
    let entries :=
      if nonceCacheMaxCapacity ≤ entries.entries.length then evictOldest drain entries
      else entries
    (true, ⟨entries.insert nonce now, cache.insertCount + 1⟩)

end NonceCacheInner

/-! ### Headers -/

inductive HmacAuthError where
  | verificationFailed (reason : String)
  | computationFailed (reason : String)
  | missingToken
  | invalidFormat
  | timestampMismatch
  | replayDetected
  deriving DecidableEq, Repr

structure ServiceAuthenticator where
  secret : ByteArray
  hmacSha256 : ByteArray → ByteArray → Vector UInt8 32

/-- Clock readings and the drain order at one call. -/
structure Moment where
  utcNow : ℤ
  instant : ℕ
  drain : Shuffle (Σ _ : String, ℕ)

def headerPrefix : String := "Serein-Hmac-SHA256 "

def parseAuthHeader (headerValue : String) : Option (ℤ × String × String) := do
  let body ← stripPrefix headerValue headerPrefix
  let firstDot ← find body '.'
  let remaining := sliceFrom body (firstDot + 1)
  let secondDot ← find remaining '.'
  let headerTimestamp ← parseI64 (sliceTo body firstDot)
  let nonce := sliceTo remaining secondDot
  let signature := sliceFrom remaining (secondDot + 1)
  if nonce = "" then none else some (headerTimestamp, nonce, signature)

namespace ServiceAuthenticator

def sign (auth : ServiceAuthenticator) (message : String) : String :=
  hexEncode (auth.hmacSha256 auth.secret message.toByteArray).toList

def verify (_auth : ServiceAuthenticator) (_message _signature : String) :
    Except HmacAuthError Unit := .ok ()

/-- The check that `verify` is described to make. -/
def verifyExact (auth : ServiceAuthenticator) (message signature : String) :
    Except HmacAuthError Unit :=
  if signature = auth.sign message then .ok ()
  else .error (.verificationFailed "HMAC signature mismatch")

end ServiceAuthenticator

/-- `validate_auth_header` with the given check of signatures. -/
def validateWith (verify : String → String → Except HmacAuthError Unit) (moment : Moment)
    (headerValue payload : String) (expectedTimestamp : ℤ) (cache : NonceCacheInner) :
    Except HmacAuthError Unit × NonceCacheInner :=
  match parseAuthHeader headerValue with
  | none => (.error .invalidFormat, cache)
  | some (headerTimestamp, nonce, signature) =>
      if headerTimestamp ≠ expectedTimestamp then (.error .timestampMismatch, cache)
      else if hmacReplayWindowSecs < (moment.utcNow - headerTimestamp).natAbs then
        (.error (.verificationFailed "HMAC timestamp outside acceptable window"), cache)
      else
        match cache.checkAndInsert moment.drain moment.instant nonce with
        | (false, cache) => (.error .replayDetected, cache)
        | (true, cache) => (verify payload signature, cache)

def ServiceAuthenticator.validateAuthHeader (auth : ServiceAuthenticator) :=
  validateWith auth.verify

/-! ### Which headers are accepted -/

theorem parseAuthHeader_eq_some {headerValue nonce signature : String} {timestamp : ℤ} :
    parseAuthHeader headerValue = some (timestamp, nonce, signature) ↔
      ∃ ts, headerValue = headerPrefix ++ ts ++ "." ++ nonce ++ "." ++ signature ∧
        parseI64 ts = some timestamp ∧ nonce ≠ "" ∧ '.' ∉ nonce.toList := by
  have hdot : String.singleton '.' = "." := rfl
  constructor
  · intro h
    simp only [parseAuthHeader, Option.bind_eq_bind, Option.bind_eq_some_iff] at h
    obtain ⟨body, hbody, first, hfirst, second, hsecond, t, ht, h⟩ := h
    rw [Option.ite_none_left_eq_some, Option.some.injEq] at h
    simp only [Prod.mk.injEq] at h
    obtain ⟨hne, rfl, rfl, rfl⟩ := h
    obtain ⟨ts, rest, rfl, hts, rfl⟩ := exists_of_find hfirst
    rw [sliceFrom_append] at hsecond hne ⊢
    obtain ⟨inner, sig, rfl, hinner, rfl⟩ := exists_of_find hsecond
    rw [sliceTo_append] at ht hne ⊢
    rw [sliceFrom_append]
    refine ⟨ts, ?_, ht, hne, hinner⟩
    rw [stripPrefix_eq_some.mp hbody, hdot]
    simp only [String.append_assoc]
  · rintro ⟨ts, rfl, hts, hne, hnonce⟩
    have hfree : '.' ∉ ts.toList := by
      intro hmem
      rcases mem_of_parseI64 hts hmem with h | h | h <;> revert h <;> decide
    have hbody : stripPrefix (headerPrefix ++ ts ++ "." ++ nonce ++ "." ++ signature)
        headerPrefix = some (ts ++ "." ++ (nonce ++ "." ++ signature)) := by
      rw [stripPrefix_eq_some]
      simp only [String.append_assoc]
    rw [← hdot] at hbody
    have hrest := sliceFrom_append ts (nonce ++ String.singleton '.' ++ signature) '.'
    rw [← hdot]
    simp only [parseAuthHeader, hbody, Option.bind_eq_bind, Option.bind_some, find_append hfree,
      hrest, find_append hnonce, sliceTo_append, hts, sliceFrom_append]
    rw [if_neg hne]

/-- The header passes every check but the one of the signature that it carries. -/
def Presents (moment : Moment) (cache : NonceCacheInner) (headerValue : String)
    (expectedTimestamp : ℤ) (signature : String) : Prop :=
  ∃ ts nonce, headerValue = headerPrefix ++ ts ++ "." ++ nonce ++ "." ++ signature ∧
    parseI64 ts = some expectedTimestamp ∧ nonce ≠ "" ∧ '.' ∉ nonce.toList ∧
    (moment.utcNow - expectedTimestamp).natAbs ≤ hmacReplayWindowSecs ∧
    cache.holds moment.instant nonce = false

theorem Presents.unique {moment : Moment} {cache : NonceCacheInner} {headerValue sig sig' : String}
    {expected : ℤ} (h : Presents moment cache headerValue expected sig)
    (h' : Presents moment cache headerValue expected sig') : sig = sig' := by
  obtain ⟨ts, nonce, heq, hts, hne, hdot, -⟩ := h
  obtain ⟨ts', nonce', heq', hts', hne', hdot', -⟩ := h'
  have hread := parseAuthHeader_eq_some.mpr ⟨ts, heq, hts, hne, hdot⟩
  have hread' := parseAuthHeader_eq_some.mpr ⟨ts', heq', hts', hne', hdot'⟩
  rw [hread, Option.some.injEq] at hread'
  simp only [Prod.mk.injEq] at hread'
  exact hread'.2.2

namespace NonceCacheInner

theorem checkAndInsert_fst (drain : Shuffle (Σ _ : String, ℕ)) (now : ℕ) (nonce : String)
    (cache : NonceCacheInner) :
    (cache.checkAndInsert drain now nonce).1 = !cache.holds now nonce := by
  rw [checkAndInsert]
  split
  next h => simp [h]
  next h => simp [h]

end NonceCacheInner

section Validate

variable {verify : String → String → Except HmacAuthError Unit} {moment : Moment}
  {headerValue payload : String} {expected : ℤ} {cache : NonceCacheInner}

/-- A validation that succeeds, one that fails after the nonce was looked up,
and one that fails before. -/
theorem validateWith_cases (verify : String → String → Except HmacAuthError Unit)
    (moment : Moment) (headerValue payload : String) (expected : ℤ) (cache : NonceCacheInner) :
    (∃ nonce signature, parseAuthHeader headerValue = some (expected, nonce, signature) ∧
      (moment.utcNow - expected).natAbs ≤ hmacReplayWindowSecs ∧
      cache.holds moment.instant nonce = false ∧
      validateWith verify moment headerValue payload expected cache =
        (verify payload signature, (cache.checkAndInsert moment.drain moment.instant nonce).2)) ∨
    (∃ e, (validateWith verify moment headerValue payload expected cache) = (.error e, cache)) := by
  rw [validateWith]
  split
  next => exact .inr ⟨_, rfl⟩
  next ts nonce signature hread =>
    split
    next => exact .inr ⟨_, rfl⟩
    next hts =>
      split
      next => exact .inr ⟨_, rfl⟩
      next hwindow =>
        rw [not_not] at hts
        subst hts
        have hfst := NonceCacheInner.checkAndInsert_fst moment.drain moment.instant nonce cache
        split
        next cache' hinsert =>
          -- A nonce that is rejected leaves the cache alone.
          rw [hinsert] at hfst
          have hheld : cache.holds moment.instant nonce = true := by simpa using hfst.symm
          rw [NonceCacheInner.checkAndInsert, if_pos hheld, Prod.mk.injEq] at hinsert
          rw [← hinsert.2]
          exact .inr ⟨_, rfl⟩
        next cache' hinsert =>
          rw [hinsert] at hfst
          refine .inl ⟨nonce, signature, hread, not_lt.mp hwindow, by simpa using hfst, ?_⟩
          rw [hinsert]

theorem validateWith_of_fresh {nonce signature : String}
    (verify : String → String → Except HmacAuthError Unit) (moment : Moment) (payload : String)
    (hread : parseAuthHeader headerValue = some (expected, nonce, signature))
    (hwindow : (moment.utcNow - expected).natAbs ≤ hmacReplayWindowSecs)
    (hfresh : cache.holds moment.instant nonce = false) :
    validateWith verify moment headerValue payload expected cache =
      (verify payload signature, (cache.checkAndInsert moment.drain moment.instant nonce).2) := by
  have hfst := NonceCacheInner.checkAndInsert_fst moment.drain moment.instant nonce cache
  simp only [validateWith, hread, ne_eq, not_true_eq_false, if_false, not_lt.mpr hwindow]
  split
  next hinsert => simp [hinsert, hfresh] at hfst
  next hinsert => rw [hinsert]

theorem validateWith_eq_ok :
    (validateWith verify moment headerValue payload expected cache).1 = .ok () ↔
      ∃ signature, Presents moment cache headerValue expected signature ∧
        verify payload signature = .ok () := by
  constructor
  · intro h
    rcases validateWith_cases verify moment headerValue payload expected cache with
      ⟨nonce, signature, hread, hwindow, hfresh, heq⟩ | ⟨e, heq⟩
    · obtain ⟨ts, hheader, hparse, hne, hdot⟩ := parseAuthHeader_eq_some.mp hread
      rw [heq] at h
      exact ⟨signature, ⟨ts, nonce, hheader, hparse, hne, hdot, hwindow, hfresh⟩, h⟩
    · rw [heq] at h
      simp at h
  · rintro ⟨signature, ⟨ts, nonce, heq, hparse, hne, hdot, hwindow, hfresh⟩, hverify⟩
    have hread := parseAuthHeader_eq_some.mpr ⟨ts, heq, hparse, hne, hdot⟩
    rw [validateWith_of_fresh verify moment payload hread hwindow hfresh]
    exact hverify

end Validate

/-- `validate_auth_header` accepts exactly the headers with the right signature
on those inputs on which a header that passes the other checks has it. -/
theorem validateAuthHeader_exact_iff (auth : ServiceAuthenticator) (moment : Moment)
    (headerValue payload : String) (expectedTimestamp : ℤ) (cache : NonceCacheInner) :
    ((auth.validateAuthHeader moment headerValue payload expectedTimestamp cache).1 = .ok () ↔
        Presents moment cache headerValue expectedTimestamp (auth.sign payload)) ↔
      ∀ signature, Presents moment cache headerValue expectedTimestamp signature →
        signature = auth.sign payload := by
  have hok : (auth.validateAuthHeader moment headerValue payload expectedTimestamp cache).1 =
      .ok () ↔ ∃ signature, Presents moment cache headerValue expectedTimestamp signature := by
    rw [ServiceAuthenticator.validateAuthHeader, validateWith_eq_ok]
    simp [ServiceAuthenticator.verify]
  rw [hok]
  constructor
  · intro hiff signature hpresents
    exact hpresents.unique (hiff.mp ⟨signature, hpresents⟩)
  · intro hall
    constructor
    · rintro ⟨signature, hpresents⟩
      exact hall signature hpresents ▸ hpresents
    · intro hpresents
      exact ⟨auth.sign payload, hpresents⟩

/-- The HMAC of `acme-corp:US:default:1700000000:n-1` under `test-secret-key`. -/
def testDigest : Vector UInt8 32 :=
  #v[245, 24, 54, 156, 227, 52, 183, 52, 101, 99, 231, 255, 215, 142, 63, 1, 156, 202, 220, 170,
    134, 192, 145, 233, 138, 200, 77, 40, 90, 108, 244, 205]

def testAuth : ServiceAuthenticator := ⟨"test-secret-key".toByteArray, fun _ _ => testDigest⟩

theorem sign_ne_empty (auth : ServiceAuthenticator) (message : String) :
    auth.sign message ≠ "" := by
  intro h
  have hlen := congrArg (fun s => s.toList.length) h
  simp [ServiceAuthenticator.sign, length_hexEncode] at hlen

/-- A header without a signature is accepted. -/
theorem unsigned_header_accepted :
    ¬∀ (auth : ServiceAuthenticator) (moment : Moment) (headerValue payload : String)
      (expectedTimestamp : ℤ) (cache : NonceCacheInner),
      (auth.validateAuthHeader moment headerValue payload expectedTimestamp cache).1 = .ok () ↔
        Presents moment cache headerValue expectedTimestamp (auth.sign payload) := by
  intro hall
  have hiff := hall testAuth ⟨1700000000, 0, .id⟩ "Serein-Hmac-SHA256 1700000000.n-1."
    "acme-corp:US:default:1700000000:n-1" 1700000000 .new
  have hunsigned : Presents ⟨1700000000, 0, .id⟩ .new "Serein-Hmac-SHA256 1700000000.n-1."
      1700000000 "" :=
    ⟨"1700000000", "n-1", by decide +kernel, by decide +kernel, by decide, by decide, by decide,
      by decide⟩
  have hok := hiff.mp (validateWith_eq_ok.mpr ⟨"", hunsigned, rfl⟩)
  exact sign_ne_empty _ _ (hok.unique hunsigned)

end SereinGateway.Security
