import Mathlib
import SereinGateway.CacheStorage.FlightRecorder
import SereinGateway.CacheStorage.HexEvasion

/-!
Texts that are cut at a number of bytes.

`&s[..n]` aborts the process if the byte `n` is not the first one of a character. The
texts of the flight recorder and the user agent of a threat assessment are cut so, at
a fixed `n`, if they are longer; nobody checks what stands there.
-/

namespace SereinGateway.CacheStorage

open SereinGateway.Lib

/-- `&s[..n]` -/
def slicePrefix (s : List Char) (n : ℕ) : Option (List Char) := (splitAtByte n s).map Prod.fst

/-- The byte is the first one of a character, or the end of the text. -/
def CharBoundary (s : List Char) (n : ℕ) : Prop := ∃ a b, s = a ++ b ∧ byteLen a = n

/-- The text need not be cut, or can be. -/
def Cuttable (n : ℕ) (s : List Char) : Prop := byteLen s ≤ n ∨ CharBoundary s n

theorem byteLen_cons (c : Char) (s : List Char) : byteLen (c :: s) = c.utf8Size + byteLen s := by
  rw [byteLen, List.map_cons, List.sum_cons, byteLen]

theorem splitAtByte_eq_some_iff {n : ℕ} {s a b : List Char} :
    splitAtByte n s = some (a, b) ↔ s = a ++ b ∧ byteLen a = n := by
  induction s generalizing n a with
  | nil =>
      cases n with
      | zero =>
          rw [splitAtByte]
          constructor
          · intro h
            obtain ⟨rfl, rfl⟩ := Prod.mk.inj (Option.some.inj h)
            exact ⟨rfl, rfl⟩
          · rintro ⟨h, -⟩
            obtain ⟨rfl, rfl⟩ := List.append_eq_nil_iff.mp h.symm
            rfl
      | succ n =>
          rw [splitAtByte]
          refine iff_of_false (by simp) ?_
          rintro ⟨h, hlen⟩
          obtain ⟨rfl, rfl⟩ := List.append_eq_nil_iff.mp h.symm
          cases hlen
  | cons c s ih =>
      cases n with
      | zero =>
          rw [splitAtByte]
          constructor
          · intro h
            obtain ⟨rfl, rfl⟩ := Prod.mk.inj (Option.some.inj h)
            exact ⟨rfl, rfl⟩
          · rintro ⟨h, hlen⟩
            cases a with
            | nil => rw [h, List.nil_append]
            | cons d a =>
                have hpos := d.utf8Size_pos
                rw [byteLen_cons] at hlen
                omega
      | succ n =>
          rw [splitAtByte]
          split
          · rename_i hle
            rw [Option.map_eq_some_iff]
            constructor
            · rintro ⟨⟨a', b'⟩, hcut, heq⟩
              obtain ⟨rfl, rfl⟩ := Prod.mk.inj heq
              obtain ⟨rfl, hlen⟩ := ih.mp hcut
              refine ⟨rfl, ?_⟩
              rw [byteLen_cons, hlen]
              omega
            · rintro ⟨h, hlen⟩
              cases a with
              | nil => cases hlen
              | cons d a =>
                  obtain ⟨rfl, rfl⟩ := List.cons.inj h
                  rw [byteLen_cons] at hlen
                  exact ⟨(a, b), ih.mpr ⟨rfl, by omega⟩, rfl⟩
          · rename_i hlarge
            refine iff_of_false (by simp) ?_
            rintro ⟨h, hlen⟩
            cases a with
            | nil => cases hlen
            | cons d a =>
                obtain ⟨rfl, rfl⟩ := List.cons.inj h
                rw [byteLen_cons] at hlen
                omega

theorem isSome_slicePrefix {n : ℕ} {s : List Char} :
    (slicePrefix s n).isSome = true ↔ CharBoundary s n := by
  rw [slicePrefix, Option.isSome_map, Option.isSome_iff_exists]
  constructor
  · rintro ⟨⟨a, b⟩, h⟩
    exact ⟨a, b, splitAtByte_eq_some_iff.mp h⟩
  · rintro ⟨a, b, h⟩
    exact ⟨(a, b), splitAtByte_eq_some_iff.mpr h⟩

/-! ### The flight recorder -/

/-- What is put behind a text that was cut. -/
def truncationNote (len : ℕ) : List Char :=
  "... [truncated, ".toList ++ (toString len).toList ++ " bytes]".toList

/-- `truncate`. The result is `none` if the process aborts. -/
def truncate (s : List Char) (maxLen : ℕ) : Option (List Char) :=
  if byteLen s ≤ maxLen then some s
  else (slicePrefix s maxLen).map (· ++ truncationNote (byteLen s))

inductive EventType where
  | promptSent
  | responseReceived
  | responseError
  | circuitBreakerTripped
  | circuitBreakerReset
  | rateLimitHit
  | tokenBucketExhausted
  | cacheHit
  | cacheMiss
  | securityEvent
  deriving DecidableEq

/-- The name of the variant, as it is serialised. -/
def EventType.text : EventType → String
  | promptSent => "PromptSent"
  | responseReceived => "ResponseReceived"
  | responseError => "ResponseError"
  | circuitBreakerTripped => "CircuitBreakerTripped"
  | circuitBreakerReset => "CircuitBreakerReset"
  | rateLimitHit => "RateLimitHit"
  | tokenBucketExhausted => "TokenBucketExhausted"
  | cacheHit => "CacheHit"
  | cacheMiss => "CacheMiss"
  | securityEvent => "SecurityEvent"

structure RecordEventArgs where
  eventType : EventType
  nodeName : String
  requestId : String
  payloadSummary : List Char
  rawPrompt : Option (List Char)
  rawResponse : Option (List Char)
  errorMessage : Option String
  durationMs : Option UInt64
  tokenCount : Option UInt32

/-- `record_event`, up to the command that it tries to send. -/
def recordEvent (timestamp : String) (args : RecordEventArgs) : Option FlightRecorderCommand := do
  let summary ← truncate args.payloadSummary 500
  let prompt ← args.rawPrompt.mapM (truncate · 10000)
  let response ← args.rawResponse.mapM (truncate · 10000)
  some (.recordEvent
    { timestamp
      eventType := args.eventType.text
      nodeName := args.nodeName
      requestId := args.requestId
      payloadSummary := .ofList summary
      rawPrompt := prompt.map .ofList
      rawResponse := response.map .ofList
      errorMessage := args.errorMessage
      durationMs := args.durationMs.map (·.toInt64.toInt)
      tokenCount := args.tokenCount.map fun t => (t.toNat : ℤ)
      metadata := "\x7b\x7d" })

def responseSummary (nodeName : String) (tokenCount : UInt32) : List Char :=
  "Response from ".toList ++ nodeName.toList ++ " (".toList ++ (toString tokenCount).toList ++
    " tokens)".toList

def recordResponse (timestamp nodeName requestId : String) (prompt response : List Char)
    (durationMs : UInt64) (tokenCount : UInt32) : Option FlightRecorderCommand :=
  recordEvent timestamp
    { eventType := .responseReceived
      nodeName, requestId
      payloadSummary := responseSummary nodeName tokenCount
      rawPrompt := some prompt
      rawResponse := some response
      errorMessage := none
      durationMs := some durationMs
      tokenCount := some tokenCount }

def errorSummary (nodeName : String) (error : List Char) : List Char :=
  "Error from ".toList ++ nodeName.toList ++ ": ".toList ++ error

def recordError (timestamp nodeName requestId : String) (prompt error : List Char)
    (durationMs : UInt64) : Option FlightRecorderCommand :=
  recordEvent timestamp
    { eventType := .responseError
      nodeName, requestId
      payloadSummary := errorSummary nodeName error
      rawPrompt := some prompt
      rawResponse := none
      errorMessage := some (.ofList error)
      durationMs := some durationMs
      tokenCount := none }

/-! ### The assessment of a threat -/

inductive ThreatLevel where
  | benign
  | suspicious
  | likelyScraper
  | confirmedAbuse
  deriving DecidableEq

inductive NoiseType where
  | valuePerturbation
  | fieldDuplication
  | typeConfusion
  | phantomFields
  | homoglyphSubstitution
  | cocktail
  deriving DecidableEq

/-- A number that is compared with a threshold and printed. -/
structure Reading where
  exceeds : Bool
  text : String

/-- The confidence is counted in hundredths; the sums of the source compare with its
thresholds like these. -/
structure ThreatAssessment where
  threatLevel : ThreatLevel
  confidence : ℕ
  indicators : List String
  recommendedNoise : NoiseType

/-- The user agent names a bot. -/
def namesBot (lower : Lowercase) (ua : List Char) : Bool :=
  ["scraper", "crawl", "bot", "spider", "wget", "curl"].any fun word =>
    word.toList <:+: (lower.apply (.ofList ua)).toList

/-- The indicator of a user agent, if it names a bot. -/
def botIndicator (lower : Lowercase) (ua : List Char) : Option (Option String) :=
  if namesBot lower ua then
    (slicePrefix ua (min (byteLen ua) 80)).map fun head =>
      some ("Known bot UA: " ++ .ofList head)
  else some none

def threatOf (confidence : ℕ) : ThreatLevel × NoiseType :=
  if 80 ≤ confidence then (.confirmedAbuse, .cocktail)
  else if 50 ≤ confidence then (.likelyScraper, .phantomFields)
  else if 25 ≤ confidence then (.suspicious, .valuePerturbation)
  else (.benign, .valuePerturbation)

def assessThreat (lower : Lowercase) (userAgent : Option (List Char)) (requestRate : Reading)
    (hasAuthToken : Bool) (headerAnomaly : Reading) : Option ThreatAssessment := do
  let bot ← match userAgent with
    | none => some none
    | some ua => botIndicator lower ua
  let rate := if requestRate.exceeds then
    ["High request rate: " ++ requestRate.text ++ " req/min (threshold: 120)"] else []
  let token := if hasAuthToken then [] else ["Missing authentication token"]
  let header := if headerAnomaly.exceeds then
    ["Header anomaly score: " ++ headerAnomaly.text] else []
  let confidence := min 100 (35 * rate.length + 40 * bot.toList.length + 20 * token.length +
    15 * header.length)
  some ⟨(threatOf confidence).1, confidence, rate ++ bot.toList ++ token ++ header,
    (threatOf confidence).2⟩

/-! ### When the process goes on -/

/-- A text is returned as it is, or cut with the note behind it. -/
def Truncated (s : List Char) (maxLen : ℕ) (t : List Char) : Prop :=
  t = s ∨ ∃ head, head <+: s ∧ byteLen head ≤ maxLen ∧ t = head ++ truncationNote (byteLen s)

theorem truncate_truncated {s t : List Char} {maxLen : ℕ} (h : truncate s maxLen = some t) :
    Truncated s maxLen t := by
  unfold truncate at h
  split at h
  · exact .inl (Option.some.inj h).symm
  · obtain ⟨head, hhead, rfl⟩ := Option.map_eq_some_iff.mp h
    obtain ⟨⟨a, b⟩, hcut, rfl⟩ := Option.map_eq_some_iff.mp hhead
    obtain ⟨rfl, hlen⟩ := splitAtByte_eq_some_iff.mp hcut
    exact .inr ⟨a, List.prefix_append a b, hlen.le, rfl⟩

theorem isSome_truncate {s : List Char} {maxLen : ℕ} :
    (truncate s maxLen).isSome = true ↔ Cuttable maxLen s := by
  unfold truncate Cuttable
  split
  · rename_i hle
    exact iff_of_true rfl (.inl hle)
  · rename_i hlong
    rw [Option.isSome_map, isSome_slicePrefix, or_iff_right hlong]

theorem isSome_mapM_truncate {text : Option (List Char)} {maxLen : ℕ} :
    (text.mapM (truncate · maxLen)).isSome = true ↔ ∀ s ∈ text, Cuttable maxLen s := by
  cases text with
  | none => simp
  | some s =>
      have hmap : (some s).mapM (truncate · maxLen) = (truncate s maxLen).map some := by
        cases h : truncate s maxLen <;> simp [h]
      rw [hmap, Option.isSome_map, isSome_truncate]
      simp

theorem isSome_recordEvent (timestamp : String) (args : RecordEventArgs) :
    (recordEvent timestamp args).isSome = true ↔ Cuttable 500 args.payloadSummary ∧
      (∀ prompt ∈ args.rawPrompt, Cuttable 10000 prompt) ∧
      ∀ response ∈ args.rawResponse, Cuttable 10000 response := by
  rw [← isSome_truncate, ← isSome_mapM_truncate, ← isSome_mapM_truncate, recordEvent]
  cases truncate args.payloadSummary 500 with
  | none => simp
  | some summary =>
      cases args.rawPrompt.mapM (truncate · 10000) with
      | none => simp
      | some prompt => cases args.rawResponse.mapM (truncate · 10000) <;> simp

theorem isSome_botIndicator (lower : Lowercase) (ua : List Char) :
    (botIndicator lower ua).isSome = true ↔ (namesBot lower ua = true → Cuttable 80 ua) := by
  unfold botIndicator
  cases namesBot lower ua with
  | false => simp
  | true =>
      simp only [if_true, Option.isSome_map, isSome_slicePrefix, true_implies, Cuttable]
      by_cases hle : byteLen ua ≤ 80
      · rw [Nat.min_eq_left hle]
        exact iff_of_true ⟨ua, [], (List.append_nil ua).symm, rfl⟩ (.inl hle)
      · rw [Nat.min_eq_right (by omega), or_iff_right hle]

theorem isSome_assessThreat (lower : Lowercase) (userAgent : Option (List Char))
    (requestRate : Reading) (hasAuthToken : Bool) (headerAnomaly : Reading) :
    (assessThreat lower userAgent requestRate hasAuthToken headerAnomaly).isSome = true ↔
      ∀ ua ∈ userAgent, namesBot lower ua = true → Cuttable 80 ua := by
  unfold assessThreat
  cases userAgent with
  | none => simp
  | some ua =>
      have hindicator := isSome_botIndicator lower ua
      simp only [Option.mem_some_iff, forall_eq', ← hindicator]
      cases botIndicator lower ua <;> simp

/-- A text is returned, cut or not, exactly if the limit is not in the middle of a
character, and the process goes on exactly if this is so for the summary and the
texts of a record, and for the user agent of a bot. -/
theorem untrusted_text_iff (s : List Char) (maxLen : ℕ) (timestamp nodeName requestId : String)
    (args : RecordEventArgs) (prompt response error : List Char) (durationMs : UInt64)
    (tokenCount : UInt32) (lower : Lowercase) (userAgent : Option (List Char))
    (requestRate : Reading) (hasAuthToken : Bool) (headerAnomaly : Reading) :
    ((∃ t, truncate s maxLen = some t ∧ Truncated s maxLen t) ↔ Cuttable maxLen s) ∧
    ((recordEvent timestamp args).isSome = true ↔ Cuttable 500 args.payloadSummary ∧
      (∀ prompt ∈ args.rawPrompt, Cuttable 10000 prompt) ∧
      ∀ response ∈ args.rawResponse, Cuttable 10000 response) ∧
    ((recordResponse timestamp nodeName requestId prompt response durationMs
        tokenCount).isSome = true ↔
      Cuttable 500 (responseSummary nodeName tokenCount) ∧ Cuttable 10000 prompt ∧
        Cuttable 10000 response) ∧
    ((recordError timestamp nodeName requestId prompt error durationMs).isSome = true ↔
      Cuttable 500 (errorSummary nodeName error) ∧ Cuttable 10000 prompt) ∧
    ((assessThreat lower userAgent requestRate hasAuthToken headerAnomaly).isSome = true ↔
      ∀ ua ∈ userAgent, namesBot lower ua = true → Cuttable 80 ua) := by
  refine ⟨?_, isSome_recordEvent timestamp args, ?_, ?_, ?_⟩
  · rw [← isSome_truncate, Option.isSome_iff_exists]
    exact exists_congr fun t => and_iff_left_of_imp truncate_truncated
  · rw [recordResponse, isSome_recordEvent]
    simp
  · rw [recordError, isSome_recordEvent]
    simp
  · exact isSome_assessThreat lower userAgent requestRate hasAuthToken headerAnomaly

/-- A summary of 499 letters and one of two bytes. -/
theorem straddling_character_aborts :
    ¬∀ (s : List Char) (maxLen : ℕ), ∃ t, truncate s maxLen = some t ∧ Truncated s maxLen t := by
  intro hall
  obtain ⟨t, ht, -⟩ := hall (List.replicate 499 'a' ++ ['é']) 500
  have hnone : truncate (List.replicate 499 'a' ++ ['é']) 500 = none := by decide +kernel
  rw [hnone] at ht
  cases ht

end SereinGateway.CacheStorage
