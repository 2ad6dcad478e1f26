import SereinGateway.Lib.Text

/-!
`IntermediatePayload`, the structured answer that providers are asked for,
and its canonical key.

The fence pattern of `sanitize_llm_response` is matched by hand: the first
three backticks that are followed by three more open the block, an optional
`json` and white space are skipped, and the block ends at the first position
from which only white space separates it from three backticks. White space
and `json` contain no backtick, so the pattern never has to give back what it
took. The two JSON parsers are parameters; `simd_json` works in place, and
`serde_json` is then given what it left of the buffer.
-/

namespace SereinGateway.Interfaces

open SereinGateway.Lib

inductive TmrCanonicalStrategy where
  | strict
  | fuzzy
  deriving DecidableEq, Repr

def TmrCanonicalStrategy.fromStrLossy (lower : Lowercase) (s : String) : TmrCanonicalStrategy :=
  if lower.apply s = "fuzzy" then .fuzzy else .strict

structure IntermediatePayload where
  networkId : String
  taskType : String
  maxGasLimit : UInt32
  confidenceScore : ℚ
  sourceUrl : String
  deriving DecidableEq

def fence : List Char := ['`', '`', '`']

/-- The lazy group of the fence pattern: everything up to the first position
from which white space leads to three backticks. -/
@[grind =] def fenceBody : List Char → Option (List Char)
  | [] => none
  | c :: s =>
      if fence.isPrefixOf ((c :: s).dropWhile isWhitespace) then some []
      else (fenceBody s).map (c :: ·)

/-- The captured group of the fence pattern in a text. -/
def fenceCapture (text : List Char) : Option (List Char) :=
  (findChars fence text).bind fun pos =>
    let opened := text.drop (pos + 3)
    let tagged := if ['j', 's', 'o', 'n'].isPrefixOf opened then opened.drop 4 else opened
    fenceBody (tagged.dropWhile isWhitespace)

def sanitizeLlmResponse (response : String) : String :=
  let extracted := (fenceCapture response.toList).elim response String.ofList
  let trimmed := trim extracted
  (fenceCapture trimmed.toList).elim trimmed fun inner => trim (.ofList inner)

/-- The parsers behind `from_llm_output`. -/
structure PayloadParser where
  /-- `simd_json::from_slice`: the buffer it leaves, and the payload if it succeeds. -/
  simdJson : ByteArray → ByteArray × Option IntermediatePayload
  /-- `String::from_utf8_lossy`. -/
  fromUtf8Lossy : ByteArray → String
  /-- `serde_json::from_str`, with the message of its error. -/
  serdeJson : String → Except String IntermediatePayload

namespace IntermediatePayload

def fromLlmOutput (parser : PayloadParser) (raw : String) : Except String IntermediatePayload :=
  match parser.simdJson (sanitizeLlmResponse raw).toByteArray with
  | (_, some payload) => .ok payload
  | (bytes, none) =>
      match parser.serdeJson (parser.fromUtf8Lossy bytes) with
      | .ok payload => .ok payload
      | .error e => .error ("Failed to parse payload: " ++ e)

def canonicalKey (lower : Lowercase) (p : IntermediatePayload) : String :=
  "NETWORK:" ++ trim (lower.apply p.networkId) ++ ":TASK:" ++ trim (lower.apply p.taskType) ++
    ":GAS:" ++ toString p.maxGasLimit

end IntermediatePayload

example : sanitizeLlmResponse "Sure:\n```json\n[1]\n```\n" = "[1]" := by decide

/-! ### Texts without a fence -/

theorem fenceCapture_eq_none {text : List Char} (h : '`' ∉ text) : fenceCapture text = none := by
  rw [fenceCapture, findChars_eq_none (c := '`') (by simp [fence]) h]
  rfl

/-- A text without backticks is only trimmed. -/
theorem sanitizeLlmResponse_of_not_mem {s : String} (h : '`' ∉ s.toList) :
    sanitizeLlmResponse s = trim s := by
  have htrim : '`' ∉ (trim s).toList := fun hc => h (mem_of_mem_trim hc)
  simp only [sanitizeLlmResponse, fenceCapture_eq_none h, fenceCapture_eq_none htrim,
    Option.elim_none]

section Bare

variable {parser : PayloadParser} {raw : String}
variable (hplain : '`' ∉ raw.toList) (htrim : trim raw = raw)

include hplain htrim

theorem IntermediatePayload.fromLlmOutput_of_simdJson {payload : IntermediatePayload}
    (h : (parser.simdJson raw.toByteArray).2 = some payload) :
    IntermediatePayload.fromLlmOutput parser raw = .ok payload := by
  rw [IntermediatePayload.fromLlmOutput, sanitizeLlmResponse_of_not_mem hplain, htrim]
  split
  · rename_i heq
    rw [heq, Option.some.injEq] at h
    rw [h]
  · rename_i heq
    simp [heq] at h

theorem IntermediatePayload.fromLlmOutput_of_error {bytes : ByteArray} {e : String}
    (hsimd : parser.simdJson raw.toByteArray = (bytes, none))
    (hserde : parser.serdeJson (parser.fromUtf8Lossy bytes) = .error e) :
    IntermediatePayload.fromLlmOutput parser raw = .error ("Failed to parse payload: " ++ e) := by
  rw [IntermediatePayload.fromLlmOutput, sanitizeLlmResponse_of_not_mem hplain, htrim, hsimd]
  simp only [hserde]

end Bare

/-! ### The shape of a canonical key -/

theorem toList_canonicalKey (lower : Lowercase) (p : IntermediatePayload) :
    (p.canonicalKey lower).toList =
      'N' :: "ETWORK:".toList ++ (trim (lower.apply p.networkId)).toList ++ ":TASK:".toList ++
        (trim (lower.apply p.taskType)).toList ++ ":GAS:".toList ++
        Nat.toDigits 10 p.maxGasLimit.toNat := by
  have hgas : (toString p.maxGasLimit).toList = Nat.toDigits 10 p.maxGasLimit.toNat :=
    Nat.toList_repr
  simp only [IntermediatePayload.canonicalKey, String.toList_append, hgas]
  rfl

end SereinGateway.Interfaces
