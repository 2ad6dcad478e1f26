import SereinGateway.Lib.Grouping
import SereinGateway.Lib.Text

/-!
`PIIProtector`: masking of personal data before a prompt leaves the gateway,
and its restoration in the answer.

`PII_PATTERN` and the four patterns that classify a match are regular
expressions; they enter as `PiiPatterns`, a way to cut a text into matches
and the text between them. Masking walks over these segments and takes the
number of each placeholder from a shared counter, one atomic addition for
each match, so concurrent calls interleave their numbers: `maskSegment` is
the step between two such additions and `mask` an uninterrupted walk.
-/

namespace SereinGateway.Worker

open SereinGateway.Lib

inductive PiiType where
  | email
  | phone
  | identity
  | financial
  deriving DecidableEq, Repr

def PiiType.placeholderTag : PiiType → String
  | .email => "MASKED_EMAIL"
  | .phone => "MASKED_PHONE"
  | .identity => "MASKED_IDENTITY"
  | .financial => "MASKED_FINANCIAL"

/-- A piece of a text: what lies between matches, or a match. -/
inductive Segment where
  | plain (text : String)
  | pii (matched : String)
  deriving DecidableEq, Repr

def Segment.text : Segment → String
  | .plain t => t
  | .pii t => t

/-- The regular expressions of the worker. -/
structure PiiPatterns where
  /-- The matches of `PII_PATTERN` and the texts between them. -/
  segments : String → List Segment
  segments_text : ∀ s, String.join ((segments s).map Segment.text) = s
  email : String → Bool
  financial : String → Bool
  identity : String → Bool
  phone : String → Bool

def PiiPatterns.classifyPii (pats : PiiPatterns) (matched : String) : PiiType :=
  if pats.email matched then .email
  else if pats.financial matched then .financial
  else if pats.identity matched then .identity
  else if pats.phone matched then .phone
  else .phone

/-- Placeholders with the values they stand for. -/
abbrev MaskingMap := AList fun _ : String => String

def placeholder (type : PiiType) (idx : UInt64) : String :=
  "[" ++ type.placeholderTag ++ "_" ++ toString idx ++ "]"

/-- A masking in progress: the masked text so far and the map so far. -/
structure Masking where
  result : String
  map : MaskingMap

def Masking.start : Masking := ⟨"", ∅⟩

def PiiPatterns.maskSegment (pats : PiiPatterns) (counter : UInt64) (m : Masking) :
    Segment → UInt64 × Masking
  | .plain text => (counter, { m with result := m.result ++ text })
  | .pii matched =>
      let p := placeholder (pats.classifyPii matched) counter
      (counter + 1, ⟨m.result ++ p, m.map.insert p matched⟩)

/-- `PIIProtector::mask`, not interleaved with another call. -/
def PiiPatterns.mask (pats : PiiPatterns) (counter : UInt64) (text : String) :
    UInt64 × Masking :=
  (pats.segments text).foldl (fun acc seg => pats.maskSegment acc.1 acc.2 seg) (counter, .start)

/-- `PIIProtector::restore`. The map is walked in hash order. -/
def restore (iter : Shuffle (Σ _ : String, String)) (text : String) (map : MaskingMap) : String :=
  (iter.order map.entries).foldl (fun result e => replace result e.1 e.2) text

end SereinGateway.Worker
