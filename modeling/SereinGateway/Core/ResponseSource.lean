import Mathlib
import SereinGateway.Core.Microkernel
import SereinGateway.Lib.Json
import SereinGateway.Lib.Text

/-!
The confidence threshold and where it comes from.

The arbitrator asks less of a local model than of a cloud one, and the kernel
tells the two apart by what the payload says about its own origin. So the
threshold is chosen by the payload: two payloads that differ in nothing but
their origin are treated alike exactly if their score is not between the two
thresholds, or both of them or neither name a local origin.

`serde_json::from_str` is a parameter; scores are exact rationals.
-/

namespace SereinGateway.Core

open SereinGateway.Lib

/-! ### The arbitrator -/

inductive ResponseSource where
  | frontierCloud
  | physicalNodeD
  | unknown
  deriving DecidableEq, Repr

inductive OracleError where
  | parseError (message : String)
  | lowConfidenceThreshold (score threshold : ℚ)
  deriving DecidableEq

/-- `Value::get`. -/
def getMember (v : Json ℚ) (key : String) : Option (Json ℚ) :=
  match v with
  | .object members => members.lookup key
  | _ => none

def asF64 : Json ℚ → Option ℚ
  | .number n => some n
  | _ => none

def asStr : Json ℚ → Option String
  | .string s => some s
  | _ => none

def ResponseSource.threshold : ResponseSource → ℚ
  | .physicalNodeD => 2 / 5
  | .frontierCloud => 4 / 5
  | .unknown => 4 / 5

/-- The member that holds the score. -/
def confidenceMember (v : Json ℚ) : Option (Json ℚ) :=
  (getMember v "confidenceScore").or (getMember v "confidence_score")

section Kernel

variable (lowercase : Lowercase) (fromStr : String → Except String (Json ℚ))

def arbitrate (jsonPayload : String) (source : ResponseSource) : Except OracleError String :=
  match fromStr jsonPayload with
  | .error e => .error (.parseError e)
  | .ok value =>
      match confidenceMember value with
      | none => .error (.parseError "Missing confidenceScore field")
      | some confidence =>
          match asF64 confidence with
          | none => .error (.parseError "confidenceScore must be a number")
          | some score =>
              if score < source.threshold then
                .error (.lowConfidenceThreshold score source.threshold)
              else .ok jsonPayload

/-- What the payload says about its origin: the first of the three members that
is there counts, also when it is not a string. -/
def originMember (v : Json ℚ) : Option (Json ℚ) :=
  ((getMember v "source").or (getMember v "provider")).or (getMember v "node_id")

def localWords : List String := ["node_d", "noded", "slm", "local"]

def detectResponseSource (payload : String) : ResponseSource :=
  match fromStr payload with
  | .error _ => .frontierCloud
  | .ok value =>
      let sourceField := ((originMember value).bind asStr).getD ""
      let sourceLower := lowercase.apply sourceField
      if localWords.any fun word => decide (word.toList <:+: sourceLower.toList) then
        .physicalNodeD
      else .frontierCloud

/-- The payload passes the arbitration. -/
def Accepts (payload : String) : Prop :=
  arbitrate fromStr payload (detectResponseSource lowercase fromStr payload) = .ok payload

/-- `OracleError`'s `Display`, with `{:.2}` a parameter. -/
def OracleError.display (fixed : ℕ → ℚ → String) : OracleError → String
  | .parseError message => "Failed to parse LLM response: " ++ message
  | .lowConfidenceThreshold score threshold =>
      "Confidence score " ++ fixed 2 score ++ " below minimum threshold of " ++ fixed 2 threshold

/-- How `process_api_request` takes the arbitration. -/
def oracleVerdict (fixed : ℕ → ℚ → String) (payload : String) : OracleVerdict :=
  match arbitrate fromStr payload (detectResponseSource lowercase fromStr payload) with
  | .ok _ => .passed
  | .error (.lowConfidenceThreshold score threshold) =>
      .lowConfidence (fixed 4 score) (fixed 2 threshold)
  | .error (.parseError message) => .failed ((OracleError.parseError message).display fixed)

end Kernel

/-! ### What decides -/

/-- The origin is a text with one of the words for a local model in it. -/
def NamesLocal (lowercase : Lowercase) (v : Json ℚ) : Prop :=
  ∃ text, originMember v = some (.string text) ∧
    ∃ word ∈ localWords, word.toList <:+: (lowercase.apply text).toList

/-- The score is a number that only a local model may have. -/
def Doubtful (v : Json ℚ) : Prop :=
  ∃ score, confidenceMember v = some (.number score) ∧ 2 / 5 ≤ score ∧ score < 4 / 5

/-- The members of the two objects agree, but for those about the origin. -/
def DifferInOrigin (v w : Json ℚ) : Prop :=
  ∀ key, key ∉ ["source", "provider", "node_id"] → getMember v key = getMember w key

section Decision

variable {lowercase : Lowercase} {fromStr : String → Except String (Json ℚ)} {payload : String}
  {v w : Json ℚ}

theorem arbitrate_eq_ok (hparse : fromStr payload = .ok v) (source : ResponseSource) :
    arbitrate fromStr payload source = .ok payload ↔
      ∃ score, confidenceMember v = some (.number score) ∧ source.threshold ≤ score := by
  unfold arbitrate
  simp only [hparse]
  split
  · rename_i hnone
    simp [hnone]
  · rename_i confidence hsome
    rw [hsome]
    cases confidence with
    | number score =>
        simp only [asF64]
        split
        · rename_i hlt
          simp [hlt]
        · rename_i hle
          simpa using hle
    | _ => simp [asF64]

/-- Without an origin text the kernel looks at the empty text. -/
theorem not_localWord_empty (word : String) (hword : word ∈ localWords) :
    ¬word.toList <:+: (lowercase.apply "").toList := by
  rw [lowercase.ascii "" (by simp), String.toList_map]
  revert word
  decide

theorem detectResponseSource_eq (lowercase : Lowercase) (hparse : fromStr payload = .ok v) :
    (NamesLocal lowercase v → detectResponseSource lowercase fromStr payload = .physicalNodeD) ∧
      (¬NamesLocal lowercase v →
        detectResponseSource lowercase fromStr payload = .frontierCloud) := by
  have hfound : (localWords.any fun word => decide (word.toList <:+:
      (lowercase.apply (((originMember v).bind asStr).getD "")).toList)) = true ↔
      NamesLocal lowercase v := by
    simp only [List.any_eq_true, decide_eq_true_eq]
    constructor
    · rintro ⟨word, hword, hoccurs⟩
      cases horigin : (originMember v).bind asStr with
      | none =>
          rw [horigin] at hoccurs
          exact absurd hoccurs (not_localWord_empty word hword)
      | some text =>
          rw [horigin] at hoccurs
          obtain ⟨member, hmember, htext⟩ := Option.bind_eq_some_iff.mp horigin
          cases member with
          | string s =>
              obtain rfl : s = text := Option.some.inj htext
              exact ⟨s, hmember, word, hword, hoccurs⟩
          | _ => cases htext
    · rintro ⟨text, horigin, word, hword, hoccurs⟩
      refine ⟨word, hword, ?_⟩
      rw [horigin]
      exact hoccurs
  unfold detectResponseSource
  simp only [hparse]
  constructor
  · intro hlocal
    rw [if_pos (hfound.mpr hlocal)]
  · intro hnot
    rw [if_neg (fun h => hnot (hfound.mp h))]

/-- A payload passes with a score for every model, or with one that only a
local model may have and the right word. -/
theorem accepts_iff (hparse : fromStr payload = .ok v) :
    Accepts lowercase fromStr payload ↔
      (∃ score, confidenceMember v = some (.number score) ∧ 4 / 5 ≤ score) ∨
        Doubtful v ∧ NamesLocal lowercase v := by
  obtain ⟨hlocal, hcloud⟩ := detectResponseSource_eq lowercase hparse
  unfold Accepts
  by_cases hnames : NamesLocal lowercase v
  · rw [hlocal hnames, arbitrate_eq_ok hparse]
    simp only [hnames, and_true, ResponseSource.threshold, Doubtful]
    constructor
    · rintro ⟨score, hscore, hle⟩
      rcases lt_or_ge score (4 / 5) with hlt | hge
      · exact .inr ⟨score, hscore, hle, hlt⟩
      · exact .inl ⟨score, hscore, hge⟩
    · rintro (⟨score, hscore, hle⟩ | ⟨score, hscore, hle, -⟩)
      · exact ⟨score, hscore, le_trans (by norm_num) hle⟩
      · exact ⟨score, hscore, hle⟩
  · rw [hcloud hnames, arbitrate_eq_ok hparse]
    simp only [hnames, and_false, or_false, ResponseSource.threshold]

theorem DifferInOrigin.confidenceMember (h : DifferInOrigin v w) :
    Core.confidenceMember v = Core.confidenceMember w := by
  rw [Core.confidenceMember, Core.confidenceMember, h "confidenceScore" (by decide),
    h "confidence_score" (by decide)]

theorem oracleVerdict_eq_passed (fixed : ℕ → ℚ → String) :
    oracleVerdict lowercase fromStr fixed payload = .passed ↔
      Accepts lowercase fromStr payload := by
  unfold oracleVerdict Accepts
  split
  · rename_i text htext
    have htext' : text = payload := by
      unfold arbitrate at htext
      split at htext
      · cases htext
      · split at htext
        · cases htext
        · split at htext
          · cases htext
          · split at htext
            · cases htext
            · exact (Except.ok.inj htext).symm
    simp [htext, htext']
  · rename_i herror
    simp [herror]
  · rename_i herror
    simp [herror]

end Decision

/-- Payloads that differ only in their origin are treated alike exactly if the
score is not between the thresholds or they agree on naming a local origin. -/
theorem origin_indifferent_iff (lowercase : Lowercase)
    (fromStr : String → Except String (Json ℚ)) (p q : String) (ps qs : List (String × Json ℚ))
    (hp : fromStr p = .ok (.object ps)) (hq : fromStr q = .ok (.object qs))
    (hdiffer : DifferInOrigin (.object ps) (.object qs)) :
    (Accepts lowercase fromStr p ↔ Accepts lowercase fromStr q) ↔
      (Doubtful (.object ps) →
        (NamesLocal lowercase (.object ps) ↔ NamesLocal lowercase (.object qs))) := by
  have hconfidence := hdiffer.confidenceMember
  have hdoubt : Doubtful (.object qs) ↔ Doubtful (.object ps) := by
    rw [Doubtful, Doubtful, hconfidence]
  rw [accepts_iff hp, accepts_iff hq, hdoubt, hconfidence]
  by_cases hdoubtful : Doubtful (.object ps)
  · have hlow : ¬∃ score, confidenceMember (.object qs) = some (.number score) ∧ 4 / 5 ≤ score := by
      obtain ⟨score, hscore, -, hlt⟩ := hdoubtful
      rintro ⟨score', hscore', hle⟩
      rw [hconfidence, hscore'] at hscore
      obtain rfl := Json.number.inj (Option.some.inj hscore)
      exact absurd hle (not_le.mpr hlt)
    simp only [hlow, hdoubtful, false_or, true_and, true_implies]
  · simp only [hdoubtful, false_and, or_false, false_implies]

/-- A payload of half confidence about a block height. -/
def halfConfident (source : String) : List (String × Json ℚ) :=
  [("confidenceScore", .number (1 / 2)), ("source", .string source)]

def halfConfidentText (source : String) : String :=
  "\x7b\"confidenceScore\":0.5,\"source\":\"" ++ source ++ "\"\x7d"

def readThree (text : String) : Except String (Json ℚ) :=
  if text = halfConfidentText "slm" then .ok (.object (halfConfident "slm"))
  else if text = halfConfidentText "Node_D" then .ok (.object (halfConfident "Node_D"))
  else if text = halfConfidentText "cloud" then .ok (.object (halfConfident "cloud"))
  else .error "expected value at line 1 column 1"

theorem halfConfident_differ (a b : String) :
    DifferInOrigin (.object (halfConfident a)) (.object (halfConfident b)) := by
  intro key hkey
  have hsource : (key == "source") = false := by
    rw [beq_eq_false_iff_ne]
    rintro rfl
    exact hkey (by decide)
  simp [getMember, halfConfident, List.lookup, hsource]

theorem readThree_slm :
    readThree (halfConfidentText "slm") = .ok (.object (halfConfident "slm")) := if_pos rfl

theorem halfConfident_namesLocal {source : String} :
    NamesLocal asciiLowercase (.object (halfConfident source)) ↔
      ∃ word ∈ localWords, word.toList <:+: source.toList.map Char.toLower := by
  have horigin : originMember (.object (halfConfident source)) = some (.string source) := by
    simp [originMember, getMember, halfConfident, List.lookup]
  simp only [NamesLocal, horigin, asciiLowercase, String.toList_map, Option.some.injEq,
    Json.string.injEq, exists_eq_left']

theorem halfConfident_doubtful (source : String) : Doubtful (.object (halfConfident source)) :=
  ⟨1 / 2, by simp [confidenceMember, getMember, halfConfident, List.lookup], by norm_num,
    by norm_num⟩

/-- Two names for the local node. -/
theorem origin_indifferent_local :
    Accepts asciiLowercase readThree (halfConfidentText "slm") ↔
      Accepts asciiLowercase readThree (halfConfidentText "Node_D") := by
  have hread : readThree (halfConfidentText "Node_D") = .ok (.object (halfConfident "Node_D")) := by
    rw [readThree, if_neg (by decide), if_pos rfl]
  refine (origin_indifferent_iff asciiLowercase readThree (halfConfidentText "slm")
    (halfConfidentText "Node_D") (halfConfident "slm") (halfConfident "Node_D") readThree_slm
    hread (halfConfident_differ _ _)).mpr fun _ => ?_
  rw [halfConfident_namesLocal, halfConfident_namesLocal]
  decide

/-- A payload of half confidence passes as soon as it says that it is local. -/
theorem origin_decides :
    ¬∀ (lowercase : Lowercase) (fromStr : String → Except String (Json ℚ)) (p q : String)
      (ps qs : List (String × Json ℚ)), fromStr p = .ok (.object ps) →
      fromStr q = .ok (.object qs) → DifferInOrigin (.object ps) (.object qs) →
      (Accepts lowercase fromStr p ↔ Accepts lowercase fromStr q) := by
  intro hall
  have hread : readThree (halfConfidentText "cloud") = .ok (.object (halfConfident "cloud")) := by
    rw [readThree, if_neg (by decide), if_neg (by decide), if_pos rfl]
  have hiff := hall asciiLowercase readThree (halfConfidentText "slm") (halfConfidentText "cloud")
    (halfConfident "slm") (halfConfident "cloud") readThree_slm hread (halfConfident_differ _ _)
  have hslm : NamesLocal asciiLowercase (.object (halfConfident "slm")) := by
    rw [halfConfident_namesLocal]
    decide
  have hcloud : ¬NamesLocal asciiLowercase (.object (halfConfident "cloud")) := by
    rw [halfConfident_namesLocal]
    decide
  rw [accepts_iff readThree_slm, accepts_iff hread] at hiff
  rcases hiff.mp (.inr ⟨halfConfident_doubtful _, hslm⟩) with ⟨score, hscore, hle⟩ | ⟨-, hnames⟩
  · have hhalf : confidenceMember (.object (halfConfident "cloud")) = some (.number (1 / 2)) := by
      simp [confidenceMember, getMember, halfConfident, List.lookup]
    rw [hhalf] at hscore
    obtain rfl := Json.number.inj (Option.some.inj hscore)
    norm_num at hle
  · exact hcloud hnames

end SereinGateway.Core
