import Mathlib
import SereinGateway.Consensus.CanonicalKey

/-!
`TmrArbitrator`: the same query goes to several backends, and the first answer that
agrees with an earlier one is taken.

Answers are compared as JSON, numbers with a tolerance. When all backends have
answered and no two of them agree, the first answer is taken all the same. How two
numbers are compared, in floating point, is a parameter, and so is the parser.
-/

namespace SereinGateway.TrafficControl

open SereinGateway.Lib SereinGateway.Consensus

variable {ν : Type}

section Fuzzy

variable (numberEq : ν → ν → Bool)

mutual

@[grind =] def fuzzyJsonEq : Json ν → Json ν → Bool
  | .number a, .number b => numberEq a b
  | .array as, .array bs => as.length == bs.length && fuzzyElems as bs
  | .object as, .object bs => as.length == bs.length && fuzzyMembers as bs
  | .string a, .string b => a == b
  | .bool a, .bool b => a == b
  | .null, .null => true
  | _, _ => false

/-- The elements of two arrays in pairs. -/
@[grind =] def fuzzyElems : List (Json ν) → List (Json ν) → Bool
  | a :: as, b :: bs => fuzzyJsonEq a b && fuzzyElems as bs
  | _, _ => true

@[grind =] def fuzzyMembers : List (String × Json ν) → List (String × Json ν) → Bool
  | [], _ => true
  | (key, a) :: as, bs => (bs.lookup key).any (fuzzyJsonEq a) && fuzzyMembers as bs

end

end Fuzzy

/-- `NexusError` -/
inductive ArbitrationError where
  | routeNotFound (endpoint : String)
  | malformedPayload (message : String)
  | internal (message : String)
  | tmrConsensusFailure (message : String)
  deriving DecidableEq

structure BackendResult where
  nodeId : String
  payload : String
  deriving DecidableEq

/-- `strip_markdown_fences` of this crate, which is that of the consensus crate. -/
def stripMarkdownFences (response : String) : String := Digests.stripMarkdownFences response

/-- What answers are compared by. -/
structure Comparison (ν : Type) where
  numberEq : ν → ν → Bool
  /-- `serde_json::from_str` -/
  fromStr : String → Except String (Value ν)

namespace Comparison

variable (cmp : Comparison ν)

/-- The payload of an answer as JSON, and as a string if it is none. -/
def parsed (r : BackendResult) : Json ν :=
  match cmp.fromStr (stripMarkdownFences r.payload) with
  | .ok value => value.1
  | .error _ => .string r.payload

@[grind =] def anyEqual : List (Json ν) → Bool
  | [] => false
  | v :: later => 2 ≤ 1 + later.countP (fuzzyJsonEq cmp.numberEq v) || anyEqual later

def hasConsensus (results : List BackendResult) : Bool :=
  if results.length < 2 then false else cmp.anyEqual (results.map cmp.parsed)

/-- The loop of `arbitrate` over the answers in the order in which they come: the
consensus, and the answers that have come. -/
@[grind =] def collect : List (Except ArbitrationError BackendResult) → List BackendResult →
    Option BackendResult × List BackendResult
  | [], results => (none, results)
  | .error _ :: rest, results => collect rest results
  | .ok r :: rest, results =>
      if cmp.hasConsensus (results ++ [r]) then (some r, results ++ [r])
      else collect rest (results ++ [r])

/-- `arbitrate`. If a backend never answers, it may wait forever. -/
def arbitrate (completions : List (Except ArbitrationError BackendResult)) (waits : Bool) :
    Option (Except ArbitrationError BackendResult) :=
  match cmp.collect completions [] with
  | (some r, _) => some (.ok r)
  | (none, results) =>
      if waits then none
      else
        match results.head? with
        | some r => some (.ok r)
        | none =>
            some (.error (.tmrConsensusFailure "All backends failed - no consensus possible"))

/-- Two answers are equal in the order in which they have come. -/
def Agree (earlier later : BackendResult) : Prop :=
  fuzzyJsonEq cmp.numberEq (cmp.parsed earlier) (cmp.parsed later) = true

end Comparison

/-- The answers of the backends that succeed. -/
def successes (completions : List (Except ArbitrationError BackendResult)) : List BackendResult :=
  completions.filterMap Except.toOption

namespace Comparison

variable (cmp : Comparison ν)

/-- Two backends have given answers that agree. -/
def Agreement (completions : List (Except ArbitrationError BackendResult)) : Prop :=
  ∃ a b, [a, b].Sublist (successes completions) ∧ cmp.Agree a b

/-- An answer is taken only if another backend agrees with it, and is taken if two agree. -/
structure NeedsAgreement (completions : List (Except ArbitrationError BackendResult))
    (waits : Bool) : Prop where
  agreed : ∀ r, cmp.arbitrate completions waits = some (.ok r) →
    ∃ a b, [a, b].Sublist (successes completions) ∧ cmp.Agree a b ∧ (r = a ∨ r = b)
  taken : cmp.Agreement completions → ∃ r, cmp.arbitrate completions waits = some (.ok r)

variable {cmp} {results : List BackendResult} {r : BackendResult}
  {completions : List (Except ArbitrationError BackendResult)} {waits : Bool}

theorem anyEqual_iff : cmp.anyEqual (results.map cmp.parsed) = true ↔
    ¬results.Pairwise fun a b => ¬cmp.Agree a b := by
  induction results with
  | nil => exact iff_of_false Bool.false_ne_true (not_not.mpr List.Pairwise.nil)
  | cons r results ih =>
      have hcount : 2 ≤ 1 + (results.map cmp.parsed).countP
          (fuzzyJsonEq cmp.numberEq (cmp.parsed r)) ↔ ¬∀ b ∈ results, ¬cmp.Agree r b := by
        rw [Nat.add_comm, Nat.succ_le_succ_iff, Nat.one_le_iff_ne_zero, ← Nat.pos_iff_ne_zero,
          List.countP_pos_iff]
        simp [Agree]
      rw [List.map_cons, anyEqual, Bool.or_eq_true, decide_eq_true_iff, hcount, ih,
        List.pairwise_cons, not_and_or]

theorem hasConsensus_iff : cmp.hasConsensus results = true ↔
    ¬results.Pairwise fun a b => ¬cmp.Agree a b := by
  unfold hasConsensus
  split
  · rename_i hshort
    refine iff_of_false (by decide) (not_not.mpr ?_)
    match results, hshort with
    | [], _ => exact List.Pairwise.nil
    | [r], _ => exact List.pairwise_singleton _ r
  · exact anyEqual_iff

/-- The loop ends with the first answer that agrees with an earlier one, or with all
answers if there is none. -/
theorem collect_cases (hnone : results.Pairwise fun a b => ¬cmp.Agree a b) :
    (cmp.collect completions results = (none, results ++ successes completions) ∧
      (results ++ successes completions).Pairwise fun a b => ¬cmp.Agree a b) ∨
    ∃ r seen a, cmp.collect completions results = (some r, seen) ∧
      [a, r].Sublist (results ++ successes completions) ∧ cmp.Agree a r := by
  induction completions generalizing results with
  | nil =>
      refine .inl ⟨?_, ?_⟩
      · rw [collect, successes, List.filterMap_nil, List.append_nil]
      · rwa [successes, List.filterMap_nil, List.append_nil]
  | cons outcome completions ih =>
      cases outcome with
      | error e => exact ih hnone
      | ok r =>
          have hsuccesses : results ++ successes (.ok r :: completions) =
              results ++ [r] ++ successes completions := by
            rw [List.append_assoc]
            rfl
          rw [collect, hsuccesses]
          split
          · rename_i hconsensus
            have hagree : ∃ a ∈ results, cmp.Agree a r := by
              by_contra hno
              refine hasConsensus_iff.mp hconsensus (List.pairwise_append.mpr ⟨hnone, ?_, ?_⟩)
              · exact List.pairwise_singleton _ r
              · rintro a ha b hb hab
                obtain rfl := List.mem_singleton.mp hb
                exact hno ⟨a, ha, hab⟩
            obtain ⟨a, ha, hagree⟩ := hagree
            refine .inr ⟨r, results ++ [r], a, rfl, ?_, hagree⟩
            exact ((List.singleton_sublist.mpr ha).append (.refl [r])).trans
              (List.sublist_append_left _ _)
          · rename_i hconsensus
            exact ih (not_not.mp (mt hasConsensus_iff.mpr hconsensus))

theorem not_agreement_iff : (successes completions).Pairwise (fun a b => ¬cmp.Agree a b) ↔
    ¬cmp.Agreement completions := by
  rw [List.pairwise_iff_forall_sublist, Agreement]
  constructor
  · rintro hnone ⟨a, b, hsub, hagree⟩
    exact hnone hsub hagree
  · intro hnone a b hsub hagree
    exact hnone ⟨a, b, hsub, hagree⟩

theorem arbitrate_cases (cmp : Comparison ν)
    (completions : List (Except ArbitrationError BackendResult)) (waits : Bool) :
    (∃ r a, cmp.arbitrate completions waits = some (.ok r) ∧
      [a, r].Sublist (successes completions) ∧ cmp.Agree a r) ∨
    (¬cmp.Agreement completions ∧
      ((waits = true ∧ cmp.arbitrate completions waits = none) ∨
      (waits = false ∧ ∃ r, (successes completions).head? = some r ∧
        cmp.arbitrate completions waits = some (.ok r)) ∨
      (successes completions = [] ∧
        ∀ r, cmp.arbitrate completions waits ≠ some (.ok r)))) := by
  unfold arbitrate
  have hnobody : ([] : List BackendResult).Pairwise fun a b => ¬cmp.Agree a b := .nil
  rcases @collect_cases _ cmp _ completions hnobody with
    ⟨hcollect, hnone⟩ | ⟨r, seen, a, hcollect, hsub, hagree⟩
  · rw [List.nil_append] at hcollect hnone
    rw [hcollect]
    dsimp only
    refine .inr ⟨not_agreement_iff.mp hnone, ?_⟩
    cases waits with
    | true => exact .inl ⟨rfl, rfl⟩
    | false =>
        cases hhead : (successes completions).head? with
        | none => exact .inr (.inr ⟨List.head?_eq_none_iff.mp hhead, fun r h => by cases h⟩)
        | some r => exact .inr (.inl ⟨rfl, r, rfl, rfl⟩)
  · rw [hcollect]
    exact .inl ⟨r, a, rfl, hsub, hagree⟩

/-- Arbitration needs agreement exactly if there is agreement, or nothing that could be
taken without. -/
theorem needsAgreement_iff (cmp : Comparison ν)
    (completions : List (Except ArbitrationError BackendResult)) (waits : Bool) :
    cmp.NeedsAgreement completions waits ↔
      cmp.Agreement completions ∨ successes completions = [] ∨ waits = true := by
  rcases arbitrate_cases cmp completions waits with ⟨r, a, hok, hsub, hagree⟩ | ⟨hnone, hend⟩
  · refine iff_of_true ⟨fun r' hr' => ?_, fun _ => ⟨r, hok⟩⟩ (.inl ⟨a, r, hsub, hagree⟩)
    obtain rfl : r = r' := by
      rw [hok] at hr'
      cases hr'
      rfl
    exact ⟨a, r, hsub, hagree, .inr rfl⟩
  · rw [or_iff_right hnone]
    rcases hend with ⟨hwaits, hstuck⟩ | ⟨hwaits, r, hhead, hok⟩ | ⟨hempty, hfail⟩
    · refine iff_of_true ⟨fun r hr => ?_, fun h => absurd h hnone⟩ (.inr hwaits)
      rw [hstuck] at hr
      cases hr
    · refine iff_of_false (fun h => ?_) ?_
      · obtain ⟨a, b, hsub, hagree, -⟩ := h.agreed r hok
        exact hnone ⟨a, b, hsub, hagree⟩
      · rintro (hempty | hwaits')
        · rw [hempty] at hhead
          cases hhead
        · rw [hwaits] at hwaits'
          cases hwaits'
    · exact iff_of_true ⟨fun r hr => absurd hr (hfail r), fun h => absurd h hnone⟩ (.inl hempty)

/-- The first of two different answers is taken. -/
theorem first_answer_taken : ¬∀ (cmp : Comparison Unit)
    (completions : List (Except ArbitrationError BackendResult)) (waits : Bool),
    cmp.NeedsAgreement completions waits := by
  intro hall
  obtain ⟨a, b, hsub, hagree, -⟩ :=
    (hall ⟨fun _ _ => true, fun _ => .error "expected value"⟩
      [.ok ⟨"a", "x"⟩, .ok ⟨"b", "y"⟩] false).agreed ⟨"a", "x"⟩ (by decide)
  have hab : [a, b] = [⟨"a", "x"⟩, ⟨"b", "y"⟩] := hsub.eq_of_length rfl
  cases hab
  unfold Agree at hagree
  exact absurd hagree (by decide)

end Comparison

end SereinGateway.TrafficControl
