import SereinGateway.Router.WriteDiscipline

/-!
What `self_healing_write` makes of the statuses that it obtains.

The loop computes a status after each rejected attempt that allows a retry, also
after the last one, for which there is no round left. The healing is exact when one
of the statuses with which there is an attempt does not allow a retry; otherwise one
status is computed more than there are retries, and nothing is done with it.
-/

namespace SereinGateway.Router

open SereinGateway.Lib SereinGateway.Consensus

variable {ν : Type} (dg : Digests ν)

/-- How `self_healing_write` ends. -/
structure Healing (ν : Type) where
  result : Except WriteDisciplineError Unit
  gate : WriteGate ν
  /-- What the calls of `compute_status` returned. -/
  computed : List TaskStatus

namespace WriteGate

/-- `healingLoop`, with the statuses that it computes. -/
def healingRounds (data : Value ν) (taskId : String) (computeStatus : ℕ → TaskStatus)
    (clock : ℕ → CommitClock) : ℕ → ℕ → TaskStatus → WriteGate ν → Healing ν
  | 0, _, _, gate => ⟨.error (.maxRetriesExhausted gate.maxRetries), gate, []⟩
  | remaining + 1, attempt, currentStatus, gate =>
      match gate.commit dg currentStatus data taskId (clock attempt) with
      | (.ok (), gate) => ⟨.ok (), gate, []⟩
      | (.error (.commitRejected status), gate) =>
          if currentStatus.allowsRetry then
            let rest := healingRounds data taskId computeStatus clock remaining (attempt + 1)
              (computeStatus attempt) gate
            ⟨rest.result, rest.gate, computeStatus attempt :: rest.computed⟩
          else ⟨.error (.commitRejected status), gate, []⟩
      | (.error e, gate) => ⟨.error e, gate, []⟩

/-- `selfHealingWrite`, with the statuses that it computes. -/
def heal (gate : WriteGate ν) (initialStatus : TaskStatus) (data : Value ν) (taskId : String)
    (computeStatus : ℕ → TaskStatus) (clock : ℕ → CommitClock) : Healing ν :=
  healingRounds dg data taskId computeStatus clock (gate.maxRetries + 1) 0 initialStatus gate

end WriteGate

/-- The status of attempt `i`. -/
def attemptStatus (initialStatus : TaskStatus) (computeStatus : ℕ → TaskStatus) : ℕ → TaskStatus
  | 0 => initialStatus
  | i + 1 => computeStatus i

/-- The first status that does not allow a retry decides, and no status is computed
without need. -/
structure Healing.Exact (maxRetries : ℕ) (initialStatus : TaskStatus) (h : Healing ν) : Prop where
  ok_iff : h.result = .ok () ↔ ∃ status,
    (initialStatus :: h.computed).find? (!·.allowsRetry) = some status ∧ status.allowsCommit = true
  rejected : ∀ status, (initialStatus :: h.computed).find? (!·.allowsRetry) = some status →
    status.allowsCommit = false → h.result = .error (.commitRejected status)
  exhausted : h.result = .error (.maxRetriesExhausted maxRetries) ↔
    ∀ status ∈ initialStatus :: h.computed, status.allowsRetry = true
  computed_le : h.computed.length ≤ maxRetries

section Rounds

variable {dg} {data : Value ν} {taskId : String} {computeStatus : ℕ → TaskStatus}
  {clock : ℕ → CommitClock}

theorem healingLoop_eq (remaining attempt : ℕ) (status : TaskStatus) (gate : WriteGate ν) :
    WriteGate.healingLoop dg data taskId computeStatus clock remaining attempt status gate =
      ((WriteGate.healingRounds dg data taskId computeStatus clock remaining attempt status
          gate).result,
        (WriteGate.healingRounds dg data taskId computeStatus clock remaining attempt status
          gate).gate) := by
  induction remaining generalizing attempt status gate with
  | zero => rfl
  | succ remaining ih =>
      rw [WriteGate.healingLoop, WriteGate.healingRounds]
      generalize gate.commit dg status data taskId (clock attempt) = out
      obtain ⟨e | _, gate'⟩ := out
      · cases e with
        | commitRejected rejected =>
            cases status.allowsRetry with
            | true => exact ih _ _ _
            | false => rfl
        | integrityCheckFailed message => rfl
        | maxRetriesExhausted max => rfl
        | serializationError message => rfl
      · rfl

/-- A loop of some rounds meets a status that does not allow a retry and ends with
it, or it computes as many statuses as it has rounds. -/
inductive Ends (status : TaskStatus) (remaining : ℕ) (maxRetries : ℕ) (h : Healing ν) : Prop
  | decided (before : List TaskStatus) (last : TaskStatus)
      (hobtained : status :: h.computed = before ++ [last])
      (hbefore : ∀ s ∈ before, s.allowsRetry = true) (hlast : last.allowsRetry = false)
      (hlength : before.length < remaining)
      (hresult : h.result =
        if last.allowsCommit then .ok () else .error (.commitRejected last))
  | exhausted (hlength : h.computed.length = remaining)
      (hresult : h.result = .error (.maxRetriesExhausted maxRetries))
      (hretry : ∀ s ∈ (status :: h.computed).take remaining, s.allowsRetry = true)

theorem ends_healingRounds (hdata : data.1 ≠ .null) (taskId : String)
    (computeStatus : ℕ → TaskStatus) (clock : ℕ → CommitClock) (remaining attempt : ℕ)
    (status : TaskStatus) (gate : WriteGate ν) :
    Ends status remaining gate.maxRetries (WriteGate.healingRounds dg data taskId computeStatus
      clock remaining attempt status gate) := by
  induction remaining generalizing attempt status gate with
  | zero => exact .exhausted rfl rfl (by simp)
  | succ remaining ih =>
      have hcommits : WriteGate.Commits dg gate status data _ :=
        gate.commits status data taskId (clock attempt)
      rw [WriteGate.healingRounds]
      generalize gate.commit dg status data taskId (clock attempt) = out at hcommits ⊢
      cases hcommits with
      | committed call record hallows _ hrecord houtcome hstatus =>
          have hlast := TaskStatus.not_allowsRetry_of_allowsCommit hallows
          exact .decided [] status rfl (by simp) hlast (Nat.succ_pos _) (by simp [hallows])
      | unrecorded call hallows hnull => exact absurd hnull hdata
      | rejected call record hforbids hrecord houtcome =>
          cases hretry : status.allowsRetry
          · exact .decided [] status rfl (by simp) hretry (Nat.succ_pos _) (by simp [hforbids])
          · have hrest := ih (attempt + 1) (computeStatus attempt)
              ⟨gate.auditTrail ++ [record], gate.maxRetries, gate.calls ++ [call]⟩
            simp only [if_true]
            cases hrest with
            | decided before last hobtained hbefore hlast hlength hresult =>
                refine .decided (status :: before) last ?_ ?_ hlast (Nat.succ_lt_succ hlength)
                  hresult
                · exact congrArg (status :: ·) hobtained
                · exact List.forall_mem_cons.mpr ⟨hretry, hbefore⟩
            | exhausted hlength hresult hall =>
                refine .exhausted (congrArg (· + 1) hlength) hresult ?_
                rw [List.take_succ_cons]
                exact List.forall_mem_cons.mpr ⟨hretry, hall⟩

theorem computed_healingRounds (data : Value ν) (taskId : String)
    (computeStatus : ℕ → TaskStatus) (clock : ℕ → CommitClock) (remaining attempt : ℕ)
    (status : TaskStatus) (gate : WriteGate ν) : ∃ n,
    (WriteGate.healingRounds dg data taskId computeStatus clock remaining attempt status
      gate).computed = (List.range n).map fun i => computeStatus (attempt + i) := by
  induction remaining generalizing attempt status gate with
  | zero => exact ⟨0, rfl⟩
  | succ remaining ih =>
      rw [WriteGate.healingRounds]
      split
      · exact ⟨0, rfl⟩
      · rename_i gate' _
        split
        · obtain ⟨n, hn⟩ := ih (attempt + 1) (computeStatus attempt) gate'
          refine ⟨n + 1, ?_⟩
          rw [List.range_succ_eq_map, List.map_cons, List.map_map]
          refine congrArg₂ List.cons rfl (hn.trans (List.map_congr_left fun i _ => ?_))
          exact congrArg computeStatus (by simp; omega)
        · exact ⟨0, rfl⟩
      · exact ⟨0, rfl⟩

theorem getElem?_obtained (initialStatus : TaskStatus) (computeStatus : ℕ → TaskStatus)
    {n i : ℕ} (hi : i ≤ n) :
    (initialStatus :: (List.range n).map computeStatus)[i]? =
      some (attemptStatus initialStatus computeStatus i) := by
  cases i with
  | zero => rfl
  | succ i => simp [attemptStatus, Nat.lt_of_succ_le hi]

end Rounds

section Exactness

variable {data : Value ν} {computeStatus : ℕ → TaskStatus} {initialStatus last : TaskStatus}
  {before : List TaskStatus}
  {h : Healing ν} {maxRetries : ℕ}

theorem Healing.exact_of_decided (hobtained : initialStatus :: h.computed = before ++ [last])
    (hbefore : ∀ s ∈ before, s.allowsRetry = true) (hlast : last.allowsRetry = false)
    (hlength : before.length ≤ maxRetries)
    (hresult : h.result = if last.allowsCommit then .ok () else .error (.commitRejected last)) :
    h.Exact maxRetries initialStatus := by
  have hfind : (initialStatus :: h.computed).find? (!·.allowsRetry) = some last := by
    rw [hobtained, List.find?_append, List.find?_eq_none.mpr (by simpa using hbefore)]
    simp [hlast]
  refine ⟨?_, ?_, ?_, ?_⟩
  · rw [hresult, hfind]
    cases hcommit : last.allowsCommit <;> simp [hcommit]
  · intro status hstatus hforbids
    obtain rfl : last = status := Option.some.inj (hfind.symm.trans hstatus)
    rw [hresult, hforbids]
    rfl
  · constructor
    · rw [hresult]
      intro hexhausted
      split at hexhausted <;> cases hexhausted
    · intro hall
      rw [hall last (by simp [hobtained])] at hlast
      cases hlast
  · have hlen := congrArg List.length hobtained
    simp only [List.length_cons, List.length_append, List.length_nil] at hlen
    omega

theorem not_exact_heal (dg : Digests ν) (gate : WriteGate ν) (taskId : String)
    (clock : ℕ → CommitClock) (hdata : data.1 ≠ .null)
    (hretry : ∀ i ≤ gate.maxRetries,
      (attemptStatus initialStatus computeStatus i).allowsRetry = true) :
    ¬(gate.heal dg initialStatus data taskId computeStatus clock).Exact gate.maxRetries
      initialStatus := by
  intro hexact
  have hle := hexact.computed_le
  have hends : Ends _ _ _ (gate.heal dg initialStatus data taskId computeStatus clock) :=
    ends_healingRounds hdata taskId computeStatus clock (gate.maxRetries + 1) 0 initialStatus gate
  obtain ⟨n, hn⟩ : ∃ n, (gate.heal dg initialStatus data taskId computeStatus clock).computed =
      (List.range n).map fun i => computeStatus (0 + i) :=
    computed_healingRounds data taskId computeStatus clock (gate.maxRetries + 1) 0 initialStatus
      gate
  simp only [Nat.zero_add] at hn
  cases hends with
  | decided before last hobtained hbefore hlast hlength hresult =>
      have hlen := congrArg List.length hobtained
      rw [hn] at hobtained
      simp only [hn, List.length_cons, List.length_map, List.length_range, List.length_append,
        List.length_nil] at hlen
      have hget := getElem?_obtained initialStatus computeStatus (show before.length ≤ n by omega)
      rw [hobtained, List.getElem?_concat_length] at hget
      have hmeets := hretry before.length (Nat.le_of_lt_succ hlength)
      rw [← Option.some.inj hget, hlast] at hmeets
      cases hmeets
  | exhausted hlength hresult hall => omega

end Exactness

/-- The healing is exact, for data that is not null, exactly if one of the statuses
of the first `max_retries + 1` attempts does not allow a retry. -/
theorem heal_exact_iff (gate : WriteGate ν) (initialStatus : TaskStatus) (data : Value ν)
    (taskId : String) (computeStatus : ℕ → TaskStatus) (clock : ℕ → CommitClock)
    (hdata : data.1 ≠ .null) :
    (gate.selfHealingWrite dg initialStatus data taskId computeStatus clock).1 =
        (gate.heal dg initialStatus data taskId computeStatus clock).result ∧
      ((gate.heal dg initialStatus data taskId computeStatus clock).Exact gate.maxRetries
          initialStatus ↔
        ∃ i ≤ gate.maxRetries,
          (attemptStatus initialStatus computeStatus i).allowsRetry = false) := by
  refine ⟨congrArg Prod.fst (healingLoop_eq _ _ _ _), fun hexact => ?_, fun hdecided => ?_⟩
  · by_contra hnone
    refine not_exact_heal dg gate taskId clock hdata (fun i hi => ?_) hexact
    cases hstatus : (attemptStatus initialStatus computeStatus i).allowsRetry
    · exact absurd ⟨i, hi, hstatus⟩ hnone
    · rfl
  · obtain ⟨i, hi, hno⟩ := hdecided
    have hends : Ends _ _ _ (gate.heal dg initialStatus data taskId computeStatus clock) :=
      ends_healingRounds hdata taskId computeStatus clock (gate.maxRetries + 1) 0 initialStatus gate
    cases hends with
    | decided before last hobtained hbefore hlast hlength hresult =>
        exact Healing.exact_of_decided hobtained hbefore hlast (Nat.le_of_lt_succ hlength) hresult
    | exhausted hlength hresult hretry =>
        obtain ⟨n, hn⟩ :
            ∃ n, (gate.heal dg initialStatus data taskId computeStatus clock).computed =
              (List.range n).map fun i => computeStatus (0 + i) :=
          computed_healingRounds data taskId computeStatus clock (gate.maxRetries + 1) 0
            initialStatus gate
        simp only [Nat.zero_add] at hn
        have hcount := congrArg List.length hn
        rw [hlength, List.length_map, List.length_range] at hcount
        have hmem : attemptStatus initialStatus computeStatus i ∈
            (initialStatus :: (List.range n).map computeStatus).take (gate.maxRetries + 1) := by
          apply List.mem_of_getElem?
          rw [List.getElem?_take_of_lt (Nat.lt_succ_of_le hi)]
          exact getElem?_obtained initialStatus computeStatus (by omega)
        rw [← hn] at hmem
        rw [hretry _ hmem] at hno
        cases hno

/-- A pending task that succeeds on the only computation, with one retry. -/
theorem heal_exact_success :
    (((WriteGate.new 1).selfHealingWrite nullDigests .pending ⟨.bool true, .bool true⟩ "task-sh"
          (fun _ => .verifiedSuccess) fun _ => ⟨1700000000000, 1700000000⟩).1 =
        ((WriteGate.new 1).heal nullDigests .pending ⟨.bool true, .bool true⟩ "task-sh"
          (fun _ => .verifiedSuccess) fun _ => ⟨1700000000000, 1700000000⟩).result) ∧
      (((WriteGate.new 1).heal nullDigests .pending ⟨.bool true, .bool true⟩ "task-sh"
          (fun _ => .verifiedSuccess) fun _ => ⟨1700000000000, 1700000000⟩).Exact 1 .pending ↔
        ∃ i ≤ 1, (attemptStatus .pending (fun _ => .verifiedSuccess) i).allowsRetry = false) :=
  heal_exact_iff nullDigests (.new 1) .pending ⟨.bool true, .bool true⟩ "task-sh" _ _ (by simp)

/-- Without a retry, the status that is computed is the one that permits the commit. -/
theorem computed_success_unused :
    ¬∀ (dg : Digests ℕ) (gate : WriteGate ℕ) (initialStatus : TaskStatus) (data : Value ℕ)
      (taskId : String) (computeStatus : ℕ → TaskStatus) (clock : ℕ → CommitClock),
      data.1 ≠ .null → (gate.heal dg initialStatus data taskId computeStatus clock).Exact
        gate.maxRetries initialStatus := by
  intro hall
  have hexact := hall nullDigests (.new 0) .pending ⟨.bool true, .bool true⟩ "task-sh"
    (fun _ => .verifiedSuccess) (fun _ => ⟨1700000000000, 1700000000⟩) (by simp)
  refine not_exact_heal nullDigests (.new 0) "task-sh" _ (by simp) (fun i hi => ?_) hexact
  obtain rfl : i = 0 := Nat.le_zero.mp hi
  rfl

end SereinGateway.Router
