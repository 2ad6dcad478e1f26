import Mathlib.Data.List.Forall2
import SereinGateway.Consensus.CanonicalKey

/-!
`WriteGate`: commits that depend on the status of a task, and their audit trail.

A commit is rejected on account of its status, or fails the integrity check, or is
approved. The rejection and the approval are recorded; the failure of the check
returns between the two. `self_healing_write` commits again, with a status that is
computed anew, as long as the last one was rejected and allows a retry.

What an attempt returns and what it records depend on its status and its data
alone, and so does what a call tries. The trail is audited when its records are
those of the attempts, one by one.
-/

namespace SereinGateway.Router

open SereinGateway.Lib SereinGateway.Consensus

inductive TaskStatus where
  | pending
  | inProgress
  | verifiedSuccess
  | verifiedFailure
  | partialSuccess
  | retryableError
  | nonRetryableError
  | cancelled
  deriving DecidableEq

namespace TaskStatus

def allowsCommit (status : TaskStatus) : Bool :=
  status = verifiedSuccess || status = partialSuccess

def allowsRetry (status : TaskStatus) : Bool :=
  status = retryableError || status = inProgress || status = pending

/-- The derived `Debug`. -/
def debug : TaskStatus → String
  | pending => "Pending"
  | inProgress => "InProgress"
  | verifiedSuccess => "VerifiedSuccess"
  | verifiedFailure => "VerifiedFailure"
  | partialSuccess => "PartialSuccess"
  | retryableError => "RetryableError"
  | nonRetryableError => "NonRetryableError"
  | cancelled => "Cancelled"

end TaskStatus

inductive WriteDisciplineError where
  | commitRejected (status : TaskStatus)
  | integrityCheckFailed (message : String)
  | maxRetriesExhausted (max : ℕ)
  | serializationError (message : String)
  deriving DecidableEq

inductive WriteOutcome where
  | committed
  | rejected
  | retried
  | failedPermanent
  deriving DecidableEq

structure WriteAttempt where
  attemptId : String
  timestamp : ℤ
  taskStatus : TaskStatus
  outcome : WriteOutcome
  dataFingerprint : String
  errorMessage : Option String

/-- What the two calls of `Utc::now()` in a commit return. -/
structure CommitClock where
  millis : ℤ
  timestamp : ℤ

structure CommitCall (ν : Type) where
  taskStatus : TaskStatus
  data : Value ν
  taskId : String
  clock : CommitClock
  result : Except WriteDisciplineError Unit

structure WriteGate (ν : Type) where
  auditTrail : List WriteAttempt
  maxRetries : ℕ
  /-- The calls of `commit` so far. The source does not keep them. -/
  calls : List (CommitCall ν)

variable {ν : Type} (dg : Digests ν)

def computeFingerprint (data : Value ν) : String :=
  hexEncode (dg.sha256 (dg.toStr data).toByteArray).toList

def validateIntegrity (data : Value ν) : Except WriteDisciplineError Unit :=
  match data.1 with
  | .null => .error (.integrityCheckFailed "Data is null")
  | _ => .ok ()

namespace WriteGate

def new (maxRetries : ℕ) : WriteGate ν := ⟨[], maxRetries, []⟩

def recordAttempt (gate : WriteGate ν) (attempt : WriteAttempt) : WriteGate ν :=
  { gate with auditTrail := gate.auditTrail ++ [attempt] }

def commitBody (gate : WriteGate ν) (taskStatus : TaskStatus) (data : Value ν) (taskId : String)
    (clock : CommitClock) : Except WriteDisciplineError Unit × WriteGate ν :=
  let dataFingerprint := computeFingerprint dg data
  let attemptId := taskId ++ "-" ++ toString clock.millis
  if !taskStatus.allowsCommit then
    (.error (.commitRejected taskStatus),
      gate.recordAttempt
        { attemptId, taskStatus, dataFingerprint
          timestamp := clock.timestamp
          outcome := .rejected
          errorMessage := some ("Status " ++ taskStatus.debug ++ " does not permit commit") })
  else
    match validateIntegrity data with
    | .error e => (.error e, gate)
    | .ok () =>
        (.ok (),
          gate.recordAttempt
            { attemptId, taskStatus, dataFingerprint
              timestamp := clock.timestamp
              outcome := .committed
              errorMessage := none })

def commit (gate : WriteGate ν) (taskStatus : TaskStatus) (data : Value ν) (taskId : String)
    (clock : CommitClock) : Except WriteDisciplineError Unit × WriteGate ν :=
  let (result, gate) := gate.commitBody dg taskStatus data taskId clock
  (result, { gate with calls := gate.calls ++ [⟨taskStatus, data, taskId, clock, result⟩] })

/-- The loop of `self_healing_write` with `remaining` rounds to go. -/
def healingLoop (data : Value ν) (taskId : String) (computeStatus : ℕ → TaskStatus)
    (clock : ℕ → CommitClock) :
    ℕ → ℕ → TaskStatus → WriteGate ν → Except WriteDisciplineError Unit × WriteGate ν
  | 0, _, _, gate => (.error (.maxRetriesExhausted gate.maxRetries), gate)
  | remaining + 1, attempt, currentStatus, gate =>
      match gate.commit dg currentStatus data taskId (clock attempt) with
      | (.ok (), gate) => (.ok (), gate)
      | (.error (.commitRejected status), gate) =>
          if currentStatus.allowsRetry then
            healingLoop data taskId computeStatus clock remaining (attempt + 1)
              (computeStatus attempt) gate
          else (.error (.commitRejected status), gate)
      | (.error e, gate) => (.error e, gate)

/-- `compute_status` returns `computeStatus n` in round `n`. -/
def selfHealingWrite (gate : WriteGate ν) (initialStatus : TaskStatus) (data : Value ν)
    (taskId : String) (computeStatus : ℕ → TaskStatus) (clock : ℕ → CommitClock) :
    Except WriteDisciplineError Unit × WriteGate ν :=
  healingLoop dg data taskId computeStatus clock (gate.maxRetries + 1) 0 initialStatus gate

end WriteGate

/-- A call that a user of the gate makes. -/
inductive WriteCall (ν : Type) where
  | commit (taskStatus : TaskStatus) (data : Value ν) (taskId : String) (clock : CommitClock)
  | selfHealingWrite (initialStatus : TaskStatus) (data : Value ν) (taskId : String)
      (computeStatus : ℕ → TaskStatus) (clock : ℕ → CommitClock)

def WriteCall.data : WriteCall ν → Value ν
  | commit _ data _ _ => data
  | selfHealingWrite _ data _ _ _ => data

namespace WriteGate

def perform (gate : WriteGate ν) : WriteCall ν → WriteGate ν
  | .commit taskStatus data taskId clock => (gate.commit dg taskStatus data taskId clock).2
  | .selfHealingWrite initialStatus data taskId computeStatus clock =>
      (gate.selfHealingWrite dg initialStatus data taskId computeStatus clock).2

def run (gate : WriteGate ν) (calls : List (WriteCall ν)) : WriteGate ν :=
  calls.foldl (perform dg) gate

end WriteGate

/-! ### One attempt -/

structure RecordOf (call : CommitCall ν) (record : WriteAttempt) : Prop where
  attemptId : record.attemptId = call.taskId ++ "-" ++ toString call.clock.millis
  timestamp : record.timestamp = call.clock.timestamp
  taskStatus : record.taskStatus = call.taskStatus
  dataFingerprint : record.dataFingerprint = computeFingerprint dg call.data
  committed_iff : record.outcome = .committed ↔ call.result = .ok ()

/-- One record for each call of `commit`, in order, and `Committed` only if verified. -/
structure WriteGate.Audited (gate : WriteGate ν) : Prop where
  recorded : List.Forall₂ (RecordOf dg) gate.calls gate.auditTrail
  verified : ∀ record ∈ gate.auditTrail,
    record.outcome = .committed → record.taskStatus = .verifiedSuccess

/-- An attempt that the gate does not commit, or that it ought to commit. -/
def Disciplined (data : Value ν) (status : TaskStatus) : Prop :=
  status.allowsCommit → status = .verifiedSuccess ∧ data.1 ≠ .null

theorem TaskStatus.not_allowsRetry_of_allowsCommit {status : TaskStatus}
    (h : status.allowsCommit = true) : status.allowsRetry = false := by
  cases status <;> first | rfl | cases h

theorem validateIntegrity_eq_ok {data : Value ν} (h : data.1 ≠ .null) :
    validateIntegrity data = .ok () := by
  unfold validateIntegrity
  split
  · contradiction
  · rfl

theorem validateIntegrity_null {data : Value ν} (h : data.1 = .null) :
    validateIntegrity data = .error (.integrityCheckFailed "Data is null") := by
  unfold validateIntegrity
  rw [h]

namespace WriteGate

variable {dg}

inductive Commits (dg : Digests ν) (gate : WriteGate ν) (taskStatus : TaskStatus)
    (data : Value ν) : Except WriteDisciplineError Unit × WriteGate ν → Prop
  | rejected (call : CommitCall ν) (record : WriteAttempt)
      (hforbids : taskStatus.allowsCommit = false) (hrecord : RecordOf dg call record)
      (houtcome : record.outcome ≠ .committed) :
      Commits dg gate taskStatus data (.error (.commitRejected taskStatus),
        ⟨gate.auditTrail ++ [record], gate.maxRetries, gate.calls ++ [call]⟩)
  | unrecorded (call : CommitCall ν) (hallows : taskStatus.allowsCommit = true)
      (hnull : data.1 = .null) :
      Commits dg gate taskStatus data (.error (.integrityCheckFailed "Data is null"),
        ⟨gate.auditTrail, gate.maxRetries, gate.calls ++ [call]⟩)
  | committed (call : CommitCall ν) (record : WriteAttempt)
      (hallows : taskStatus.allowsCommit = true) (hdata : data.1 ≠ .null)
      (hrecord : RecordOf dg call record) (houtcome : record.outcome = .committed)
      (hstatus : record.taskStatus = taskStatus) :
      Commits dg gate taskStatus data (.ok (),
        ⟨gate.auditTrail ++ [record], gate.maxRetries, gate.calls ++ [call]⟩)

theorem commits (gate : WriteGate ν) (taskStatus : TaskStatus) (data : Value ν) (taskId : String)
    (clock : CommitClock) :
    Commits dg gate taskStatus data (gate.commit dg taskStatus data taskId clock) := by
  unfold commit commitBody
  cases hallows : taskStatus.allowsCommit
  · exact .rejected _ _ hallows ⟨rfl, rfl, rfl, rfl, by simp⟩ (by simp)
  · by_cases hnull : data.1 = .null
    · rw [validateIntegrity_null hnull]
      exact .unrecorded _ hallows hnull
    · rw [validateIntegrity_eq_ok hnull]
      exact .committed _ _ hallows hnull ⟨rfl, rfl, rfl, rfl, by simp⟩ rfl rfl

/-- There are no more records than calls. -/
def Sparse (gate : WriteGate ν) : Prop := gate.auditTrail.length ≤ gate.calls.length

theorem Commits.sparse {gate gate' : WriteGate ν} {taskStatus : TaskStatus} {data : Value ν}
    {result : Except WriteDisciplineError Unit}
    (h : Commits dg gate taskStatus data (result, gate')) (hsparse : gate.Sparse) :
    gate'.Sparse := by
  unfold Sparse at hsparse ⊢
  cases h <;> simp <;> omega

theorem Commits.maxRetries {gate gate' : WriteGate ν} {taskStatus : TaskStatus} {data : Value ν}
    {result : Except WriteDisciplineError Unit}
    (h : Commits dg gate taskStatus data (result, gate')) : gate'.maxRetries = gate.maxRetries := by
  cases h <;> rfl

theorem forall₂_concat_iff {α β : Type*} {R : α → β → Prop} {as : List α} {bs : List β} {a : α}
    {b : β} : List.Forall₂ R (as ++ [a]) (bs ++ [b]) ↔ List.Forall₂ R as bs ∧ R a b := by
  rw [← List.forall₂_reverse_iff]
  simp [and_comm]

/-- A record that belongs to its call keeps the trail audited unless it says that a
status other than `VerifiedSuccess` was committed. -/
theorem audited_append_iff {gate : WriteGate ν} {call : CommitCall ν} {record : WriteAttempt}
    (hrecord : RecordOf dg call record) :
    Audited dg ⟨gate.auditTrail ++ [record], gate.maxRetries, gate.calls ++ [call]⟩ ↔
      gate.Audited dg ∧ (record.outcome = .committed → record.taskStatus = .verifiedSuccess) := by
  constructor
  · rintro ⟨hrecorded, hverified⟩
    refine ⟨⟨(forall₂_concat_iff.mp hrecorded).1, ?_⟩, ?_⟩
    · intro r hr
      exact hverified r (List.mem_append_left _ hr)
    · exact hverified record (List.mem_append_right _ (List.mem_singleton_self _))
  · rintro ⟨⟨hrecorded, hverified⟩, hlast⟩
    refine ⟨forall₂_concat_iff.mpr ⟨hrecorded, hrecord⟩, ?_⟩
    intro r hr
    rcases List.mem_append.mp hr with hr | hr
    · exact hverified r hr
    · rw [List.mem_singleton.mp hr]
      exact hlast

theorem Commits.stays_audited_iff {gate gate' : WriteGate ν} {taskStatus : TaskStatus}
    {data : Value ν} {result : Except WriteDisciplineError Unit}
    (h : Commits dg gate taskStatus data (result, gate')) (hsparse : gate.Sparse) :
    gate'.Audited dg ↔ gate.Audited dg ∧ Disciplined data taskStatus := by
  cases h with
  | rejected call record hforbids hrecord houtcome =>
      have hdisciplined : Disciplined data taskStatus := by
        intro hallows
        rw [hforbids] at hallows
        cases hallows
      rw [audited_append_iff hrecord, and_iff_left hdisciplined]
      exact and_iff_left fun hcommitted => absurd hcommitted houtcome
  | unrecorded call hallows hnull =>
      have hlength : gate.auditTrail.length ≤ gate.calls.length := hsparse
      constructor
      · rintro ⟨hrecorded, -⟩
        have hequal := hrecorded.length_eq
        simp at hequal
        omega
      · rintro ⟨-, hdisciplined⟩
        exact absurd hnull (hdisciplined hallows).2
  | committed call record hallows hdata hrecord houtcome hstatus =>
      rw [audited_append_iff hrecord, hstatus]
      exact and_congr_right fun _ =>
        ⟨fun h _ => ⟨h houtcome, hdata⟩, fun h _ => (h hallows).1⟩

end WriteGate

/-! ### Calls -/

/-- The statuses that the loop of `self_healing_write` commits with. -/
def healingStatuses (computeStatus : ℕ → TaskStatus) : ℕ → ℕ → TaskStatus → List TaskStatus
  | 0, _, _ => []
  | remaining + 1, attempt, status =>
      status ::
        if status.allowsRetry then
          healingStatuses computeStatus remaining (attempt + 1) (computeStatus attempt)
        else []

def WriteCall.statuses (maxRetries : ℕ) : WriteCall ν → List TaskStatus
  | commit taskStatus _ _ _ => [taskStatus]
  | selfHealingWrite initialStatus _ _ computeStatus _ =>
      healingStatuses computeStatus (maxRetries + 1) 0 initialStatus

namespace WriteGate

variable {dg}

structure Tries (dg : Digests ν) (gate gate' : WriteGate ν) (data : Value ν)
    (statuses : List TaskStatus) : Prop where
  sparse : gate'.Sparse
  maxRetries : gate'.maxRetries = gate.maxRetries
  audited : gate'.Audited dg ↔
    gate.Audited dg ∧ ∀ status ∈ statuses, Disciplined data status

theorem tries_commit {gate gate' : WriteGate ν} {taskStatus : TaskStatus} {data : Value ν}
    {result : Except WriteDisciplineError Unit}
    (h : Commits dg gate taskStatus data (result, gate')) (hsparse : gate.Sparse) :
    Tries dg gate gate' data [taskStatus] where
  sparse := h.sparse hsparse
  maxRetries := h.maxRetries
  audited := by
    rw [h.stays_audited_iff hsparse, List.forall_mem_singleton]

theorem Tries.cons {gate gate' gate'' : WriteGate ν} {data : Value ν} {status : TaskStatus}
    {statuses : List TaskStatus} (hfirst : Tries dg gate gate' data [status])
    (hrest : Tries dg gate' gate'' data statuses) :
    Tries dg gate gate'' data (status :: statuses) where
  sparse := hrest.sparse
  maxRetries := hrest.maxRetries.trans hfirst.maxRetries
  audited := by
    rw [hrest.audited, hfirst.audited, List.forall_mem_singleton, and_assoc,
      List.forall_mem_cons]

theorem tries_healingLoop {data : Value ν} {taskId : String} {computeStatus : ℕ → TaskStatus}
    {clock : ℕ → CommitClock} (remaining attempt : ℕ) (status : TaskStatus) {gate : WriteGate ν}
    (hsparse : gate.Sparse) :
    Tries dg gate
      (healingLoop dg data taskId computeStatus clock remaining attempt status gate).2 data
      (healingStatuses computeStatus remaining attempt status) := by
  induction remaining generalizing attempt status gate with
  | zero => exact ⟨hsparse, rfl, by simp [healingLoop, healingStatuses]⟩
  | succ remaining ih =>
      have hcommits : Commits dg gate status data _ :=
        gate.commits status data taskId (clock attempt)
      rw [healingLoop, healingStatuses]
      generalize gate.commit dg status data taskId (clock attempt) = out at hcommits ⊢
      obtain ⟨result, gate'⟩ := out
      have hfirst : Tries dg gate gate' data [status] := tries_commit hcommits hsparse
      cases hcommits with
      | rejected call record hforbids hrecord houtcome =>
          cases hretry : status.allowsRetry
          · simpa [hretry] using hfirst
          · simpa [hretry] using hfirst.cons (ih _ _ hfirst.sparse)
      | unrecorded call hallows hnull =>
          simpa [TaskStatus.not_allowsRetry_of_allowsCommit hallows] using hfirst
      | committed call record hallows hdata hrecord houtcome hstatus =>
          simpa [TaskStatus.not_allowsRetry_of_allowsCommit hallows] using hfirst

theorem tries_perform (call : WriteCall ν) {gate : WriteGate ν} (hsparse : gate.Sparse) :
    Tries dg gate (gate.perform dg call) call.data (call.statuses gate.maxRetries) := by
  cases call with
  | commit taskStatus data taskId clock =>
      exact tries_commit (gate.commits taskStatus data taskId clock) hsparse
  | selfHealingWrite initialStatus data taskId computeStatus clock =>
      exact tries_healingLoop _ _ _ hsparse

theorem run_audited_iff (calls : List (WriteCall ν)) {gate : WriteGate ν} (hsparse : gate.Sparse) :
    (gate.run dg calls).Audited dg ↔ gate.Audited dg ∧
      ∀ call ∈ calls, ∀ status ∈ call.statuses gate.maxRetries, Disciplined call.data status := by
  induction calls generalizing gate with
  | nil => simp [run]
  | cons call calls ih =>
      have htries : Tries dg gate (gate.perform dg call) call.data _ := tries_perform call hsparse
      have hrest := ih htries.sparse
      rw [htries.audited, htries.maxRetries, and_assoc] at hrest
      rw [List.forall_mem_cons]
      exact hrest

variable (dg)

/-- The trail of a new gate is audited exactly if every status that was committed with
and allows a commit was `VerifiedSuccess`, with data other than `null`. -/
theorem audited_iff (maxRetries : ℕ) (calls : List (WriteCall ν)) :
    ((new maxRetries).run dg calls).Audited dg ↔
      ∀ call ∈ calls, ∀ status ∈ call.statuses maxRetries, status.allowsCommit →
        status = .verifiedSuccess ∧ call.data.1 ≠ .null := by
  have hnew : (new maxRetries : WriteGate ν).Audited dg := ⟨.nil, by simp [new]⟩
  have hsparse : (new maxRetries : WriteGate ν).Sparse := Nat.le_refl 0
  exact (run_audited_iff calls hsparse).trans (and_iff_right hnew)

end WriteGate

/-- SHA-256 on the text of `null`. -/
def nullDigests : Digests ℕ where
  fromStr _ := .error "expected value at line 1 column 1"
  toStr _ := "null"
  sha256 _ :=
    #v[0x74, 0x23, 0x4e, 0x98, 0xaf, 0xe7, 0x49, 0x8f, 0xb5, 0xda, 0xf1, 0xf3, 0x6a, 0xc2, 0xd7,
      0x8a, 0xcc, 0x33, 0x94, 0x64, 0xf9, 0x50, 0x70, 0x3b, 0x8c, 0x01, 0x98, 0x92, 0xf9, 0x82,
      0xb9, 0x0b]
  blake3 _ := Vector.replicate 32 0

/-- A commit of `null` leaves no record. -/
theorem null_commit_unaudited :
    ¬((WriteGate.new 3).run nullDigests
      [.commit .verifiedSuccess ⟨.null, .null⟩ "task-003" ⟨1700000000000, 1700000000⟩]).Audited
        nullDigests := by
  rintro ⟨hrecorded, -⟩
  exact absurd hrecorded.length_eq (by decide)

end SereinGateway.Router
