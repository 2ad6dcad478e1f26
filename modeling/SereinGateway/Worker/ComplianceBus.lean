import Mathlib
import SereinGateway.Lib.Channel
import SereinGateway.Lib.Tally
import SereinGateway.Lib.Transition
import SereinGateway.Worker.PiiRegex

/-!
`ComplianceBus`: audit events on their way from the handlers to the log.

Any number of handlers emit events into a bounded channel, and one worker takes
them out and redacts them. It keeps no event: the redacted event is serialised, and
what is logged of it is the tenant, the action and the length of the JSON, or the
tenant and the error. An `emit` is one `try_send`; a later step increments the drop
counter when the buffer was full, and a last one logs the loss. The worker ends when
no sender is left and the channel is empty, or it is aborted while it waits.

The history of the channel and the numbers of refused and failed calls are not in
the program.
-/

namespace SereinGateway.Worker

open SereinGateway.Lib

inductive AuditAction where
  | allowed
  | blockedByWasm
  | modified
  | blockedByOracle
  | blockedBySis
  | blockedByAuth
  | blockedByReplay
  deriving DecidableEq, Repr

def AuditAction.asStr : AuditAction → String
  | .allowed => "ALLOWED"
  | .blockedByWasm => "BLOCKED_BY_WASM"
  | .blockedByOracle => "BLOCKED_BY_ORACLE"
  | .blockedBySis => "BLOCKED_BY_SIS"
  | .blockedByAuth => "BLOCKED_BY_AUTH"
  | .blockedByReplay => "BLOCKED_BY_REPLAY"
  | .modified => "MODIFIED"

structure AuditEvent where
  timestamp : UInt64
  tenantId : String
  endUserId : String
  rawPayload : String
  actionTaken : String
  deriving DecidableEq, Repr

namespace AuditEvent

def new (timestamp : UInt64) (tenantId endUserId rawPayload : String) (action : AuditAction) :
    AuditEvent where
  timestamp := timestamp
  tenantId := tenantId
  endUserId := endUserId
  rawPayload := rawPayload
  actionTaken := action.asStr

def sanitized (pats : PiiPatterns) (event : AuditEvent) : AuditEvent :=
  { event with rawPayload := redactPii pats event.rawPayload }

end AuditEvent

/-- The patterns of `redact_pii`, and `serde_json::to_string` with the text of its error. -/
structure BusDeps where
  pats : PiiPatterns
  toJson : AuditEvent → Except String String

/-- A line of the log, but for those that the worker writes when it starts and ends. -/
inductive BusLine where
  | persisted (tenantId action : String) (jsonLen : ℕ)
  | unserialised (tenantId error : String)
  | dropped (tenantId action : String) (totalDropped : ℕ)
  | closed
  deriving DecidableEq, Repr

def BusLine.ofWorker : BusLine → Bool
  | .persisted _ _ _ | .unserialised _ _ => true
  | .dropped _ _ _ | .closed => false

/-- What the worker logs of an event. -/
def AuditEvent.line (deps : BusDeps) (event : AuditEvent) : BusLine :=
  let sanitized := event.sanitized deps.pats
  match deps.toJson sanitized with
  | .ok json => .persisted sanitized.tenantId sanitized.actionTaken json.utf8ByteSize
  | .error e => .unserialised sanitized.tenantId e

theorem AuditAction.asStr_injective : Function.Injective AuditAction.asStr := by
  intro a b h
  cases a <;> cases b <;> first | rfl | exact absurd h (by decide)

/-- The event is of the action. -/
def AuditAction.marks (action : AuditAction) (event : AuditEvent) : Bool :=
  event.actionTaken == action.asStr

theorem AuditEvent.ofWorker_line (deps : BusDeps) (event : AuditEvent) :
    (event.line deps).ofWorker = true := by
  unfold AuditEvent.line
  dsimp only
  split <;> rfl

def BusLine.reports (action : AuditAction) : BusLine → Bool
  | .persisted _ actionTaken _ => actionTaken == action.asStr
  | _ => false

def complianceCapacity : ℕ := 10000

/-- Where a call of `emit` stands. -/
inductive EmitTask where
  | idle
  /-- The buffer was full; `dropped_events` has not been incremented. -/
  | counting (event : AuditEvent)
  /-- The counter has been incremented, and the loss is not logged. -/
  | warning (event : AuditEvent)
  /-- The channel was closed, and that is not logged. -/
  | closing (event : AuditEvent)
  | returned (result : Except AuditEvent Unit)

def EmitTask.uncounted : EmitTask → ℤ
  | .counting _ => 1
  | _ => 0

/-- No call is under way. -/
def EmitTask.AtRest : EmitTask → Prop
  | .idle | .returned _ => True
  | .counting _ | .warning _ | .closing _ => False

/-- Where the worker is in its loop. -/
inductive BusWorker where
  /-- In `rx.recv()`. -/
  | receiving
  | processing (event : AuditEvent)
  /-- The loop has ended: no sender is left, and the channel is empty. -/
  | terminated
  /-- The runtime was shut down before. -/
  | aborted

namespace BusWorker

/-- The event that has been taken out and not logged. -/
def held : BusWorker → List AuditEvent
  | .processing event => [event]
  | _ => []

def Runs : BusWorker → Prop
  | .receiving | .processing _ => True
  | .terminated | .aborted => False

end BusWorker

structure ComplianceBus where
  channel : Channel AuditEvent complianceCapacity
  droppedEvents : ℕ
  /-- Some clone of the bus, and with it a sender, is alive. -/
  senders : Bool
  worker : BusWorker
  log : List BusLine
  /-- The events that `try_send` has taken. -/
  accepted : List AuditEvent
  /-- The number of calls that found the buffer full. -/
  refused : ℕ
  /-- The number of calls that found the channel closed. -/
  failed : ℕ

inductive BusStep where
  | emit (event : AuditEvent)
  /-- `dropped_events.fetch_add(1)`. -/
  | count
  /-- The call logs what became of the event, and returns. -/
  | report
  | receive
  /-- The event is redacted, serialised and logged. -/
  | record
  /-- The last sender is dropped. -/
  | dropSenders
  /-- `rx.recv()` returns `None`. -/
  | finish
  | abort

def BusStep.isEmit : BusStep → Bool
  | .emit _ => true
  | _ => false

/-- The event that a call of `emit` has. -/
def BusStep.event? : BusStep → Option AuditEvent
  | .emit event => some event
  | _ => none

namespace ComplianceBus

/-- `new` and `spawn_worker`. -/
def spawned : ComplianceBus where
  channel := .empty
  droppedEvents := 0
  senders := true
  worker := .receiving
  log := []
  accepted := []
  refused := 0
  failed := 0

/-- The part of `emit` up to the outcome of `try_send`. -/
def emit (bus : ComplianceBus) (event : AuditEvent) : ComplianceBus × EmitTask :=
  match bus.channel.trySend event with
  | .ok channel =>
      ({ bus with channel := channel, accepted := bus.accepted ++ [event] }, .returned (.ok ()))
  | .error (.full event) => ({ bus with refused := bus.refused + 1 }, .counting event)
  | .error (.closed event) => ({ bus with failed := bus.failed + 1 }, .closing event)

def getDropCount (bus : ComplianceBus) : ℕ := bus.droppedEvents

/-- The lines of the worker. -/
def records (bus : ComplianceBus) : List BusLine := bus.log.filter BusLine.ofWorker

/-- A step of a call of `emit`, or of the worker. -/
def act (deps : BusDeps) (_ : ℕ) (bus : ComplianceBus) (t : EmitTask) :
    BusStep → Option (ComplianceBus × EmitTask)
  | .emit event =>
      match t with
      | .idle | .returned _ => if bus.senders then some (bus.emit event) else none
      | _ => none
  | .count =>
      match t with
      | .counting event =>
          some ({ bus with droppedEvents := fetchAdd bus.droppedEvents 1 }, .warning event)
      | _ => none
  | .report =>
      match t with
      | .warning event =>
          some ({ bus with
            log := bus.log ++ [.dropped event.tenantId event.actionTaken bus.droppedEvents] },
            .returned (.ok ()))
      | .closing event => some ({ bus with log := bus.log ++ [.closed] }, .returned (.error event))
      | _ => none
  | .receive =>
      match bus.worker with
      | .receiving =>
          bus.channel.recv.map fun r =>
            ({ bus with channel := r.2, worker := .processing r.1 }, t)
      | _ => none
  | .record =>
      match bus.worker with
      | .processing event =>
          some ({ bus with worker := .receiving, log := bus.log ++ [event.line deps] }, t)
      | _ => none
  | .dropSenders => some ({ bus with senders := false }, t)
  | .finish =>
      match bus.worker with
      | .receiving =>
          if bus.senders = false ∧ bus.channel.queue = [] then
            some ({ bus with channel := bus.channel.dropReceiver, worker := .terminated }, t)
          else none
      | _ => none
  | .abort =>
      match bus.worker with
      | .receiving =>
          some ({ bus with channel := bus.channel.dropReceiver, worker := .aborted }, t)
      | _ => none

abbrev BusPool := Pool ComplianceBus EmitTask

def start : BusPool := ⟨spawned, fun _ => .idle⟩

/-! ### The books -/

/-- The lines of the worker are those of the events taken out of the channel, in the order
in which they were accepted, and nothing is lost unless the worker is aborted. -/
def Recorded (deps : BusDeps) (bus : ComplianceBus) : Prop :=
  ∃ handled lost, bus.channel.Carries bus.accepted (handled ++ bus.worker.held) lost ∧
    bus.records = handled.map (AuditEvent.line deps) ∧
    (lost ≠ [] → bus.worker = .aborted)

/-- `calls` calls of `emit` have begun; each was accepted, refused or failed, and the
refused ones are counted or still have to be. -/
structure Accounted (deps : BusDeps) (calls : ℕ) (p : BusPool) : Prop where
  recorded : Recorded deps p.shared
  receiver : p.shared.channel.receiver = true ↔ p.shared.worker.Runs
  calls_eq : calls = p.shared.accepted.length + p.shared.refused + p.shared.failed
  failed : p.shared.worker.Runs → p.shared.failed = 0
  counter : ∃ n, Tally (fun j => (p.task j).uncounted) n ∧
    (p.shared.droppedEvents : ℤ) + n ≡ p.shared.refused [ZMOD 2 ^ 64]
  word : p.shared.droppedEvents < 2 ^ 64

section Steps

variable {deps : BusDeps} {calls i : ℕ} {p : BusPool} {bus : ComplianceBus} {t : EmitTask}

theorem records_append (bus : ComplianceBus) (worker : BusWorker) (line : BusLine) :
    { bus with worker := worker, log := bus.log ++ [line] }.records =
      bus.records ++ if line.ofWorker then [line] else [] := by
  rw [records, List.filter_append]
  cases hline : line.ofWorker <;> simp [records, hline]

theorem accounted_start (deps : BusDeps) : Accounted deps 0 start where
  recorded := ⟨[], [], Channel.carries_empty, rfl, fun h => absurd rfl h⟩
  receiver := iff_of_true rfl trivial
  calls_eq := rfl
  failed _ := rfl
  counter := ⟨0, .zero fun _ => rfl, rfl⟩
  word := by decide

theorem Accounted.emit (h : Accounted deps calls p) (hidle : (p.task i).uncounted = 0)
    (event : AuditEvent) :
    Accounted deps (calls + 1)
      ⟨(p.shared.emit event).1, Function.update p.task i (p.shared.emit event).2⟩ := by
  obtain ⟨handled, lost, hcarries, hrecords, hlost⟩ := h.recorded
  obtain ⟨n, htally, hcount⟩ := h.counter
  have hcalls := h.calls_eq
  have hsame : ∀ t : EmitTask, t.uncounted = 0 →
      Tally (fun j => (Function.update p.task i t j).uncounted) n :=
    fun t ht => htally.update_stay (ht.trans hidle.symm)
  rw [ComplianceBus.emit]
  obtain ⟨c', hsend, hr, -, hr'⟩ | ⟨hsend, hr, -⟩ | ⟨hsend, hr⟩ :=
    p.shared.channel.trySend_cases event
  · rw [hsend]
    constructor
    · exact ⟨handled, lost, hcarries.trySend hsend, hrecords, hlost⟩
    · exact iff_of_true hr' (h.receiver.mp hr)
    · show calls + 1 = (p.shared.accepted ++ [event]).length + p.shared.refused + p.shared.failed
      rw [List.length_append, List.length_singleton]
      omega
    · exact h.failed
    · exact ⟨n, hsame _ rfl, hcount⟩
    · exact h.word
  · rw [hsend]
    constructor
    · exact h.recorded
    · exact h.receiver
    · show calls + 1 = p.shared.accepted.length + (p.shared.refused + 1) + p.shared.failed
      omega
    · exact h.failed
    · refine ⟨n - (p.task i).uncounted + 1, htally.update i (.counting event), ?_⟩
      show (p.shared.droppedEvents : ℤ) + _ ≡ ((p.shared.refused + 1 : ℕ) : ℤ) [ZMOD 2 ^ 64]
      rw [hidle, sub_zero, ← add_assoc, Nat.cast_add, Nat.cast_one]
      exact hcount.add_right 1
    · exact h.word
  · rw [hsend]
    constructor
    · exact h.recorded
    · exact h.receiver
    · show calls + 1 = p.shared.accepted.length + p.shared.refused + (p.shared.failed + 1)
      omega
    · intro hruns
      have hopen := h.receiver.mpr hruns
      rw [hr] at hopen
      cases hopen
    · exact ⟨n, hsame _ rfl, hcount⟩
    · exact h.word

/-- A step of the worker, or the end of the senders. -/
theorem Accounted.work (h : Accounted deps calls p) (hrecorded : Recorded deps bus)
    (hreceiver : bus.channel.receiver = true ↔ bus.worker.Runs)
    (haccepted : bus.accepted = p.shared.accepted) (hrefused : bus.refused = p.shared.refused)
    (hfailed : bus.failed = p.shared.failed)
    (hdropped : bus.droppedEvents = p.shared.droppedEvents)
    (hruns : bus.worker.Runs → p.shared.worker.Runs) :
    Accounted deps calls ⟨bus, Function.update p.task i (p.task i)⟩ := by
  rw [Function.update_eq_self]
  constructor
  · exact hrecorded
  · exact hreceiver
  · show calls = bus.accepted.length + bus.refused + bus.failed
    rw [haccepted, hrefused, hfailed]
    exact h.calls_eq
  · intro hrun
    show bus.failed = 0
    rw [hfailed]
    exact h.failed (hruns hrun)
  · show ∃ n, Tally _ n ∧ (bus.droppedEvents : ℤ) + n ≡ bus.refused [ZMOD 2 ^ 64]
    rw [hdropped, hrefused]
    exact h.counter
  · show bus.droppedEvents < 2 ^ 64
    rw [hdropped]
    exact h.word

theorem Accounted.report {line : BusLine} {result : Except AuditEvent Unit}
    (h : Accounted deps calls p) (hidle : (p.task i).uncounted = 0)
    (hline : line.ofWorker = false) :
    Accounted deps calls ⟨{ p.shared with log := p.shared.log ++ [line] },
      Function.update p.task i (.returned result)⟩ := by
  obtain ⟨handled, lost, hcarries, hrecords, hlost⟩ := h.recorded
  obtain ⟨n, htally, hcount⟩ := h.counter
  refine ⟨⟨handled, lost, hcarries, ?_, hlost⟩, h.receiver, h.calls_eq, h.failed,
    ⟨n, htally.update_stay hidle.symm, hcount⟩, h.word⟩
  rw [records_append, hline, hrecords]
  exact List.append_nil _

theorem Accounted.count (h : Accounted deps calls p) {event : AuditEvent}
    (htask : p.task i = .counting event) :
    Accounted deps calls
      ⟨{ p.shared with droppedEvents := fetchAdd p.shared.droppedEvents 1 },
        Function.update p.task i (.warning event)⟩ := by
  obtain ⟨n, htally, hcount⟩ := h.counter
  refine ⟨h.recorded, h.receiver, h.calls_eq, h.failed, ⟨n - 1 + 0, ?_, ?_⟩, ?_⟩
  · have hupdate := htally.update i (.warning event)
    rwa [htask] at hupdate
  · have hadd := fetchAdd_modEq p.shared.droppedEvents 1
    have hsum := (hadd.add_right (n - 1 + 0)).trans
      (show _ ≡ (p.shared.droppedEvents : ℤ) + n [ZMOD 2 ^ 64] by
        rw [Nat.cast_one, add_zero, add_assoc, add_sub_cancel])
    exact hsum.trans hcount
  · exact Nat.mod_lt _ (by positivity)

theorem Accounted.receive (h : Accounted deps calls p) (hworker : p.shared.worker = .receiving)
    {event : AuditEvent} {channel : Channel AuditEvent complianceCapacity}
    (hrecv : p.shared.channel.recv = some (event, channel)) :
    Accounted deps calls ⟨{ p.shared with channel := channel, worker := .processing event },
      Function.update p.task i (p.task i)⟩ := by
  obtain ⟨handled, lost, hcarries, hrecords, hlost⟩ := h.recorded
  rw [hworker] at hcarries hlost
  have hr := (Channel.queue_of_recv hrecv).2
  refine h.work ⟨handled, lost, ?_, hrecords, fun hne => nomatch hlost hne⟩ ?_ rfl rfl rfl rfl ?_
  · have hrest := hcarries.recv hrecv
    rwa [List.append_assoc] at hrest
  · show channel.receiver = true ↔ True
    rw [hr, h.receiver, hworker]
    rfl
  · intro _
    rw [hworker]
    trivial

theorem Accounted.record (h : Accounted deps calls p) {event : AuditEvent}
    (hworker : p.shared.worker = .processing event) :
    Accounted deps calls
      ⟨{ p.shared with worker := .receiving, log := p.shared.log ++ [event.line deps] },
        Function.update p.task i (p.task i)⟩ := by
  obtain ⟨handled, lost, hcarries, hrecords, hlost⟩ := h.recorded
  rw [hworker] at hcarries hlost
  refine h.work ⟨handled ++ [event], lost, ?_, ?_, fun hne => nomatch hlost hne⟩ ?_
    rfl rfl rfl rfl ?_
  · show p.shared.channel.Carries p.shared.accepted (handled ++ [event] ++ []) lost
    rw [List.append_nil]
    exact hcarries
  · rw [records_append, event.ofWorker_line, hrecords, List.map_append]
    rfl
  · rw [h.receiver, hworker]
    rfl
  · intro _
    rw [hworker]
    trivial

theorem Accounted.finish (h : Accounted deps calls p) (hworker : p.shared.worker = .receiving)
    (hqueue : p.shared.channel.queue = []) :
    Accounted deps calls
      ⟨{ p.shared with channel := p.shared.channel.dropReceiver, worker := .terminated },
        Function.update p.task i (p.task i)⟩ := by
  obtain ⟨handled, lost, hcarries, hrecords, hlost⟩ := h.recorded
  rw [hworker] at hlost
  have hdrop := hcarries.dropReceiver
  rw [hqueue, List.append_nil, hworker] at hdrop
  exact h.work ⟨handled, lost, hdrop, hrecords, fun hne => nomatch hlost hne⟩
    (iff_of_false nofun id) rfl rfl rfl rfl False.elim

/-- What is in the channel is lost. -/
theorem Accounted.abort (h : Accounted deps calls p) (hworker : p.shared.worker = .receiving) :
    Accounted deps calls
      ⟨{ p.shared with channel := p.shared.channel.dropReceiver, worker := .aborted },
        Function.update p.task i (p.task i)⟩ := by
  obtain ⟨handled, lost, hcarries, hrecords, -⟩ := h.recorded
  have hdrop := hcarries.dropReceiver
  rw [hworker] at hdrop
  exact h.work ⟨handled, _, hdrop, hrecords, fun _ => rfl⟩ (iff_of_false nofun id)
    rfl rfl rfl rfl False.elim

theorem Accounted.step {q : BusPool} {e : ℕ × BusStep} (h : Accounted deps calls p)
    (hstep : p.step (act deps) e = some q) :
    Accounted deps (calls + if e.2.isEmit then 1 else 0) q := by
  obtain ⟨i, a⟩ := e
  obtain ⟨bus, t, hact, rfl⟩ := Pool.step_eq_some.mp hstep
  unfold act at hact
  cases a with
  | emit event =>
      have hemit (hidle : (p.task i).uncounted = 0)
          (hact : some (p.shared.emit event) = some (bus, t)) :
          Accounted deps (calls + 1) ⟨bus, Function.update p.task i t⟩ := by
        have haccounted := h.emit hidle event
        rwa [Option.some.inj hact] at haccounted
      dsimp only at hact
      split at hact
      · rename_i htask
        obtain ⟨-, hact⟩ := Option.ite_none_right_eq_some.mp hact
        exact hemit (by rw [htask]; rfl) hact
      · rename_i htask
        obtain ⟨-, hact⟩ := Option.ite_none_right_eq_some.mp hact
        exact hemit (by rw [htask]; rfl) hact
      · cases hact
  | count =>
      dsimp only at hact
      split at hact
      · rename_i event htask
        cases hact
        exact h.count htask
      · cases hact
  | report =>
      dsimp only at hact
      split at hact
      · rename_i event htask
        cases hact
        exact h.report (by rw [htask]; rfl) rfl
      · rename_i event htask
        cases hact
        exact h.report (by rw [htask]; rfl) rfl
      · cases hact
  | receive =>
      dsimp only at hact
      split at hact
      · rename_i hworker
        obtain ⟨⟨event, channel⟩, hrecv, hact⟩ := Option.map_eq_some_iff.mp hact
        cases hact
        exact h.receive hworker hrecv
      · cases hact
  | record =>
      dsimp only at hact
      split at hact
      · rename_i event hworker
        cases hact
        exact h.record hworker
      · cases hact
  | dropSenders =>
      cases hact
      exact h.work h.recorded h.receiver rfl rfl rfl rfl id
  | finish =>
      dsimp only at hact
      split at hact
      · rename_i hworker
        obtain ⟨⟨-, hqueue⟩, hact⟩ := Option.ite_none_right_eq_some.mp hact
        cases hact
        exact h.finish hworker hqueue
      · cases hact
  | abort =>
      dsimp only at hact
      split at hact
      · rename_i hworker
        cases hact
        exact h.abort hworker
      · cases hact

end Steps

section Runs

variable {deps : BusDeps} {p : BusPool} {schedule : List (ℕ × BusStep)}

theorem accounted_of_exec (h : exec (Pool.step (act deps)) start schedule = some p) :
    Accounted deps (schedule.countP fun e => e.2.isEmit) p := by
  have hstart : Accounted deps (([] : List (ℕ × BusStep)).countP fun e => e.2.isEmit) start :=
    accounted_start deps
  refine exec_history (I := fun as q => Accounted deps (as.countP fun e => e.2.isEmit) q)
    ?_ schedule hstart h
  intro as q e r hq hstep
  rw [List.countP_append, List.countP_singleton]
  exact hq.step hstep

theorem accepted_of_act {i : ℕ} {bus bus' : ComplianceBus} {t t' : EmitTask} {a : BusStep}
    (h : act deps i bus t a = some (bus', t')) : bus'.accepted = bus.accepted ∨
      ∃ event, a.event? = some event ∧ bus'.accepted = bus.accepted ++ [event] := by
  cases a with
  | receive =>
      unfold act at h
      dsimp only at h
      split at h
      · obtain ⟨r, -, hr⟩ := Option.map_eq_some_iff.mp h
        cases hr
        exact .inl rfl
      · cases h
  | emit _ | count | report | record | dropSenders | finish | abort =>
      cases t <;> grind [act, ComplianceBus.emit, BusStep.event?]

theorem accepted_sublist_of_exec (h : exec (Pool.step (act deps)) start schedule = some p) :
    p.shared.accepted.Sublist (schedule.filterMap fun e => e.2.event?) := by
  have hstart : start.shared.accepted.Sublist
      (([] : List (ℕ × BusStep)).filterMap fun e => e.2.event?) := .slnil
  refine exec_history
    (I := fun as q => q.shared.accepted.Sublist (as.filterMap fun e => e.2.event?))
    ?_ schedule hstart h
  intro as q e r hq hstep
  obtain ⟨bus, t, hact, rfl⟩ := Pool.step_eq_some.mp hstep
  rw [List.filterMap_append]
  obtain hsame | ⟨event, hevent, haccepted⟩ := accepted_of_act hact
  · show bus.accepted.Sublist _
    rw [hsame]
    exact hq.trans (List.sublist_append_left _ _)
  · show bus.accepted.Sublist _
    have hlast : [e].filterMap (fun e => e.2.event?) = [event] := List.filterMap_cons_some hevent
    rw [haccepted, hlast]
    exact hq.append (.refl [event])

/-- In every interleaving of the handlers and the worker, each call of `emit` had its event
accepted, refused or failed. The accepted events are those that the worker has logged, the
one in its hands, those lost in an abort and those in the channel, in this order. No call
failed while the worker runs, the channel holds no more than its capacity, and with no call
between its `try_send` and its increment the counter has counted the refused calls. -/
theorem events_accounted (h : exec (Pool.step (act deps)) start schedule = some p) :
    (schedule.countP fun e => e.2.isEmit) =
        p.shared.accepted.length + p.shared.refused + p.shared.failed ∧
      (∃ handled lost,
        p.shared.accepted = handled ++ p.shared.worker.held ++ lost ++ p.shared.channel.queue ∧
        p.shared.records = handled.map (AuditEvent.line deps) ∧
        (lost ≠ [] → p.shared.worker = .aborted)) ∧
      (p.shared.worker.Runs → p.shared.failed = 0) ∧
      p.shared.channel.queue.length ≤ complianceCapacity ∧
      ((∀ j, (p.task j).uncounted = 0) →
        p.shared.getDropCount = p.shared.refused % 2 ^ 64) := by
  have haccounted := accounted_of_exec h
  obtain ⟨handled, lost, hcarries, hrecords, hlost⟩ := haccounted.recorded
  refine ⟨haccounted.calls_eq, ⟨handled, lost, hcarries.order, hrecords, hlost⟩,
    haccounted.failed, p.shared.channel.bounded, fun hrest => ?_⟩
  obtain ⟨n, htally, hcount⟩ := haccounted.counter
  rw [htally.eq_zero hrest, add_zero] at hcount
  have hmod : p.shared.droppedEvents ≡ p.shared.refused [MOD 2 ^ 64] :=
    Int.natCast_modEq_iff.mp (by exact_mod_cast hcount)
  rw [getDropCount, ← hmod, Nat.mod_eq_of_lt haccounted.word]

/-- An event of a request that was let through. -/
def allowedEvent : AuditEvent := .new 1700000000000 "acme" "10.0.0.1" "a@b.cc" .allowed

def refusedEvent : AuditEvent :=
  .new 1700000000001 "acme" "10.0.0.1" "HMAC auth failed" .blockedByAuth

/-- `serde_json` on texts without a character that is escaped. -/
def plainJson (event : AuditEvent) : Except String String :=
  .ok ("\x7b\"timestamp\":" ++ toString event.timestamp.toNat ++
    ",\"tenant_id\":\"" ++ event.tenantId ++ "\",\"end_user_id\":\"" ++ event.endUserId ++
    "\",\"raw_payload\":\"" ++ event.rawPayload ++
    "\",\"action_taken\":\"" ++ event.actionTaken ++ "\"\x7d")

def plainBus : BusDeps := ⟨piiPatterns asciiClasses, plainJson⟩

/-- One event is logged, and the next one is lost when the worker is aborted; a third call
finds the channel closed. -/
def abortedRun : List (ℕ × BusStep) :=
  [(0, .emit allowedEvent), (1, .emit refusedEvent), (0, .receive), (0, .record), (0, .abort),
    (1, .emit refusedEvent), (1, .report)]

theorem events_accounted_abort : ∃ p : BusPool, 3 = p.shared.accepted.length + p.shared.refused +
      p.shared.failed ∧
    p.shared.accepted = [allowedEvent, refusedEvent] ∧
    p.shared.records = [allowedEvent.line plainBus] ∧ p.shared.failed = 1 :=
  ⟨_, (events_accounted (rfl : exec (Pool.step (act plainBus)) start abortedRun = some _)).1,
    rfl, rfl, rfl⟩

end Runs

/-! ### Shutting down -/

/-- The step is no new call of `emit`, and a call that is under way keeps its sender. -/
structure Quiet (p : BusPool) (e : ℕ × BusStep) : Prop where
  noCall : e.2.isEmit = false
  rest : e.2 = .dropSenders → ∀ j, (p.task j).AtRest

section Shutdown

variable {deps : BusDeps} {calls : ℕ} {p q : BusPool} {bus : ComplianceBus} {a : BusStep}

theorem Accounted.records_of_terminated (h : Accounted deps calls p)
    (hworker : p.shared.worker = .terminated) :
    p.shared.records = p.shared.accepted.map (AuditEvent.line deps) := by
  obtain ⟨handled, lost, hcarries, hrecords, hlost⟩ := h.recorded
  have hclosed : p.shared.channel.receiver = false := by
    rw [Bool.eq_false_iff, Ne, h.receiver, hworker]
    exact id
  have hqueue := p.shared.channel.drained hclosed
  have hnone : lost = [] := by
    by_contra hne
    have haborted := hlost hne
    rw [hworker] at haborted
    cases haborted
  have horder := hcarries.order
  rw [hqueue, hnone, hworker, List.append_nil, List.append_nil] at horder
  have hheld : handled ++ BusWorker.terminated.held = handled := List.append_nil handled
  rw [hrecords, horder, hheld]

theorem reach_work (hact : act deps 0 p.shared (p.task 0) a = some (bus, p.task 0))
    (hquiet : Quiet p (0, a)) : Reach (Pool.step (act deps)) Quiet p ⟨bus, p.task⟩ := by
  refine .tail .refl hquiet (Pool.step_eq_some.mpr ⟨_, _, hact, ?_⟩)
  rw [Function.update_eq_self]

theorem reach_terminated (n : ℕ) (p : BusPool) (hworker : p.shared.worker = .receiving)
    (hsenders : p.shared.senders = false) (hn : p.shared.channel.queue.length = n) :
    ∃ q, Reach (Pool.step (act deps)) Quiet p q ∧ q.shared.worker = .terminated ∧
      q.shared.accepted = p.shared.accepted := by
  induction n generalizing p with
  | zero =>
      have hqueue := List.eq_nil_of_length_eq_zero hn
      have hfinish : act deps 0 p.shared (p.task 0) .finish = some
          ({ p.shared with
            channel := p.shared.channel.dropReceiver
            worker := .terminated }, p.task 0) := by
        simp [act, hworker, hsenders, hqueue]
      exact ⟨_, reach_work hfinish ⟨rfl, nofun⟩, rfl, rfl⟩
  | succ n ih =>
      obtain ⟨⟨event, channel⟩, hrecv⟩ : ∃ r, p.shared.channel.recv = some r := by
        rw [← Option.isSome_iff_exists, Option.isSome_iff_ne_none, Ne, Channel.recv_eq_none_iff]
        intro hqueue
        rw [hqueue] at hn
        cases hn
      have hreceive : act deps 0 p.shared (p.task 0) .receive = some
          ({ p.shared with channel := channel, worker := .processing event }, p.task 0) := by
        simp [act, hworker, hrecv]
      have hfirst := reach_work hreceive ⟨rfl, nofun⟩
      let r : BusPool :=
        ⟨{ p.shared with channel := channel, worker := .processing event }, p.task⟩
      let r' : BusPool :=
        ⟨{ r.shared with worker := .receiving, log := r.shared.log ++ [event.line deps] }, r.task⟩
      have hrecord : act deps 0 r.shared (r.task 0) .record = some (r'.shared, r.task 0) := rfl
      have hsecond : Reach (Pool.step (act deps)) Quiet r r' := reach_work hrecord ⟨rfl, nofun⟩
      have hlength : channel.queue.length = n := by
        rw [(Channel.queue_of_recv hrecv).1, List.length_cons] at hn
        omega
      obtain ⟨q, hreach, hterminated, haccepted⟩ := ih r' rfl hsenders hlength
      exact ⟨q, (hfirst.trans hsecond).trans hreach, hterminated, haccepted⟩

/-- As long as the worker runs, it can be brought to its end: the senders are dropped, and
the channel is emptied. -/
theorem exists_terminated (p : BusPool) (hruns : p.shared.worker.Runs)
    (hrest : ∀ j, (p.task j).AtRest) :
    ∃ q, Reach (Pool.step (act deps)) Quiet p q ∧ q.shared.worker = .terminated ∧
      q.shared.accepted = p.shared.accepted := by
  let r : BusPool := ⟨{ p.shared with senders := false }, p.task⟩
  have hdrop : act deps 0 p.shared (p.task 0) .dropSenders = some (r.shared, p.task 0) := rfl
  have hfirst : Reach (Pool.step (act deps)) Quiet p r :=
    reach_work hdrop ⟨rfl, fun _ => hrest⟩
  cases hworker : p.shared.worker with
  | receiving =>
      obtain ⟨q, hreach, hq⟩ := reach_terminated _ r hworker rfl rfl
      exact ⟨q, hfirst.trans hreach, hq⟩
  | processing event =>
      let r' : BusPool :=
        ⟨{ r.shared with worker := .receiving, log := r.shared.log ++ [event.line deps] }, r.task⟩
      have hrecord : act deps 0 r.shared (r.task 0) .record = some (r'.shared, r.task 0) := by
        simp [act, r, r', hworker]
      have hsecond : Reach (Pool.step (act deps)) Quiet r r' := reach_work hrecord ⟨rfl, nofun⟩
      obtain ⟨q, hreach, hq⟩ := reach_terminated _ r' rfl rfl rfl
      exact ⟨q, (hfirst.trans hsecond).trans hreach, hq⟩
  | terminated =>
      rw [hworker] at hruns
      exact hruns.elim
  | aborted =>
      rw [hworker] at hruns
      exact hruns.elim

/-- In every run whose worker has terminated, it has logged every event that was accepted, in
the order of acceptance; and when no call is under way, a worker that runs can be brought to
its end without a new one. -/
theorem shutdown_logs_all {schedule : List (ℕ × BusStep)}
    (h : exec (Pool.step (act deps)) start schedule = some p) :
    (p.shared.worker = .terminated →
        p.shared.records = p.shared.accepted.map (AuditEvent.line deps)) ∧
      (p.shared.worker.Runs → (∀ j, (p.task j).AtRest) →
        ∃ q, Reach (Pool.step (act deps)) Quiet p q ∧
        q.shared.worker = .terminated ∧
        q.shared.records = p.shared.accepted.map (AuditEvent.line deps)) := by
  have haccounted := accounted_of_exec h
  refine ⟨haccounted.records_of_terminated, fun hruns hrest => ?_⟩
  obtain ⟨q, hreach, hterminated, haccepted⟩ := exists_terminated p hruns hrest
  have hq : Accounted deps (schedule.countP fun e => e.2.isEmit) q := by
    refine hreach.invariant haccounted ?_
    intro r e r' hr hquiet hstep
    have hnext := hr.step hstep
    rwa [hquiet.noCall, if_neg Bool.false_ne_true, Nat.add_zero] at hnext
  refine ⟨q, hreach, hterminated, ?_⟩
  rw [hq.records_of_terminated hterminated, haccepted]

/-- Two calls, and the end of the worker. -/
def terminatedRun : List (ℕ × BusStep) :=
  [(0, .emit allowedEvent), (0, .receive), (1, .emit refusedEvent), (0, .dropSenders),
    (0, .record), (0, .receive), (0, .record), (0, .finish)]

theorem shutdown_logs_all_two_calls : ∃ p : BusPool, p.shared.worker = .terminated ∧
    p.shared.records = [allowedEvent, refusedEvent].map (AuditEvent.line plainBus) :=
  ⟨_, rfl, (shutdown_logs_all
    (rfl : exec (Pool.step (act plainBus)) start terminatedRun = some _)).1 rfl⟩

end Shutdown

end ComplianceBus

end SereinGateway.Worker
