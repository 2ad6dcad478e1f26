import Mathlib
import SereinGateway.Lib.Transition

/-!
`background_writer`: the thread that writes the flight log.

The thread collects records in a batch. It waits for a record for at most the
flush timeout, then takes what is in the channel without waiting until the batch
is full, and hands the batch to `insert_batch` when it is full after the wait, when
the wait times out, and before it returns. Some of these places clear the batch and
the others return.

What the calls of `recv_timeout` and `try_recv` return is the input of a run, and
so is what the database answers. A batch is lost as a whole if the database
refuses the transaction, and a record if it refuses that.
-/

namespace SereinGateway.CacheStorage

open SereinGateway.Lib

structure FlightRecorderRecord where
  timestamp : String
  eventType : String
  nodeName : String
  requestId : String
  payloadSummary : String
  rawPrompt : Option String
  rawResponse : Option String
  errorMessage : Option String
  durationMs : Option ℤ
  tokenCount : Option ℤ
  metadata : String
  deriving DecidableEq, Inhabited

inductive FlightRecorderCommand where
  | recordEvent (record : FlightRecorderRecord)
  | shutdown
  deriving DecidableEq

def FlightRecorderCommand.record? : FlightRecorderCommand → Option FlightRecorderRecord
  | recordEvent record => some record
  | shutdown => none

def batchSize : ℕ := 64

/-! ### The database -/

/-- How the calls of one `insert_batch` fare. -/
structure InsertOutcome where
  begins : Bool
  prepares : Bool
  /-- By the position of the record in the batch. -/
  executes : ℕ → Bool
  commits : Bool

/-- All calls succeed. -/
def InsertOutcome.healthy : InsertOutcome := ⟨true, true, fun _ => true, true⟩

structure Connection where
  /-- The table `flight_records`. -/
  rows : List FlightRecorderRecord
  /-- The batches that `insert_batch` was called with. -/
  handed : List (List FlightRecorderCommand)

/-- The records of a batch that the statement is executed for with success. -/
def inserted (outcome : InsertOutcome) (batch : List FlightRecorderCommand) :
    List FlightRecorderRecord :=
  (batch.zipIdx.filter fun command => outcome.executes command.2).filterMap (·.1.record?)

def insertBatch (outcome : InsertOutcome) (conn : Connection) (batch : List FlightRecorderCommand) :
    Connection :=
  let conn := { conn with handed := conn.handed ++ [batch] }
  if batch.isEmpty then conn
  else if !outcome.begins then conn
  else if !outcome.prepares then conn
  else if outcome.commits then { conn with rows := conn.rows ++ inserted outcome batch }
  else conn

/-! ### The thread -/

/-- What a call of `recv_timeout` or `try_recv` returns. -/
inductive ChannelEvent where
  | ok (command : FlightRecorderCommand)
  | timeout
  | empty
  | disconnected
  deriving DecidableEq

/-- What the thread sees in one step. -/
structure Turn where
  event : ChannelEvent
  database : InsertOutcome

/-- Where the thread is in its loop. -/
inductive WriterPc where
  /-- In `rx.recv_timeout(…)`. -/
  | receiving
  /-- In `rx.try_recv()`. -/
  | polling
  | returned
  deriving DecidableEq

structure Writer where
  pc : WriterPc
  batch : List FlightRecorderCommand
  conn : Connection

namespace Writer

def start : Writer := ⟨.receiving, [], ⟨[], []⟩⟩

/-- `while batch.len() < BATCH_SIZE` -/
def poll (w : Writer) : Writer :=
  { w with pc := if w.batch.length < batchSize then .polling else .receiving }

/-- `insert_batch(&mut conn, &batch)` -/
def insert (w : Writer) (outcome : InsertOutcome) : Writer :=
  { w with conn := insertBatch outcome w.conn w.batch }

/-- `if !batch.is_empty() { insert_batch(&mut conn, &batch); batch.clear(); }` -/
def flush (w : Writer) (outcome : InsertOutcome) : Writer :=
  if w.batch.isEmpty then w else { w.insert outcome with batch := [] }

/-- One call of `recv_timeout` or `try_recv`, and what is done before the next. -/
def step (w : Writer) (turn : Turn) : Option Writer :=
  match w.pc, turn.event with
  | .receiving, .ok .shutdown => some { w.flush turn.database with pc := .returned }
  | .receiving, .ok command =>
      let w := { w with batch := w.batch ++ [command] }
      some (if batchSize ≤ w.batch.length then (w.flush turn.database).poll else w.poll)
  | .receiving, .timeout => some (w.flush turn.database).poll
  | .receiving, .disconnected =>
      some { (if w.batch.isEmpty then w else w.insert turn.database) with pc := .returned }
  | .polling, .ok .shutdown => some { w.insert turn.database with pc := .returned }
  | .polling, .ok command => some { w with batch := w.batch ++ [command] }.poll
  | .polling, .empty => some { w with pc := .receiving }
  | .polling, .disconnected => some { w.insert turn.database with pc := .returned }
  | _, _ => none

/-- The records that the channel gives up to a shutdown or a disconnection. -/
def received : List ChannelEvent → List FlightRecorderCommand
  | [] => []
  | .ok .shutdown :: _ | .disconnected :: _ => []
  | .ok command :: events => command :: received events
  | _ :: events => received events

@[simp] theorem received_record (record : FlightRecorderRecord) (events : List ChannelEvent) :
    received (.ok (.recordEvent record) :: events) = .recordEvent record :: received events := by
  rw [received]
  exact FlightRecorderCommand.noConfusion

theorem received_end {event : ChannelEvent} (h : event = .ok .shutdown ∨ event = .disconnected)
    (events : List ChannelEvent) : received (event :: events) = [] := by
  rcases h with rfl | rfl <;> rfl

@[simp] theorem received_timeout (events : List ChannelEvent) :
    received (.timeout :: events) = received events := rfl

@[simp] theorem received_empty (events : List ChannelEvent) :
    received (.empty :: events) = received events := rfl

/-- The commands handed to `insert_batch`, in order. -/
def written (w : Writer) : List FlightRecorderCommand := w.conn.handed.flatten

/-- The commands that the thread has received and not dropped. -/
def content (w : Writer) : List FlightRecorderCommand := w.written ++ w.batch

variable {w w' : Writer} {outcome : InsertOutcome} {turn : Turn}

@[simp] theorem written_insert : (w.insert outcome).written = w.content := by
  have hhanded : (w.insert outcome).conn.handed = w.conn.handed ++ [w.batch] := by
    simp only [insert, insertBatch]
    split_ifs <;> rfl
  rw [written, hhanded, List.flatten_append, List.flatten_singleton]
  rfl

@[simp] theorem content_poll : w.poll.content = w.content := rfl

@[simp] theorem batch_poll : w.poll.batch = w.batch := rfl

theorem poll_pc_ne : w.poll.pc ≠ .returned := by
  rw [poll]
  split <;> exact WriterPc.noConfusion

@[simp] theorem batch_flush : (w.flush outcome).batch = [] := by
  rw [flush]
  split
  · rename_i hempty
    exact List.isEmpty_iff.mp hempty
  · rfl

@[simp] theorem written_flush : (w.flush outcome).written = w.content := by
  rw [flush]
  split
  · rename_i hempty
    rw [content, List.isEmpty_iff.mp hempty, List.append_nil]
  · exact written_insert

@[simp] theorem content_flush : (w.flush outcome).content = w.content := by
  rw [content, batch_flush, written_flush, List.append_nil]

theorem step_cases (h : w.step turn = some w') :
    (∃ record, turn.event = .ok (.recordEvent record) ∧ w'.pc ≠ .returned ∧
      w'.content = w.content ++ [.recordEvent record]) ∨
    ((turn.event = .ok .shutdown ∨ turn.event = .disconnected) ∧ w'.pc = .returned ∧
      w'.written = w.content) ∨
    (turn.event = .timeout ∧ w'.pc ≠ .returned ∧ w'.content = w.content ∧ w'.batch = []) ∨
    (turn.event = .empty ∧ w'.pc ≠ .returned ∧ w'.content = w.content) := by
  obtain ⟨event, database⟩ := turn
  obtain ⟨pc, batch, conn⟩ := w
  cases pc with
  | receiving =>
      cases event with
      | ok command =>
          cases command with
          | recordEvent record =>
              left
              refine ⟨record, rfl, ?_⟩
              cases h
              split
              · exact ⟨poll_pc_ne, by rw [content_poll, content_flush, content, content,
                ← List.append_assoc]; rfl⟩
              · exact ⟨poll_pc_ne, by rw [content_poll, content, content, ← List.append_assoc]; rfl⟩
          | shutdown =>
              right; left
              cases h
              exact ⟨.inl rfl, rfl, written_flush⟩
      | timeout =>
          right; right; left
          cases h
          exact ⟨rfl, poll_pc_ne, content_flush, batch_flush⟩
      | empty => cases h
      | disconnected =>
          right; left
          cases h
          refine ⟨.inr rfl, rfl, ?_⟩
          show (if batch.isEmpty then _ else _ : Writer).written = _
          split
          · rename_i hempty
            rw [content, List.isEmpty_iff.mp hempty, List.append_nil]
          · exact written_insert
  | polling =>
      cases event with
      | ok command =>
          cases command with
          | recordEvent record =>
              left
              cases h
              exact ⟨record, rfl, poll_pc_ne,
                by rw [content_poll, content, content, ← List.append_assoc]; rfl⟩
          | shutdown =>
              right; left
              cases h
              exact ⟨.inl rfl, rfl, written_insert⟩
      | timeout => cases h
      | empty =>
          right; right; right
          cases h
          exact ⟨rfl, WriterPc.noConfusion, rfl⟩
      | disconnected =>
          right; left
          cases h
          exact ⟨.inr rfl, rfl, written_insert⟩
  | returned => cases event <;> cases h

theorem step_returned (h : w.pc = .returned) (turn : Turn) : w.step turn = none := by
  rw [step, h]

theorem content_run {turns : List Turn} (h : exec step w turns = some w') :
    (w'.pc = .returned → w.pc ≠ .returned →
      w'.written = w.content ++ received (turns.map (·.event))) ∧
    (w'.pc ≠ .returned → w'.content = w.content ++ received (turns.map (·.event))) := by
  induction turns generalizing w with
  | nil =>
      cases h
      exact ⟨fun hret hnot => absurd hret hnot, fun _ => (List.append_nil _).symm⟩
  | cons turn turns ih =>
      obtain ⟨u, hu, hrest⟩ := Option.bind_eq_some_iff.mp h
      obtain ⟨hreturned, hrunning⟩ := ih hrest
      rcases step_cases hu with ⟨record, hevent, hpc, hcontent⟩ | ⟨hevent, hpc, hwritten⟩ |
        ⟨hevent, hpc, hcontent, -⟩ | ⟨hevent, hpc, hcontent⟩
      · rw [List.map_cons, hevent, received_record, List.append_cons, ← hcontent]
        exact ⟨fun hret _ => hreturned hret hpc, hrunning⟩
      · -- The thread has returned, so nothing follows.
        obtain rfl : turns = [] := by
          cases turns with
          | nil => rfl
          | cons turn' turns =>
              obtain ⟨v, hv, -⟩ := Option.bind_eq_some_iff.mp hrest
              rw [step_returned hpc] at hv
              cases hv
        cases hrest
        rw [List.map_cons, received_end hevent, List.append_nil]
        exact ⟨fun _ _ => hwritten, fun hnot => absurd hpc hnot⟩
      · rw [List.map_cons, hevent, received_timeout, ← hcontent]
        exact ⟨fun hret _ => hreturned hret hpc, hrunning⟩
      · rw [List.map_cons, hevent, received_empty, ← hcontent]
        exact ⟨fun hret _ => hreturned hret hpc, hrunning⟩

/-- Each record is handed to `insert_batch` once and in order, none is left when the
thread returns, and none is pending after a timeout. -/
theorem records_written_once {turns : List Turn} {w : Writer}
    (h : exec step start turns = some w) :
    (w.pc = .returned → w.conn.handed.flatten = received (turns.map (·.event))) ∧
      (w.pc ≠ .returned →
        w.conn.handed.flatten ++ w.batch = received (turns.map (·.event))) ∧
      ∀ turns' turn, turns = turns' ++ [turn] → turn.event = .timeout → w.batch = [] := by
  obtain ⟨hreturned, hrunning⟩ := content_run h
  refine ⟨fun hret => hreturned hret WriterPc.noConfusion, hrunning, ?_⟩
  rintro turns' turn rfl htimeout
  obtain ⟨u, -, hstep⟩ := exec_concat h
  rcases step_cases hstep with ⟨record, hevent, -⟩ | ⟨hevent | hevent, -⟩ | ⟨-, -, -, hbatch⟩ |
    ⟨hevent, -⟩
  · cases hevent.symm.trans htimeout
  · cases hevent.symm.trans htimeout
  · cases hevent.symm.trans htimeout
  · exact hbatch
  · cases hevent.symm.trans htimeout

/-- A batch that is written after a timeout, and one at the shutdown. -/
theorem records_written_once_two : ∃ w,
    exec step start [⟨.ok (.recordEvent default), .healthy⟩, ⟨.empty, .healthy⟩,
      ⟨.timeout, .healthy⟩, ⟨.ok (.recordEvent default), .healthy⟩, ⟨.ok .shutdown, .healthy⟩] =
        some w ∧
      w.conn.handed.flatten = [.recordEvent default, .recordEvent default] :=
  have hrun : ∃ w, exec step start [⟨.ok (.recordEvent default), .healthy⟩, ⟨.empty, .healthy⟩,
      ⟨.timeout, .healthy⟩, ⟨.ok (.recordEvent default), .healthy⟩, ⟨.ok .shutdown, .healthy⟩] =
        some w ∧ w.pc = .returned := ⟨_, rfl, rfl⟩
  let ⟨w, hw, hreturned⟩ := hrun
  ⟨w, hw, (records_written_once hw).1 hreturned⟩

/-! ### The table -/

def handedRecords (conn : Connection) : List FlightRecorderRecord :=
  conn.handed.flatten.filterMap (·.record?)

theorem filterMap_zipIdx (batch : List FlightRecorderCommand) :
    batch.zipIdx.filterMap (·.1.record?) = batch.filterMap (·.record?) := by
  conv_rhs => rw [← List.zipIdx_map_fst 0 batch, List.filterMap_map]
  rfl

theorem inserted_sublist (outcome : InsertOutcome) (batch : List FlightRecorderCommand) :
    (inserted outcome batch).Sublist (batch.filterMap (·.record?)) := by
  rw [← filterMap_zipIdx]
  exact List.filter_sublist.filterMap _

theorem inserted_healthy (batch : List FlightRecorderCommand) :
    inserted .healthy batch = batch.filterMap (·.record?) := by
  have hkeep : batch.zipIdx.filter (fun command => InsertOutcome.healthy.executes command.2) =
      batch.zipIdx := List.filter_eq_self.mpr fun _ _ => rfl
  rw [inserted, hkeep, filterMap_zipIdx]

theorem insertBatch_cases (outcome : InsertOutcome) (conn : Connection)
    (batch : List FlightRecorderCommand) :
    handedRecords (insertBatch outcome conn batch) =
        handedRecords conn ++ batch.filterMap (·.record?) ∧
      ((insertBatch outcome conn batch).rows = conn.rows ∨
        (insertBatch outcome conn batch).rows = conn.rows ++ inserted outcome batch) := by
  have hhanded : (insertBatch outcome conn batch).handed = conn.handed ++ [batch] := by
    simp only [insertBatch]
    split_ifs <;> rfl
  refine ⟨by simp [handedRecords, hhanded], ?_⟩
  simp only [insertBatch]
  split_ifs
  all_goals first | exact .inl rfl | exact .inr rfl

theorem rows_insertBatch_healthy (conn : Connection) (batch : List FlightRecorderCommand) :
    (insertBatch .healthy conn batch).rows = conn.rows ++ batch.filterMap (·.record?) := by
  rw [insertBatch, ← inserted_healthy]
  cases batch <;> simp [InsertOutcome.healthy, inserted]

theorem conn_step (h : w.step turn = some w') :
    w'.conn = w.conn ∨ ∃ batch, w'.conn = insertBatch turn.database w.conn batch := by
  have hflush : ∀ w : Writer, (w.flush turn.database).conn = w.conn ∨
      ∃ batch, (w.flush turn.database).conn = insertBatch turn.database w.conn batch := by
    intro w
    rw [flush]
    split
    · exact .inl rfl
    · exact .inr ⟨w.batch, rfl⟩
  simp only [step] at h
  split at h
  · cases h
    exact hflush w
  · cases h
    split
    · exact hflush { w with batch := w.batch ++ [_] }
    · exact .inl rfl
  · cases h
    exact hflush w
  · cases h
    dsimp only
    split
    · exact .inl rfl
    · exact .inr ⟨w.batch, rfl⟩
  · cases h
    exact .inr ⟨w.batch, rfl⟩
  · cases h
    exact .inl rfl
  · cases h
    exact .inl rfl
  · cases h
    exact .inr ⟨w.batch, rfl⟩
  · cases h

theorem handed_beginning {turns : List Turn} (h : exec step start turns = some w) :
    w.conn.handed.flatten <+: received (turns.map (·.event)) := by
  obtain ⟨hreturned, hrunning⟩ := content_run h
  by_cases hpc : w.pc = .returned
  · rw [← written, hreturned hpc WriterPc.noConfusion]
    exact List.prefix_rfl
  · have hcontent := hrunning hpc
    exact ⟨w.batch, hcontent⟩

/-- The table has the records that were received, in order and without the ones that
the database refused. -/
theorem rows_sublist {turns : List Turn} (h : exec step start turns = some w) :
    w.conn.rows.Sublist ((received (turns.map (·.event))).filterMap (·.record?)) := by
  have hrows : w.conn.rows.Sublist (handedRecords w.conn) := by
    refine (Reach.of_exec turns h).invariant
      (I := fun w => w.conn.rows.Sublist (handedRecords w.conn))
      (List.Sublist.refl _) fun w turn w' hw _ hstep => ?_
    rcases conn_step hstep with heq | ⟨batch, heq⟩
    · rwa [heq]
    · obtain ⟨hhanded, hrows | hrows⟩ := insertBatch_cases turn.database w.conn batch
      · rw [heq, hhanded, hrows]
        exact hw.trans (List.sublist_append_left _ _)
      · rw [heq, hhanded, hrows]
        exact hw.append (inserted_sublist turn.database batch)
  exact hrows.trans ((handed_beginning h).sublist.filterMap _)

/-- With a database that never fails, the table has what was received when the thread
returns. -/
theorem rows_eq_of_healthy {turns : List Turn} (h : exec step start turns = some w)
    (hdatabase : ∀ turn ∈ turns, turn.database = .healthy) (hpc : w.pc = .returned) :
    w.conn.rows = (received (turns.map (·.event))).filterMap (·.record?) := by
  have hreach : Reach step (fun _ turn => turn.database = .healthy) start w :=
    Reach.of_exec_forall turns h fun turn hturn _ => hdatabase turn hturn
  have hrows : w.conn.rows = handedRecords w.conn := by
    refine hreach.invariant (I := fun w => w.conn.rows = handedRecords w.conn) rfl
      fun w turn w' hw hok hstep => ?_
    rcases conn_step hstep with heq | ⟨batch, heq⟩
    · rwa [heq]
    · rw [heq, (insertBatch_cases turn.database w.conn batch).1, hok, rows_insertBatch_healthy, hw]
  rw [hrows, handedRecords, ← written, (content_run h).1 hpc WriterPc.noConfusion]
  rfl

end Writer

end SereinGateway.CacheStorage
