import Mathlib
import SereinGateway.Lib.Lines
import SereinGateway.Lib.Text
import SereinGateway.Lib.Transition

/-!
The sidecar that posts the telemetry corpus to the server and remembers in a
cursor file how far it has come.

The corpus file is the sequence of its bytes. The recorder flushes whenever it
likes, also in the middle of a line and while a cycle is running. A step of a
cycle is its beginning, one turn of the loop (with the answer that the server
would give), or an input or output operation that fails, which ends the cycle.
A `read_line` that finds the end of the file without a newline returns what is
there. The turn that finds nothing left writes the cursor.

`serde_json::from_str` is a parameter. What was posted, from which part of the
file and with which answer, is recorded beside the two files and is not in the
program.
-/

namespace SereinGateway.Gateway

open Lib

/-- What `send` returns; a status is shown with its reason. -/
inductive Answer where
  | response (status : ℕ) (display : String)
  | networkError (error : String)
  deriving DecidableEq, Repr

namespace Answer

def isSuccess : Answer → Bool
  | .response status _ => 200 ≤ status && status < 300
  | .networkError _ => false

def isBadRequest : Answer → Bool
  | .response status _ => status == 400
  | .networkError _ => false

def failure : Answer → String
  | .response _ display => "Systemic sync failure - HTTP " ++ display
  | .networkError error => "Systemic sync failure - network error: " ++ error

/-- The cursor moves on. -/
def Settles (a : Answer) : Prop := a.isSuccess = true ∨ a.isBadRequest = true
  deriving Decidable

end Answer

/-- The text of a request, as the bytes of the corpus from which it comes. -/
structure Post (ν : Type) where
  start : ℕ
  stop : ℕ
  payload : ν
  answer : Answer
  deriving DecidableEq

/-- The local variables of `sync_cycle`, and where its reader stands. -/
structure Cycle where
  cursor : ℕ
  position : ℕ
  synced : ℕ
  advancedBytes : ℕ
  deriving DecidableEq, Repr

structure Sidecar (ν : Type) where
  corpus : Option (List UInt8)
  cursorFile : Option String
  cycle : Option Cycle
  returned : Option (Except String Unit)
  posts : List (Post ν)

inductive SyncAction where
  | append (bytes : List UInt8)
  | begin
  | turn (answer : Answer)
  | fail (error : String)
  deriving DecidableEq

def newline : UInt8 := 10

def persistedCursor : Option String → ℕ
  | none => 0
  | some text => (parseU64 (trim text)).getD 0

/-- The beginning of `sync_cycle`. -/
def openCycle (corpus : List UInt8) (cursorFile : Option String) : Cycle :=
  let cursor := persistedCursor cursorFile
  let cursor := if corpus.length < cursor then 0 else cursor
  ⟨cursor, cursor, 0, 0⟩

/-- A reader and its counters after a line. -/
def Cycle.advance (lineLen : ℕ) (c : Cycle) : Cycle :=
  { c with position := c.position + lineLen, advancedBytes := c.advancedBytes + lineLen }

section Machine

variable {ν : Type} (fromStr : String → Option ν)

/-- The bytes of a line as a text, and the text as JSON. -/
def decodeLine (line : List UInt8) : Option String := String.fromUTF8? ⟨line.toArray⟩

def parseLine (line : List UInt8) : Option ν := (decodeLine line).bind fromStr

/-- The body of the loop, and what it has posted. -/
def syncLine (c : Cycle) (line : List UInt8) (answer : Answer) :
    Except String Cycle × Option (Post ν) :=
  match decodeLine line with
  | none => (.error "stream did not contain valid UTF-8", none)
  | some text =>
      match fromStr text with
      | none => (.ok (c.advance line.length), none)
      | some payload =>
          let post := ⟨c.position, c.position + line.length, payload, answer⟩
          if answer.isSuccess then
            (.ok { c.advance line.length with synced := c.synced + 1 }, some post)
          else if answer.isBadRequest then (.ok (c.advance line.length), some post)
          else (.error answer.failure, some post)

/-- The end of `sync_cycle`. -/
def Sidecar.finish (s : Sidecar ν) (c : Cycle) : Sidecar ν :=
  { s with
    cycle := none
    returned := some (.ok ())
    cursorFile :=
      if 0 < c.advancedBytes then some (toString (c.cursor + c.advancedBytes)) else s.cursorFile }

/-- A file has fewer than `2 ^ 64` bytes. -/
def syncStep (s : Sidecar ν) : SyncAction → Option (Sidecar ν)
  | .append bytes =>
      if (s.corpus.getD []).length + bytes.length < 2 ^ 64 then
        some { s with corpus := some (s.corpus.getD [] ++ bytes) }
      else none
  | .begin =>
      match s.cycle, s.corpus with
      | some _, _ => none
      | none, none => some { s with returned := some (.ok ()) }
      | none, some corpus => some { s with cycle := some (openCycle corpus s.cursorFile) }
  | .turn answer =>
      match s.cycle, s.corpus with
      | some c, some corpus =>
          let line := nextLine newline (corpus.drop c.position)
          if line = [] then some (s.finish c)
          else
            match syncLine fromStr c line answer with
            | (.ok c, post) => some { s with cycle := some c, posts := post.toList ++ s.posts }
            | (.error e, post) =>
                some { s with
                  cycle := none
                  returned := some (.error e)
                  posts := post.toList ++ s.posts }
      | _, _ => none
  | .fail error =>
      s.cycle.map fun _ => { s with cycle := none, returned := some (.error error) }

end Machine

/-- Neither file exists yet. -/
def Sidecar.start (ν : Type) : Sidecar ν := ⟨none, none, none, none, []⟩

/-- The corpus, empty before the recorder has created it. -/
def Sidecar.bytes {ν : Type} (s : Sidecar ν) : List UInt8 := s.corpus.getD []

section Steps

variable {ν : Type} {fromStr : String → Option ν} {s t : Sidecar ν} {a : SyncAction}

inductive Moves (fromStr : String → Option ν) (s : Sidecar ν) : SyncAction → Sidecar ν → Prop
  | appended {bytes : List UInt8} : s.bytes.length + bytes.length < 2 ^ 64 →
      Moves fromStr s (.append bytes) { s with corpus := some (s.bytes ++ bytes) }
  | absent : s.corpus = none → s.cycle = none →
      Moves fromStr s .begin { s with returned := some (.ok ()) }
  | opened : s.cycle = none →
      Moves fromStr s .begin { s with cycle := some (openCycle s.bytes s.cursorFile) }
  | finished {c : Cycle} {answer : Answer} : s.cycle = some c →
      s.bytes.drop c.position = [] → Moves fromStr s (.turn answer) (s.finish c)
  | advanced {c c' : Cycle} {answer : Answer} {post : Option (Post ν)} : s.cycle = some c →
      s.bytes.drop c.position ≠ [] →
      syncLine fromStr c (nextLine newline (s.bytes.drop c.position)) answer = (.ok c', post) →
      Moves fromStr s (.turn answer)
        { s with cycle := some c', posts := post.toList ++ s.posts }
  | aborted {c : Cycle} {answer : Answer} {e : String} {post : Option (Post ν)} :
      s.cycle = some c → s.bytes.drop c.position ≠ [] →
      syncLine fromStr c (nextLine newline (s.bytes.drop c.position)) answer = (.error e, post) →
      Moves fromStr s (.turn answer)
        { s with cycle := none, returned := some (.error e), posts := post.toList ++ s.posts }
  | failed {c : Cycle} {error : String} : s.cycle = some c →
      Moves fromStr s (.fail error) { s with cycle := none, returned := some (.error error) }

theorem syncStep_moves (h : syncStep fromStr s a = some t) : Moves fromStr s a t := by
  cases a with
  | append bytes =>
      obtain ⟨hlt, rfl⟩ := Option.ite_none_right_eq_some.mp h |>.imp id Option.some.inj
      exact .appended hlt
  | begin =>
      simp only [syncStep] at h
      split at h
      · cases h
      · rename_i hcycle hcorpus
        cases h
        exact .absent hcorpus hcycle
      · rename_i corpus hcycle hcorpus
        cases h
        have hbytes : corpus = s.bytes := by rw [Sidecar.bytes, hcorpus, Option.getD_some]
        rw [hbytes]
        exact .opened hcycle
  | turn answer =>
      simp only [syncStep] at h
      split at h
      · rename_i c corpus hcycle hcorpus
        have hbytes : corpus = s.bytes := by rw [Sidecar.bytes, hcorpus, Option.getD_some]
        simp only [hbytes, nextLine_eq_nil] at h
        split at h
        · cases h
          exact .finished hcycle ‹_›
        · split at h
          · cases h
            exact .advanced hcycle ‹_› ‹_›
          · cases h
            exact .aborted hcycle ‹_› ‹_›
      · cases h
  | fail error =>
      obtain ⟨c, hcycle, rfl⟩ := Option.map_eq_some_iff.mp h
      exact .failed hcycle

/-- A line that the loop gets past: skipped, or posted with an answer that
settles it. -/
theorem syncLine_ok {c c' : Cycle} {line : List UInt8} {answer : Answer} {post : Option (Post ν)}
    (h : syncLine fromStr c line answer = (.ok c', post)) :
    c'.cursor = c.cursor ∧ c'.position = c.position + line.length ∧
      c'.advancedBytes = c.advancedBytes + line.length ∧
      ((parseLine fromStr line = none ∧ post = none ∧ c'.synced = c.synced) ∨
        ∃ v, parseLine fromStr line = some v ∧
          post = some ⟨c.position, c.position + line.length, v, answer⟩ ∧ answer.Settles ∧
          c'.synced = if answer.isSuccess then c.synced + 1 else c.synced) := by
  unfold syncLine at h
  unfold parseLine
  cases hdecode : decodeLine line with
  | none => simp [hdecode] at h
  | some text =>
      simp only [hdecode, Option.bind_some] at h ⊢
      cases hparse : fromStr text with
      | none =>
          simp only [hparse, Prod.mk.injEq, Except.ok.injEq] at h
          obtain ⟨rfl, rfl⟩ := h
          exact ⟨rfl, rfl, rfl, .inl ⟨rfl, rfl, rfl⟩⟩
      | some v =>
          simp only [hparse] at h
          by_cases hsuccess : answer.isSuccess = true
          · simp only [hsuccess, if_true, Prod.mk.injEq, Except.ok.injEq] at h
            obtain ⟨rfl, rfl⟩ := h
            exact ⟨rfl, rfl, rfl, .inr ⟨v, rfl, rfl, .inl hsuccess, by simp [hsuccess]⟩⟩
          · by_cases hbad : answer.isBadRequest = true
            · simp only [hsuccess, hbad, if_true, Bool.false_eq_true, if_false, Prod.mk.injEq,
                Except.ok.injEq] at h
              obtain ⟨rfl, rfl⟩ := h
              refine ⟨rfl, rfl, rfl, .inr ⟨v, rfl, rfl, .inr hbad, ?_⟩⟩
              simp [hsuccess, Cycle.advance]
            · simp [hsuccess, hbad] at h

/-- A line at which the cycle ends: it is no text, or it was posted with an
answer that does not settle it. -/
theorem syncLine_error {c : Cycle} {line : List UInt8} {answer : Answer}
    {post : Option (Post ν)} {e : String}
    (h : syncLine fromStr c line answer = (.error e, post)) :
    (decodeLine line = none ∧ post = none) ∨
      ∃ v, parseLine fromStr line = some v ∧ ¬answer.Settles ∧
        post = some ⟨c.position, c.position + line.length, v, answer⟩ := by
  unfold syncLine at h
  unfold parseLine
  cases hdecode : decodeLine line with
  | none =>
      simp only [hdecode, Prod.mk.injEq] at h
      exact .inl ⟨rfl, h.2.symm⟩
  | some text =>
      simp only [hdecode, Option.bind_some] at h ⊢
      cases hparse : fromStr text with
      | none => simp [hparse] at h
      | some v =>
          simp only [hparse] at h
          by_cases hsuccess : answer.isSuccess = true
          · simp [hsuccess] at h
          · by_cases hbad : answer.isBadRequest = true
            · simp [hsuccess, hbad] at h
            · simp only [hsuccess, hbad, Bool.false_eq_true, if_false, Prod.mk.injEq] at h
              exact .inr ⟨v, rfl, by simp [Answer.Settles, hsuccess, hbad], h.2.symm⟩

/-- The two files and the running cycle agree, whatever happens. -/
structure Consistent (s : Sidecar ν) : Prop where
  length_lt : s.bytes.length < 2 ^ 64
  cursor_le : persistedCursor s.cursorFile ≤ s.bytes.length
  cycle_cursor : ∀ c, s.cycle = some c → c.cursor = persistedCursor s.cursorFile
  cycle_position : ∀ c, s.cycle = some c → c.position = c.cursor + c.advancedBytes
  position_le : ∀ c, s.cycle = some c → c.position ≤ s.bytes.length

theorem consistent_start : Consistent (Sidecar.start ν) := by
  refine ⟨by simp [Sidecar.bytes, Sidecar.start], by simp [persistedCursor, Sidecar.start], ?_, ?_,
    ?_⟩ <;> simp [Sidecar.start]

theorem persistedCursor_toString {n : ℕ} (h : n < 2 ^ 64) :
    persistedCursor (some (toString n)) = n := by
  rw [persistedCursor, trim_toString, parseU64_toString h, Option.getD_some]

theorem openCycle_eq {bytes : List UInt8} {cursorFile : Option String}
    (h : persistedCursor cursorFile ≤ bytes.length) :
    openCycle bytes cursorFile =
      ⟨persistedCursor cursorFile, persistedCursor cursorFile, 0, 0⟩ := by
  rw [openCycle, if_neg (not_lt.mpr h)]

theorem Consistent.persisted_finish {c : Cycle} (h : Consistent s) (hcycle : s.cycle = some c) :
    persistedCursor (s.finish c).cursorFile = c.position := by
  have hposition := h.cycle_position c hcycle
  have hle := h.position_le c hcycle
  have hlt := h.length_lt
  by_cases hpos : 0 < c.advancedBytes
  · simp only [Sidecar.finish, if_pos hpos]
    rw [persistedCursor_toString (by omega), hposition]
  · simp only [Sidecar.finish, if_neg hpos]
    rw [← h.cycle_cursor c hcycle]
    omega

theorem Consistent.step (h : Consistent s) (hstep : syncStep fromStr s a = some t) :
    Consistent t := by
  cases syncStep_moves hstep with
  | @appended bytes hlt =>
      have hle : ∀ n, n ≤ s.bytes.length → n ≤ (s.bytes ++ bytes).length := fun n hn => by
        rw [List.length_append]
        omega
      refine ⟨?_, hle _ h.cursor_le, h.cycle_cursor, h.cycle_position,
        fun c hc => hle _ (h.position_le c hc)⟩
      simpa [Sidecar.bytes] using hlt
  | absent hcorpus hcycle => exact ⟨h.1, h.2, h.3, h.4, h.5⟩
  | opened hcycle =>
      rw [openCycle_eq h.cursor_le]
      refine ⟨h.length_lt, h.cursor_le, ?_, ?_, ?_⟩ <;> rintro c ⟨⟩
      · rfl
      · rfl
      · exact h.cursor_le
  | @finished c answer hcycle hrest =>
      refine ⟨h.length_lt, ?_, ?_, ?_, ?_⟩
      · rw [h.persisted_finish hcycle]
        exact h.position_le c hcycle
      all_goals rintro c' ⟨⟩
  | @advanced c c' answer post hcycle hrest hline =>
      obtain ⟨hcursor, hposition, hadvanced, -⟩ := syncLine_ok hline
      have hcount := length_nextLine_le newline (s.bytes.drop c.position)
      rw [List.length_drop] at hcount
      have hle := h.position_le c hcycle
      have heq := h.cycle_position c hcycle
      refine ⟨h.length_lt, h.cursor_le, ?_, ?_, ?_⟩ <;> rintro c'' ⟨⟩
      · rw [hcursor, h.cycle_cursor c hcycle]
      · omega
      · show c'.position ≤ s.bytes.length
        omega
  | aborted hcycle hrest hline =>
      refine ⟨h.length_lt, h.cursor_le, ?_, ?_, ?_⟩ <;> rintro c' ⟨⟩
  | failed hcycle =>
      refine ⟨h.length_lt, h.cursor_le, ?_, ?_, ?_⟩ <;> rintro c' ⟨⟩

/-! ### Nothing is lost -/

/-- Every JSON line that ends before `q` was posted as a whole and settled. -/
def Covered (fromStr : String → Option ν) (bytes : List UInt8) (posts : List (Post ν)) (q : ℕ) :
    Prop :=
  ∀ a b v, IsLine newline bytes a b → b ≤ q → parseLine fromStr (slice bytes a b) = some v →
    ∃ p ∈ posts, p.start = a ∧ p.payload = v ∧ p.answer.Settles

/-- What the cursor has passed was delivered. -/
def NothingLost (fromStr : String → Option ν) (s : Sidecar ν) : Prop :=
  Covered fromStr s.bytes s.posts (persistedCursor s.cursorFile)

/-- A turn that finds the beginning of a line without its end does not get
past it: there is nothing at all, or it ends inside of a character, or it
happens to be JSON and the server does not accept it. -/
def WholeLines (fromStr : String → Option ν) (s : Sidecar ν) : SyncAction → Prop
  | .turn answer => ∀ c, s.cycle = some c → newline ∉ s.bytes.drop c.position →
      s.bytes.drop c.position = [] ∨ decodeLine (s.bytes.drop c.position) = none ∨
        (parseLine fromStr (s.bytes.drop c.position)).isSome = true ∧ ¬answer.Settles
  | _ => True

namespace Covered

variable {bytes : List UInt8} {posts : List (Post ν)} {q : ℕ}

theorem append (h : Covered fromStr bytes posts q) (hq : q ≤ bytes.length) (more : List UInt8) :
    Covered fromStr (bytes ++ more) posts q := by
  intro a b v hline hb hparse
  rw [slice_append (hb.trans hq)] at hparse
  exact h a b v (hline.of_append (hb.trans hq)) hb hparse

theorem posts_append (h : Covered fromStr bytes posts q) (more : List (Post ν)) :
    Covered fromStr bytes (more ++ posts) q := by
  intro a b v hline hb hparse
  obtain ⟨p, hp, hrest⟩ := h a b v hline hb hparse
  exact ⟨p, List.mem_append_right more hp, hrest⟩

/-- The reader gets past a line. -/
theorem line {d : ℕ} (h : Covered fromStr bytes posts q) (hline : IsLine newline bytes q d)
    (hposted : ∀ v, parseLine fromStr (slice bytes q d) = some v →
      ∃ p ∈ posts, p.start = q ∧ p.payload = v ∧ p.answer.Settles) :
    Covered fromStr bytes posts d := by
  intro a b v hline' hb hparse
  rcases hline'.le_or_eq hline hb with hle | ⟨rfl, rfl⟩
  · exact h a b v hline' hle hparse
  · exact hposted v hparse

end Covered

/-- The cursor and the reader stand between two lines, and nothing is lost
before either. -/
structure Delivered (fromStr : String → Option ν) (s : Sidecar ν) : Prop where
  boundary : Boundary newline s.bytes (persistedCursor s.cursorFile)
  covered : NothingLost fromStr s
  reader_boundary : ∀ c, s.cycle = some c → Boundary newline s.bytes c.position
  reader_covered : ∀ c, s.cycle = some c → Covered fromStr s.bytes s.posts c.position

theorem WholeLines.newline_mem {c c' : Cycle} {answer : Answer} {post : Option (Post ν)}
    (h : WholeLines fromStr s (.turn answer)) (hcycle : s.cycle = some c)
    (hrest : s.bytes.drop c.position ≠ [])
    (hline : syncLine fromStr c (nextLine newline (s.bytes.drop c.position)) answer =
      (.ok c', post)) : newline ∈ s.bytes.drop c.position := by
  by_contra hmem
  rw [nextLine_of_notMem hmem] at hline
  obtain ⟨-, -, -, hparsed⟩ := syncLine_ok hline
  rcases h c hcycle hmem with hnil | hdecode | ⟨hjson, hanswer⟩
  · exact hrest hnil
  · simp [syncLine, hdecode] at hline
  · rcases hparsed with ⟨hnone, -⟩ | ⟨v, -, -, hsettles, -⟩
    · simp [hnone] at hjson
    · exact hanswer hsettles

theorem Delivered.step (h : Delivered fromStr s) (hs : Consistent s)
    (hok : WholeLines fromStr s a) (hstep : syncStep fromStr s a = some t) :
    Delivered fromStr t := by
  cases syncStep_moves hstep with
  | @appended bytes hlt =>
      exact ⟨h.boundary.append, h.covered.append hs.cursor_le bytes,
        fun c hc => (h.reader_boundary c hc).append,
        fun c hc => (h.reader_covered c hc).append (hs.position_le c hc) bytes⟩
  | absent hcorpus hcycle => exact ⟨h.1, h.2, h.3, h.4⟩
  | opened hcycle =>
      rw [openCycle_eq hs.cursor_le]
      refine ⟨h.boundary, h.covered, ?_, ?_⟩ <;> rintro c ⟨⟩
      · exact h.boundary
      · exact h.covered
  | @finished c answer hcycle hrest =>
      refine ⟨?_, ?_, by rintro c' ⟨⟩, by rintro c' ⟨⟩⟩
      · rw [hs.persisted_finish hcycle]
        exact h.reader_boundary c hcycle
      · rw [NothingLost, hs.persisted_finish hcycle]
        exact h.reader_covered c hcycle
  | @advanced c c' answer post hcycle hrest hline =>
      have hmem := hok.newline_mem hcycle hrest hline
      have hisLine := isLine_nextLine (h.reader_boundary c hcycle) hmem
      obtain ⟨-, hposition, -, hparsed⟩ := syncLine_ok hline
      refine ⟨h.boundary, h.covered.posts_append _, ?_, ?_⟩ <;> rintro c'' ⟨⟩
      · rw [hposition]
        exact hisLine.boundary_right
      · rw [hposition]
        refine ((h.reader_covered c hcycle).posts_append _).line hisLine fun v hv => ?_
        rw [slice_nextLine] at hv
        rcases hparsed with ⟨hnone, -⟩ | ⟨w, hw, rfl, hsettles, -⟩
        · simp [hnone] at hv
        · obtain rfl : v = w := Option.some.inj (hv.symm.trans hw)
          exact ⟨_, List.mem_cons_self, rfl, rfl, hsettles⟩
  | aborted hcycle hrest hline =>
      exact ⟨h.boundary, h.covered.posts_append _, by rintro c' ⟨⟩, by rintro c' ⟨⟩⟩
  | failed hcycle => exact ⟨h.boundary, h.covered, by rintro c' ⟨⟩, by rintro c' ⟨⟩⟩

theorem delivered_start : Delivered fromStr (Sidecar.start ν) := by
  refine ⟨.inl rfl, ?_, by rintro c ⟨⟩, by rintro c ⟨⟩⟩
  intro a b v hline hb _
  have hlt := hline.lt
  have hzero : b ≤ 0 := hb
  omega

/-- If no cycle gets past an unfinished line, the cursor passes nothing that
was not delivered. -/
theorem sync_loses_nothing {ν : Type} (fromStr : String → Option ν) (s : Sidecar ν)
    (h : Reach (syncStep fromStr) (WholeLines fromStr) (Sidecar.start ν) s) :
    NothingLost fromStr s := by
  have hinv : Consistent s ∧ Delivered fromStr s := by
    refine h.invariant (I := fun s => Consistent s ∧ Delivered fromStr s)
      ⟨consistent_start, delivered_start⟩ ?_
    intro t a u ht hok hstep
    exact ⟨ht.1.step hstep, ht.2.step ht.1 hok hstep⟩
  exact hinv.2.covered

def emptyObject (text : String) : Option Unit := if text = "\x7b\x7d\n" then some () else none

/-- One line is delivered by the first cycle, and one more by the third after the server
has refused it in the second. -/
def threeCycles : List SyncAction :=
  [.append [123, 125, 10], .begin, .turn (.response 201 "201 Created"), .turn (.networkError ""),
    .append [123, 125, 10], .begin, .turn (.response 503 "503 Service Unavailable"), .begin,
    .turn (.response 201 "201 Created"), .turn (.networkError "")]

theorem sync_loses_nothing_three_cycles :
    ∃ s, Reach (syncStep emptyObject) (WholeLines emptyObject) (Sidecar.start Unit) s ∧
      persistedCursor s.cursorFile = 6 ∧ s.posts.length = 3 ∧ NothingLost emptyObject s := by
  have hrun : (exec (guarded (syncStep emptyObject) fun s _ => s.cycle.all (fun c =>
        newline ∈ s.bytes.drop c.position || s.bytes.drop c.position = []) = true)
      (Sidecar.start Unit) threeCycles).map
      (fun s => decide (persistedCursor s.cursorFile = 6 ∧ s.posts.length = 3)) = some true := by
    decide +kernel
  obtain ⟨s, hexec, hdecide⟩ := Option.map_eq_some_iff.mp hrun
  obtain ⟨hcursor, hposts⟩ := of_decide_eq_true hdecide
  have hreach : Reach (syncStep emptyObject) (WholeLines emptyObject) (Sidecar.start Unit) s := by
    refine (Reach.of_exec_guarded _ hexec).mono fun t a hguard => ?_
    cases a with
    | turn answer =>
        intro c hcycle hmem
        simp [hcycle, hmem] at hguard
        exact .inl (by simpa using hguard)
    | append _ | begin | fail _ => trivial
  exact ⟨s, hreach, hcursor, hposts, sync_loses_nothing emptyObject s hreach⟩

/-- A cycle skips the first half of a line as malformed, and the next one the
other half. -/
theorem sync_loses_line :
    ¬∀ (ν : Type) (fromStr : String → Option ν) (s : Sidecar ν),
      Reach (syncStep fromStr) anyStep (Sidecar.start ν) s → NothingLost fromStr s := by
  intro hall
  have hrun : (exec (syncStep emptyObject) (Sidecar.start Unit)
      [.append [123], .begin, .turn (.networkError ""), .turn (.networkError ""),
        .append [125, 10], .begin, .turn (.networkError ""), .turn (.networkError "")]).map
      (fun s => decide (s.bytes = [123, 125, 10] ∧ persistedCursor s.cursorFile = 3 ∧
        s.posts = [])) = some true := by
    decide +kernel
  obtain ⟨s, hexec, hdecide⟩ := Option.map_eq_some_iff.mp hrun
  obtain ⟨hbytes, hcursor, hposts⟩ := of_decide_eq_true hdecide
  have hline : IsLine newline s.bytes 0 3 := by
    rw [hbytes]
    exact isLine_nextLine (.inl rfl) (by decide)
  have hparse : parseLine emptyObject (slice s.bytes 0 3) = some () := by
    rw [hbytes]
    decide +kernel
  obtain ⟨p, hp, -⟩ :=
    hall Unit emptyObject s (.of_exec _ hexec) 0 3 () hline hcursor.ge hparse
  simp [hposts] at hp

/-! ### Nothing is sent twice -/

/-- The posts that the server has accepted and that contain a byte. -/
def acceptedAt (s : Sidecar ν) (i : ℕ) : List (Post ν) :=
  s.posts.filter fun p => p.answer.isSuccess && (p.start ≤ i && i < p.stop)

/-- No part of the corpus is accepted twice. -/
def SentOnce (s : Sidecar ν) : Prop := ∀ i, (acceptedAt s i).length ≤ 1

def NoLateFailure (fromStr : String → Option ν) (s : Sidecar ν) : SyncAction → Prop
  | .turn answer => ∀ c, s.cycle = some c → 0 < c.synced →
      s.bytes.drop c.position = [] ∨
        ∃ text, decodeLine (nextLine newline (s.bytes.drop c.position)) = some text ∧
          ((fromStr text).isSome = true → answer.Settles)
  | .fail _ => ∀ c, s.cycle = some c → c.synced = 0
  | _ => True

/-- Accepted posts end before `q`. -/
def AcceptedBelow (posts : List (Post ν)) (q : ℕ) : Prop :=
  ∀ p ∈ posts, p.answer.isSuccess = true → p.stop ≤ q

/-- The later of two accepted posts begins after the earlier one, and none
goes beyond the cursor that the next cycle starts from. -/
structure Ordered (s : Sidecar ν) : Prop where
  pairwise : s.posts.Pairwise fun p q =>
    p.answer.isSuccess = true → q.answer.isSuccess = true → q.stop ≤ p.start
  idle : s.cycle = none → AcceptedBelow s.posts (persistedCursor s.cursorFile)
  reader : ∀ c, s.cycle = some c → AcceptedBelow s.posts c.position
  unsynced : ∀ c, s.cycle = some c → c.synced = 0 → AcceptedBelow s.posts c.cursor

theorem NoLateFailure.synced_eq_zero {c : Cycle} {answer : Answer} {post : Option (Post ν)}
    {e : String} (h : NoLateFailure fromStr s (.turn answer)) (hcycle : s.cycle = some c)
    (hrest : s.bytes.drop c.position ≠ [])
    (hline : syncLine fromStr c (nextLine newline (s.bytes.drop c.position)) answer =
      (.error e, post)) : c.synced = 0 := by
  by_contra hsynced
  rcases h c hcycle (Nat.pos_of_ne_zero hsynced) with hnil | ⟨text, hdecode, hsettles⟩
  · exact hrest hnil
  · rcases syncLine_error hline with ⟨hnone, -⟩ | ⟨v, hv, hnot, -⟩
    · simp [hnone] at hdecode
    · rw [parseLine, hdecode, Option.bind_some] at hv
      exact hnot (hsettles (by rw [hv]; rfl))

theorem Ordered.step (h : Ordered s) (hs : Consistent s) (hok : NoLateFailure fromStr s a)
    (hstep : syncStep fromStr s a = some t) : Ordered t := by
  cases syncStep_moves hstep with
  | appended hlt => exact ⟨h.1, h.2, h.3, h.4⟩
  | absent hcorpus hcycle => exact ⟨h.1, h.2, h.3, h.4⟩
  | opened hcycle =>
      rw [openCycle_eq hs.cursor_le]
      refine ⟨h.pairwise, by rintro ⟨⟩, ?_, ?_⟩ <;> rintro c ⟨⟩
      · exact h.idle hcycle
      · exact fun _ => h.idle hcycle
  | @finished c answer hcycle hrest =>
      refine ⟨h.pairwise, fun _ => ?_, by rintro c' ⟨⟩, by rintro c' ⟨⟩⟩
      rw [hs.persisted_finish hcycle]
      exact h.reader c hcycle
  | @advanced c c' answer post hcycle hrest hline =>
      obtain ⟨hcursor, hposition, -, hparsed⟩ := syncLine_ok hline
      have hbelow : AcceptedBelow s.posts c'.position := fun p hp hsuccess =>
        (h.reader c hcycle p hp hsuccess).trans (by omega)
      rcases hparsed with ⟨-, rfl, hsynced⟩ | ⟨v, -, rfl, -, hsynced⟩
      · refine ⟨h.pairwise, by rintro ⟨⟩, ?_, ?_⟩ <;> rintro c'' ⟨⟩
        · exact hbelow
        · rw [hsynced, hcursor]
          exact h.unsynced c hcycle
      · refine ⟨?_, by rintro ⟨⟩, ?_, ?_⟩
        · exact List.pairwise_cons.mpr
            ⟨fun p hp _ hsuccess => h.reader c hcycle p hp hsuccess, h.pairwise⟩
        · rintro c'' ⟨⟩ p hp hsuccess
          rcases List.mem_cons.mp hp with rfl | hp
          · exact hposition.ge
          · exact hbelow p hp hsuccess
        · rintro c'' ⟨⟩ hzero p hp hsuccess
          rcases List.mem_cons.mp hp with rfl | hp
          · rw [if_pos hsuccess] at hsynced
            omega
          · rw [hcursor]
            refine h.unsynced c hcycle ?_ p hp hsuccess
            split at hsynced <;> omega
  | @aborted c answer e post hcycle hrest hline =>
      have hzero := hok.synced_eq_zero hcycle hrest hline
      have hidle : AcceptedBelow s.posts (persistedCursor s.cursorFile) := by
        rw [← hs.cycle_cursor c hcycle]
        exact h.unsynced c hcycle hzero
      rcases syncLine_error hline with ⟨-, rfl⟩ | ⟨v, -, hnot, rfl⟩
      · exact ⟨h.pairwise, fun _ => hidle, by rintro c' ⟨⟩, by rintro c' ⟨⟩⟩
      · have hrejected : answer.isSuccess ≠ true := fun hsuccess => hnot (.inl hsuccess)
        refine ⟨?_, fun _ p hp hsuccess => ?_, by rintro c' ⟨⟩, by rintro c' ⟨⟩⟩
        · exact List.pairwise_cons.mpr
            ⟨fun p hp hsuccess => absurd hsuccess hrejected, h.pairwise⟩
        · rcases List.mem_cons.mp hp with rfl | hp
          · exact absurd hsuccess hrejected
          · exact hidle p hp hsuccess
  | @failed c error hcycle =>
      refine ⟨h.pairwise, fun _ => ?_, by rintro c' ⟨⟩, by rintro c' ⟨⟩⟩
      rw [← hs.cycle_cursor c hcycle]
      exact h.unsynced c hcycle (hok c hcycle)

theorem Ordered.sentOnce (h : Ordered s) : SentOnce s := by
  intro i
  have hpairwise : (acceptedAt s i).Pairwise fun _ _ => False := by
    refine List.Pairwise.imp_of_mem ?_ (h.pairwise.filter _)
    intro p q hp hq hpq
    simp only [acceptedAt, List.mem_filter, Bool.and_eq_true, decide_eq_true_eq] at hp hq
    have := hpq hp.2.1 hq.2.1
    omega
  match hposts : acceptedAt s i with
  | [] => simp
  | [_] => simp
  | p :: q :: rest =>
      rw [hposts] at hpairwise
      exact absurd (List.rel_of_pairwise_cons hpairwise List.mem_cons_self) not_false

/-- If no cycle fails after the server has accepted a line, nothing is
accepted twice. -/
theorem sync_sends_once {ν : Type} (fromStr : String → Option ν) (s : Sidecar ν)
    (h : Reach (syncStep fromStr) (NoLateFailure fromStr) (Sidecar.start ν) s) : SentOnce s := by
  have hinv : Consistent s ∧ Ordered s := by
    refine h.invariant (I := fun s => Consistent s ∧ Ordered s) ⟨consistent_start, ?_⟩ ?_
    · exact ⟨.nil, by simp [AcceptedBelow, Sidecar.start], by rintro c ⟨⟩, by rintro c ⟨⟩⟩
    · intro t a u ht hok hstep
      exact ⟨ht.1.step hstep, ht.2.step ht.1 hok hstep⟩
  exact hinv.2.sentOnce

/-- Two lines and two cycles, of which the first fails at once. -/
theorem sync_sends_once_two :
    ∃ s, Reach (syncStep emptyObject) (NoLateFailure emptyObject) (Sidecar.start Unit) s ∧
      s.posts.length = 3 ∧ SentOnce s := by
  have hrun : (exec (guarded (syncStep emptyObject) fun s a =>
      (match a with
      | .turn answer => s.cycle.all fun c =>
          c.synced = 0 || s.bytes.drop c.position = [] ||
            (decodeLine (nextLine newline (s.bytes.drop c.position))).isSome && answer.Settles
      | .fail _ => false
      | .append _ | .begin => true) = true)
      (Sidecar.start Unit)
      [.append [123, 125, 10, 123, 125, 10], .begin,
        .turn (.response 503 "503 Service Unavailable"), .begin,
        .turn (.response 201 "201 Created"), .turn (.response 201 "201 Created"),
        .turn (.networkError "")]).map
      (fun s => decide (s.posts.length = 3)) = some true := by
    decide +kernel
  obtain ⟨s, hexec, hdecide⟩ := Option.map_eq_some_iff.mp hrun
  have hreach : Reach (syncStep emptyObject) (NoLateFailure emptyObject)
      (Sidecar.start Unit) s := by
    refine (Reach.of_exec_guarded _ hexec).mono fun t a hguard => ?_
    cases a with
    | turn answer =>
        intro c hcycle hsynced
        simp [hcycle, hsynced.ne'] at hguard
        rcases hguard with hnil | ⟨htext, hsettles⟩
        · exact .inl (by simpa using hnil)
        · obtain ⟨text, htext⟩ := Option.isSome_iff_exists.mp htext
          exact .inr ⟨text, htext, fun _ => hsettles⟩
    | fail _ => simp at hguard
    | append _ | begin => trivial
  exact ⟨s, hreach, of_decide_eq_true hdecide, sync_sends_once emptyObject s hreach⟩

/-- The server accepts a line and fails at the next one, and the next cycle
begins again with the first. -/
theorem sync_sends_twice :
    ¬∀ (ν : Type) (fromStr : String → Option ν) (s : Sidecar ν),
      Reach (syncStep fromStr) anyStep (Sidecar.start ν) s → SentOnce s := by
  intro hall
  have hrun : (exec (syncStep emptyObject) (Sidecar.start Unit)
      [.append [123, 125, 10, 123, 125, 10], .begin, .turn (.response 201 "201 Created"),
        .turn (.response 503 "503 Service Unavailable"), .begin,
        .turn (.response 201 "201 Created")]).map
      (fun s => decide ((acceptedAt s 0).length = 2)) = some true := by
    decide +kernel
  obtain ⟨s, hexec, hdecide⟩ := Option.map_eq_some_iff.mp hrun
  have honce := hall Unit emptyObject s (.of_exec _ hexec) 0
  rw [of_decide_eq_true hdecide] at honce
  omega

end Steps

end SereinGateway.Gateway
