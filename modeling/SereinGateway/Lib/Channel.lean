import Mathlib.Data.List.Basic
import Mathlib.Data.Nat.Notation

/-!
A bounded channel with many senders and one receiver.

`trySend` puts a message at the end of the queue, or hands it back when the
queue is full or the receiver is gone; `recv` takes the oldest message out.
When the receiver is dropped, what is still in the queue is lost, and nothing
is queued any more.

`Carries` are the books of a channel: what was sent is what was received, what
was lost and what is queued, in this order.
-/

namespace SereinGateway.Lib

structure Channel (α : Type*) (capacity : ℕ) where
  queue : List α
  /-- The receiver has not been dropped. -/
  receiver : Bool
  bounded : queue.length ≤ capacity
  drained : receiver = false → queue = []

inductive TrySendError (α : Type*) where
  | full (message : α)
  | closed (message : α)

namespace Channel

variable {α : Type*} {n : ℕ}

def empty : Channel α n where
  queue := []
  receiver := true
  bounded := Nat.zero_le n
  drained _ := rfl

def trySend (c : Channel α n) (a : α) : Except (TrySendError α) (Channel α n) :=
  if c.receiver then
    if h : c.queue.length < n then
      .ok
        { queue := c.queue ++ [a]
          receiver := true
          bounded := by
            rw [List.length_append]
            exact h
          drained := fun h => nomatch h }
    else .error (.full a)
  else .error (.closed a)

def recv (c : Channel α n) : Option (α × Channel α n) :=
  match h : c.queue with
  | [] => none
  | a :: rest => some (a,
      { queue := rest
        receiver := c.receiver
        bounded := by
          have hbounded := c.bounded
          rw [h, List.length_cons] at hbounded
          omega
        drained := fun hr => by
          have hqueue := c.drained hr
          rw [h] at hqueue
          cases hqueue })

def dropReceiver (_ : Channel α n) : Channel α n where
  queue := []
  receiver := false
  bounded := Nat.zero_le n
  drained _ := rfl

variable {c c' : Channel α n} {a : α}

theorem trySend_cases (c : Channel α n) (a : α) :
    (∃ c', c.trySend a = .ok c' ∧ c.receiver = true ∧ c'.queue = c.queue ++ [a] ∧
      c'.receiver = true) ∨
    (c.trySend a = .error (.full a) ∧ c.receiver = true ∧ c.queue.length = n) ∨
    (c.trySend a = .error (.closed a) ∧ c.receiver = false) := by
  unfold trySend
  split
  · rename_i hr
    split
    · exact .inl ⟨_, rfl, hr, rfl, rfl⟩
    · rename_i hfull
      have hbounded := c.bounded
      exact .inr (.inl ⟨rfl, hr, by omega⟩)
  · rename_i hr
    exact .inr (.inr ⟨rfl, Bool.eq_false_iff.mpr hr⟩)

theorem queue_of_recv (h : c.recv = some (a, c')) :
    c.queue = a :: c'.queue ∧ c'.receiver = c.receiver := by
  unfold recv at h
  split at h
  · cases h
  · rename_i rest hqueue
    cases h
    exact ⟨hqueue, rfl⟩

theorem recv_eq_none_iff : c.recv = none ↔ c.queue = [] := by
  unfold recv
  split
  · rename_i hqueue
    exact iff_of_true rfl hqueue
  · rename_i rest hqueue
    refine iff_of_false nofun fun hempty => ?_
    rw [hqueue] at hempty
    cases hempty

/-- What was sent has been received or lost, or is queued; nothing is lost as
long as there is a receiver. -/
structure Carries (c : Channel α n) (sent received lost : List α) : Prop where
  order : sent = received ++ lost ++ c.queue
  kept : c.receiver = true → lost = []

variable {sent received lost : List α}

theorem carries_empty : (empty : Channel α n).Carries [] [] [] := ⟨rfl, fun _ => rfl⟩

theorem Carries.trySend (h : c.Carries sent received lost) (hsend : c.trySend a = .ok c') :
    c'.Carries (sent ++ [a]) received lost := by
  obtain ⟨d, hd, hr, hqueue, -⟩ | ⟨hd, -⟩ | ⟨hd, -⟩ := c.trySend_cases a
  · rw [hd] at hsend
    cases hsend
    refine ⟨?_, fun _ => h.kept hr⟩
    rw [hqueue, ← List.append_assoc, ← h.order]
  · rw [hd] at hsend
    cases hsend
  · rw [hd] at hsend
    cases hsend

theorem Carries.recv (h : c.Carries sent received lost) (hrecv : c.recv = some (a, c')) :
    c'.Carries sent (received ++ [a]) lost := by
  obtain ⟨hqueue, hr⟩ := queue_of_recv hrecv
  have hopen : c.receiver = true := by
    by_contra hclosed
    have hempty := c.drained (Bool.eq_false_iff.mpr hclosed)
    rw [hqueue] at hempty
    cases hempty
  have hlost := h.kept hopen
  refine ⟨?_, fun _ => hlost⟩
  rw [h.order, hqueue, hlost, List.append_nil, List.append_nil, List.append_assoc,
    List.singleton_append]

theorem Carries.dropReceiver (h : c.Carries sent received lost) :
    c.dropReceiver.Carries sent received (lost ++ c.queue) := by
  refine ⟨?_, nofun⟩
  rw [h.order, Channel.dropReceiver, List.append_nil, List.append_assoc]

end Channel

end SereinGateway.Lib
