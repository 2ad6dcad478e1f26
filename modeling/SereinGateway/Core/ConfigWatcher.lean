import Mathlib
import SereinGateway.Lib.Transition

/-!
`spawn_config_watcher`: when the configuration is loaded anew.

Modifications of the file are sent through a channel to a task that waits for
one, sleeps for the length of the debounce window and looks into the channel once
more. It reloads only if it finds nothing there. If it finds something, then this
event is taken out as well, and the task waits for another one.

The steps of the sender and the task interleave in any order, so the window has
any number of events in it. `let _ = watcher;` at the end of the task binds nothing,
so the task does not capture the watcher: it is dropped, with the sender, when
`spawn_config_watcher` returns, and the task stops once the channel is empty.
-/

namespace SereinGateway.Core

open SereinGateway.Lib

def watchChannelCapacity : ℕ := 16

/-- Where the task is in its loop. -/
inductive WatcherTask where
  /-- In `rx.recv()`. -/
  | receiving
  /-- In the sleep, before `rx.try_recv()`. -/
  | debouncing
  /-- In `AppConfig::from_env()` and `watchable.swap(…)`. -/
  | reloading
  | stopped
  deriving DecidableEq

structure ConfigWatcher (Config : Type*) where
  task : WatcherTask
  /-- The number of messages in the channel. -/
  channel : ℕ
  /-- The number of events that the watcher still has to send. -/
  unsent : ℕ
  /-- `spawn_config_watcher` has not returned: the watcher, and with it the sender, is alive. -/
  watching : Bool
  /-- The snapshot in `WatchableConfig`. -/
  snapshot : Config
  /-- A reload has been attempted since the last event was consumed. -/
  attempted : Bool
  /-- A modification of the file has no event that reaches the channel. -/
  lost : Bool

inductive WatcherStep (Config : Type*) where
  /-- A modification of the file. -/
  | modify
  /-- `tx.blocking_send(())` gets through. -/
  | send
  /-- `rx.recv()` returns. -/
  | receive
  /-- The sleep ends, and `rx.try_recv()` is called. -/
  | wake
  /-- An attempt to reload, with the result of `AppConfig::from_env()`. -/
  | reload (result : Except String Config)
  /-- `spawn_config_watcher` returns. Of the events that the watcher has not sent yet,
  `kept` still get through. -/
  | returns (kept : ℕ)

namespace ConfigWatcher

variable {Config : Type*}

/-- The task has just been spawned. -/
def spawn (config : Config) : ConfigWatcher Config where
  task := .receiving
  channel := 0
  unsent := 0
  watching := true
  snapshot := config
  attempted := true
  lost := false

/-- An event is taken out of the channel. -/
def consume (w : ConfigWatcher Config) (next : WatcherTask) : ConfigWatcher Config :=
  { w with task := next, channel := w.channel - 1, attempted := false }

def step (w : ConfigWatcher Config) : WatcherStep Config → Option (ConfigWatcher Config)
  | .modify =>
      if w.watching then some { w with unsent := w.unsent + 1 } else some { w with lost := true }
  | .send =>
      if 0 < w.unsent ∧ w.channel < watchChannelCapacity then
        some { w with unsent := w.unsent - 1, channel := w.channel + 1 }
      else none
  | .receive =>
      if w.task ≠ .receiving then none
      else if 0 < w.channel then some (w.consume .debouncing)
      else if w.watching ∨ 0 < w.unsent then none
      else some { w with task := .stopped }
  | .wake =>
      if w.task ≠ .debouncing then none
      else if 0 < w.channel then some (w.consume .receiving)
      else some { w with task := .reloading }
  | .reload result =>
      if w.task ≠ .reloading then none
      else
        let snapshot := match result with
          | .ok config => config
          | .error _ => w.snapshot
        some { w with task := .receiving, snapshot := snapshot, attempted := true }
  | .returns kept =>
      if w.watching ∧ kept ≤ w.unsent then
        some { w with
          watching := false
          unsent := kept
          lost := w.lost || decide (kept < w.unsent) }
      else none

/-- Each modification reaches the task, and if the task waits on an empty channel, then
a reload has been attempted since it consumed its last event. -/
structure NothingMissed (w : ConfigWatcher Config) : Prop where
  attempted : w.task = .receiving → w.channel = 0 → w.attempted = true
  reached : w.lost = false

/-- The task does not find exactly one event when it looks into the channel again, the file
is not modified once the watcher is gone, and no event goes with it. -/
def Noticed (w : ConfigWatcher Config) : WatcherStep Config → Prop
  | .wake => w.channel ≠ 1
  | .modify => w.watching = true
  | .returns kept => w.unsent ≤ kept
  | _ => True

variable {w w' : ConfigWatcher Config} {s : WatcherStep Config}

theorem nothingMissed_spawn (config : Config) : (spawn config).NothingMissed :=
  ⟨fun _ _ => rfl, rfl⟩

theorem NothingMissed.step (h : w.NothingMissed) (hok : w.Noticed s)
    (hstep : w.step s = some w') : w'.NothingMissed := by
  cases s with
  | modify =>
      have hwatching : w.watching = true := hok
      rw [ConfigWatcher.step, if_pos hwatching] at hstep
      cases hstep
      exact ⟨h.attempted, h.reached⟩
  | send =>
      obtain ⟨-, hstep⟩ := Option.ite_none_right_eq_some.mp hstep
      cases hstep
      refine ⟨fun _ hempty => ?_, h.reached⟩
      cases hempty
  | receive =>
      simp only [ConfigWatcher.step] at hstep
      split at hstep
      · cases hstep
      · split at hstep
        · cases hstep
          refine ⟨fun htask => ?_, h.reached⟩
          cases htask
        · obtain ⟨-, hstep⟩ := Option.ite_none_left_eq_some.mp hstep
          cases hstep
          refine ⟨fun htask => ?_, h.reached⟩
          cases htask
  | wake =>
      simp only [ConfigWatcher.step] at hstep
      split at hstep
      · cases hstep
      · split at hstep
        · rename_i hpos
          cases hstep
          refine ⟨fun _ hempty => ?_, h.reached⟩
          have hone : w.channel = 1 := Nat.le_antisymm (Nat.sub_eq_zero_iff_le.mp hempty) hpos
          exact absurd hone hok
        · cases hstep
          refine ⟨fun htask => ?_, h.reached⟩
          cases htask
  | reload result =>
      obtain ⟨-, hstep⟩ := Option.ite_none_left_eq_some.mp hstep
      cases hstep
      exact ⟨fun _ _ => rfl, h.reached⟩
  | returns kept =>
      obtain ⟨-, hstep⟩ := Option.ite_none_right_eq_some.mp hstep
      cases hstep
      have hkept : decide (kept < w.unsent) = false := decide_eq_false (Nat.not_lt.mpr hok)
      refine ⟨h.attempted, ?_⟩
      rw [hkept, h.reached]
      rfl

/-- The event that is found alone is consumed without a reload, and what the watcher does not
see or does not send is lost. -/
theorem not_nothingMissed_of_unnoticed (hok : ¬w.Noticed s) (hstep : w.step s = some w') :
    ¬w'.NothingMissed := by
  intro h
  cases s with
  | wake =>
      have hone : w.channel = 1 := not_not.mp hok
      simp only [ConfigWatcher.step, hone] at hstep
      split at hstep
      · cases hstep
      · cases hstep
        have hattempted := h.attempted rfl (by simp [consume, hone])
        cases hattempted
  | modify =>
      have hgone : ¬w.watching = true := hok
      rw [ConfigWatcher.step, if_neg hgone] at hstep
      cases hstep
      cases h.reached
  | returns kept =>
      obtain ⟨-, hstep⟩ := Option.ite_none_right_eq_some.mp hstep
      cases hstep
      have hlost : kept < w.unsent := Nat.not_le.mp hok
      have hreached := h.reached
      simp [hlost] at hreached
  | _ => exact hok trivial

theorem snapshot_of_reload_error {message : String}
    (hstep : w.step (.reload (.error message)) = some w') :
    w'.snapshot = w.snapshot := by
  obtain ⟨-, hstep⟩ := Option.ite_none_left_eq_some.mp hstep
  cases hstep
  rfl

/-- No change is missed in exactly those runs in which the task never finds exactly one
event when it looks into the channel again, and nothing happens to the file after the
watcher is dropped. -/
theorem nothing_missed_iff (config : Config) (steps : List (WatcherStep Config)) :
    Throughout step NothingMissed (spawn config) steps ↔
      EachStep step Noticed (spawn config) steps :=
  throughout_iff_eachStep (fun _ _ _ h hok hstep => h.step hok hstep)
    (fun _ _ _ hok hstep => not_nothingMissed_of_unnoticed hok hstep) (nothingMissed_spawn config)
    steps

/-- One save after the call has returned reaches no one. With the two events of a save
before that, the task waits on an empty channel, and nothing has been loaded. -/
theorem saves_missed :
    ¬Throughout step NothingMissed (spawn 0) [.returns 0, .modify] ∧
      ¬Throughout step NothingMissed (spawn 0)
        [.modify, .send, .modify, .send, .returns 0, .receive, .wake] := by
  constructor
  · intro hrun
    have hlost := (hrun.2 _ rfl).2 _ rfl
    cases hlost.reached
  · intro hrun
    have hwaiting := ((((((hrun.2 _ rfl).2 _ rfl).2 _ rfl).2 _ rfl).2 _ rfl).2 _ rfl).2 _ rfl
    cases hwaiting.attempted rfl rfl

end ConfigWatcher

end SereinGateway.Core
