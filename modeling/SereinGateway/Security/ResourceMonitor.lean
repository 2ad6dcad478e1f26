import Mathlib
import SereinGateway.Lib.Windows
import SereinGateway.Security.HmacAuth

/-!
`ResourceMonitor`: which requests of a source are flagged.

Times are readings of the monotonic clock in nanoseconds. A counter that
overflows aborts the process, which takes more requests than any run has.

The window is called a sliding one. What is kept of a source is one counter and
the time at which it was started, so the windows are fixed: the next one begins
with the first request after the end of the last. At the seam of two windows
a stretch of the same length may have up to twice the threshold of requests
in it that are not flagged.
-/

namespace SereinGateway.Security

open SereinGateway.Lib

structure RequestTracker where
  count : ℕ
  firstRequestAt : ℕ

structure ResourceMonitor (Ip : Type*) where
  requests : Ip → Option RequestTracker
  requestThreshold : ℕ
  timeWindow : ℕ

/-- A call of `check_and_record_request`. -/
structure Request (Ip : Type*) where
  ip : Ip
  now : ℕ

/-- `now.duration_since(tracker.first_request_at) < self.time_window` -/
def RequestTracker.current (tracker : RequestTracker) (timeWindow now : ℕ) : Bool :=
  now - tracker.firstRequestAt < timeWindow

namespace ResourceMonitor

variable {Ip : Type*} [DecidableEq Ip]

def new (requestThreshold timeWindowSeconds : ℕ) : ResourceMonitor Ip where
  requests _ := none
  requestThreshold := requestThreshold
  timeWindow := timeWindowSeconds * nanosPerSec

def checkAndRecordRequest (monitor : ResourceMonitor Ip) (request : Request Ip) :
    Bool × ResourceMonitor Ip :=
  let now := request.now
  let requests ip := (monitor.requests ip).filter fun tracker =>
    tracker.current monitor.timeWindow now
  let tracker := (requests request.ip).getD { count := 0, firstRequestAt := now }
  let tracker := { tracker with count := tracker.count + 1 }
  (monitor.requestThreshold < tracker.count && tracker.current monitor.timeWindow now,
    { monitor with requests := Function.update requests request.ip (some tracker) })

/-- The answers to a sequence of calls. -/
def run (monitor : ResourceMonitor Ip) : List (Request Ip) → List (Request Ip × Bool)
  | [] => []
  | request :: requests =>
      let (flagged, monitor') := monitor.checkAndRecordRequest request
      (request, flagged) :: monitor'.run requests

end ResourceMonitor

section Answers

variable {Ip : Type*} [DecidableEq Ip]

def timesOf (ip : Ip) (requests : List (Request Ip)) : List ℕ :=
  (requests.filter (·.ip = ip)).map (·.now)

/-- The times at which a source was not flagged. -/
def unflagged (ip : Ip) (answers : List (Request Ip × Bool)) : List ℕ :=
  (answers.filter fun answer => answer.1.ip = ip && !answer.2).map (·.1.now)

/-- In any stretch as long as the window, at most `request_threshold` requests of a
source are not flagged. -/
def SlidingBound (monitor : ResourceMonitor Ip) (requests : List (Request Ip)) : Prop :=
  ∀ ip a, countIn monitor.timeWindow a (unflagged ip (monitor.run requests)) ≤
    monitor.requestThreshold

/-- The answers to a source are those that it gets alone. -/
def Independent (monitor : ResourceMonitor Ip) (requests : List (Request Ip)) : Prop :=
  ∀ ip, (monitor.run requests).filter (·.1.ip = ip) = monitor.run (requests.filter (·.ip = ip))

end Answers

/-! ### One source -/

def RequestTracker.record (timeWindow : ℕ) (tracker : Option RequestTracker) (now : ℕ) :
    RequestTracker :=
  let tracker := (tracker.filter fun tracker => tracker.current timeWindow now).getD ⟨0, now⟩
  { tracker with count := tracker.count + 1 }

/-- The times that are not flagged, of a source with this tracker. -/
def unflaggedFrom (threshold timeWindow : ℕ) : Option RequestTracker → List ℕ → List ℕ
  | _, [] => []
  | tracker, t :: ts =>
      let next := RequestTracker.record timeWindow tracker t
      let rest := unflaggedFrom threshold timeWindow (some next) ts
      if threshold < next.count && next.current timeWindow t then rest else t :: rest

section Source

variable {threshold timeWindow t : ℕ} {ts : List ℕ} {tracker : Option RequestTracker}

theorem record_of_current {tracker : RequestTracker} (h : tracker.current timeWindow t = true) :
    RequestTracker.record timeWindow (some tracker) t =
      { tracker with count := tracker.count + 1 } := by
  rw [RequestTracker.record, Option.filter_some, if_pos h]
  rfl

theorem record_of_not_current {tracker : RequestTracker}
    (h : tracker.current timeWindow t = false) :
    RequestTracker.record timeWindow (some tracker) t =
      RequestTracker.record timeWindow none t := by
  rw [RequestTracker.record, Option.filter_some, if_neg (by simp [h])]
  rfl

theorem unflaggedFrom_some (n first : ℕ) (ts : List ℕ) :
    unflaggedFrom threshold timeWindow (some ⟨n, first⟩) ts =
      (ts.takeWhile (· - first < timeWindow)).take (threshold - n) ++
        unflaggedFrom threshold timeWindow none (ts.dropWhile (· - first < timeWindow)) := by
  induction ts generalizing n with
  | nil => simp [unflaggedFrom]
  | cons t ts ih =>
      by_cases ht : t - first < timeWindow
      · have hcurrent : ∀ n, RequestTracker.current ⟨n, first⟩ timeWindow t = true := fun _ =>
          decide_eq_true ht
        have hrecord : RequestTracker.record timeWindow (some ⟨n, first⟩) t = ⟨n + 1, first⟩ :=
          record_of_current (hcurrent n)
        simp only [List.takeWhile_cons, List.dropWhile_cons, ht, decide_true, if_true]
        rw [unflaggedFrom, hrecord, hcurrent, ih, Bool.and_true]
        split
        · rename_i hlt
          have hlt : threshold < n + 1 := of_decide_eq_true hlt
          rw [show threshold - n = 0 by omega, show threshold - (n + 1) = 0 by omega]
          rfl
        · rename_i hlt
          have hle : ¬threshold < n + 1 := fun h => hlt (decide_eq_true h)
          rw [show threshold - n = threshold - (n + 1) + 1 by omega, List.take_succ_cons]
          rfl
      · have hcurrent : RequestTracker.current ⟨n, first⟩ timeWindow t = false := decide_eq_false ht
        simp only [List.takeWhile_cons, List.dropWhile_cons, ht, decide_false, Bool.false_eq_true,
          if_false, List.take_nil, List.nil_append]
        rw [unflaggedFrom, unflaggedFrom, record_of_not_current hcurrent]

theorem unflaggedFrom_none (hwindow : 0 < timeWindow) (ts : List ℕ) :
    unflaggedFrom threshold timeWindow none ts = admitted timeWindow threshold ts := by
  induction ts using windows.induct timeWindow with
  | case1 => rw [unflaggedFrom, admitted, windows, List.flatMap_nil]
  | case2 t ts ih =>
      have hrecord : RequestTracker.record timeWindow none t = ⟨1, t⟩ := rfl
      have hcurrent : RequestTracker.current ⟨1, t⟩ timeWindow t = true :=
        decide_eq_true (by simpa using hwindow)
      rw [admitted_cons, ← ih, unflaggedFrom, hrecord, hcurrent, unflaggedFrom_some, Bool.and_true]
      split
      · rename_i hlt
        obtain rfl : threshold = 0 := by simpa using hlt
        rfl
      · rename_i hlt
        have hpos : threshold ≠ 0 := by simpa using hlt
        obtain ⟨m, rfl⟩ := Nat.exists_eq_succ_of_ne_zero hpos
        rfl

end Source

/-! ### Many sources -/

section Sources

variable {Ip : Type*} [DecidableEq Ip] {ip : Ip} {monitor monitor' : ResourceMonitor Ip}
  {request : Request Ip} {requests : List (Request Ip)} {now : ℕ}

/-- What the monitor still knows of a source at a time. -/
def ResourceMonitor.tracked (monitor : ResourceMonitor Ip) (ip : Ip) (now : ℕ) :
    Option RequestTracker :=
  (monitor.requests ip).filter fun tracker => tracker.current monitor.timeWindow now

/-- The two monitors know the same of a source from `now` on. -/
structure SameFrom (monitor monitor' : ResourceMonitor Ip) (ip : Ip) (now : ℕ) : Prop where
  threshold : monitor.requestThreshold = monitor'.requestThreshold
  window : monitor.timeWindow = monitor'.timeWindow
  tracked : ∀ t, now ≤ t → monitor.tracked ip t = monitor'.tracked ip t

def recorded (monitor : ResourceMonitor Ip) (request : Request Ip) : RequestTracker :=
  let tracker := (monitor.tracked request.ip request.now).getD ⟨0, request.now⟩
  { tracker with count := tracker.count + 1 }

theorem requests_checkAndRecordRequest (monitor : ResourceMonitor Ip) (request : Request Ip) :
    (monitor.checkAndRecordRequest request).2.requests =
      Function.update (fun ip => monitor.tracked ip request.now) request.ip
        (some (recorded monitor request)) := rfl

theorem tracked_checkAndRecordRequest_ne (h : request.ip ≠ ip) {t : ℕ} (ht : request.now ≤ t) :
    (monitor.checkAndRecordRequest request).2.tracked ip t = monitor.tracked ip t := by
  rw [ResourceMonitor.tracked, requests_checkAndRecordRequest, Function.update_of_ne h.symm,
    ResourceMonitor.tracked, ResourceMonitor.tracked, Option.filter_filter]
  refine congrArg (fun f => Option.filter f _) (funext fun tracker => ?_)
  rw [Bool.eq_iff_iff, Bool.and_eq_true]
  refine and_iff_right_of_imp fun hcurrent => ?_
  have hlt : t - tracker.firstRequestAt < monitor.timeWindow := of_decide_eq_true hcurrent
  exact decide_eq_true (by omega)

theorem tracked_checkAndRecordRequest_self (t : ℕ) :
    (monitor.checkAndRecordRequest request).2.tracked request.ip t =
      (some (recorded monitor request)).filter fun tracker =>
        tracker.current monitor.timeWindow t := by
  rw [ResourceMonitor.tracked, requests_checkAndRecordRequest, Function.update_self]
  rfl

/-- A call for the source itself: what is known decides the answer and what is
recorded. -/
theorem SameFrom.check (h : SameFrom monitor monitor' request.ip now) (hnow : now ≤ request.now) :
    (monitor.checkAndRecordRequest request).1 = (monitor'.checkAndRecordRequest request).1 ∧
      SameFrom (monitor.checkAndRecordRequest request).2 (monitor'.checkAndRecordRequest request).2
        request.ip request.now := by
  have htracked := h.tracked request.now hnow
  have hanswer : ∀ monitor : ResourceMonitor Ip, (monitor.checkAndRecordRequest request).1 =
      (decide (monitor.requestThreshold < (recorded monitor request).count) &&
        (recorded monitor request).current monitor.timeWindow request.now) := fun _ => rfl
  have hrecorded : recorded monitor request = recorded monitor' request := by
    rw [recorded, recorded, htracked]
  refine ⟨?_, h.threshold, h.window, fun t _ => ?_⟩
  · rw [hanswer, hanswer, hrecorded, h.threshold, h.window]
  · rw [tracked_checkAndRecordRequest_self, tracked_checkAndRecordRequest_self, hrecorded, h.window]

/-- The answers to a source are those that it gets alone. -/
theorem SameFrom.run (h : SameFrom monitor monitor' ip now)
    (hnow : ∀ request ∈ requests, now ≤ request.now)
    (hsorted : requests.Pairwise fun request request' => request.now ≤ request'.now) :
    (monitor.run requests).filter (·.1.ip = ip) = monitor'.run (requests.filter (·.ip = ip)) := by
  induction requests generalizing monitor monitor' now with
  | nil => rfl
  | cons request requests ih =>
      have hsorted' := List.pairwise_cons.mp hsorted
      have hhead := hnow request List.mem_cons_self
      by_cases hip : request.ip = ip
      · subst hip
        obtain ⟨hanswer, hnext⟩ := h.check hhead
        have hrest := ih hnext hsorted'.1 hsorted'.2
        rw [List.filter_cons_of_pos (by simp), ResourceMonitor.run, ResourceMonitor.run,
          List.filter_cons_of_pos (by simp), hrest, hanswer]
      · have hsame : SameFrom (monitor.checkAndRecordRequest request).2 monitor' ip request.now :=
          ⟨h.threshold, h.window, fun t ht =>
            (tracked_checkAndRecordRequest_ne hip ht).trans (h.tracked t (hhead.trans ht))⟩
        have hrest := ih hsame hsorted'.1 hsorted'.2
        rw [List.filter_cons_of_neg (by simpa using hip), ResourceMonitor.run,
          List.filter_cons_of_neg (by simpa using hip), hrest]

theorem independent (monitor : ResourceMonitor Ip)
    (hsorted : requests.Pairwise fun request request' => request.now ≤ request'.now) :
    Independent monitor requests := fun _ =>
  have hsame : SameFrom monitor monitor _ 0 := ⟨rfl, rfl, fun _ _ => rfl⟩
  hsame.run (fun _ _ => Nat.zero_le _) hsorted

theorem unflagged_cons {flagged : Bool} (h : request.ip = ip) (answers : List (Request Ip × Bool)) :
    unflagged ip ((request, flagged) :: answers) =
      if flagged then unflagged ip answers else request.now :: unflagged ip answers := by
  cases flagged <;> simp [unflagged, h]

theorem unflagged_run (monitor : ResourceMonitor Ip)
    (hall : ∀ request ∈ requests, request.ip = ip) :
    unflagged ip (monitor.run requests) = unflaggedFrom monitor.requestThreshold monitor.timeWindow
      (monitor.requests ip) (requests.map (·.now)) := by
  induction requests generalizing monitor with
  | nil => rfl
  | cons request requests ih =>
      obtain rfl := hall request List.mem_cons_self
      have hrest := ih (monitor.checkAndRecordRequest request).2 fun request' h =>
        hall request' (List.mem_cons_of_mem _ h)
      rw [requests_checkAndRecordRequest, Function.update_self] at hrest
      have hrecord : RequestTracker.record monitor.timeWindow (monitor.requests request.ip)
          request.now = recorded monitor request := rfl
      rw [List.map_cons, unflaggedFrom, hrecord, ResourceMonitor.run, unflagged_cons rfl, hrest]
      rfl

theorem unflagged_eq (monitor : ResourceMonitor Ip)
    (hsorted : requests.Pairwise fun request request' => request.now ≤ request'.now) :
    unflagged ip (monitor.run requests) = unflaggedFrom monitor.requestThreshold monitor.timeWindow
      (monitor.requests ip) (timesOf ip requests) := by
  have hfilter : unflagged ip (monitor.run requests) =
      unflagged ip ((monitor.run requests).filter (·.1.ip = ip)) := by
    rw [unflagged, unflagged, List.filter_filter]
    refine congrArg _ (List.filter_congr fun answer _ => ?_)
    by_cases hip : answer.1.ip = ip <;> simp [hip]
  rw [hfilter, independent monitor hsorted ip, unflagged_run monitor fun request h => by
    simpa using (List.mem_filter.mp h).2]
  rfl

end Sources

/-- The bound holds of exactly those sequences of calls in which the windows of each
source are apart. -/
theorem sliding_bound_iff {Ip : Type*} [DecidableEq Ip] (requestThreshold timeWindowSeconds : ℕ)
    (requests : List (Request Ip))
    (hsorted : requests.Pairwise fun request request' => request.now ≤ request'.now) :
    SlidingBound (.new requestThreshold timeWindowSeconds) requests ∧
        Independent (.new requestThreshold timeWindowSeconds) requests ↔
      ∀ ip, (windows (timeWindowSeconds * nanosPerSec) (timesOf ip requests)).IsChain
        (Apart (timeWindowSeconds * nanosPerSec) requestThreshold) := by
  rw [and_iff_left (independent _ hsorted)]
  refine forall_congr' fun ip => ?_
  have htimes : (timesOf ip requests).Pairwise (· ≤ ·) :=
    List.pairwise_map.mpr (hsorted.sublist List.filter_sublist)
  by_cases hwindow : 0 < timeWindowSeconds * nanosPerSec
  · rw [← countIn_admitted_le_iff hwindow htimes, unflagged_eq _ hsorted,
      ← unflaggedFrom_none hwindow]
    rfl
  · have hzero : timeWindowSeconds * nanosPerSec = 0 := by omega
    have hnone : ∀ a ts, countIn (.new requestThreshold timeWindowSeconds :
        ResourceMonitor Ip).timeWindow a ts = 0 := by
      intro a ts
      rw [countIn, List.countP_eq_zero]
      intro t _
      simp [ResourceMonitor.new, hzero]
    refine iff_of_true (fun a => (hnone a _).trans_le (Nat.zero_le _)) ?_
    rw [hzero]
    exact isChain_windows_zero htimes

/-- The condition for three calls of one source at the seam of two windows. -/
theorem sliding_bound_iff_seam :
    SlidingBound (.new 1 10) [⟨0, 0⟩, ⟨0, 9⟩, ⟨0, 10 * nanosPerSec⟩] ∧
        Independent (.new 1 10) [⟨0, 0⟩, ⟨0, 9⟩, ⟨0, 10 * nanosPerSec⟩] ↔
      ∀ ip : ℕ, (windows (10 * nanosPerSec)
        (timesOf ip [⟨0, 0⟩, ⟨0, 9⟩, ⟨0, 10 * nanosPerSec⟩])).IsChain
          (Apart (10 * nanosPerSec) 1) :=
  sliding_bound_iff 1 10 _ (by decide)

/-- With a threshold of two, three calls within a fifth of the window are let pass. -/
theorem seam_unflagged : ¬∀ (requestThreshold timeWindowSeconds : ℕ) (requests : List (Request ℕ)),
    requests.Pairwise (fun request request' => request.now ≤ request'.now) →
    SlidingBound (.new requestThreshold timeWindowSeconds) requests ∧
      Independent (.new requestThreshold timeWindowSeconds) requests := by
  intro h
  have hbound := (h 2 10 [⟨0, 0⟩, ⟨0, 9 * nanosPerSec⟩, ⟨0, 10 * nanosPerSec⟩,
    ⟨0, 11 * nanosPerSec⟩]
    (by decide)).1 0 (9 * nanosPerSec)
  exact absurd hbound (by decide +kernel)

end SereinGateway.Security
