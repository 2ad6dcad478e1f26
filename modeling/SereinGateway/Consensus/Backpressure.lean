import SereinGateway.Consensus.CanonicalKey
import SereinGateway.Lib.Transition

/-!
`canonical_semantic_key`: hashing offloaded to a worker pool, with a global
counter of pending workers.

Every access to the counter, every step of a worker and the reception of its
result are separate atomic steps, and any number of calls interleave them.
A call that finds the counter above the limit, or whose worker disappears
without sending, returns an indicator string in place of a key. The
indicators are never the key of an answer, but they are equal for all
answers: two calls that return them look alike whatever they were asked.
-/

namespace SereinGateway.Consensus

open SereinGateway.Lib

def rayonBackpressureLimit : ℕ := 1000

/-- Returned when the pending counter is above the limit. -/
def backpressureKey : String := "429_TOO_MANY_REQUESTS_BACKPRESSURE"

/-- Returned when the worker dropped the channel without sending. -/
def workerDroppedKey : String := "500_RAYON_WORKER_DROPPED"

/-- Where the caller of `canonical_semantic_key` stands. -/
inductive CallerPc where
  | idle
  | load
  | increment
  | spawn
  | await
  | returned (key : String)
  | dropped
  deriving DecidableEq, Repr

/-- Where the spawned closure stands. `PendingGuard` exists from `started` on. -/
inductive WorkerPc where
  | absent
  | queued
  | started
  | computing
  | guardDrop
  | finished
  deriving DecidableEq, Repr

/-- The oneshot channel: nothing yet, a value, or a sender that is gone. -/
inductive Channel where
  | empty
  | sent (key : String)
  | lost
  deriving DecidableEq, Repr

/-- One call with its local `current_pending`, its worker and its channel. -/
structure Call where
  rawContent : String
  currentPending : ℕ
  caller : CallerPc
  worker : WorkerPc
  channel : Channel
  deriving DecidableEq, Repr

def Call.unused : Call := ⟨"", 0, .idle, .absent, .empty⟩

inductive CallAction where
  | call (rawContent : String)
  | load
  | increment
  | spawn
  | dropFuture
  | start
  | checkClosed
  | send
  | abandon
  | releaseGuard
  | receive
  deriving DecidableEq, Repr

variable {ν : Type}

/-- One atomic step of a call. The shared state is the counter
`RAYON_PENDING`, a 64-bit word with wrapping addition and subtraction. -/
def Digests.callStep (dg : Digests ν) (_ : ℕ) (pending : UInt64) (c : Call) :
    CallAction → Option (UInt64 × Call)
  | .call raw =>
      if c.caller = .idle then some (pending, { c with rawContent := raw, caller := .load })
      else none
  | .load =>
      if c.caller = .load then
        if rayonBackpressureLimit < pending.toNat then
          some (pending,
            { c with currentPending := pending.toNat, caller := .returned backpressureKey })
        else some (pending, { c with currentPending := pending.toNat, caller := .increment })
      else none
  | .increment =>
      if c.caller = .increment then some (pending + 1, { c with caller := .spawn }) else none
  | .spawn =>
      if c.caller = .spawn then some (pending, { c with caller := .await, worker := .queued })
      else none
  | .dropFuture =>
      if c.caller = .await then some (pending, { c with caller := .dropped }) else none
  | .start =>
      if c.worker = .queued then some (pending, { c with worker := .started }) else none
  | .checkClosed =>
      if c.worker = .started then
        if c.caller = .dropped then
          some (pending, { c with worker := .guardDrop, channel := .lost })
        else some (pending, { c with worker := .computing })
      else none
  | .send =>
      if c.worker = .computing then
        some (pending,
          { c with worker := .guardDrop,
                   channel := .sent (dg.computeCanonicalKeySync c.rawContent) })
      else none
  | .abandon =>
      -- A closure dropped before it runs has no guard yet; one that panics has.
      if c.worker = .queued then
        some (pending, { c with worker := .finished, channel := .lost })
      else if c.worker = .started ∨ c.worker = .computing then
        some (pending, { c with worker := .guardDrop, channel := .lost })
      else none
  | .releaseGuard =>
      if c.worker = .guardDrop then some (pending - 1, { c with worker := .finished }) else none
  | .receive =>
      if c.caller = .await then
        match c.channel with
        | .empty => none
        | .sent key => some (pending, { c with caller := .returned key })
        | .lost => some (pending, { c with caller := .returned workerDroppedKey })
      else none

/-- No call made yet and nothing pending. -/
def noCalls : Pool UInt64 Call := ⟨0, fun _ => .unused⟩

/-- States that interleaved calls can reach. -/
def Digests.Reachable (dg : Digests ν) (p : Pool UInt64 Call) : Prop :=
  Reach (Pool.step dg.callStep) anyStep noCalls p

/-! ### Indicators are not keys -/

theorem computeCanonicalKeySync_head (dg : Digests ν) (raw : String) :
    (dg.computeCanonicalKeySync raw).toList.head? = some 's' ∨
      (dg.computeCanonicalKeySync raw).toList.head? = some 'b' := by
  rw [Digests.computeCanonicalKeySync]
  split
  · right
    simp [String.toList_append]
  · split
    · left
      simp [String.toList_append]
    · right
      simp [String.toList_append]

theorem computeCanonicalKeySync_ne (dg : Digests ν) (raw : String) {indicator : String}
    (hs : indicator.toList.head? ≠ some 's') (hb : indicator.toList.head? ≠ some 'b') :
    dg.computeCanonicalKeySync raw ≠ indicator := by
  rintro rfl
  rcases computeCanonicalKeySync_head dg raw with hhead | hhead
  · exact hs hhead
  · exact hb hhead

theorem computeCanonicalKeySync_ne_backpressureKey (dg : Digests ν) (raw : String) :
    dg.computeCanonicalKeySync raw ≠ backpressureKey :=
  computeCanonicalKeySync_ne dg raw (by decide) (by decide)

theorem computeCanonicalKeySync_ne_workerDroppedKey (dg : Digests ν) (raw : String) :
    dg.computeCanonicalKeySync raw ≠ workerDroppedKey :=
  computeCanonicalKeySync_ne dg raw (by decide) (by decide)

/-! ### What a call can return -/

/-- The three ways a call can come by the key it returned. -/
inductive KeyOrigin (dg : Digests ν) (c : Call) : String → Prop
  | answer : KeyOrigin dg c (dg.computeCanonicalKeySync c.rawContent)
  | overload : rayonBackpressureLimit < c.currentPending → KeyOrigin dg c backpressureKey
  | workerLost : c.channel = .lost → KeyOrigin dg c workerDroppedKey

theorem KeyOrigin.congr {dg : Digests ν} {c c' : Call} {key : String} (h : KeyOrigin dg c key)
    (hraw : c'.rawContent = c.rawContent) (hcur : c'.currentPending = c.currentPending)
    (hlost : c.channel = .lost → c'.channel = .lost) : KeyOrigin dg c' key := by
  cases h with
  | answer => exact hraw ▸ .answer
  | overload hover => exact .overload (hcur ▸ hover)
  | workerLost hch => exact .workerLost (hlost hch)

def CallerPc.beforeSpawn : CallerPc → Bool
  | .idle | .load | .increment | .spawn => true
  | .await | .returned _ | .dropped => false

structure CallInv (dg : Digests ν) (c : Call) : Prop where
  sent : ∀ key, c.channel = .sent key → key = dg.computeCanonicalKeySync c.rawContent
  closed : c.channel ≠ .empty → c.worker = .guardDrop ∨ c.worker = .finished
  fresh : c.caller.beforeSpawn = true → c.worker = .absent ∧ c.channel = .empty
  returned : ∀ key, c.caller = .returned key → KeyOrigin dg c key

theorem callInv_unused (dg : Digests ν) : CallInv dg Call.unused := by
  constructor <;> simp [Call.unused]

theorem CallInv.channel_empty {dg : Digests ν} {c : Call} (h : CallInv dg c)
    (hguard : c.worker ≠ .guardDrop) (hfin : c.worker ≠ .finished) : c.channel = .empty := by
  by_contra hne
  rcases h.closed hne with hw | hw
  · exact hguard hw
  · exact hfin hw

theorem CallInv.spawned {dg : Digests ν} {c : Call} (h : CallInv dg c)
    (hw : c.worker ≠ .absent) : c.caller.beforeSpawn ≠ true :=
  fun hb => hw (h.fresh hb).1

/-- A step of the worker that ends with `channel` in the channel: the caller
is untouched, and what it may already have returned stays justified. -/
theorem CallInv.worker_step {dg : Digests ν} {c : Call} (h : CallInv dg c) (w : WorkerPc)
    (ch : Channel) (hspawned : c.worker ≠ .absent) (hempty : c.channel = .empty)
    (hsent : ∀ key, ch = .sent key → key = dg.computeCanonicalKeySync c.rawContent)
    (hclosed : ch ≠ .empty → w = .guardDrop ∨ w = .finished) :
    CallInv dg { c with worker := w, channel := ch } := by
  refine ⟨hsent, hclosed, ?_, ?_⟩
  · intro hb
    exact absurd hb (h.spawned hspawned)
  · intro key hkey
    refine (h.returned key hkey).congr rfl rfl ?_
    intro hlost
    rw [hempty] at hlost
    simp at hlost

theorem callInv_step {dg : Digests ν} {i : ℕ} {pending pending' : UInt64} {c c' : Call}
    {a : CallAction} (h : CallInv dg c)
    (hstep : dg.callStep i pending c a = some (pending', c')) : CallInv dg c' := by
  cases a with
  | call raw =>
      simp only [Digests.callStep, Option.ite_none_right_eq_some, Option.some.injEq,
        Prod.mk.injEq] at hstep
      obtain ⟨hpc, -, rfl⟩ := hstep
      obtain ⟨hworker, hempty⟩ := h.fresh (by rw [hpc]; rfl)
      exact ⟨by simp [hempty], by simp [hempty], by simp [hworker, hempty], by simp⟩
  | load =>
      simp only [Digests.callStep, Option.ite_none_right_eq_some] at hstep
      obtain ⟨hpc, hstep⟩ := hstep
      obtain ⟨hworker, hempty⟩ := h.fresh (by rw [hpc]; rfl)
      split at hstep
      · rename_i hover
        simp only [Option.some.injEq, Prod.mk.injEq] at hstep
        obtain ⟨-, rfl⟩ := hstep
        refine ⟨h.sent, h.closed, by simp [CallerPc.beforeSpawn], ?_⟩
        intro key hkey
        simp only [CallerPc.returned.injEq] at hkey
        subst hkey
        exact .overload hover
      · simp only [Option.some.injEq, Prod.mk.injEq] at hstep
        obtain ⟨-, rfl⟩ := hstep
        exact ⟨h.sent, h.closed, by simp [hworker, hempty], by simp⟩
  | increment =>
      simp only [Digests.callStep, Option.ite_none_right_eq_some, Option.some.injEq,
        Prod.mk.injEq] at hstep
      obtain ⟨hpc, -, rfl⟩ := hstep
      obtain ⟨hworker, hempty⟩ := h.fresh (by rw [hpc]; rfl)
      exact ⟨h.sent, h.closed, by simp [hworker, hempty], by simp⟩
  | spawn =>
      simp only [Digests.callStep, Option.ite_none_right_eq_some, Option.some.injEq,
        Prod.mk.injEq] at hstep
      obtain ⟨hpc, -, rfl⟩ := hstep
      obtain ⟨hworker, hempty⟩ := h.fresh (by rw [hpc]; rfl)
      exact ⟨h.sent, by simp [hempty], by simp [CallerPc.beforeSpawn], by simp⟩
  | dropFuture =>
      simp only [Digests.callStep, Option.ite_none_right_eq_some, Option.some.injEq,
        Prod.mk.injEq] at hstep
      obtain ⟨-, -, rfl⟩ := hstep
      exact ⟨h.sent, h.closed, by simp [CallerPc.beforeSpawn], by simp⟩
  | start =>
      simp only [Digests.callStep, Option.ite_none_right_eq_some, Option.some.injEq,
        Prod.mk.injEq] at hstep
      obtain ⟨hw, -, rfl⟩ := hstep
      have hempty := h.channel_empty (by simp [hw]) (by simp [hw])
      exact h.worker_step .started c.channel (by simp [hw]) hempty h.sent (by simp [hempty])
  | checkClosed =>
      simp only [Digests.callStep, Option.ite_none_right_eq_some] at hstep
      obtain ⟨hw, hstep⟩ := hstep
      have hempty := h.channel_empty (by simp [hw]) (by simp [hw])
      split at hstep
      · simp only [Option.some.injEq, Prod.mk.injEq] at hstep
        obtain ⟨-, rfl⟩ := hstep
        exact h.worker_step .guardDrop .lost (by simp [hw]) hempty (by simp) (by simp)
      · simp only [Option.some.injEq, Prod.mk.injEq] at hstep
        obtain ⟨-, rfl⟩ := hstep
        exact h.worker_step .computing c.channel (by simp [hw]) hempty h.sent (by simp [hempty])
  | send =>
      simp only [Digests.callStep, Option.ite_none_right_eq_some, Option.some.injEq,
        Prod.mk.injEq] at hstep
      obtain ⟨hw, -, rfl⟩ := hstep
      have hempty := h.channel_empty (by simp [hw]) (by simp [hw])
      exact h.worker_step .guardDrop (.sent _) (by simp [hw]) hempty
        (fun key hkey => (Channel.sent.inj hkey).symm) (by simp)
  | abandon =>
      simp only [Digests.callStep] at hstep
      split at hstep
      · rename_i hw
        have hempty := h.channel_empty (by simp [hw]) (by simp [hw])
        simp only [Option.some.injEq, Prod.mk.injEq] at hstep
        obtain ⟨-, rfl⟩ := hstep
        exact h.worker_step .finished .lost (by simp [hw]) hempty (by simp) (by simp)
      · simp only [Option.ite_none_right_eq_some, Option.some.injEq, Prod.mk.injEq] at hstep
        obtain ⟨hw, -, rfl⟩ := hstep
        have hrun : c.worker ≠ .absent ∧ c.worker ≠ .guardDrop ∧ c.worker ≠ .finished := by
          rcases hw with hw | hw <;> simp [hw]
        exact h.worker_step .guardDrop .lost hrun.1 (h.channel_empty hrun.2.1 hrun.2.2)
          (by simp) (by simp)
  | releaseGuard =>
      simp only [Digests.callStep, Option.ite_none_right_eq_some, Option.some.injEq,
        Prod.mk.injEq] at hstep
      obtain ⟨hw, -, rfl⟩ := hstep
      refine ⟨h.sent, by simp, ?_, ?_⟩
      · intro hb
        exact absurd hb (h.spawned (by simp [hw]))
      · intro key hkey
        exact (h.returned key hkey).congr rfl rfl id
  | receive =>
      simp only [Digests.callStep, Option.ite_none_right_eq_some] at hstep
      obtain ⟨hpc, hstep⟩ := hstep
      cases hch : c.channel with
      | empty => simp [hch] at hstep
      | sent key =>
          simp only [hch, Option.some.injEq, Prod.mk.injEq] at hstep
          obtain ⟨-, rfl⟩ := hstep
          refine ⟨fun key' hkey => h.sent key' (hch.trans hkey), fun _ => h.closed (by simp [hch]),
            by simp [CallerPc.beforeSpawn], ?_⟩
          intro key' hkey
          simp only [CallerPc.returned.injEq] at hkey
          subst hkey
          exact h.sent key hch ▸ .answer
      | lost =>
          simp only [hch, Option.some.injEq, Prod.mk.injEq] at hstep
          obtain ⟨-, rfl⟩ := hstep
          refine ⟨by simp, fun _ => h.closed (by simp [hch]), by simp [CallerPc.beforeSpawn], ?_⟩
          intro key' hkey
          simp only [CallerPc.returned.injEq] at hkey
          subst hkey
          exact .workerLost rfl

theorem callInv_reachable {dg : Digests ν} {p : Pool UInt64 Call} (h : dg.Reachable p) :
    ∀ i, CallInv dg (p.task i) := by
  refine Reach.invariant (I := fun p => ∀ i, CallInv dg (p.task i)) h
    (fun _ => callInv_unused dg) ?_
  intro p e q hinv _ hstep
  obtain ⟨s, t, hact, rfl⟩ := Pool.step_eq_some.mp hstep
  exact Pool.forall_task (Q := fun _ _ c => CallInv dg c) (s := s) hinv
    (callInv_step (hinv e.1) hact) (fun _ _ hj => hj)

/-- Two calls that return one key were asked for answers with one
`compute_canonical_key_sync` value, unless both returned the backpressure
indicator after reading a counter above the limit or both returned the
worker-dropped indicator after losing their worker; and neither indicator is
the value of any answer. -/
theorem same_key_cases (dg : Digests ν) {p : Pool UInt64 Call} (h : dg.Reachable p)
    {i j : ℕ} {key : String} (hi : (p.task i).caller = .returned key)
    (hj : (p.task j).caller = .returned key) :
    (dg.computeCanonicalKeySync (p.task i).rawContent =
        dg.computeCanonicalKeySync (p.task j).rawContent ∨
      (key = backpressureKey ∧ rayonBackpressureLimit < (p.task i).currentPending ∧
        rayonBackpressureLimit < (p.task j).currentPending) ∨
      (key = workerDroppedKey ∧ (p.task i).channel = .lost ∧ (p.task j).channel = .lost)) ∧
    ∀ raw, dg.computeCanonicalKeySync raw ≠ backpressureKey ∧
      dg.computeCanonicalKeySync raw ≠ workerDroppedKey := by
  refine ⟨?_, fun raw => ⟨computeCanonicalKeySync_ne_backpressureKey dg raw,
    computeCanonicalKeySync_ne_workerDroppedKey dg raw⟩⟩
  have hoi := (callInv_reachable h i).returned key hi
  have hoj := (callInv_reachable h j).returned key hj
  generalize hki : key = ki at hoi
  generalize hkj : key = kj at hoj
  have hij : ki = kj := hki.symm.trans hkj
  cases hoi with
  | answer =>
      cases hoj with
      | answer => exact .inl hij
      | overload => exact absurd hij (computeCanonicalKeySync_ne_backpressureKey dg _)
      | workerLost => exact absurd hij (computeCanonicalKeySync_ne_workerDroppedKey dg _)
  | overload hi =>
      cases hoj with
      | answer => exact absurd hij.symm (computeCanonicalKeySync_ne_backpressureKey dg _)
      | overload hj => exact .inr (.inl ⟨rfl, hi, hj⟩)
      | workerLost => exact absurd hij (by decide)
  | workerLost hi =>
      cases hoj with
      | answer => exact absurd hij.symm (computeCanonicalKeySync_ne_workerDroppedKey dg _)
      | overload => exact absurd hij (by decide)
      | workerLost hj => exact .inr (.inr ⟨rfl, hi, hj⟩)

/-! ### Overload makes different answers look alike -/

/-- BLAKE3 on the two plain answers `yes` and `no`. -/
def yesNoDigests : Digests ℕ where
  fromStr _ := .error "expected value at line 1 column 1"
  toStr _ := ""
  sha256 _ := Vector.replicate 32 0
  blake3 bytes :=
    if bytes = "yes".toByteArray then
      #v[0xdd, 0x10, 0x81, 0x92, 0xbc, 0x0b, 0xe9, 0x70, 0x1b, 0x94, 0xb6, 0x8f, 0xc9, 0x64,
        0xde, 0x0a, 0x79, 0x9d, 0x2a, 0x83, 0xbb, 0xa1, 0x15, 0x0e, 0x3c, 0x50, 0x13, 0x12,
        0xa4, 0xcd, 0x11, 0xcf]
    else
      #v[0xc4, 0x58, 0xf6, 0x75, 0x5c, 0x9d, 0x2a, 0x9f, 0x81, 0xd3, 0x09, 0x1d, 0x6b, 0x54,
        0x0b, 0xc7, 0x24, 0x8f, 0xba, 0x48, 0x8c, 0x79, 0xce, 0x3d, 0xf5, 0xbe, 0x1f, 0xcd,
        0xd8, 0x4d, 0x06, 0x61]

def servedSchedule : List (ℕ × CallAction) :=
  [0, 1].flatMap fun i =>
    [(i, .call "yes"), (i, .load), (i, .increment), (i, .spawn), (i, .start), (i, .checkClosed),
      (i, .send), (i, .receive), (i, .releaseGuard)]

theorem same_key_cases_served :
    ∃ p, yesNoDigests.Reachable p ∧
      (p.task 0).caller = .returned (yesNoDigests.computeCanonicalKeySync "yes") ∧
      (yesNoDigests.computeCanonicalKeySync (p.task 0).rawContent =
          yesNoDigests.computeCanonicalKeySync (p.task 1).rawContent ∨
        (yesNoDigests.computeCanonicalKeySync "yes" = backpressureKey ∧
          rayonBackpressureLimit < (p.task 0).currentPending ∧
          rayonBackpressureLimit < (p.task 1).currentPending) ∨
        (yesNoDigests.computeCanonicalKeySync "yes" = workerDroppedKey ∧
          (p.task 0).channel = .lost ∧ (p.task 1).channel = .lost)) := by
  have hrun : yesNoDigests.Reachable
      ((exec (Pool.step yesNoDigests.callStep) noCalls servedSchedule).getD noCalls) :=
    Reach.of_exec servedSchedule rfl
  exact ⟨_, hrun, rfl, (same_key_cases yesNoDigests hrun (i := 0) (j := 1) rfl rfl).1⟩

/-- Calls that stop right after their increment drive the counter up to 1001. -/
theorem reachable_pending (dg : Digests ν) (n : ℕ) (hn : n ≤ 1001) :
    ∃ p, dg.Reachable p ∧ p.shared.toNat = n ∧ ∀ j, n ≤ j → p.task j = Call.unused := by
  induction n with
  | zero => exact ⟨noCalls, .refl, rfl, fun _ _ => rfl⟩
  | succ n ih =>
      obtain ⟨p, hp, hpending, hunused⟩ := ih (by omega)
      have hfree := hunused n le_rfl
      have hbelow : ¬rayonBackpressureLimit < n := by
        rw [rayonBackpressureLimit]
        omega
      have hexec : exec (Pool.step dg.callStep) p [(n, .call ""), (n, .load), (n, .increment)] =
          some ⟨p.shared + 1, Function.update (Function.update (Function.update p.task n
            ⟨"", 0, .load, .absent, .empty⟩) n ⟨"", n, .increment, .absent, .empty⟩) n
            ⟨"", n, .spawn, .absent, .empty⟩⟩ := by
        simp [exec, Pool.step, Digests.callStep, hfree, Call.unused, hbelow, hpending]
      refine ⟨_, hp.trans (Reach.of_exec _ hexec), ?_, ?_⟩
      · have hone : (1 : UInt64).toNat = 1 := rfl
        rw [UInt64.toNat_add, hpending, hone]
        omega
      · intro j hj
        have hne : j ≠ n := by omega
        simp only [Function.update_of_ne hne]
        exact hunused j (by omega)

/-- With 1001 workers pending, two calls with different answers return the
same key. -/
theorem overload_confuses_answers :
    ¬∀ (p : Pool UInt64 Call) (i j : ℕ) (key : String), yesNoDigests.Reachable p →
      (p.task i).caller = .returned key → (p.task j).caller = .returned key → key ≠ "" →
      yesNoDigests.computeCanonicalKeySync (p.task i).rawContent =
        yesNoDigests.computeCanonicalKeySync (p.task j).rawContent := by
  intro hall
  obtain ⟨p, hp, hpending, hunused⟩ := reachable_pending yesNoDigests 1001 le_rfl
  have hover : rayonBackpressureLimit < 1001 := by decide
  have hexec : exec (Pool.step yesNoDigests.callStep) p
      [(1001, .call "yes"), (1001, .load), (1002, .call "no"), (1002, .load)] =
      some ⟨p.shared, Function.update (Function.update (Function.update (Function.update p.task
        1001 ⟨"yes", 0, .load, .absent, .empty⟩)
        1001 ⟨"yes", 1001, .returned backpressureKey, .absent, .empty⟩)
        1002 ⟨"no", 0, .load, .absent, .empty⟩)
        1002 ⟨"no", 1001, .returned backpressureKey, .absent, .empty⟩⟩ := by
    simp [exec, Pool.step, Digests.callStep, hunused, Call.unused, hover, hpending]
  have hsame := hall _ 1001 1002 backpressureKey (hp.trans (Reach.of_exec _ hexec))
    rfl rfl (by decide)
  revert hsame
  simp only [Function.update_self, Function.update_of_ne (show (1001 : ℕ) ≠ 1002 by decide)]
  decide

end SereinGateway.Consensus
