import SereinGateway.Lib.Transition
import SereinGateway.Router.Orchestrator

/-!
`CacheSingleFlight::dedup` as a machine of interleaved calls.

Each critical section is one atomic step, and so is the creation of the
`Notified` future, which registers the caller with the number of
`notify_waiters` calls made so far: it is woken by the next one, and a call
that comes before the registration is lost on it. A call looks up its key in
one section and inserts its entry in another. The guard's `Drop` holds the
map while it locks the entry, so no other task sees the map in between and it
is one step.

Every call allocates at most one entry, so an entry is named by the call that
allocated it, and `inflight` holds such names. A dropped future takes its step
at an await point: a leader while its closure runs, a watcher while it waits.
-/

namespace SereinGateway.Router

open SereinGateway.Lib

/-- An entry; `notifyCalls` counts the calls of `notify_waiters` on its `Notify`. -/
structure SingleFlightEntry (ρ : Type) where
  result : Option ρ
  cancelled : Bool
  notifyCalls : ℕ
  deriving DecidableEq, Repr

def SingleFlightEntry.new {ρ : Type} : SingleFlightEntry ρ := ⟨none, false, 0⟩

/-- The shared state: the map, and the entries by the call that owns them. -/
structure CacheSingleFlight (ρ : Type) where
  inflight : String → Option ℕ
  entry : ℕ → SingleFlightEntry ρ

def CacheSingleFlight.new {ρ : Type} : CacheSingleFlight ρ := ⟨fun _ => none, fun _ => .new⟩

/-- Where a watcher of the entry `e` returns, and what made it return. -/
inductive WatcherExit where
  | published (e : ℕ)
  | leaderCancelled (e : ℕ)
  | notified (e : ℕ)
  | timedOut (e : ℕ)
  deriving DecidableEq, Repr

/-- Where a call of `dedup` stands. -/
inductive DedupPc (ρ : Type) where
  | lookup
  | firstCheck (e : ℕ)
  | secondCheck (e : ℕ)
  | register (e : ℕ)
  | waiting (e seen : ℕ)
  | woken (e : ℕ)
  | insert
  | running
  | publish (result : ρ)
  | dropGuard (result : Option ρ)
  | watcherReturned (exit : WatcherExit) (result : ρ)
  | leaderReturned (result : ρ)
  | dropped
  deriving DecidableEq, Repr

structure DedupCall (ρ : Type) where
  key : String
  pc : DedupPc ρ
  deriving DecidableEq, Repr

inductive DedupAction (ρ : Type) where
  /-- The next critical section, or waking up when notified. -/
  | proceed
  /-- The closure completes. -/
  | complete (result : ρ)
  | timeout
  | dropFuture
  deriving DecidableEq, Repr

variable {ρ : Type} [Inhabited ρ]

/-- The early returns shared by both checks of a watcher. -/
def checkEntry (entry : SingleFlightEntry ρ) (e : ℕ) (next : DedupPc ρ) : DedupPc ρ :=
  match entry.result with
  | some result => .watcherReturned (.published e) result
  | none => if entry.cancelled then .watcherReturned (.leaderCancelled e) default else next

/-- What a woken watcher returns. -/
def wokenResult (entry : SingleFlightEntry ρ) : ρ :=
  if entry.cancelled then default else entry.result.getD default

namespace CacheSingleFlight

/-- `SingleFlightGuard::drop`: remove whatever entry the key has, and cancel
it if it holds no result. -/
def dropGuard (sf : CacheSingleFlight ρ) (key : String) : CacheSingleFlight ρ :=
  match sf.inflight key with
  | none => sf
  | some e =>
      let inflight := Function.update sf.inflight key none
      let entry := sf.entry e
      if entry.result = none ∧ entry.cancelled = false then
        ⟨inflight, Function.update sf.entry e
          { entry with cancelled := true, notifyCalls := entry.notifyCalls + 1 }⟩
      else ⟨inflight, sf.entry⟩

end CacheSingleFlight

/-- One atomic step of the call `i`. -/
def dedupStep (i : ℕ) (sf : CacheSingleFlight ρ) (c : DedupCall ρ) :
    DedupAction ρ → Option (CacheSingleFlight ρ × DedupCall ρ)
  | .proceed =>
      match c.pc with
      | .lookup =>
          match sf.inflight c.key with
          | some e => some (sf, { c with pc := .firstCheck e })
          | none => some (sf, { c with pc := .insert })
      | .firstCheck e => some (sf, { c with pc := checkEntry (sf.entry e) e (.secondCheck e) })
      | .secondCheck e => some (sf, { c with pc := checkEntry (sf.entry e) e (.register e) })
      -- `notified()` is woken by the calls of `notify_waiters` that come after it.
      | .register e => some (sf, { c with pc := .waiting e (sf.entry e).notifyCalls })
      | .waiting e seen =>
          if (sf.entry e).notifyCalls ≠ seen then some (sf, { c with pc := .woken e }) else none
      | .woken e =>
          some (sf, { c with pc := .watcherReturned (.notified e) (wokenResult (sf.entry e)) })
      | .insert =>
          -- `insert` overwrites an entry that came in since the look-up.
          some (⟨Function.update sf.inflight c.key (some i), Function.update sf.entry i .new⟩,
            { c with pc := .running })
      | .publish result =>
          some (⟨sf.inflight, Function.update sf.entry i
              { sf.entry i with
                result := some result, notifyCalls := (sf.entry i).notifyCalls + 1 }⟩,
            { c with pc := .dropGuard (some result) })
      | .dropGuard result =>
          some (sf.dropGuard c.key, { c with pc := result.elim .dropped .leaderReturned })
      | .running | .watcherReturned _ _ | .leaderReturned _ | .dropped => none
  | .complete result =>
      match c.pc with
      | .running => some (sf, { c with pc := .publish result })
      | _ => none
  | .timeout =>
      match c.pc with
      | .waiting e seen =>
          -- `timeout` polls the inner future first.
          if (sf.entry e).notifyCalls = seen then
            some (sf, { c with pc := .watcherReturned (.timedOut e) default })
          else none
      | _ => none
  | .dropFuture =>
      match c.pc with
      | .running => some (sf, { c with pc := .dropGuard none })
      | .waiting _ _ => some (sf, { c with pc := .dropped })
      | _ => none

/-- All calls before their look-up, the call `i` with the key `keys i`. -/
def dedupStart (ρ : Type) (keys : ℕ → String) : Pool (CacheSingleFlight ρ) (DedupCall ρ) :=
  ⟨.new, fun i => ⟨keys i, .lookup⟩⟩

def DedupCall.isRunning {ρ : Type} (c : DedupCall ρ) : Prop := c.pc = .running

/-! ### What a step can do -/

/-- The steps of the call `i`, with the shared state and the position after
each of them. -/
inductive DedupMove (i : ℕ) (sf : CacheSingleFlight ρ) (c : DedupCall ρ) :
    DedupAction ρ → CacheSingleFlight ρ → DedupPc ρ → Prop
  | found {e : ℕ} : c.pc = .lookup → sf.inflight c.key = some e →
      DedupMove i sf c .proceed sf (.firstCheck e)
  | absent : c.pc = .lookup → sf.inflight c.key = none → DedupMove i sf c .proceed sf .insert
  | firstCheck {e : ℕ} : c.pc = .firstCheck e →
      DedupMove i sf c .proceed sf (checkEntry (sf.entry e) e (.secondCheck e))
  | secondCheck {e : ℕ} : c.pc = .secondCheck e →
      DedupMove i sf c .proceed sf (checkEntry (sf.entry e) e (.register e))
  | register {e : ℕ} : c.pc = .register e →
      DedupMove i sf c .proceed sf (.waiting e (sf.entry e).notifyCalls)
  | wake {e seen : ℕ} : c.pc = .waiting e seen → (sf.entry e).notifyCalls ≠ seen →
      DedupMove i sf c .proceed sf (.woken e)
  | woken {e : ℕ} : c.pc = .woken e →
      DedupMove i sf c .proceed sf (.watcherReturned (.notified e) (wokenResult (sf.entry e)))
  | insert : c.pc = .insert →
      DedupMove i sf c .proceed
        ⟨Function.update sf.inflight c.key (some i), Function.update sf.entry i .new⟩ .running
  | publish {result : ρ} : c.pc = .publish result →
      DedupMove i sf c .proceed
        ⟨sf.inflight, Function.update sf.entry i
          { sf.entry i with result := some result, notifyCalls := (sf.entry i).notifyCalls + 1 }⟩
        (.dropGuard (some result))
  | dropGuard {result : Option ρ} : c.pc = .dropGuard result →
      DedupMove i sf c .proceed (sf.dropGuard c.key) (result.elim .dropped .leaderReturned)
  | complete {result : ρ} : c.pc = .running →
      DedupMove i sf c (.complete result) sf (.publish result)
  | timeout {e seen : ℕ} : c.pc = .waiting e seen → (sf.entry e).notifyCalls = seen →
      DedupMove i sf c .timeout sf (.watcherReturned (.timedOut e) default)
  | dropLeader : c.pc = .running → DedupMove i sf c .dropFuture sf (.dropGuard none)
  | dropWatcher {e seen : ℕ} : c.pc = .waiting e seen →
      DedupMove i sf c .dropFuture sf .dropped

theorem dedupStep_move {i : ℕ} {sf sf' : CacheSingleFlight ρ} {c c' : DedupCall ρ}
    {a : DedupAction ρ} (h : dedupStep i sf c a = some (sf', c')) :
    ∃ pc, c' = { c with pc := pc } ∧ DedupMove i sf c a sf' pc := by
  cases a with
  | proceed =>
      cases hpc : c.pc with
      | lookup =>
          cases hin : sf.inflight c.key <;> simp [dedupStep, hpc, hin] at h
          · exact ⟨_, h.2.symm, h.1 ▸ .absent hpc hin⟩
          · exact ⟨_, h.2.symm, h.1 ▸ .found hpc hin⟩
      | firstCheck e =>
          simp only [dedupStep, hpc, Option.some.injEq, Prod.mk.injEq] at h
          exact ⟨_, h.2.symm, h.1 ▸ .firstCheck hpc⟩
      | secondCheck e =>
          simp only [dedupStep, hpc, Option.some.injEq, Prod.mk.injEq] at h
          exact ⟨_, h.2.symm, h.1 ▸ .secondCheck hpc⟩
      | register e =>
          simp only [dedupStep, hpc, Option.some.injEq, Prod.mk.injEq] at h
          exact ⟨_, h.2.symm, h.1 ▸ .register hpc⟩
      | waiting e seen =>
          simp only [dedupStep, hpc, Option.ite_none_right_eq_some, Option.some.injEq,
            Prod.mk.injEq] at h
          obtain ⟨hseen, rfl, rfl⟩ := h
          exact ⟨_, rfl, .wake hpc hseen⟩
      | woken e =>
          simp only [dedupStep, hpc, Option.some.injEq, Prod.mk.injEq] at h
          exact ⟨_, h.2.symm, h.1 ▸ .woken hpc⟩
      | insert =>
          simp only [dedupStep, hpc, Option.some.injEq, Prod.mk.injEq] at h
          exact ⟨_, h.2.symm, h.1 ▸ .insert hpc⟩
      | publish result =>
          simp only [dedupStep, hpc, Option.some.injEq, Prod.mk.injEq] at h
          exact ⟨_, h.2.symm, h.1 ▸ .publish hpc⟩
      | dropGuard result =>
          simp only [dedupStep, hpc, Option.some.injEq, Prod.mk.injEq] at h
          exact ⟨_, h.2.symm, h.1 ▸ .dropGuard hpc⟩
      | running => simp [dedupStep, hpc] at h
      | watcherReturned exit result => simp [dedupStep, hpc] at h
      | leaderReturned result => simp [dedupStep, hpc] at h
      | dropped => simp [dedupStep, hpc] at h
  | complete result =>
      simp only [dedupStep] at h
      split at h
      · rename_i hpc
        simp only [Option.some.injEq, Prod.mk.injEq] at h
        exact ⟨_, h.2.symm, h.1 ▸ .complete hpc⟩
      · simp at h
  | timeout =>
      simp only [dedupStep] at h
      split at h
      · rename_i e seen hpc
        simp only [Option.ite_none_right_eq_some, Option.some.injEq, Prod.mk.injEq] at h
        obtain ⟨hseen, rfl, rfl⟩ := h
        exact ⟨_, rfl, .timeout hpc hseen⟩
      · simp at h
  | dropFuture =>
      simp only [dedupStep] at h
      split at h
      · rename_i hpc
        simp only [Option.some.injEq, Prod.mk.injEq] at h
        exact ⟨_, h.2.symm, h.1 ▸ .dropLeader hpc⟩
      · rename_i e seen hpc
        simp only [Option.some.injEq, Prod.mk.injEq] at h
        exact ⟨_, h.2.symm, h.1 ▸ .dropWatcher hpc⟩
      · simp at h

theorem checkEntry_cases (entry : SingleFlightEntry ρ) (e : ℕ) (next : DedupPc ρ) :
    checkEntry entry e next = next ∧ entry.result = none ∨
      (∃ result, checkEntry entry e next = .watcherReturned (.published e) result ∧
        entry.result = some result) ∨
      (checkEntry entry e next = .watcherReturned (.leaderCancelled e) default ∧
        entry.result = none ∧ entry.cancelled = true) := by
  rw [checkEntry]
  split
  · rename_i result hres
    exact .inr (.inl ⟨result, rfl, hres⟩)
  · rename_i hres
    split
    · rename_i hcancel
      exact .inr (.inr ⟨rfl, hres, hcancel⟩)
    · exact .inl ⟨rfl, hres⟩

theorem checkEntry_of (entry : SingleFlightEntry ρ) (e : ℕ) {next : DedupPc ρ}
    {P : DedupPc ρ → Prop} (hnext : P next) (hreturn : ∀ exit r, P (.watcherReturned exit r)) :
    P (checkEntry entry e next) := by
  rcases checkEntry_cases entry e next with ⟨heq, -⟩ | ⟨result, heq, -⟩ | ⟨heq, -⟩
  · rw [heq]
    exact hnext
  · rw [heq]
    exact hreturn _ _
  · rw [heq]
    exact hreturn _ _

/-- The closure starts with the insertion. -/
theorem DedupMove.to_running {i : ℕ} {sf sf' : CacheSingleFlight ρ} {c : DedupCall ρ}
    {a : DedupAction ρ} {pc : DedupPc ρ} (h : DedupMove i sf c a sf' pc) (hpc : pc = .running) :
    c.pc = .insert := by
  cases h with
  | insert hinsert => exact hinsert
  | firstCheck _ =>
      exact absurd hpc (checkEntry_of (P := (· ≠ .running)) _ _ (by simp) (by simp))
  | secondCheck _ =>
      exact absurd hpc (checkEntry_of (P := (· ≠ .running)) _ _ (by simp) (by simp))
  | @dropGuard result _ => cases result <;> simp at hpc
  | found | absent | register | wake | woken | publish | complete | timeout | dropLeader
  | dropWatcher => simp at hpc

/-- While the closure runs, it completes or is dropped. -/
theorem DedupMove.of_running {i : ℕ} {sf sf' : CacheSingleFlight ρ} {c : DedupCall ρ}
    {a : DedupAction ρ} {pc : DedupPc ρ} (h : DedupMove i sf c a sf' pc)
    (hpc : c.pc = .running) : (∃ result, a = .complete result) ∨ a = .dropFuture := by
  cases h with
  | complete _ => exact .inl ⟨_, rfl⟩
  | dropLeader _ => exact .inr rfl
  | dropWatcher _ => exact .inr rfl
  | found h | absent h | firstCheck h | secondCheck h | register h | wake h | woken h | insert h
  | publish h | dropGuard h | timeout h => simp [hpc] at h

omit [Inhabited ρ] in
theorem inflight_dropGuard (sf : CacheSingleFlight ρ) (key : String) :
    (sf.dropGuard key).inflight = Function.update sf.inflight key none := by
  rw [CacheSingleFlight.dropGuard]
  split
  · rename_i h
    exact (Function.update_eq_self_iff.mpr h.symm).symm
  · dsimp only
    split <;> rfl

/-! ### Exclusion -/

def DedupPc.leads {ρ : Type} : DedupPc ρ → Bool
  | .running | .publish _ | .dropGuard _ => true
  | .lookup | .firstCheck _ | .secondCheck _ | .register _ | .waiting _ _ | .woken _ | .insert
  | .watcherReturned _ _ | .leaderReturned _ | .dropped => false

/-- A call about to insert its entry finds its key absent. -/
def insertsAbsent (p : Pool (CacheSingleFlight ρ) (DedupCall ρ)) (a : ℕ × DedupAction ρ) : Prop :=
  (p.task a.1).pc = .insert → p.shared.inflight (p.task a.1).key = none

instance (p : Pool (CacheSingleFlight ρ) (DedupCall ρ)) (a : ℕ × DedupAction ρ)
    [DecidableEq ρ] : Decidable (insertsAbsent p a) :=
  inferInstanceAs (Decidable (_ → _))

omit [Inhabited ρ] in
theorem leads_elim (result : Option ρ) :
    (result.elim DedupPc.dropped DedupPc.leaderReturned).leads = false := by
  cases result <;> rfl

theorem leads_checkEntry (entry : SingleFlightEntry ρ) (e : ℕ) (next : DedupPc ρ)
    (h : next.leads = false) : (checkEntry entry e next).leads = false :=
  checkEntry_of (P := fun pc => pc.leads = false) entry e h fun _ _ => rfl

/-- The map changes in two kinds of steps: a call installs its entry, or it
clears its key and stops leading. -/
theorem DedupMove.map_cases {i : ℕ} {sf sf' : CacheSingleFlight ρ} {c : DedupCall ρ}
    {a : DedupAction ρ} {pc : DedupPc ρ} (h : DedupMove i sf c a sf' pc) :
    (sf'.inflight = sf.inflight ∧ (pc.leads = true → c.pc.leads = true)) ∨
    (c.pc = .insert ∧ sf'.inflight = Function.update sf.inflight c.key (some i)) ∨
    (c.pc.leads = true ∧ pc.leads = false ∧
      sf'.inflight = Function.update sf.inflight c.key none) := by
  cases h with
  | found hpc _ => exact .inl ⟨rfl, by simp [DedupPc.leads]⟩
  | absent hpc _ => exact .inl ⟨rfl, by simp [DedupPc.leads]⟩
  | firstCheck hpc => exact .inl ⟨rfl, by simp [leads_checkEntry _ _ (.secondCheck _) rfl]⟩
  | secondCheck hpc => exact .inl ⟨rfl, by simp [leads_checkEntry _ _ (.register _) rfl]⟩
  | register hpc => exact .inl ⟨rfl, by simp [DedupPc.leads]⟩
  | wake hpc _ => exact .inl ⟨rfl, by simp [DedupPc.leads]⟩
  | woken hpc => exact .inl ⟨rfl, by simp [DedupPc.leads]⟩
  | insert hpc => exact .inr (.inl ⟨hpc, rfl⟩)
  | publish hpc => exact .inl ⟨rfl, by simp [hpc, DedupPc.leads]⟩
  | dropGuard hpc =>
      exact .inr (.inr ⟨by simp [hpc, DedupPc.leads], leads_elim _, inflight_dropGuard _ _⟩)
  | complete hpc => exact .inl ⟨rfl, by simp [hpc, DedupPc.leads]⟩
  | timeout hpc _ => exact .inl ⟨rfl, by simp [DedupPc.leads]⟩
  | dropLeader hpc => exact .inl ⟨rfl, by simp [hpc, DedupPc.leads]⟩
  | dropWatcher hpc => exact .inl ⟨rfl, by simp [DedupPc.leads]⟩

/-- A leader is the owner of the entry under its key. -/
def Installed (sf : CacheSingleFlight ρ) (i : ℕ) (c : DedupCall ρ) : Prop :=
  c.pc.leads = true → sf.inflight c.key = some i

theorem installed_step {p q : Pool (CacheSingleFlight ρ) (DedupCall ρ)}
    {a : ℕ × DedupAction ρ} (h : ∀ i, Installed p.shared i (p.task i)) (hok : insertsAbsent p a)
    (hstep : p.step dedupStep a = some q) : ∀ i, Installed q.shared i (q.task i) := by
  obtain ⟨sf, c, hact, rfl⟩ := Pool.step_eq_some.mp hstep
  obtain ⟨pc, rfl, hmove⟩ := dedupStep_move hact
  refine Pool.forall_task (Q := Installed) h ?_ ?_
  · intro hleads
    rcases hmove.map_cases with ⟨hmap, hkeep⟩ | ⟨-, hmap⟩ | ⟨-, hends, -⟩
    · rw [hmap]
      exact h a.1 (hkeep hleads)
    · rw [hmap]
      exact Function.update_self ..
    · change pc.leads = true at hleads
      rw [hends] at hleads
      simp at hleads
  · intro j hj hinstalled hleads
    have hown := hinstalled hleads
    rcases hmove.map_cases with ⟨hmap, -⟩ | ⟨hins, hmap⟩ | ⟨hlead, -, hmap⟩
    · rw [hmap]
      exact hown
    · -- The key of another leader is present, so it is not the key inserted.
      have hkey : (p.task j).key ≠ (p.task a.1).key := by
        intro heq
        rw [heq, hok hins] at hown
        simp at hown
      rw [hmap, Function.update_of_ne hkey]
      exact hown
    · have hkey : (p.task j).key ≠ (p.task a.1).key := by
        intro heq
        rw [heq, h a.1 hlead, Option.some.injEq] at hown
        exact hj hown.symm
      rw [hmap, Function.update_of_ne hkey]
      exact hown

/-- In a run in which every insertion finds its key absent, at most one call
runs its closure for a key in every state reached. -/
theorem running_unique (keys : ℕ → String) {p : Pool (CacheSingleFlight ρ) (DedupCall ρ)}
    (h : Reach (Pool.step dedupStep) insertsAbsent (dedupStart ρ keys) p) {i j : ℕ}
    (hi : (p.task i).isRunning) (hj : (p.task j).isRunning)
    (hkey : (p.task i).key = (p.task j).key) : i = j := by
  have hinstalled : ∀ i, Installed p.shared i (p.task i) := by
    refine h.invariant (I := fun p => ∀ i, Installed p.shared i (p.task i)) ?_ ?_
    · intro i hleads
      simp [dedupStart, DedupPc.leads] at hleads
    · intro t a u ht hok hstep
      exact installed_step ht hok hstep
  have hki := hinstalled i (by rw [hi]; rfl)
  have hkj := hinstalled j (by rw [hj]; rfl)
  rw [hkey, hkj, Option.some.injEq] at hki
  exact hki.symm

def leaderAndWatcher : List (ℕ × DedupAction TmrConsensusResult) :=
  [(0, .proceed), (0, .proceed), (1, .proceed), (1, .proceed), (1, .proceed), (1, .proceed)]

theorem running_unique_leader :
    ∃ p, Reach (Pool.step dedupStep) insertsAbsent
        (dedupStart TmrConsensusResult fun _ => "tenant:acme:sha256:00") p ∧
      (p.task 0).isRunning ∧ (p.task 1).pc = .waiting 0 0 ∧ ((p.task 1).isRunning → 0 = 1) := by
  have hrun : Reach (Pool.step dedupStep) insertsAbsent
      (dedupStart TmrConsensusResult fun _ => "tenant:acme:sha256:00") _ :=
    Reach.of_exec_guarded leaderAndWatcher rfl
  exact ⟨_, hrun, rfl, rfl, fun h => running_unique _ hrun (i := 0) (j := 1) rfl h rfl⟩

/-- Two calls look up an absent key one after the other and then both insert. -/
def twoLeaders : List (ℕ × DedupAction TmrConsensusResult) :=
  [(0, .proceed), (1, .proceed), (0, .proceed), (1, .proceed)]

/-- Two calls can run their closures for one key at the same time. -/
theorem two_leaders_run :
    ¬∀ p, Reach (Pool.step dedupStep) anyStep
        (dedupStart TmrConsensusResult fun _ => "tenant:acme:sha256:00") p →
      ∀ i j, (p.task i).isRunning → (p.task j).isRunning →
        (p.task i).key = (p.task j).key → i = j := by
  intro hall
  have hrun : Reach (Pool.step dedupStep) anyStep
      (dedupStart TmrConsensusResult fun _ => "tenant:acme:sha256:00") _ :=
    Reach.of_exec twoLeaders rfl
  exact absurd (hall _ hrun 0 1 rfl rfl rfl) (by decide)

end SereinGateway.Router
