import SereinGateway.Router.SingleFlight

/-!
Delivery: what a watcher of `dedup` returns.

Two steps of the source spoil delivery. A publication that falls between the
second check of a watcher and its registration wakes nobody and is lost on
that watcher; and a guard removes by key, so a leader that was overwritten in
the map cancels the entry of the leader that replaced it. In the runs without
these two steps the history of an entry is the history of its own leader:
its result is what the leader published, and it is cancelled only by the
leader being dropped. A watcher then returns the published result, and the
default only for a leader that was dropped, or when its timeout fires before
anything is published.
-/

namespace SereinGateway.Router

open SereinGateway.Lib

variable {ρ : Type} [Inhabited ρ]

def DedupPc.watches : DedupPc ρ → Option ℕ
  | .firstCheck e | .secondCheck e | .register e | .waiting e _ | .woken e => some e
  | .lookup | .insert | .running | .publish _ | .dropGuard _ | .watcherReturned _ _
  | .leaderReturned _ | .dropped => none

def DedupPc.published : DedupPc ρ → Option ρ
  | .dropGuard result => result
  | .leaderReturned result => some result
  | .lookup | .firstCheck _ | .secondCheck _ | .register _ | .waiting _ _ | .woken _ | .insert
  | .running | .publish _ | .watcherReturned _ _ | .dropped => none

/-- The steps that do not spoil delivery: a publication finds no watcher of
its entry between check and registration, and a guard finds under its key no
entry in flight but its own. -/
structure Delivers (p : Pool (CacheSingleFlight ρ) (DedupCall ρ)) (a : ℕ × DedupAction ρ) :
    Prop where
  publish : ∀ result, (p.task a.1).pc = .publish result → ∀ j, (p.task j).pc ≠ .register a.1
  guard : ∀ result, (p.task a.1).pc = .dropGuard result →
    ∀ e, p.shared.inflight (p.task a.1).key = some e → e ≠ a.1 →
      (p.shared.entry e).result ≠ none ∨ (p.shared.entry e).cancelled = true

/-! ### The history of an entry -/

/-- The state of the entry of the call `e` follows from where the call stands. -/
structure EntryInv (sf : CacheSingleFlight ρ) (e : ℕ) (c : DedupCall ρ) : Prop where
  fresh : c.pc = .lookup ∨ c.pc = .insert → sf.entry e = .new
  result : (sf.entry e).result = c.pc.published
  cancelled : (sf.entry e).cancelled = true → c.pc = .dropped
  notified : (sf.entry e).notifyCalls ≠ 0 →
    (sf.entry e).result ≠ none ∨ (sf.entry e).cancelled = true

/-- How an entry may change: its result is final, its flag is never cleared,
and a result comes with a notification. -/
structure EntryGrows (before after : SingleFlightEntry ρ) : Prop where
  result : before.result ≠ none → after.result = before.result
  cancelled : before.cancelled = true → after.cancelled = true
  calls : before.notifyCalls ≤ after.notifyCalls
  woken : before.result = none → after.result ≠ none → before.notifyCalls < after.notifyCalls

omit [Inhabited ρ] in
theorem EntryGrows.refl (entry : SingleFlightEntry ρ) : EntryGrows entry entry :=
  ⟨fun _ => rfl, id, le_rfl, fun h hne => absurd h hne⟩

omit [Inhabited ρ] in
theorem entry_dropGuard (sf : CacheSingleFlight ρ) (key : String) (e : ℕ) :
    (sf.dropGuard key).entry e = sf.entry e ∨
      (sf.inflight key = some e ∧ (sf.entry e).result = none ∧ (sf.entry e).cancelled = false ∧
        (sf.dropGuard key).entry e =
          { sf.entry e with cancelled := true, notifyCalls := (sf.entry e).notifyCalls + 1 }) := by
  rw [CacheSingleFlight.dropGuard]
  split
  · exact .inl rfl
  · rename_i e' hkey
    dsimp only
    split
    · rename_i hopen
      by_cases he : e = e'
      · subst he
        exact .inr ⟨hkey, hopen.1, hopen.2, Function.update_self ..⟩
      · exact .inl (Function.update_of_ne he ..)
    · exact .inl rfl

/-- A step that leaves the entry of the call alone leaves what the call has
published, and only the look-up leads to the insertion. -/
def Unpublishing (before after : DedupPc ρ) : Prop :=
  after.published = before.published ∧ (after = .lookup ∨ after = .insert → before = .lookup)

theorem unpublishing_checkEntry (entry : SingleFlightEntry ρ) {e : ℕ} {before next : DedupPc ρ}
    (h : Unpublishing before next) (hbefore : before.published = none) :
    Unpublishing before (checkEntry entry e next) := by
  refine checkEntry_of entry e h fun exit r => ?_
  exact ⟨hbefore.symm, by simp⟩

/-- A step of a call changes no entry but its own, and that one only by
publishing or by the guard's cancellation. -/
theorem entry_step {p : Pool (CacheSingleFlight ρ) (DedupCall ρ)} {a : ℕ × DedupAction ρ}
    {sf : CacheSingleFlight ρ} {pc : DedupPc ρ} (hinv : EntryInv p.shared a.1 (p.task a.1))
    (hok : Delivers p a) (hmove : DedupMove a.1 p.shared (p.task a.1) a.2 sf pc) (e : ℕ) :
    (sf.entry e = p.shared.entry e ∧ (e = a.1 → Unpublishing (p.task a.1).pc pc)) ∨
      (e = a.1 ∧ (p.shared.entry e).result = none ∧
        ((∃ result, (p.task a.1).pc = .publish result ∧ pc = .dropGuard (some result) ∧
            sf.entry e = { p.shared.entry e with
              result := some result, notifyCalls := (p.shared.entry e).notifyCalls + 1 }) ∨
          ((p.task a.1).pc = .dropGuard none ∧ pc = .dropped ∧
            sf.entry e = { p.shared.entry e with
              cancelled := true, notifyCalls := (p.shared.entry e).notifyCalls + 1 }))) := by
  obtain ⟨i, act⟩ := a
  generalize hsf : p.shared = sf₀ at hmove hinv ⊢
  generalize hc : p.task i = c at hmove hinv ⊢
  cases hmove with
  | insert hpc =>
      refine .inl ⟨?_, fun _ => ⟨by rw [hpc]; rfl, by simp⟩⟩
      by_cases he : e = i
      · subst he
        rw [hinv.fresh (.inr hpc)]
        exact Function.update_self ..
      · exact Function.update_of_ne he ..
  | publish hpc =>
      by_cases he : e = i
      · subst he
        refine .inr ⟨rfl, ?_, .inl ⟨_, hpc, rfl, Function.update_self ..⟩⟩
        rw [hinv.result, hpc]
        rfl
      · exact .inl ⟨Function.update_of_ne he .., fun heq => absurd heq he⟩
  | @dropGuard result hpc =>
      rcases entry_dropGuard sf₀ c.key e with hsame | ⟨hkey, hnone, hopen, heq⟩
      · refine .inl ⟨hsame, fun _ => ?_⟩
        rw [hpc]
        cases result with
        | none => exact ⟨rfl, by simp⟩
        | some result => exact ⟨rfl, by simp⟩
      · right
        have he : e = i := by
          by_contra hne
          have := hok.guard result (by rw [hc, hpc]) e (by rw [hsf, hc, hkey]) hne
          rw [hsf, hnone, hopen] at this
          simp at this
        subst he
        have hres : result = none := by
          rw [hinv.result, hpc] at hnone
          exact hnone
        subst hres
        exact ⟨rfl, hnone, .inr ⟨hpc, rfl, heq⟩⟩
  | firstCheck hpc =>
      refine .inl ⟨rfl, fun _ => ?_⟩
      rw [hpc]
      exact unpublishing_checkEntry _ ⟨rfl, by simp⟩ rfl
  | secondCheck hpc =>
      refine .inl ⟨rfl, fun _ => ?_⟩
      rw [hpc]
      exact unpublishing_checkEntry _ ⟨rfl, by simp⟩ rfl
  | found hpc | absent hpc | register hpc | wake hpc | woken hpc | complete hpc | timeout hpc
  | dropLeader hpc | dropWatcher hpc =>
      refine .inl ⟨rfl, fun _ => ?_⟩
      rw [hpc]
      exact ⟨rfl, by simp⟩

theorem DedupMove.ne_dropped {i : ℕ} {sf sf' : CacheSingleFlight ρ} {c : DedupCall ρ}
    {a : DedupAction ρ} {pc : DedupPc ρ} (h : DedupMove i sf c a sf' pc) : c.pc ≠ .dropped := by
  intro hdropped
  cases h <;> simp_all

theorem entryInv_step {p q : Pool (CacheSingleFlight ρ) (DedupCall ρ)} {a : ℕ × DedupAction ρ}
    (h : ∀ e, EntryInv p.shared e (p.task e)) (hok : Delivers p a)
    (hstep : p.step dedupStep a = some q) : ∀ e, EntryInv q.shared e (q.task e) := by
  obtain ⟨sf, c, hact, rfl⟩ := Pool.step_eq_some.mp hstep
  obtain ⟨pc, rfl, hmove⟩ := dedupStep_move hact
  have hentry := entry_step (h a.1) hok hmove
  refine Pool.forall_task (Q := EntryInv) h ?_ ?_
  · have hold := h a.1
    rcases hentry a.1 with ⟨hsame, hkeep⟩ | ⟨-, hnone, ⟨result, hpc, rfl, heq⟩ | ⟨hpc, rfl, heq⟩⟩
    · obtain ⟨hpub, hfresh⟩ := hkeep rfl
      refine ⟨fun hpc => ?_, ?_, fun hcancel => ?_, ?_⟩
      · rw [hsame]
        exact hold.fresh (.inl (hfresh hpc))
      · rw [hsame, hold.result]
        exact hpub.symm
      · rw [hsame] at hcancel
        exact absurd (hold.cancelled hcancel) hmove.ne_dropped
      · rw [hsame]
        exact hold.notified
    · refine ⟨by simp, by rw [heq]; rfl, fun hcancel => ?_, fun _ => .inl (by rw [heq]; simp)⟩
      rw [heq] at hcancel
      exact absurd (hold.cancelled hcancel) hmove.ne_dropped
    · refine ⟨by simp, ?_, fun _ => rfl, fun _ => .inr (by rw [heq])⟩
      rw [heq]
      exact hnone
  · intro e he hold
    rcases hentry e with ⟨hsame, -⟩ | ⟨heq, -⟩
    · exact ⟨fun hpc => hsame ▸ hold.fresh hpc, hsame ▸ hold.result,
        fun hcancel => hold.cancelled (hsame ▸ hcancel), hsame ▸ hold.notified⟩
    · exact absurd heq he

theorem entryGrows_step {p : Pool (CacheSingleFlight ρ) (DedupCall ρ)} {a : ℕ × DedupAction ρ}
    {sf : CacheSingleFlight ρ} {pc : DedupPc ρ} (hinv : EntryInv p.shared a.1 (p.task a.1))
    (hok : Delivers p a) (hmove : DedupMove a.1 p.shared (p.task a.1) a.2 sf pc) (e : ℕ) :
    EntryGrows (p.shared.entry e) (sf.entry e) := by
  rcases entry_step hinv hok hmove e with
    ⟨hsame, -⟩ | ⟨-, hnone, ⟨result, -, -, heq⟩ | ⟨-, -, heq⟩⟩
  · rw [hsame]
    exact .refl _
  · rw [heq]
    exact ⟨fun hne => absurd hnone hne, id, by simp, by simp⟩
  · rw [heq]
    exact ⟨fun _ => rfl, fun _ => rfl, by simp, fun _ => by simp [hnone]⟩

/-! ### Watchers -/

/-- What a watcher can rely on at each of its positions: nothing is published
before it registers, and what is published afterwards wakes it. -/
structure WatchInv (sf : CacheSingleFlight ρ) (c : DedupCall ρ) : Prop where
  register : ∀ e, c.pc = .register e → (sf.entry e).result = none
  waiting : ∀ e seen, c.pc = .waiting e seen → seen ≤ (sf.entry e).notifyCalls ∧
    ((sf.entry e).result ≠ none → seen < (sf.entry e).notifyCalls)
  woken : ∀ e, c.pc = .woken e → (sf.entry e).result ≠ none ∨ (sf.entry e).cancelled = true

omit [Inhabited ρ] in
theorem WatchInv.grow {sf sf' : CacheSingleFlight ρ} {c : DedupCall ρ} (h : WatchInv sf c)
    (hgrow : ∀ e, EntryGrows (sf.entry e) (sf'.entry e))
    (hregister : ∀ e, c.pc = .register e → (sf'.entry e).result = (sf.entry e).result) :
    WatchInv sf' c := by
  refine ⟨fun e hpc => ?_, fun e seen hpc => ?_, fun e hpc => ?_⟩
  · rw [hregister e hpc]
    exact h.register e hpc
  · obtain ⟨hle, hlt⟩ := h.waiting e seen hpc
    refine ⟨hle.trans (hgrow e).calls, fun hne => ?_⟩
    by_cases hold : (sf.entry e).result = none
    · exact hle.trans_lt ((hgrow e).woken hold hne)
    · exact (hlt hold).trans_le (hgrow e).calls
  · rcases h.woken e hpc with hres | hcancel
    · rw [(hgrow e).result hres]
      exact .inl hres
    · exact .inr ((hgrow e).cancelled hcancel)

/-- A watcher that moves reaches its next position with what it relies on there. -/
theorem watchInv_move {i : ℕ} {sf sf' : CacheSingleFlight ρ} {c : DedupCall ρ}
    {a : DedupAction ρ} {pc : DedupPc ρ} (h : WatchInv sf c)
    (hinv : ∀ e, (sf.entry e).notifyCalls ≠ 0 →
      (sf.entry e).result ≠ none ∨ (sf.entry e).cancelled = true)
    (hmove : DedupMove i sf c a sf' pc) : WatchInv sf' { c with pc := pc } := by
  cases hmove with
  | @firstCheck e hpc =>
      refine checkEntry_of (P := fun pc => WatchInv sf { c with pc := pc }) (sf.entry e) e ?_ ?_
      · exact ⟨by simp, by simp, by simp⟩
      · exact fun _ _ => ⟨by simp, by simp, by simp⟩
  | @secondCheck e hpc =>
      rcases checkEntry_cases (sf.entry e) e (.register e) with
        ⟨heq, hres⟩ | ⟨r, heq, -⟩ | ⟨heq, -⟩
      · refine ⟨fun e' hpc' => ?_, by simp [heq], by simp [heq]⟩
        rw [heq, DedupPc.register.injEq] at hpc'
        exact hpc' ▸ hres
      · exact ⟨by simp [heq], by simp [heq], by simp [heq]⟩
      · exact ⟨by simp [heq], by simp [heq], by simp [heq]⟩
  | @register e hpc =>
      refine ⟨by simp, fun e' seen hpc' => ?_, by simp⟩
      simp only [DedupPc.waiting.injEq] at hpc'
      obtain ⟨rfl, rfl⟩ := hpc'
      exact ⟨le_rfl, fun hne => absurd (h.register _ hpc) hne⟩
  | @wake e seen hpc hne =>
      refine ⟨by simp, by simp, fun e' hpc' => ?_⟩
      simp only [DedupPc.woken.injEq] at hpc'
      subst hpc'
      have hle := (h.waiting _ _ hpc).1
      exact hinv _ (by omega)
  | dropGuard hpc =>
      rename_i result
      cases result <;> exact ⟨by simp, by simp, by simp⟩
  | found | absent | woken | insert | publish | complete | timeout | dropLeader | dropWatcher =>
      exact ⟨by simp, by simp, by simp⟩

theorem watchInv_step {p q : Pool (CacheSingleFlight ρ) (DedupCall ρ)} {a : ℕ × DedupAction ρ}
    (hentry : ∀ e, EntryInv p.shared e (p.task e)) (h : ∀ i, WatchInv p.shared (p.task i))
    (hok : Delivers p a) (hstep : p.step dedupStep a = some q) :
    ∀ i, WatchInv q.shared (q.task i) := by
  obtain ⟨sf, c, hact, rfl⟩ := Pool.step_eq_some.mp hstep
  obtain ⟨pc, rfl, hmove⟩ := dedupStep_move hact
  refine Pool.forall_task (Q := fun sf _ c => WatchInv sf c) h ?_ ?_
  · exact watchInv_move (h a.1) (fun e => (hentry e).notified) hmove
  · intro j hj hold
    refine hold.grow (entryGrows_step (hentry a.1) hok hmove) (fun e hpc => ?_)
    rcases entry_step (hentry a.1) hok hmove e with
      ⟨hsame, -⟩ | ⟨rfl, -, ⟨result, hpub, -⟩ | ⟨-, -, heq⟩⟩
    · rw [hsame]
    · -- The watcher stands where the publication would be lost on it.
      exact absurd hpc (hok.publish result hpub j)
    · rw [heq]

/-- Entries and watchers of every state that a run without spoiling steps reaches. -/
theorem delivery_invariant {keys : ℕ → String} {p : Pool (CacheSingleFlight ρ) (DedupCall ρ)}
    (h : Reach (Pool.step dedupStep) Delivers (dedupStart ρ keys) p) :
    (∀ e, EntryInv p.shared e (p.task e)) ∧ ∀ i, WatchInv p.shared (p.task i) := by
  refine h.invariant (I := fun p => (∀ e, EntryInv p.shared e (p.task e)) ∧
    ∀ i, WatchInv p.shared (p.task i)) ?_ ?_
  · refine ⟨fun e => ⟨fun _ => rfl, rfl, ?_, ?_⟩, fun i => ⟨?_, ?_, ?_⟩⟩ <;>
      simp [dedupStart, CacheSingleFlight.new, SingleFlightEntry.new]
  · intro t a u ht hok hstep
    exact ⟨entryInv_step ht.1 hok hstep, watchInv_step ht.1 ht.2 hok hstep⟩

/-! ### What a watcher returns -/

/-- A watcher that returns, returns the published result; or the default, and
then nothing is published and its leader was dropped or its timeout fired. -/
theorem returned_of_move {i e : ℕ} {sf sf' : CacheSingleFlight ρ} {c leader : DedupCall ρ}
    {a : DedupAction ρ} {exit : WatcherExit} {r : ρ} (hentry : EntryInv sf e leader)
    (hwatch : WatchInv sf c) (hw : c.pc.watches = some e)
    (hmove : DedupMove i sf c a sf' (.watcherReturned exit r)) :
    (sf.entry e).result = some r ∨
      (r = default ∧ (sf.entry e).result = none ∧ (leader.pc = .dropped ∨ a = .timeout)) := by
  have hcheck : ∀ next, (∀ exit r, next ≠ .watcherReturned exit r) →
      checkEntry (sf.entry e) e next = .watcherReturned exit r →
      (sf.entry e).result = some r ∨
        (r = default ∧ (sf.entry e).result = none ∧ (leader.pc = .dropped ∨ a = .timeout)) := by
    intro next hnext hret
    rcases checkEntry_cases (sf.entry e) e next with
      ⟨heq, -⟩ | ⟨result, heq, hres⟩ | ⟨heq, hres, hcancel⟩
    · exact absurd (heq.symm.trans hret) (hnext _ _)
    · rw [heq, DedupPc.watcherReturned.injEq] at hret
      exact .inl (hret.2 ▸ hres)
    · rw [heq, DedupPc.watcherReturned.injEq] at hret
      exact .inr ⟨hret.2.symm, hres, .inl (hentry.cancelled hcancel)⟩
  generalize hpc' : DedupPc.watcherReturned exit r = pc' at hmove
  cases hmove with
  | firstCheck hpc =>
      rw [hpc, DedupPc.watches, Option.some.injEq] at hw
      subst hw
      exact hcheck _ (by simp) hpc'.symm
  | secondCheck hpc =>
      rw [hpc, DedupPc.watches, Option.some.injEq] at hw
      subst hw
      exact hcheck _ (by simp) hpc'.symm
  | @woken e' hpc =>
      rw [hpc, DedupPc.watches, Option.some.injEq] at hw
      subst hw
      simp only [DedupPc.watcherReturned.injEq, wokenResult] at hpc'
      by_cases hcancel : (sf.entry e').cancelled = true
      · have hdropped := hentry.cancelled hcancel
        rw [if_pos hcancel] at hpc'
        refine .inr ⟨hpc'.2, ?_, .inl hdropped⟩
        rw [hentry.result, hdropped]
        rfl
      · rw [if_neg hcancel] at hpc'
        obtain ⟨result, hres⟩ :=
          Option.ne_none_iff_exists'.mp ((hwatch.woken _ hpc).resolve_right hcancel)
        rw [hres, Option.getD_some] at hpc'
        exact .inl (hpc'.2 ▸ hres)
  | timeout hpc hseen =>
      rw [hpc, DedupPc.watches, Option.some.injEq] at hw
      subst hw
      simp only [DedupPc.watcherReturned.injEq] at hpc'
      refine .inr ⟨hpc'.2, ?_, .inr rfl⟩
      by_contra hne
      have := (hwatch.waiting _ _ hpc).2 hne
      omega
  | dropGuard hpc => simp [hpc, DedupPc.watches] at hw
  | found | absent | register | wake | insert | publish | complete | dropLeader | dropWatcher =>
      simp at hpc'

/-- The call `i` moves on to `pc` without touching the shared state. -/
def moveTo (p : Pool (CacheSingleFlight ρ) (DedupCall ρ)) (i : ℕ) (pc : DedupPc ρ) :
    Pool (CacheSingleFlight ρ) (DedupCall ρ) :=
  ⟨p.shared, Function.update p.task i { p.task i with pc := pc }⟩

omit [Inhabited ρ] in
@[simp] theorem pc_moveTo (p : Pool (CacheSingleFlight ρ) (DedupCall ρ)) (i : ℕ)
    (pc : DedupPc ρ) : ((moveTo p i pc).task i).pc = pc := by
  simp [moveTo]

theorem step_woken {i e : ℕ} {p : Pool (CacheSingleFlight ρ) (DedupCall ρ)} {r : ρ}
    (hpc : (p.task i).pc = .woken e) (hopen : (p.shared.entry e).cancelled = false)
    (hr : (p.shared.entry e).result = some r) :
    p.step dedupStep (i, .proceed) =
      some (moveTo p i (.watcherReturned (.notified e) r)) := by
  simp [Pool.step, dedupStep, hpc, wokenResult, hopen, hr, moveTo]

theorem returns_published {i e : ℕ} {p : Pool (CacheSingleFlight ρ) (DedupCall ρ)} {r : ρ}
    (hopen : (p.shared.entry e).cancelled = false) (hwatch : WatchInv p.shared (p.task i))
    (hw : (p.task i).pc.watches = some e) (hr : (p.shared.entry e).result = some r) :
    p.step dedupStep (i, .timeout) = none ∧
      ∃ n q exit, exec (Pool.step dedupStep) p (List.replicate n (i, .proceed)) = some q ∧
        (q.task i).pc = .watcherReturned exit r := by
  have hone : ∀ exit, p.step dedupStep (i, .proceed) = some (moveTo p i (.watcherReturned exit r)) →
      ∃ n q exit, exec (Pool.step dedupStep) p (List.replicate n (i, .proceed)) = some q ∧
        (q.task i).pc = .watcherReturned exit r := by
    intro exit hstep
    exact ⟨1, _, exit, by simp [exec, hstep], pc_moveTo p i _⟩
  cases hpc : (p.task i).pc with
  | firstCheck e' =>
      rw [hpc, DedupPc.watches, Option.some.injEq] at hw
      subst hw
      refine ⟨by simp [Pool.step, dedupStep, hpc], hone (.published e') ?_⟩
      simp [Pool.step, dedupStep, hpc, checkEntry, hr, moveTo]
  | secondCheck e' =>
      rw [hpc, DedupPc.watches, Option.some.injEq] at hw
      subst hw
      refine ⟨by simp [Pool.step, dedupStep, hpc], hone (.published e') ?_⟩
      simp [Pool.step, dedupStep, hpc, checkEntry, hr, moveTo]
  | register e' =>
      rw [hpc, DedupPc.watches, Option.some.injEq] at hw
      subst hw
      -- Nothing was published before the watcher registered.
      rw [hwatch.register _ hpc] at hr
      simp at hr
  | waiting e' seen =>
      rw [hpc, DedupPc.watches, Option.some.injEq] at hw
      subst hw
      -- The publication notified after the registration, so the watcher is due to wake.
      have hlt := (hwatch.waiting _ _ hpc).2 (by simp [hr])
      have hwake : p.step dedupStep (i, .proceed) = some (moveTo p i (.woken e')) := by
        simp [Pool.step, dedupStep, hpc, moveTo, hlt.ne']
      refine ⟨by simp [Pool.step, dedupStep, hpc, hlt.ne'], ?_⟩
      have hreturn : (moveTo p i (.woken e')).step dedupStep (i, .proceed) = _ :=
        step_woken (pc_moveTo p i _) hopen hr
      refine ⟨2, _, .notified e', ?_, pc_moveTo (moveTo p i (.woken e')) i _⟩
      simp [exec, List.replicate, hwake, hreturn]
  | woken e' =>
      rw [hpc, DedupPc.watches, Option.some.injEq] at hw
      subst hw
      exact ⟨by simp [Pool.step, dedupStep, hpc], hone _ (step_woken hpc hopen hr)⟩
  | lookup => simp [hpc, DedupPc.watches] at hw
  | insert => simp [hpc, DedupPc.watches] at hw
  | running => simp [hpc, DedupPc.watches] at hw
  | publish result => simp [hpc, DedupPc.watches] at hw
  | dropGuard result => simp [hpc, DedupPc.watches] at hw
  | watcherReturned exit result => simp [hpc, DedupPc.watches] at hw
  | leaderReturned result => simp [hpc, DedupPc.watches] at hw
  | dropped => simp [hpc, DedupPc.watches] at hw

/-- In a run without spoiling steps, a watcher of an entry returns what its
leader published, and the default only when the leader was dropped without
publishing or the timeout fired before a publication; and once the leader has
published, the result is final, the watcher can not time out any more and its
own steps take it to that result. -/
theorem watcher_delivery (keys : ℕ → String) {p : Pool (CacheSingleFlight ρ) (DedupCall ρ)}
    (h : Reach (Pool.step dedupStep) Delivers (dedupStart ρ keys) p) {i e : ℕ}
    (hw : (p.task i).pc.watches = some e) :
    (p.shared.entry e).result = (p.task e).pc.published ∧
    (∀ a q exit r, p.step dedupStep (i, a) = some q → (q.task i).pc = .watcherReturned exit r →
      (p.shared.entry e).result = some r ∨
        (r = default ∧ (p.shared.entry e).result = none ∧
          ((p.task e).pc = .dropped ∨ a = .timeout))) ∧
    ∀ r, (p.shared.entry e).result = some r →
      (∀ x q, Delivers p x → p.step dedupStep x = some q →
        (q.shared.entry e).result = some r) ∧
      p.step dedupStep (i, .timeout) = none ∧
      ∃ n q exit, exec (Pool.step dedupStep) p (List.replicate n (i, .proceed)) = some q ∧
        (q.task i).pc = .watcherReturned exit r := by
  obtain ⟨hentry, hwatch⟩ := delivery_invariant h
  refine ⟨(hentry e).result, ?_, ?_⟩
  · intro a q exit r hstep hret
    obtain ⟨sf, c, hact, rfl⟩ := Pool.step_eq_some.mp hstep
    obtain ⟨pc, rfl, hmove⟩ := dedupStep_move hact
    simp only [Function.update_self] at hret
    subst hret
    exact returned_of_move (hentry e) (hwatch i) hw hmove
  · intro r hr
    have hopen : (p.shared.entry e).cancelled = false := by
      by_contra hcancel
      have hdropped := (hentry e).cancelled (by simpa using hcancel)
      rw [(hentry e).result, hdropped] at hr
      simp [DedupPc.published] at hr
    refine ⟨?_, returns_published hopen (hwatch i) hw hr⟩
    intro x q hok hstep
    obtain ⟨sf, c, hact, rfl⟩ := Pool.step_eq_some.mp hstep
    obtain ⟨pc, rfl, hmove⟩ := dedupStep_move hact
    have hgrow := entryGrows_step (hentry x.1) hok hmove e
    rw [hgrow.result (by simp [hr])]
    exact hr

/-- Neither a publication nor a guard. -/
def DedupPc.quiet : DedupPc ρ → Bool
  | .publish _ | .dropGuard _ => false
  | .lookup | .firstCheck _ | .secondCheck _ | .register _ | .waiting _ _ | .woken _ | .insert
  | .running | .watcherReturned _ _ | .leaderReturned _ | .dropped => true

omit [Inhabited ρ] in
theorem delivers_of_quiet {p : Pool (CacheSingleFlight ρ) (DedupCall ρ)}
    {a : ℕ × DedupAction ρ} (h : (p.task a.1).pc.quiet = true) : Delivers p a := by
  constructor
  · intro result hpc
    simp [hpc, DedupPc.quiet] at h
  · intro result hpc
    simp [hpc, DedupPc.quiet] at h

def agreedAnswer : TmrConsensusResult := { (default : TmrConsensusResult) with
  majorityOutput := some "yes", agreementCount := 2, totalNodes := 3, consensusAchieved := true }

/-- The watcher has registered and the leader has published. -/
theorem watcher_delivery_waiting :
    ∃ p : Pool (CacheSingleFlight TmrConsensusResult) (DedupCall TmrConsensusResult),
      (p.task 1).pc = .waiting 0 0 ∧ (p.shared.entry 0).result = some agreedAnswer ∧
      ∃ n q exit, exec (Pool.step dedupStep) p (List.replicate n (1, .proceed)) = some q ∧
        (q.task 1).pc = .watcherReturned exit agreedAnswer := by
  have hquiet : Reach (Pool.step dedupStep) (fun p a => (p.task a.1).pc.quiet = true)
      (dedupStart TmrConsensusResult fun _ => "tenant:acme:sha256:00") _ :=
    Reach.of_exec_guarded (leaderAndWatcher ++ [(0, .complete agreedAnswer)]) rfl
  have hbefore := hquiet.mono fun _ _ => delivers_of_quiet
  have hpublish := hbefore.tail (a := (0, .proceed)) ⟨?_, ?_⟩ rfl
  · exact ⟨_, rfl, rfl, ((watcher_delivery _ hpublish (i := 1) (e := 0) rfl).2.2 _ rfl).2.2⟩
  · intro result _ j
    by_cases h₀ : j = 0
    · subst h₀
      simp
    · by_cases h₁ : j = 1
      · subst h₁
        simp
      · simp [h₀, h₁, dedupStart]
  · intro result hpc
    simp at hpc

/-- The publication falls between the second check of the watcher and its
registration. -/
def lostWakeup : List (ℕ × DedupAction TmrConsensusResult) :=
  [(0, .proceed), (0, .proceed), (1, .proceed), (1, .proceed), (1, .proceed),
    (0, .complete agreedAnswer), (0, .proceed), (1, .proceed)]

/-- A watcher can time out and return the default after its leader has published. -/
theorem published_result_lost :
    ¬∀ p : Pool (CacheSingleFlight TmrConsensusResult) (DedupCall TmrConsensusResult),
      Reach (Pool.step dedupStep) anyStep
        (dedupStart TmrConsensusResult fun _ => "tenant:acme:sha256:00") p →
      ∀ i e a q exit r, (p.task i).pc.watches = some e → p.step dedupStep (i, a) = some q →
        (q.task i).pc = .watcherReturned exit r →
        (p.shared.entry e).result = some r ∨
          (r = default ∧ (p.shared.entry e).result = none ∧
            ((p.task e).pc = .dropped ∨ a = .timeout)) := by
  intro hall
  have hrun : Reach (Pool.step dedupStep) anyStep
      (dedupStart TmrConsensusResult fun _ => "tenant:acme:sha256:00") _ :=
    Reach.of_exec lostWakeup rfl
  rcases hall _ hrun 1 0 .timeout _ (.timedOut 0) default rfl rfl rfl with hsome | ⟨-, hnone, -⟩
  · have hdefault : some agreedAnswer = some default := hsome
    exact absurd hdefault (by decide)
  · have hempty : some agreedAnswer = none := hnone
    exact absurd hempty (by decide)

end SereinGateway.Router
