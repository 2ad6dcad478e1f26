import Mathlib
import SereinGateway.TrafficControl.ApiRateLimiter

/-!
How large the table of tenants gets under concurrent calls.

`acquire_api_token` tests the size of the table and inserts into it in two
steps. The tenants that are tracked and those that some call is about to
insert stay within `max_tenants` as long as no call takes its test while
another one is about to insert a further tenant, which is `TestsAlone`. A
tenant that is evicted between `contains_key` and the insertion comes back
without a test, but it was counted all the time.
-/

namespace SereinGateway.TrafficControl

open SereinGateway.Lib

namespace ApiMemory

variable {m : ApiMemory} {tenant t : String}

@[simp] theorem mem_setBucket {key : Option String} {b : LockedBucket} :
    t ∈ (m.setBucket key b).tenantBuckets ↔ t ∈ m.tenantBuckets := by
  cases key with
  | none => rfl
  | some tenant =>
      simp only [setBucket]
      split
      · rename_i entry hentry
        have htracked : tenant ∈ m.tenantBuckets := by
          simp [← AList.lookup_isSome, hentry]
        rw [AList.mem_insert]
        exact or_iff_right_of_imp fun heq => heq ▸ htracked
      · rfl

@[simp] theorem mem_access : t ∈ (m.access tenant).tenantBuckets ↔ t ∈ m.tenantBuckets := by
  unfold access
  split
  · rename_i entry hentry
    have htracked : tenant ∈ m.tenantBuckets := by
      simp [← AList.lookup_isSome, hentry]
    rw [AList.mem_insert]
    exact or_iff_right_of_imp fun heq => heq ▸ htracked
  · rfl

theorem mem_insertTenant {b : SimpleTokenBucket}
    (h : t ∈ (m.insertTenant tenant b).tenantBuckets) : t ∈ m.tenantBuckets ∨ t = tenant := by
  unfold insertTenant at h
  split at h
  · exact .inl h
  · exact ((AList.mem_insert _).mp h).symm

theorem mem_of_evict {m' : ApiMemory} {maxAge : ℕ} (h : m.evict tenant maxAge = some m')
    (ht : t ∈ m'.tenantBuckets) : t ∈ m.tenantBuckets := by
  unfold evict at h
  split at h
  · split at h
    · split at h
      · obtain rfl := Option.some.inj h
        exact ht
      · obtain rfl := Option.some.inj h
        exact (AList.mem_erase.mp ht).2
    · simp at h
  · obtain rfl := Option.some.inj h
    exact ht

end ApiMemory

/-- A step in a layer tracks no further tenant and goes on in a layer or ends
the call. -/
theorem LayerStage.proceed_tenants {config : ApiConfig} {i : ℕ} {m m' : ApiMemory}
    {tenant : String} {l : Layer} {stage : LayerStage} {pc : ApiPc}
    (h : stage.proceed config i m tenant l = some (m', pc)) :
    (∀ t, t ∈ m'.tenantBuckets ↔ t ∈ m.tenantBuckets) ∧ pc ≠ .entry ∧ ∀ b, pc ≠ .insert b := by
  obtain ⟨-, rfl, rfl⟩ | ⟨b, -, hcases⟩ := LayerStage.proceed_cases h
  · simp
  obtain ⟨-, -, rfl, rfl⟩ | ⟨-, rfl, rfl⟩ | ⟨-, rfl, rfl⟩ | ⟨e, -, rfl, rfl⟩ |
    ⟨-, rfl, rfl⟩ := hcases
  · simp
  · simp
  · simp
  · simp
  · refine ⟨by simp, ?_⟩
    cases l <;> split <;> simp [Layer.passed]

/-- The call has passed its tests and is about to look up or insert its
tenant. -/
def ApiTask.entering (c : ApiTask) : Prop := c.pc = .entry ∨ ∃ b, c.pc = .insert b

/-- A call takes the test on the size of the table only while the other calls
that are about to insert a tenant are for a tenant that is tracked, or for
its own. -/
def TestsAlone (p : Pool ApiMemory ApiTask) (e : ℕ × ApiAction) : Prop :=
  e.2 = .proceed → (p.task e.1).pc = .countTenants →
    ∀ j, (p.task j).entering →
      (p.task j).tenant ∈ p.shared.tenantBuckets ∨ (p.task j).tenant = (p.task e.1).tenant

/-- The tenants that are tracked and those about to be are few enough. -/
structure Tracked (config : ApiConfig) (tenants : Finset String) (p : Pool ApiMemory ApiTask) :
    Prop where
  card_le : tenants.card ≤ config.maxTenants
  table : ∀ t ∈ p.shared.tenantBuckets, t ∈ tenants
  calls : ∀ i, (p.task i).entering → (p.task i).tenant ∈ tenants

namespace Tracked

variable {config : ApiConfig} {tenants : Finset String} {p q : Pool ApiMemory ApiTask} {i : ℕ}
  {m : ApiMemory} {c : ApiTask}

/-- A step that brings no further tenant. -/
theorem move (h : Tracked config tenants p)
    (htable : ∀ t ∈ m.tenantBuckets, t ∈ p.shared.tenantBuckets ∨ t ∈ tenants)
    (hcall : c.entering → c.tenant ∈ tenants) :
    Tracked config tenants ⟨m, Function.update p.task i c⟩ where
  card_le := h.card_le
  table t ht := (htable t ht).elim (h.table t) id
  calls := by
    refine Pool.forall_task (p := p) (s := m)
      (Q := fun _ _ (c : ApiTask) => c.entering → c.tenant ∈ tenants) h.calls hcall ?_
    exact fun _ _ hj => hj

theorem countTenants (hpc : (p.task i).pc = .countTenants)
    (halone : TestsAlone p (i, .proceed))
    (hroom : ¬config.maxTenants ≤ p.shared.tenantBuckets.keys.length) :
    Tracked config (insert (p.task i).tenant p.shared.tenantBuckets.keys.toFinset)
      ⟨p.shared, Function.update p.task i { p.task i with pc := .entry }⟩ where
  card_le := by
    refine (Finset.card_insert_le ..).trans ?_
    rw [List.toFinset_card_of_nodup p.shared.tenantBuckets.keys_nodup]
    omega
  table t ht := Finset.mem_insert_of_mem (List.mem_toFinset.mpr (AList.mem_keys.mp ht))
  calls j hj := by
    by_cases hij : j = i
    · subst hij
      simp
    · simp only [Function.update_of_ne hij] at hj ⊢
      obtain htracked | hsame := halone rfl hpc j hj
      · exact Finset.mem_insert_of_mem (List.mem_toFinset.mpr (AList.mem_keys.mp htracked))
      · exact hsame ▸ Finset.mem_insert_self ..

theorem proceed {pc : ApiPc} (h : Tracked config tenants p)
    (halone : TestsAlone p (i, .proceed))
    (hstep : (p.task i).pc.proceed config i p.shared (p.task i).tenant = some (m, pc)) :
    ∃ tenants', Tracked config tenants'
      ⟨m, Function.update p.task i { p.task i with pc := pc }⟩ := by
  cases hpc : (p.task i).pc with
  | idle => simp [hpc, ApiPc.proceed] at hstep
  | granted => simp [hpc, ApiPc.proceed] at hstep
  | rejected _ => simp [hpc, ApiPc.proceed] at hstep
  | containsKey =>
      rw [hpc, ApiPc.proceed] at hstep
      split at hstep
      · rename_i htracked
        obtain ⟨rfl, rfl⟩ := Prod.mk.inj (Option.some.inj hstep)
        exact ⟨tenants, h.move (fun t ht => .inl ht) fun _ => h.table _ htracked⟩
      · obtain ⟨rfl, rfl⟩ := Prod.mk.inj (Option.some.inj hstep)
        exact ⟨tenants, h.move (fun t ht => .inl ht) (by simp [ApiTask.entering])⟩
  | countTenants =>
      rw [hpc, ApiPc.proceed] at hstep
      split at hstep
      · obtain ⟨rfl, rfl⟩ := Prod.mk.inj (Option.some.inj hstep)
        exact ⟨tenants, h.move (fun t ht => .inl ht) (by simp [ApiTask.entering])⟩
      · rename_i hroom
        obtain ⟨rfl, rfl⟩ := Prod.mk.inj (Option.some.inj hstep)
        exact ⟨_, countTenants hpc halone hroom⟩
  | entry =>
      have hself : (p.task i).tenant ∈ tenants := h.calls i (.inl hpc)
      rw [hpc, ApiPc.proceed] at hstep
      split at hstep
      all_goals
        obtain ⟨rfl, rfl⟩ := Prod.mk.inj (Option.some.inj hstep)
        exact ⟨tenants, h.move (fun t ht => .inl ht) fun _ => hself⟩
  | insert b =>
      have hself : (p.task i).tenant ∈ tenants := h.calls i (.inr ⟨b, hpc⟩)
      rw [hpc, ApiPc.proceed] at hstep
      obtain ⟨rfl, rfl⟩ := Prod.mk.inj (Option.some.inj hstep)
      refine ⟨tenants, h.move (fun t ht => ?_) (by simp [ApiTask.entering])⟩
      obtain htracked | rfl := ApiMemory.mem_insertTenant ht
      · exact .inl htracked
      · exact .inr hself
  | layer l stage =>
      rw [hpc, ApiPc.proceed] at hstep
      obtain ⟨htable, hentry, hinsert⟩ := LayerStage.proceed_tenants hstep
      refine ⟨tenants, h.move (fun t ht => .inl ((htable t).mp ht)) ?_⟩
      rintro (heq | ⟨b, heq⟩)
      · exact absurd heq hentry
      · exact absurd heq (hinsert b)

theorem step {e : ℕ × ApiAction} (h : Tracked config tenants p) (halone : TestsAlone p e)
    (hstep : p.step (apiStep config) e = some q) : ∃ tenants', Tracked config tenants' q := by
  obtain ⟨m, c, hact, rfl⟩ := Pool.step_eq_some.mp hstep
  obtain ⟨i, action⟩ := e
  cases action with
  | call tenant =>
      simp only [apiStep] at hact
      split at hact
      · obtain ⟨rfl, rfl⟩ := Prod.mk.inj (Option.some.inj hact)
        exact ⟨tenants, h.move (fun t ht => .inl ht) (by simp [ApiTask.entering])⟩
      · simp at hact
  | proceed =>
      obtain ⟨⟨m', pc⟩, hproceed, heq⟩ := Option.map_eq_some_iff.mp hact
      obtain ⟨rfl, rfl⟩ := Prod.mk.inj heq
      exact h.proceed halone hproceed
  | tick elapsed =>
      obtain ⟨rfl, rfl⟩ := Prod.mk.inj (Option.some.inj hact)
      exact ⟨tenants, h.move (fun t ht => .inl ht) (h.calls i)⟩
  | evict tenant maxAge =>
      obtain ⟨m', hevicted, heq⟩ := Option.map_eq_some_iff.mp hact
      obtain ⟨rfl, rfl⟩ := Prod.mk.inj heq
      exact ⟨tenants, h.move (fun t ht => .inl (ApiMemory.mem_of_evict hevicted ht)) (h.calls i)⟩

theorem start (config : ApiConfig) (created : ℕ) :
    Tracked config ∅ (apiStart config created) where
  card_le := Nat.zero_le _
  table t ht := absurd ht (AList.notMem_empty t)
  calls i hi := by simp [apiStart, ApiTask.entering] at hi

theorem length_le (h : Tracked config tenants p) :
    p.shared.tenantBuckets.keys.length ≤ config.maxTenants := by
  have hsubset : p.shared.tenantBuckets.keys.toFinset ⊆ tenants := by
    intro t ht
    exact h.table t (AList.mem_keys.mpr (List.mem_toFinset.mp ht))
  have hcard := Finset.card_le_card hsubset
  rw [List.toFinset_card_of_nodup p.shared.tenantBuckets.keys_nodup] at hcard
  exact hcard.trans h.card_le

end Tracked

/-- The table stays within its bound along runs whose tests are taken alone. -/
theorem tenants_bounded (config : ApiConfig) (created : ℕ) (p : Pool ApiMemory ApiTask)
    (hreach : Reach (Pool.step (apiStep config)) TestsAlone (apiStart config created) p) :
    p.shared.tenantBuckets.keys.length ≤ config.maxTenants := by
  obtain ⟨tenants, htracked⟩ : ∃ tenants, Tracked config tenants p := by
    refine hreach.invariant (I := fun q => ∃ tenants, Tracked config tenants q)
      ⟨∅, Tracked.start config created⟩ ?_
    rintro q e r ⟨tenants, hq⟩ halone hstep
    exact hq.step halone hstep
  exact htracked.length_le

/-- A call that runs while no other call is about to insert a tenant takes its
test alone. -/
theorem reach_of_not_entering {config : ApiConfig} {p : Pool ApiMemory ApiTask} {i : ℕ}
    {x : ApiMemory × ApiTask} (hothers : ∀ j, j ≠ i → ¬(p.task j).entering)
    (h : Reach (Pool.alone (apiStep config) i) anyStep (p.shared, p.task i) x) :
    ∃ q, Reach (Pool.step (apiStep config)) TestsAlone p q ∧ q.shared = x.1 ∧ q.task i = x.2 ∧
      ∀ j, j ≠ i → q.task j = p.task j := by
  refine Pool.reach_of_alone h fun q a r _ hsame _ _ _ j hj => ?_
  by_cases hij : j = i
  · exact .inr (by rw [hij])
  · rw [hsame j hij] at hj
    exact absurd hj (hothers j hij)

/-- Two tenants that are registered one after the other fill a table of two. -/
theorem tenants_bounded_two :
    ∃ p, Reach (Pool.step (apiStep ⟨2, 0, 1, 0, 2⟩)) TestsAlone (apiStart ⟨2, 0, 1, 0, 2⟩ 0) p ∧
      p.shared.tenantBuckets.keys = ["b", "a"] ∧ p.shared.tenantBuckets.keys.length ≤ 2 := by
  have hrun : ((exec (Pool.alone (apiStep ⟨2, 0, 1, 0, 2⟩) 0)
      ((apiStart ⟨2, 0, 1, 0, 2⟩ 0).shared, ⟨"", .idle⟩)
      (.call "a" :: List.replicate 4 .proceed)).bind fun x =>
      (exec (Pool.alone (apiStep ⟨2, 0, 1, 0, 2⟩) 1) (x.1, ⟨"", .idle⟩)
        (.call "b" :: List.replicate 4 .proceed)).map fun y =>
      decide (x.2.pc = .layer .tenant .lock ∧ y.1.tenantBuckets.keys = ["b", "a"])) =
        some true := by
    decide +kernel
  obtain ⟨x, hfirst, hrest⟩ := Option.bind_eq_some_iff.mp hrun
  obtain ⟨y, hsecond, hdecide⟩ := Option.map_eq_some_iff.mp hrest
  obtain ⟨hpc, hkeys⟩ := of_decide_eq_true hdecide
  obtain ⟨p, hreach, hshared, htask, hothers⟩ :=
    reach_of_not_entering (p := apiStart ⟨2, 0, 1, 0, 2⟩ 0) (i := 0)
      (fun j _ => by simp [apiStart, ApiTask.entering]) (Reach.of_exec _ hfirst)
  have hidle : p.task 1 = ⟨"", .idle⟩ := hothers 1 (by decide)
  have hquiet : ∀ j, j ≠ 1 → ¬(p.task j).entering := by
    intro j _ hentering
    by_cases hzero : j = 0
    · rw [hzero, htask] at hentering
      simp [ApiTask.entering, hpc] at hentering
    · rw [hothers j hzero] at hentering
      simp [apiStart, ApiTask.entering] at hentering
  have hrun' : Reach (Pool.alone (apiStep ⟨2, 0, 1, 0, 2⟩) 1) anyStep (p.shared, p.task 1) y := by
    rw [hshared, hidle]
    exact Reach.of_exec _ hsecond
  obtain ⟨q, hreach', hshared', -, -⟩ := reach_of_not_entering hquiet hrun'
  have hfull : Reach (Pool.step (apiStep ⟨2, 0, 1, 0, 2⟩)) TestsAlone
      (apiStart ⟨2, 0, 1, 0, 2⟩ 0) q := hreach.trans hreach'
  exact ⟨q, hfull, by rw [hshared', hkeys], tenants_bounded _ 0 q hfull⟩

/-- Two first calls that both take the test before either inserts. -/
theorem tenants_exceed_bound :
    ¬∀ (config : ApiConfig) (created : ℕ) (p : Pool ApiMemory ApiTask),
      Reach (Pool.step (apiStep config)) anyStep (apiStart config created) p →
      p.shared.tenantBuckets.keys.length ≤ config.maxTenants := by
  intro hall
  have hrun : (exec (Pool.step (apiStep ⟨2, 0, 1, 0, 1⟩)) (apiStart ⟨2, 0, 1, 0, 1⟩ 0)
      (List.flatten [[(0, .call "a"), (1, .call "b")], .replicate 2 (0, .proceed),
        .replicate 2 (1, .proceed), .replicate 2 (0, .proceed), .replicate 2 (1, .proceed)])).map
      (fun p => p.shared.tenantBuckets.keys.length) = some 2 := by
    decide +kernel
  obtain ⟨p, hexec, hlength⟩ := Option.map_eq_some_iff.mp hrun
  have hle := hall ⟨2, 0, 1, 0, 1⟩ 0 p (Reach.of_exec _ hexec)
  rw [hlength] at hle
  exact absurd hle (by decide)

end SereinGateway.TrafficControl
