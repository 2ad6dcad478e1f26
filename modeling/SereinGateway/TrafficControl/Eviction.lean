import Mathlib
import SereinGateway.Lib.Grouping
import SereinGateway.TrafficControl.ApiRateLimiter

/-!
Sequential calls of `acquire_api_token` and `evict_stale_tenants`, and what
the evictions change for the callers.

A run is compared with the same run without its evictions. The two tables
differ by the evicted tenants. Such a tenant has a bucket in one of them that
has not been used for `max_age`; if that is long enough to fill a bucket, its
next call finds a full bucket in either table. The table that nothing is
evicted from is the larger one, and it is this one that must not reach
`max_tenants`.

The clock is read several times in a call. The eviction looks at
`last_accessed` while the bucket is refilled since `last_refill`, which is
read later, so the time between the two readings has to be covered as well.
-/

namespace SereinGateway.TrafficControl

open SereinGateway.Lib

/-- `try_acquire`, whose two readings of the clock are `before` and `after`. -/
def SimpleTokenBucket.tryAcquire (before after : ℕ) (b : SimpleTokenBucket) :
    Bool × SimpleTokenBucket :=
  (b.refill (before - b.lastRefill) after).take

/-- The readings of the clock in a call of `acquire_api_token`: for the two
fields of a new entry, for the access, and twice for the refill of each
layer. Those that a call does not come to are of no interest. -/
structure AcquireReadings where
  created : ℕ
  registered : ℕ
  accessed : ℕ
  tenantElapsed : ℕ
  tenantRefilled : ℕ
  globalElapsed : ℕ
  globalRefilled : ℕ
  sorted : [created, registered, accessed, tenantElapsed, tenantRefilled, globalElapsed,
    globalRefilled].Pairwise (· ≤ ·)

theorem AcquireReadings.steps (r : AcquireReadings) :
    r.created ≤ r.registered ∧ r.registered ≤ r.accessed ∧ r.accessed ≤ r.tenantElapsed ∧
      r.tenantElapsed ≤ r.tenantRefilled ∧ r.tenantRefilled ≤ r.globalElapsed ∧
      r.globalElapsed ≤ r.globalRefilled := by
  have hsorted := r.sorted
  simp only [List.pairwise_cons, List.mem_cons, List.not_mem_nil, or_false,
    forall_eq_or_imp, forall_eq] at hsorted
  tauto

namespace ApiMemory

/-- The entry that `get` finds after `or_insert_with`. -/
def entryOrNew (config : ApiConfig) (r : AcquireReadings) (tenant : String) (m : ApiMemory) :
    TenantBucket :=
  (m.tenantBuckets.lookup tenant).getD
    ⟨⟨.new config.tenantCapacity config.tenantRefillRate r.created, none⟩, r.registered⟩

def acquireApiToken (config : ApiConfig) (tenant : String) (r : AcquireReadings) (m : ApiMemory) :
    Except NetworkError Unit × ApiMemory :=
  if tenant ∉ m.tenantBuckets ∧ config.maxTenants ≤ m.tenantBuckets.keys.length then
    (.error (.globalRateLimitExceeded config.tenantCapacity 0), m)
  else
    let entry := m.entryOrNew config r tenant
    let (taken, bucket) := entry.locked.bucket.tryAcquire r.tenantElapsed r.tenantRefilled
    let m := { m with
      tenantBuckets := m.tenantBuckets.insert tenant ⟨⟨bucket, none⟩, r.accessed⟩
      now := r.tenantRefilled }
    if taken then
      let (taken, bucket) := m.globalBucket.bucket.tryAcquire r.globalElapsed r.globalRefilled
      let m := { m with globalBucket := ⟨bucket, none⟩, now := r.globalRefilled }
      if taken then (.ok (), m)
      else (.error (.globalRateLimitExceeded config.tenantCapacity bucket.available), m)
    else
      (.error (.tenantQuotaExceeded tenant config.tenantCapacity config.tenantRefillRate), m)

/-- `evict_stale_tenants`, which looks at the entry of `t` at the time
`visited t` and ends at the time `finished`. -/
def evictStaleTenants (maxAge : ℕ) (visited : String → ℕ) (finished : ℕ) (m : ApiMemory) :
    ℕ × ApiMemory :=
  let before := m.tenantBuckets.keys.length
  let m := { m with
    tenantBuckets := retain (fun e => decide (visited e.1 - e.2.lastAccessed < maxAge))
      m.tenantBuckets
    now := finished }
  (before - m.tenantBuckets.keys.length, m)

end ApiMemory

/-- A call of the limiter, with its readings of the clock. -/
inductive ApiCall where
  | acquire (tenant : String) (readings : AcquireReadings)
  | evict (maxAge : ℕ) (visited : String → ℕ) (finished : ℕ)

namespace ApiCall

def isAcquire : ApiCall → Bool
  | acquire _ _ => true
  | evict _ _ _ => false

/-- What an acquisition returns, and the memory afterwards. -/
def run (config : ApiConfig) (m : ApiMemory) :
    ApiCall → Option (Except NetworkError Unit) × ApiMemory
  | acquire tenant r =>
      ((m.acquireApiToken config tenant r).1, (m.acquireApiToken config tenant r).2)
  | evict maxAge visited finished => (none, (m.evictStaleTenants maxAge visited finished).2)

/-- The readings of the call come after `now`, and in order. -/
def after (now : ℕ) : ApiCall → Prop
  | acquire _ r => now ≤ r.created
  | evict _ visited finished => now ≤ finished ∧ ∀ t, now ≤ visited t ∧ visited t ≤ finished

/-- The last reading of the call. -/
def finish : ApiCall → ℕ
  | acquire _ r => r.globalRefilled
  | evict _ _ finished => finished

end ApiCall

def results (config : ApiConfig) (m : ApiMemory) : List ApiCall → List (Except NetworkError Unit)
  | [] => []
  | c :: cs => (c.run config m).1.toList ++ results config (c.run config m).2 cs

/-- The calls come one after the other, from the time `now` on. -/
def Timed (now : ℕ) : List ApiCall → Prop
  | [] => True
  | c :: cs => c.after now ∧ Timed c.finish cs

/-- The table does not reach `max_tenants` in the run. -/
def TableBelow (config : ApiConfig) (m : ApiMemory) : List ApiCall → Prop
  | [] => m.tenantBuckets.keys.length < config.maxTenants
  | c :: cs =>
      m.tenantBuckets.keys.length < config.maxTenants ∧ TableBelow config (c.run config m).2 cs

instance decidableTableBelow (config : ApiConfig) :
    ∀ (m : ApiMemory) (calls : List ApiCall), Decidable (TableBelow config m calls)
  | m, [] => inferInstanceAs (Decidable (m.tenantBuckets.keys.length < config.maxTenants))
  | m, c :: cs =>
      have := decidableTableBelow config (c.run config m).2 cs
      inferInstanceAs (Decidable (_ ∧ TableBelow config (c.run config m).2 cs))

def withoutEvictions (calls : List ApiCall) : List ApiCall := calls.filter ApiCall.isAcquire

/-! ### The calls and the atomic steps -/

/-- What a finished call returns. -/
def ApiPc.result : ApiPc → Option (Except NetworkError Unit)
  | .granted => some (.ok ())
  | .rejected e => some (.error e)
  | _ => none

section Alone

variable (config : ApiConfig) (i : ℕ) {m : ApiMemory} {tenant : String} (r : AcquireReadings)

theorem reach_entryOrNew
    (hroom : ¬(tenant ∉ m.tenantBuckets ∧ config.maxTenants ≤ m.tenantBuckets.keys.length))
    (hfree : ∀ e, m.tenantBuckets.lookup tenant = some e → e.locked.holder = none)
    (hnow : m.now ≤ r.created) (hregistered : r.created ≤ r.registered) :
    ∃ m', Reach (Pool.alone (apiStep config) i) anyStep (m, ⟨"", .idle⟩)
        (m', ⟨tenant, .layer .tenant .lock⟩) ∧
      m'.globalBucket = m.globalBucket ∧ m'.now ≤ r.registered ∧
      m'.tenantBuckets.lookup tenant = some (m.entryOrNew config r tenant) ∧
      (∀ e, m'.tenantBuckets.insert tenant e = m.tenantBuckets.insert tenant e) ∧
      (m.entryOrNew config r tenant).locked.holder = none := by
  cases he : m.tenantBuckets.lookup tenant with
  | some e =>
      have htracked : tenant ∈ m.tenantBuckets := by
        simp [← AList.lookup_isSome, he]
      refine ⟨m, Reach.of_exec [.call tenant, .proceed, .proceed] ?_, rfl,
        hnow.trans hregistered, by simp [ApiMemory.entryOrNew, he], fun _ => rfl, ?_⟩
      · simp [exec, Pool.alone, apiStep, ApiPc.proceed, htracked]
      · simpa [ApiMemory.entryOrNew, he] using hfree e he
  | none =>
      have hmissing : tenant ∉ m.tenantBuckets := by
        simp [← AList.lookup_isSome, he]
      have hbelow : ¬config.maxTenants ≤ m.tenantBuckets.keys.length := by tauto
      have hcreated : m.now + (r.created - m.now) = r.created := by omega
      have hlater : r.created + (r.registered - r.created) = r.registered := by omega
      refine ⟨⟨m.globalBucket, m.tenantBuckets.insert tenant (m.entryOrNew config r tenant),
        r.registered⟩, Reach.of_exec [.call tenant, .proceed, .proceed,
          .tick (r.created - m.now), .proceed, .tick (r.registered - r.created), .proceed] ?_,
        rfl, le_rfl, by simp, by simp, by simp [ApiMemory.entryOrNew, he]⟩
      simp [exec, Pool.alone, apiStep, ApiPc.proceed, ApiMemory.insertTenant,
        ApiMemory.entryOrNew, hmissing, hbelow, hcreated, hlater, he]

theorem reach_tenantLayer {entry : TenantBucket} {accessed before after : ℕ}
    (hentry : m.tenantBuckets.lookup tenant = some entry) (hfree : entry.locked.holder = none)
    (hnow : m.now ≤ accessed) (hbefore : accessed ≤ before) (hafter : before ≤ after) :
    Reach (Pool.alone (apiStep config) i) anyStep (m, ⟨tenant, .layer .tenant .lock⟩)
      (⟨m.globalBucket, m.tenantBuckets.insert tenant
          ⟨⟨(entry.locked.bucket.tryAcquire before after).2, none⟩, accessed⟩, after⟩,
        ⟨tenant, if (entry.locked.bucket.tryAcquire before after).1 then .layer .global .lock
          else .rejected (.tenantQuotaExceeded tenant config.tenantCapacity
            config.tenantRefillRate)⟩) := by
  have hfirst : m.now + (accessed - m.now) = accessed := by omega
  have hsecond : accessed + (before - accessed) = before := by omega
  have hthird : before + (after - before) = after := by omega
  refine Reach.of_exec [.proceed, .tick (accessed - m.now), .proceed, .tick (before - accessed),
    .proceed, .tick (after - before), .proceed, .proceed] ?_
  simp [exec, Pool.alone, apiStep, ApiPc.proceed, LayerStage.proceed, Layer.key, Layer.entered,
    Layer.passed, Layer.refused, ApiMemory.bucket, ApiMemory.setBucket, ApiMemory.access,
    SimpleTokenBucket.tryAcquire, hentry, hfree, hfirst, hsecond, hthird]
  rfl

theorem reach_globalLayer {before after : ℕ} (hfree : m.globalBucket.holder = none)
    (hnow : m.now ≤ before) (hafter : before ≤ after) :
    Reach (Pool.alone (apiStep config) i) anyStep (m, ⟨tenant, .layer .global .lock⟩)
      (⟨⟨(m.globalBucket.bucket.tryAcquire before after).2, none⟩, m.tenantBuckets, after⟩,
        ⟨tenant, if (m.globalBucket.bucket.tryAcquire before after).1 then .granted
          else .rejected (.globalRateLimitExceeded config.tenantCapacity
            (m.globalBucket.bucket.tryAcquire before after).2.available)⟩) := by
  have hfirst : m.now + (before - m.now) = before := by omega
  have hsecond : before + (after - before) = after := by omega
  refine Reach.of_exec [.proceed, .tick (before - m.now), .proceed, .tick (after - before),
    .proceed, .proceed] ?_
  simp [exec, Pool.alone, apiStep, ApiPc.proceed, LayerStage.proceed, Layer.key, Layer.entered,
    Layer.passed, Layer.refused, ApiMemory.bucket, ApiMemory.setBucket,
    SimpleTokenBucket.tryAcquire, hfree, hfirst, hsecond]
  rfl

theorem reach_acquireApiToken (hglobal : m.globalBucket.holder = none)
    (hfree : ∀ e, m.tenantBuckets.lookup tenant = some e → e.locked.holder = none)
    (hnow : m.now ≤ r.created) :
    ∃ pc, pc.result = some (m.acquireApiToken config tenant r).1 ∧
      Reach (Pool.alone (apiStep config) i) anyStep (m, ⟨"", .idle⟩)
        ((m.acquireApiToken config tenant r).2, ⟨tenant, pc⟩) := by
  obtain ⟨hregistered, haccessed, helapsed, hrefilled, hglobalElapsed, hglobalRefilled⟩ := r.steps
  by_cases hroom : tenant ∉ m.tenantBuckets ∧ config.maxTenants ≤ m.tenantBuckets.keys.length
  · refine ⟨.rejected (.globalRateLimitExceeded config.tenantCapacity 0), ?_, ?_⟩
    · simp only [ApiMemory.acquireApiToken, if_pos hroom]
      rfl
    · refine Reach.of_exec [.call tenant, .proceed, .proceed] ?_
      simp [exec, Pool.alone, apiStep, ApiPc.proceed, ApiMemory.acquireApiToken, hroom.1, hroom.2]
  obtain ⟨m₁, hreach, hglobal₁, hnow₁, hentry, hinsert, hfree₁⟩ :=
    reach_entryOrNew config i r hroom hfree hnow hregistered
  have htenant := reach_tenantLayer config i hentry hfree₁
    (hnow₁.trans haccessed) helapsed hrefilled
  rw [hinsert, hglobal₁] at htenant
  simp only [ApiMemory.acquireApiToken, if_neg hroom]
  split
  · rename_i htaken
    rw [if_pos htaken] at htenant
    have hboth := (hreach.trans htenant).trans
      (reach_globalLayer config i (by exact hglobal) hglobalElapsed hglobalRefilled)
    split
    · rename_i hgranted
      rw [if_pos hgranted] at hboth
      exact ⟨.granted, rfl, hboth⟩
    · rename_i hrefused
      rw [if_neg hrefused] at hboth
      exact ⟨_, rfl, hboth⟩
  · rename_i hrefused
    rw [if_neg hrefused] at htenant
    exact ⟨_, rfl, hreach.trans htenant⟩

/-- A visit of one entry. -/
theorem ApiMemory.evict_eq {m : ApiMemory} {tenant : String} (maxAge : ℕ)
    (hfree : ∀ e, m.tenantBuckets.lookup tenant = some e → e.locked.holder = none) :
    m.evict tenant maxAge = some { m with
      tenantBuckets := retain (fun e => decide (e.1 ≠ tenant ∨ m.now - e.2.lastAccessed < maxAge))
        m.tenantBuckets } := by
  unfold evict
  split
  · rename_i entry hentry
    have hunique : ∀ e ∈ m.tenantBuckets.entries, e.1 = tenant → e.2 = entry := by
      rintro ⟨t, e⟩ he rfl
      have hlookup := AList.mem_lookup_iff.mpr he
      rw [hentry] at hlookup
      exact (Option.mem_some_iff.mp hlookup).symm
    rw [if_pos (hfree entry hentry)]
    split
    · rename_i hfresh
      rw [retain_eq_self]
      intro e he
      by_cases ht : e.1 = tenant
      · simp [ht, hunique e he ht, hfresh]
      · simp [ht]
    · rename_i hstale
      rw [retain_eq_erase]
      intro e he
      by_cases ht : e.1 = tenant
      · simpa [ht, hunique e he ht] using hstale
      · simp [ht]
  · rename_i hnone
    rw [retain_eq_self]
    intro e he
    by_cases ht : e.1 = tenant
    · have hlookup : m.tenantBuckets.lookup e.1 = some e.2 := AList.mem_lookup_iff.mpr he
      rw [ht, hnone] at hlookup
      simp at hlookup
    · simp [ht]

variable {visited : String → ℕ}

theorem reach_visits (c : ApiTask) (maxAge : ℕ) (ts : List String) {m : ApiMemory}
    (hfree : ∀ t e, m.tenantBuckets.lookup t = some e → e.locked.holder = none)
    (hsorted : ts.Pairwise fun t u => visited t ≤ visited u)
    (hnow : ∀ t ∈ ts, m.now ≤ visited t) {finished : ℕ} (hle : m.now ≤ finished)
    (hfinished : ∀ t ∈ ts, visited t ≤ finished) :
    Reach (Pool.alone (apiStep config) i) anyStep (m, c) ({ m with
      tenantBuckets := retain
        (fun e => decide (e.1 ∉ ts ∨ visited e.1 - e.2.lastAccessed < maxAge)) m.tenantBuckets
      now := finished }, c) := by
  induction ts generalizing m with
  | nil =>
      have hlate : m.now + (finished - m.now) = finished := by omega
      rw [retain_eq_self (by simp)]
      refine Reach.of_exec [.tick (finished - m.now)] ?_
      simp [exec, Pool.alone, apiStep, hlate]
  | cons t ts ih =>
      obtain ⟨hfirst, hrest⟩ := List.pairwise_cons.mp hsorted
      have hlate : m.now + (visited t - m.now) = visited t := by
        have hvisit := hnow t List.mem_cons_self
        omega
      have hevict := ApiMemory.evict_eq (m := { m with now := visited t }) maxAge (hfree t)
      have hvisit : Reach (Pool.alone (apiStep config) i) anyStep (m, c) (⟨m.globalBucket,
          retain (fun e => decide (e.1 ≠ t ∨ visited t - e.2.lastAccessed < maxAge))
            m.tenantBuckets, visited t⟩, c) := by
        refine Reach.of_exec [.tick (visited t - m.now), .evict t maxAge] ?_
        simp only [exec, Pool.alone, apiStep, Option.bind_some, hlate, hevict, Option.map_some]
      refine hvisit.trans ?_
      have hlater := ih (m := ⟨m.globalBucket,
          retain (fun e => decide (e.1 ≠ t ∨ visited t - e.2.lastAccessed < maxAge))
            m.tenantBuckets, visited t⟩) ?_ hrest hfirst (hfinished t List.mem_cons_self)
        fun u hu => hfinished u (List.mem_cons_of_mem _ hu)
      · rw [retain_retain] at hlater
        have hpred : (fun e : Sigma fun _ : String => TenantBucket =>
            decide (e.1 ∉ ts ∨ visited e.1 - e.2.lastAccessed < maxAge) &&
              decide (e.1 ≠ t ∨ visited t - e.2.lastAccessed < maxAge)) =
            fun e => decide (e.1 ∉ t :: ts ∨ visited e.1 - e.2.lastAccessed < maxAge) := by
          ext e
          by_cases ht : e.1 = t
          · by_cases hts : e.1 ∈ ts <;> simp_all
          · simp [ht]
        rw [hpred] at hlater
        exact hlater
      · intro u e he
        rw [lookup_retain_eq, Option.filter_eq_some_iff] at he
        exact hfree u e he.1

/-- The visits of an undisturbed `retain`, in the order of their times. -/
theorem reach_evictStaleTenants (c : ApiTask) (maxAge : ℕ) {finished : ℕ}
    (hfree : ∀ t e, m.tenantBuckets.lookup t = some e → e.locked.holder = none)
    (hnow : ∀ t, m.now ≤ visited t) (hle : m.now ≤ finished)
    (hfinished : ∀ t, visited t ≤ finished) :
    Reach (Pool.alone (apiStep config) i) anyStep (m, c)
      ((m.evictStaleTenants maxAge visited finished).2, c) := by
  let ts := m.tenantBuckets.keys.mergeSort fun t u => decide (visited t ≤ visited u)
  have hsorted : ts.Pairwise fun t u => visited t ≤ visited u := by
    have hmerge : ts.Pairwise fun t u => decide (visited t ≤ visited u) = true := by
      refine List.pairwise_mergeSort (fun t u w htu huw => ?_) (fun t u => ?_) _
      · rw [decide_eq_true_eq] at htu huw ⊢
        exact htu.trans huw
      · rw [Bool.or_eq_true, decide_eq_true_eq, decide_eq_true_eq]
        exact le_total ..
    simpa using hmerge
  have hreach := reach_visits config i c maxAge ts hfree hsorted (fun t _ => hnow t) hle
    fun t _ => hfinished t
  have htable : retain (fun e => decide (e.1 ∉ ts ∨ visited e.1 - e.2.lastAccessed < maxAge))
      m.tenantBuckets = retain (fun e => decide (visited e.1 - e.2.lastAccessed < maxAge))
        m.tenantBuckets := by
    refine AList.ext (List.filter_congr fun e he => ?_)
    have hmem : e.1 ∈ ts := List.mem_mergeSort.mpr (List.mem_map_of_mem he)
    simp [hmem]
  rw [htable] at hreach
  exact hreach

end Alone

/-! ### Full buckets -/

namespace SimpleTokenBucket

variable {b : SimpleTokenBucket} {before after now : ℕ}

/-- The bucket is full at the time `now`. -/
def Full (now : ℕ) (b : SimpleTokenBucket) : Prop :=
  (b.capacity.toNat : ℚ) ≤ b.tokens + ((now - b.lastRefill : ℕ) : ℚ) / 10 ^ 9 * b.refillRate

theorem Full.later {now' : ℕ} (h : b.Full now) (hle : now ≤ now') : b.Full now' := by
  have hrate : (0 : ℚ) ≤ b.refillRate := b.refillRate.2
  have hspan : ((now - b.lastRefill : ℕ) : ℚ) ≤ ((now' - b.lastRefill : ℕ) : ℚ) := by
    exact_mod_cast Nat.sub_le_sub_right hle b.lastRefill
  refine h.trans ?_
  gcongr

theorem tryAcquire_of_full (h : b.Full now) (hle : now ≤ before) (created after : ℕ) :
    b.tryAcquire before after = (new b.capacity b.refillRate created).tryAcquire before after := by
  have hfull : b.refill (before - b.lastRefill) after =
      ⟨b.capacity, b.capacity.toNat, b.refillRate, after⟩ := by
    rw [refill, min_eq_right (h.later hle)]
  have hnew : (new b.capacity b.refillRate created).refill (before - created) after =
      ⟨b.capacity, b.capacity.toNat, b.refillRate, after⟩ := by
    have hrate : (0 : ℚ) ≤ b.refillRate := b.refillRate.2
    rw [refill, new, min_eq_right]
    have hadded : (0 : ℚ) ≤ ((before - created : ℕ) : ℚ) / 10 ^ 9 * b.refillRate := by positivity
    linarith
  show (b.refill (before - b.lastRefill) after).take = _
  rw [hfull, ← hnew]
  rfl

/-- What an acquisition keeps of a bucket. -/
theorem tryAcquire_kept (hnonneg : 0 ≤ b.tokens) (before after : ℕ) :
    (b.tryAcquire before after).2.capacity = b.capacity ∧
      (b.tryAcquire before after).2.refillRate = b.refillRate ∧
      (b.tryAcquire before after).2.lastRefill = after ∧
      0 ≤ (b.tryAcquire before after).2.tokens := by
  have hrate : (0 : ℚ) ≤ b.refillRate := b.refillRate.2
  have hrefilled : 0 ≤ (b.refill (before - b.lastRefill) after).tokens := by
    refine le_min ?_ (Nat.cast_nonneg _)
    positivity
  unfold tryAcquire take
  split
  · rename_i hone
    exact ⟨rfl, rfl, rfl, sub_nonneg.mpr hone⟩
  · exact ⟨rfl, rfl, rfl, hrefilled⟩

end SimpleTokenBucket

/-! ### The run without the evictions -/

/-- What is true of every entry: its mutex is free between calls, and
`last_refill` was read at most `lag` after `last_accessed`. -/
structure TenantBucket.Regular (config : ApiConfig) (lag : ℕ) (e : TenantBucket) : Prop where
  free : e.locked.holder = none
  capacity_eq : e.locked.bucket.capacity = config.tenantCapacity
  rate_eq : e.locked.bucket.refillRate = config.tenantRefillRate
  nonneg : 0 ≤ e.locked.bucket.tokens
  lastRefill_le : e.locked.bucket.lastRefill ≤ e.lastAccessed + lag

/-- The memory `m` of a run at the time `now`, and the memory `s` of the run
without the evictions: the tenants that are missing in `m` have a full
bucket in `s`. -/
structure Hidden (config : ApiConfig) (lag now : ℕ) (m s : ApiMemory) : Prop where
  global : m.globalBucket = s.globalBucket
  regular : ∀ t e, s.tenantBuckets.lookup t = some e → e.Regular config lag
  entries : ∀ t, m.tenantBuckets.lookup t = s.tenantBuckets.lookup t ∨
    m.tenantBuckets.lookup t = none ∧
      ∃ e, s.tenantBuckets.lookup t = some e ∧ e.locked.bucket.Full now

namespace Hidden

variable {config : ApiConfig} {lag now : ℕ} {m s : ApiMemory} {tenant : String}
  {r : AcquireReadings}

theorem later {now' : ℕ} (h : Hidden config lag now m s) (hle : now ≤ now') :
    Hidden config lag now' m s where
  global := h.global
  regular := h.regular
  entries t := by
    obtain hsame | ⟨hnone, e, he, hfull⟩ := h.entries t
    · exact .inl hsame
    · exact .inr ⟨hnone, e, he, hfull.later hle⟩

/-- The run without the evictions tracks more tenants. -/
theorem length_le (h : Hidden config lag now m s) :
    m.tenantBuckets.keys.length ≤ s.tenantBuckets.keys.length := by
  have hsubset : m.tenantBuckets.keys ⊆ s.tenantBuckets.keys := by
    intro t ht
    have hsome : (m.tenantBuckets.lookup t).isSome := AList.lookup_isSome.mpr ht
    refine AList.lookup_isSome.mp (?_ : (s.tenantBuckets.lookup t).isSome)
    obtain hsame | ⟨hnone, -⟩ := h.entries t
    · rwa [← hsame]
    · rw [hnone] at hsome
      simp at hsome
  exact (List.subperm_of_subset m.tenantBuckets.keys_nodup hsubset).length_le

theorem tryAcquire_eq (h : Hidden config lag now m s) (hnow : now ≤ r.tenantElapsed) :
    (m.entryOrNew config r tenant).locked.bucket.tryAcquire r.tenantElapsed r.tenantRefilled =
      (s.entryOrNew config r tenant).locked.bucket.tryAcquire r.tenantElapsed
        r.tenantRefilled := by
  unfold ApiMemory.entryOrNew
  obtain hsame | ⟨hnone, e, he, hfull⟩ := h.entries tenant
  · rw [hsame]
  · have hregular := h.regular tenant e he
    have hequal := SimpleTokenBucket.tryAcquire_of_full hfull hnow r.created r.tenantRefilled
    rw [hregular.capacity_eq, hregular.rate_eq] at hequal
    rw [hnone, he]
    exact hequal.symm

theorem regular_acquired (h : Hidden config lag now m s) (tenant : String)
    (hlag : r.tenantRefilled ≤ r.accessed + lag) :
    TenantBucket.Regular config lag ⟨⟨((s.entryOrNew config r tenant).locked.bucket.tryAcquire
      r.tenantElapsed r.tenantRefilled).2, none⟩, r.accessed⟩ := by
  obtain ⟨hcapacity, hrate, hnonneg⟩ :
      (s.entryOrNew config r tenant).locked.bucket.capacity = config.tenantCapacity ∧
      (s.entryOrNew config r tenant).locked.bucket.refillRate = config.tenantRefillRate ∧
      0 ≤ (s.entryOrNew config r tenant).locked.bucket.tokens := by
    unfold ApiMemory.entryOrNew
    cases he : s.tenantBuckets.lookup tenant with
    | none => exact ⟨rfl, rfl, Nat.cast_nonneg _⟩
    | some e =>
        have hregular := h.regular tenant e he
        exact ⟨hregular.capacity_eq, hregular.rate_eq, hregular.nonneg⟩
  obtain ⟨hcapacity', hrate', hlast, hnonneg'⟩ :=
    SimpleTokenBucket.tryAcquire_kept hnonneg r.tenantElapsed r.tenantRefilled
  exact ⟨rfl, hcapacity'.trans hcapacity, hrate'.trans hrate, hnonneg', hlast.trans_le hlag⟩

theorem write {entry : TenantBucket} {m' s' : ApiMemory} (h : Hidden config lag now m s)
    (hentry : entry.Regular config lag)
    (hm : m'.tenantBuckets = m.tenantBuckets.insert tenant entry)
    (hs : s'.tenantBuckets = s.tenantBuckets.insert tenant entry)
    (hglobal : m'.globalBucket = s'.globalBucket) : Hidden config lag now m' s' where
  global := hglobal
  regular t e he := by
    rw [hs] at he
    by_cases ht : t = tenant
    · subst ht
      rw [AList.lookup_insert, Option.some.injEq] at he
      exact he ▸ hentry
    · rw [AList.lookup_insert_ne ht] at he
      exact h.regular t e he
  entries t := by
    rw [hm, hs]
    by_cases ht : t = tenant
    · subst ht
      exact .inl (by simp)
    · rw [AList.lookup_insert_ne ht, AList.lookup_insert_ne ht]
      exact h.entries t

theorem acquire (h : Hidden config lag now m s)
    (hbelow : s.tenantBuckets.keys.length < config.maxTenants) (hnow : now ≤ r.created)
    (hlag : r.tenantRefilled ≤ r.accessed + lag) :
    (m.acquireApiToken config tenant r).1 = (s.acquireApiToken config tenant r).1 ∧
      Hidden config lag r.globalRefilled (m.acquireApiToken config tenant r).2
        (s.acquireApiToken config tenant r).2 := by
  have hsteps := r.steps
  have helapsed : r.created ≤ r.tenantElapsed := by omega
  have hfinish : r.created ≤ r.globalRefilled := by omega
  have hroom : ¬(tenant ∉ m.tenantBuckets ∧
      config.maxTenants ≤ m.tenantBuckets.keys.length) := by
    have hle := h.length_le
    omega
  have hroom' : ¬(tenant ∉ s.tenantBuckets ∧
      config.maxTenants ≤ s.tenantBuckets.keys.length) := by
    omega
  have hentry := h.regular_acquired tenant hlag
  have hlater := h.later (hnow.trans hfinish)
  simp only [ApiMemory.acquireApiToken, if_neg hroom, if_neg hroom',
    h.tryAcquire_eq (hnow.trans helapsed), h.global]
  split
  · split
    · exact ⟨rfl, hlater.write hentry rfl rfl rfl⟩
    · exact ⟨rfl, hlater.write hentry rfl rfl rfl⟩
  · exact ⟨rfl, hlater.write hentry rfl rfl rfl⟩

theorem full_of_span {capacity tokens : ℚ} {rate : ℚ≥0} {maxAge span : ℕ} (htokens : 0 ≤ tokens)
    (hspan : maxAge ≤ span + lag)
    (hage : capacity + (lag : ℚ) / 10 ^ 9 * rate ≤ (maxAge : ℚ) / 10 ^ 9 * rate) :
    capacity ≤ tokens + (span : ℚ) / 10 ^ 9 * rate := by
  have hrate : (0 : ℚ) ≤ rate := rate.2
  have hcast : (maxAge : ℚ) ≤ span + lag := by exact_mod_cast hspan
  have haccrued : (maxAge : ℚ) / 10 ^ 9 * rate ≤ (span : ℚ) / 10 ^ 9 * rate +
      (lag : ℚ) / 10 ^ 9 * rate := by
    rw [← add_mul, ← add_div]
    gcongr
  linarith

/-- An eviction removes full buckets only. -/
theorem evict {maxAge finished : ℕ} {visited : String → ℕ} (h : Hidden config lag now m s)
    (hvisited : ∀ t, visited t ≤ finished) (hnow : now ≤ finished)
    (hage : (config.tenantCapacity.toNat : ℚ) + (lag : ℚ) / 10 ^ 9 * config.tenantRefillRate ≤
      (maxAge : ℚ) / 10 ^ 9 * config.tenantRefillRate) :
    Hidden config lag finished (m.evictStaleTenants maxAge visited finished).2 s where
  global := h.global
  regular := h.regular
  entries t := by
    have hlater := h.later hnow
    simp only [ApiMemory.evictStaleTenants]
    rw [lookup_retain_eq]
    cases hm : m.tenantBuckets.lookup t with
    | none =>
        have hold := hlater.entries t
        rw [hm] at hold
        exact hold
    | some e =>
        have hs : s.tenantBuckets.lookup t = some e := by
          obtain hsame | ⟨hnone, -⟩ := h.entries t
          · exact hsame.symm.trans hm
          · simp [hnone] at hm
        by_cases hkept : visited t - e.lastAccessed < maxAge
        · exact .inl (by simp [hkept, hs])
        · refine .inr ⟨by simpa using not_lt.mp hkept, e, hs, ?_⟩
          have hregular := h.regular t e hs
          have hspan : maxAge ≤ (finished - e.locked.bucket.lastRefill) + lag := by
            have hlast := hregular.lastRefill_le
            have hvisit := hvisited t
            omega
          rw [SimpleTokenBucket.Full, hregular.capacity_eq, hregular.rate_eq]
          exact full_of_span hregular.nonneg hspan hage

end Hidden

/-- Every acquisition returns what it returns in the run without the
evictions, as long as the table of that run has room and a bucket that is
old enough to be evicted is full. -/
theorem eviction_invisible (config : ApiConfig) (created lag : ℕ) (calls : List ApiCall)
    (htimed : Timed created calls)
    (hlag : ∀ tenant r, .acquire tenant r ∈ calls → r.tenantRefilled ≤ r.accessed + lag)
    (hage : ∀ (maxAge : ℕ) visited finished, .evict maxAge visited finished ∈ calls →
      (config.tenantCapacity.toNat : ℚ) + (lag : ℚ) / 10 ^ 9 * config.tenantRefillRate ≤
        (maxAge : ℚ) / 10 ^ 9 * config.tenantRefillRate)
    (hbelow : TableBelow config (apiStart config created).shared (withoutEvictions calls)) :
    results config (apiStart config created).shared calls =
      results config (apiStart config created).shared (withoutEvictions calls) := by
  have hrun : ∀ (m s : ApiMemory) (now : ℕ), Hidden config lag now m s → Timed now calls →
      TableBelow config s (withoutEvictions calls) →
      results config m calls = results config s (withoutEvictions calls) := by
    clear htimed hbelow
    induction calls with
    | nil => intro m s now _ _ _; rfl
    | cons c cs ih =>
        intro m s now hhidden htimed hbelow
        have ih' := ih (fun t r hmem => hlag t r (List.mem_cons_of_mem _ hmem))
          (fun a v f hmem => hage a v f (List.mem_cons_of_mem _ hmem))
        cases c with
        | acquire tenant r =>
            obtain ⟨hroom, hrest⟩ := hbelow
            obtain ⟨hsame, hhidden'⟩ := hhidden.acquire hroom htimed.1
              (hlag tenant r List.mem_cons_self)
            have htail := ih' _ _ _ hhidden' htimed.2 hrest
            show (some (m.acquireApiToken config tenant r).1).toList ++ _ =
              (some (s.acquireApiToken config tenant r).1).toList ++ _
            rw [hsame]
            exact congrArg _ htail
        | evict maxAge visited finished =>
            obtain ⟨⟨hnow, hvisited⟩, hrest⟩ := htimed
            have hhidden' := hhidden.evict (fun t => (hvisited t).2) hnow
              (hage maxAge visited finished List.mem_cons_self)
            exact ih' _ _ _ hhidden' hrest hbelow
  refine hrun _ _ created ?_ htimed hbelow
  refine ⟨rfl, fun t e he => ?_, fun t => .inl rfl⟩
  simp [apiStart] at he

def AcquireReadings.instant (now : ℕ) : AcquireReadings where
  created := now
  registered := now
  accessed := now
  tenantElapsed := now
  tenantRefilled := now
  globalElapsed := now
  globalRefilled := now
  sorted := by simp

/-- A tenant is evicted after a second, in which its bucket has been filled. -/
theorem eviction_invisible_once :
    results ⟨10, 0, 1, 1, 5⟩ (apiStart ⟨10, 0, 1, 1, 5⟩ 0).shared
        [.acquire "a" (.instant 0), .evict 1000000000 (fun _ => 1000000000) 1000000000,
          .acquire "a" (.instant 1000000000)] = [.ok (), .ok ()] ∧
      results ⟨10, 0, 1, 1, 5⟩ (apiStart ⟨10, 0, 1, 1, 5⟩ 0).shared
        [.acquire "a" (.instant 0), .evict 1000000000 (fun _ => 1000000000) 1000000000,
          .acquire "a" (.instant 1000000000)] =
      results ⟨10, 0, 1, 1, 5⟩ (apiStart ⟨10, 0, 1, 1, 5⟩ 0).shared
        [.acquire "a" (.instant 0), .acquire "a" (.instant 1000000000)] := by
  refine ⟨by decide +kernel, ?_⟩
  refine eviction_invisible _ 0 0 _ ?_ ?_ ?_ ?_
  · simp [Timed, ApiCall.after, ApiCall.finish, AcquireReadings.instant]
  · intro tenant r hmem
    simp only [List.mem_cons, ApiCall.acquire.injEq, reduceCtorEq, List.not_mem_nil, or_false,
      false_or] at hmem
    obtain ⟨-, rfl⟩ | ⟨-, rfl⟩ := hmem <;> exact le_rfl
  · intro maxAge visited finished hmem
    simp only [List.mem_cons, ApiCall.evict.injEq, reduceCtorEq, List.not_mem_nil, or_false,
      false_or] at hmem
    obtain ⟨rfl, -, -⟩ := hmem
    decide +kernel
  · decide +kernel

/-- The evictions show when they keep a table small that would fill up
without them, and when the clock moves within a call. -/
theorem eviction_visible :
    (¬∀ (config : ApiConfig) (created : ℕ) (calls : List ApiCall), Timed created calls →
      (∀ tenant r, .acquire tenant r ∈ calls → ∃ now, r = .instant now) →
      (∀ (maxAge : ℕ) visited finished, .evict maxAge visited finished ∈ calls →
        (config.tenantCapacity.toNat : ℚ) ≤ (maxAge : ℚ) / 10 ^ 9 * config.tenantRefillRate) →
      TableBelow config (apiStart config created).shared calls →
      results config (apiStart config created).shared calls =
        results config (apiStart config created).shared (withoutEvictions calls)) ∧
    ¬∀ (config : ApiConfig) (created : ℕ) (calls : List ApiCall), Timed created calls →
      (∀ (maxAge : ℕ) visited finished, .evict maxAge visited finished ∈ calls →
        (config.tenantCapacity.toNat : ℚ) ≤ (maxAge : ℚ) / 10 ^ 9 * config.tenantRefillRate) →
      TableBelow config (apiStart config created).shared calls →
      TableBelow config (apiStart config created).shared (withoutEvictions calls) →
      results config (apiStart config created).shared calls =
        results config (apiStart config created).shared (withoutEvictions calls) := by
  constructor
  · intro hall
    have hsame := hall ⟨10, 0, 1, 1, 2⟩ 0
      [.acquire "a" (.instant 0), .evict 1000000000 (fun _ => 1000000000) 1000000000,
        .acquire "b" (.instant 1000000000), .evict 1000000000 (fun _ => 2000000000) 2000000000,
        .acquire "c" (.instant 2000000000)] ?_ ?_ ?_ ?_
    · revert hsame
      decide +kernel
    · simp [Timed, ApiCall.after, ApiCall.finish, AcquireReadings.instant]
    · intro tenant r hmem
      simp only [List.mem_cons, ApiCall.acquire.injEq, reduceCtorEq, List.not_mem_nil, or_false,
        false_or] at hmem
      obtain ⟨-, rfl⟩ | ⟨-, rfl⟩ | ⟨-, rfl⟩ := hmem <;> exact ⟨_, rfl⟩
    · intro maxAge visited finished hmem
      simp only [List.mem_cons, ApiCall.evict.injEq, reduceCtorEq, List.not_mem_nil, or_false,
        false_or] at hmem
      obtain ⟨rfl, -, -⟩ | ⟨rfl, -, -⟩ := hmem <;> decide +kernel
    · decide +kernel
  · intro hall
    -- `last_refill` is read a nanosecond after `last_accessed`.
    have hsame := hall ⟨10, 0, 1, 1, 5⟩ 0
      [.acquire "a" ⟨0, 0, 0, 0, 1, 1, 1, by decide⟩,
        .evict 1000000000 (fun _ => 1000000000) 1000000000,
        .acquire "a" (.instant 1000000000)] ?_ ?_ ?_ ?_
    · revert hsame
      decide +kernel
    · simp [Timed, ApiCall.after, ApiCall.finish, AcquireReadings.instant]
    · intro maxAge visited finished hmem
      simp only [List.mem_cons, ApiCall.evict.injEq, reduceCtorEq, List.not_mem_nil, or_false,
        false_or] at hmem
      obtain ⟨rfl, -, -⟩ := hmem
      decide +kernel
    · decide +kernel
    · decide +kernel

end SereinGateway.TrafficControl
