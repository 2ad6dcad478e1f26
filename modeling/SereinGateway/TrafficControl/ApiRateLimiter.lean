import Mathlib
import SereinGateway.Lib.Census
import SereinGateway.TrafficControl.TokenBucket

/-!
The dual-layer rate limiter of the gateway: one bucket for every tenant and
one for all of them, each behind its own mutex, and the bound on what
concurrent callers are granted.

A step of `apiStep` is one access to the tenant map, one acquisition of a
mutex, or one reading of the clock under a mutex together with the writes to
the fields that the mutex protects. Looking an entry up and locking it is one
step, because the reference to the entry keeps it in the map until the lock
is released. The tasks that wait for a lock do not keep their entry here, so
the model has every run of the program and a few more.

Both layers are the same bucket code. They are treated together: `none` is
the key of the global bucket and `some t` that of the tenant `t`.
-/

namespace SereinGateway.TrafficControl

open SereinGateway.Lib

/-- `SimpleTokenBucket`, with a rational token count. -/
structure SimpleTokenBucket where
  capacity : UInt32
  tokens : ℚ
  refillRate : ℚ≥0
  lastRefill : ℕ
  deriving DecidableEq

namespace SimpleTokenBucket

def new (capacity : UInt32) (refillRate : ℚ≥0) (now : ℕ) : SimpleTokenBucket :=
  ⟨capacity, capacity.toNat, refillRate, now⟩

/-- `refill`, where `elapsed` was read first and `now` is read last. -/
def refill (elapsed now : ℕ) (b : SimpleTokenBucket) : SimpleTokenBucket :=
  let addition := (elapsed : ℚ) / 10 ^ 9 * b.refillRate
  { b with
    tokens := min (b.tokens + addition) b.capacity.toNat
    lastRefill := now }

/-- `try_acquire` after its refill. -/
def take (b : SimpleTokenBucket) : Bool × SimpleTokenBucket :=
  if 1 ≤ b.tokens then (true, { b with tokens := b.tokens - 1 }) else (false, b)

/-- `available`. The cast to `u32` saturates. -/
def available (b : SimpleTokenBucket) : UInt32 := .ofNat (min ⌊b.tokens⌋₊ (2 ^ 32 - 1))

end SimpleTokenBucket

/-- A bucket and the task that holds its mutex. -/
structure LockedBucket where
  bucket : SimpleTokenBucket
  holder : Option ℕ
  deriving DecidableEq

structure TenantBucket where
  locked : LockedBucket
  lastAccessed : ℕ
  deriving DecidableEq

/-- The arguments of `ApiRateLimiter::new`. -/
structure ApiConfig where
  globalCapacity : UInt32
  globalRefillRate : ℚ≥0
  tenantCapacity : UInt32
  tenantRefillRate : ℚ≥0
  maxTenants : ℕ
  deriving DecidableEq

/-- The defaults of `init_circuit_breaker`. -/
def ApiConfig.production : ApiConfig := ⟨10000, 5000, 100, 50, 10000⟩

inductive NetworkError where
  | tenantQuotaExceeded (tenantId : String) (limit : UInt32) (refillRate : ℚ≥0)
  | globalRateLimitExceeded (capacity available : UInt32)
  deriving DecidableEq

/-- Memory shared by the calls. -/
structure ApiMemory where
  globalBucket : LockedBucket
  tenantBuckets : AList (fun _ : String => TenantBucket)
  now : ℕ

namespace ApiMemory

def bucket (m : ApiMemory) : Option String → Option LockedBucket
  | none => some m.globalBucket
  | some t => (m.tenantBuckets.lookup t).map TenantBucket.locked

/-- Write the bucket of a tenant that is tracked, or the global one. -/
def setBucket (m : ApiMemory) (key : Option String) (b : LockedBucket) : ApiMemory :=
  match key with
  | none => { m with globalBucket := b }
  | some t =>
      match m.tenantBuckets.lookup t with
      | some entry =>
          { m with tenantBuckets := m.tenantBuckets.insert t { entry with locked := b } }
      | none => m

/-- `guard.last_accessed = Instant::now()`. -/
def access (m : ApiMemory) (tenant : String) : ApiMemory :=
  match m.tenantBuckets.lookup tenant with
  | some entry =>
      { m with tenantBuckets := m.tenantBuckets.insert tenant { entry with lastAccessed := m.now } }
  | none => m

/-- `or_insert_with`, once the value has been made. -/
def insertTenant (m : ApiMemory) (tenant : String) (b : SimpleTokenBucket) : ApiMemory :=
  match m.tenantBuckets.lookup tenant with
  | some _ => m
  | none => { m with tenantBuckets := m.tenantBuckets.insert tenant ⟨⟨b, none⟩, m.now⟩ }

/-- What `retain` does to one entry in `evict_stale_tenants`. It waits for the
mutex of the entry. -/
def evict (m : ApiMemory) (tenant : String) (maxAge : ℕ) : Option ApiMemory :=
  match m.tenantBuckets.lookup tenant with
  | some entry =>
      if entry.locked.holder = none then
        if m.now - entry.lastAccessed < maxAge then some m
        else some { m with tenantBuckets := m.tenantBuckets.erase tenant }
      else none
  | none => some m

end ApiMemory

inductive Layer where
  | tenant
  | global
  deriving DecidableEq, Repr

/-- Where a task stands in the `try_acquire` of a layer. -/
inductive LayerStage where
  | lock
  | access
  | readElapsed
  | refill (elapsed : ℕ)
  | take
  deriving DecidableEq, Repr

/-- Where a call of `acquire_api_token` stands. -/
inductive ApiPc where
  | idle
  | containsKey
  | countTenants
  | entry
  | insert (bucket : SimpleTokenBucket)
  | layer (layer : Layer) (stage : LayerStage)
  | granted
  | rejected (error : NetworkError)
  deriving DecidableEq

structure ApiTask where
  tenant : String
  pc : ApiPc
  deriving DecidableEq

/-- The key of the bucket that a layer of a call for `tenant` uses. -/
def Layer.key (tenant : String) : Layer → Option String
  | .tenant => some tenant
  | .global => none

/-- The mutex is acquired: the tenant layer records the access first. -/
def Layer.entered : Layer → LayerStage
  | .tenant => .access
  | .global => .readElapsed

def Layer.passed : Layer → ApiPc
  | .tenant => .layer .global .lock
  | .global => .granted

def Layer.refused (config : ApiConfig) (tenant : String) (b : SimpleTokenBucket) :
    Layer → NetworkError
  | .tenant => .tenantQuotaExceeded tenant config.tenantCapacity config.tenantRefillRate
  | .global => .globalRateLimitExceeded config.tenantCapacity b.available

/-- The next step of a call in a layer. -/
def LayerStage.proceed (config : ApiConfig) (i : ℕ) (m : ApiMemory) (tenant : String)
    (layer : Layer) (stage : LayerStage) : Option (ApiMemory × ApiPc) :=
  let key := layer.key tenant
  match m.bucket key with
  | none =>
      -- The entry was evicted after `or_insert_with`.
      match stage with
      | .lock => some (m, .rejected (.globalRateLimitExceeded config.tenantCapacity 0))
      | _ => none
  | some b =>
      match stage with
      | .lock =>
          if b.holder = none then
            some (m.setBucket key { b with holder := some i }, .layer layer layer.entered)
          else none
      | .access => some (m.access tenant, .layer layer .readElapsed)
      | .readElapsed => some (m, .layer layer (.refill (m.now - b.bucket.lastRefill)))
      | .refill elapsed =>
          some (m.setBucket key { b with bucket := b.bucket.refill elapsed m.now },
            .layer layer .take)
      | .take =>
          let (taken, rest) := b.bucket.take
          some (m.setBucket key ⟨rest, none⟩,
            if taken then layer.passed else .rejected (layer.refused config tenant rest))

/-- The next step of a call. -/
def ApiPc.proceed (config : ApiConfig) (i : ℕ) (m : ApiMemory) (tenant : String) (pc : ApiPc) :
    Option (ApiMemory × ApiPc) :=
  match pc with
  | .containsKey =>
      if tenant ∈ m.tenantBuckets then some (m, .entry) else some (m, .countTenants)
  | .countTenants =>
      if config.maxTenants ≤ m.tenantBuckets.keys.length then
        some (m, .rejected (.globalRateLimitExceeded config.tenantCapacity 0))
      else some (m, .entry)
  | .entry =>
      if tenant ∈ m.tenantBuckets then some (m, .layer .tenant .lock)
      else some (m, .insert (.new config.tenantCapacity config.tenantRefillRate m.now))
  | .insert b => some (m.insertTenant tenant b, .layer .tenant .lock)
  | .layer l stage => stage.proceed config i m tenant l
  | .idle | .granted | .rejected _ => none

/-- A call begins, takes its next step, time passes, or an entry of the tenant
map is visited by the eviction. -/
inductive ApiAction where
  | call (tenant : String)
  | proceed
  | tick (elapsed : ℕ)
  | evict (tenant : String) (maxAge : ℕ)
  deriving DecidableEq, Repr

def apiStep (config : ApiConfig) (i : ℕ) (m : ApiMemory) (c : ApiTask) :
    ApiAction → Option (ApiMemory × ApiTask)
  | .call tenant => if c.pc = .idle then some (m, ⟨tenant, .containsKey⟩) else none
  | .proceed => (c.pc.proceed config i m c.tenant).map fun r => (r.1, { c with pc := r.2 })
  | .tick elapsed => some ({ m with now := m.now + elapsed }, c)
  | .evict tenant maxAge => (m.evict tenant maxAge).map fun m' => (m', c)

/-- The calls on a limiter that was created at the time `created`. -/
def apiStart (config : ApiConfig) (created : ℕ) : Pool ApiMemory ApiTask where
  shared :=
    { globalBucket := ⟨.new config.globalCapacity config.globalRefillRate created, none⟩
      tenantBuckets := ∅
      now := created }
  task _ := ⟨"", .idle⟩

/-! ### Buckets under their keys -/

namespace ApiMemory

variable {m : ApiMemory} {key key' : Option String} {b b' : LockedBucket} {tenant : String}

theorem bucket_setBucket_self (h : m.bucket key = some b) :
    (m.setBucket key b').bucket key = some b' := by
  cases key with
  | none => rfl
  | some t =>
      obtain ⟨entry, hentry, -⟩ := Option.map_eq_some_iff.mp h
      simp [setBucket, bucket, hentry]

theorem bucket_setBucket_of_ne (hne : key' ≠ key) :
    (m.setBucket key b').bucket key' = m.bucket key' := by
  cases key with
  | none =>
      cases key' with
      | none => exact absurd rfl hne
      | some t' => rfl
  | some t =>
      simp only [setBucket]
      split
      · cases key' with
        | none => rfl
        | some t' =>
            have htenant : t' ≠ t := fun heq => hne (congrArg some heq)
            simp [bucket, AList.lookup_insert_ne htenant]
      · rfl

@[simp] theorem now_setBucket : (m.setBucket key b).now = m.now := by
  unfold setBucket
  repeat' split
  all_goals rfl

@[simp] theorem bucket_access : (m.access tenant).bucket key = m.bucket key := by
  unfold access
  split
  · rename_i entry hentry
    cases key with
    | none => rfl
    | some t =>
        by_cases htenant : t = tenant
        · subst htenant
          simp [bucket, hentry]
        · simp [bucket, AList.lookup_insert_ne htenant]
  · rfl

@[simp] theorem now_access : (m.access tenant).now = m.now := by
  unfold access
  split <;> rfl

@[simp] theorem now_insertTenant {b : SimpleTokenBucket} :
    (m.insertTenant tenant b).now = m.now := by
  unfold insertTenant
  split <;> rfl

theorem bucket_insertTenant (key : Option String) (b : SimpleTokenBucket) :
    (m.insertTenant tenant b).bucket key = m.bucket key ∨
      key = some tenant ∧ m.bucket key = none ∧
        (m.insertTenant tenant b).bucket key = some ⟨b, none⟩ := by
  unfold insertTenant
  split
  · exact .inl rfl
  · rename_i hnone
    cases key with
    | none => exact .inl rfl
    | some t =>
        by_cases htenant : t = tenant
        · subst htenant
          exact .inr ⟨rfl, by simp [bucket, hnone], by simp [bucket]⟩
        · exact .inl (by simp [bucket, AList.lookup_insert_ne htenant])

theorem bucket_evict {m' : ApiMemory} {maxAge : ℕ} (h : m.evict tenant maxAge = some m') :
    m'.now = m.now ∧ ∀ key, m'.bucket key = m.bucket key ∨
      key = some tenant ∧ m'.bucket key = none ∧
        ∀ b, m.bucket key = some b → b.holder = none := by
  unfold evict at h
  split at h
  · rename_i entry hentry
    split at h
    · rename_i hfree
      split at h
      · obtain rfl := Option.some.inj h
        exact ⟨rfl, fun key => .inl rfl⟩
      · obtain rfl := Option.some.inj h
        refine ⟨rfl, fun key => ?_⟩
        cases key with
        | none => exact .inl rfl
        | some t =>
            by_cases htenant : t = tenant
            · subst htenant
              refine .inr ⟨rfl, by simp [bucket], fun b hb => ?_⟩
              simp only [bucket, hentry, Option.map_some, Option.some.injEq] at hb
              rwa [← hb]
            · exact .inl (by simp [bucket, AList.lookup_erase_ne htenant])
    · simp at h
  · obtain rfl := Option.some.inj h
    exact ⟨rfl, fun key => .inl rfl⟩

end ApiMemory

/-! ### Accounting -/

/-- The tokens in a bucket and the `n` that it has given out are covered by
its capacity and by what has accrued up to `last_refill`. -/
structure Covers (capacity : UInt32) (rate : ℚ≥0) (created now n : ℕ) (b : SimpleTokenBucket) :
    Prop where
  capacity_eq : b.capacity = capacity
  rate_eq : b.refillRate = rate
  created_le : created ≤ b.lastRefill
  lastRefill_le : b.lastRefill ≤ now
  nonneg : 0 ≤ b.tokens
  covered : b.tokens + n ≤ capacity.toNat + rate * (((b.lastRefill - created : ℕ) : ℚ) / 10 ^ 9)

namespace Covers

variable {capacity : UInt32} {rate : ℚ≥0} {created now n : ℕ} {b : SimpleTokenBucket}

theorem new {start : ℕ} (hcreated : created ≤ start) (hnow : start ≤ now) :
    Covers capacity rate created now 0 (.new capacity rate start) where
  capacity_eq := rfl
  rate_eq := rfl
  created_le := hcreated
  lastRefill_le := hnow
  nonneg := Nat.cast_nonneg _
  covered := by
    have hrate : (0 : ℚ) ≤ rate := rate.2
    have haccrued : (0 : ℚ) ≤ rate * (((start - created : ℕ) : ℚ) / 10 ^ 9) := by positivity
    simp only [SimpleTokenBucket.new, Nat.cast_zero, add_zero]
    linarith

theorem later {now' : ℕ} (h : Covers capacity rate created now n b) (hnow : now ≤ now') :
    Covers capacity rate created now' n b :=
  { h with lastRefill_le := h.lastRefill_le.trans hnow }

theorem fewer {m : ℕ} (h : Covers capacity rate created now n b) (hm : m ≤ n) :
    Covers capacity rate created now m b :=
  { h with
    covered := by
      have hcast : (m : ℚ) ≤ n := by exact_mod_cast hm
      have hold := h.covered
      linarith }

/-- The time between the two readings of the clock is not credited. -/
theorem refill {elapsed : ℕ} (h : Covers capacity rate created now n b)
    (helapsed : b.lastRefill + elapsed ≤ now) :
    Covers capacity rate created now n (b.refill elapsed now) where
  capacity_eq := h.capacity_eq
  rate_eq := h.rate_eq
  created_le := h.created_le.trans h.lastRefill_le
  lastRefill_le := le_rfl
  nonneg := by
    have hrate : (0 : ℚ) ≤ b.refillRate := b.refillRate.2
    have hnonneg := h.nonneg
    exact le_min (by positivity) (Nat.cast_nonneg _)
  covered := by
    have hrate : (0 : ℚ) ≤ rate := rate.2
    have hcreated := h.created_le
    have hspan : ((b.lastRefill - created : ℕ) : ℚ) + elapsed ≤ ((now - created : ℕ) : ℚ) := by
      have hnat : b.lastRefill - created + elapsed ≤ now - created := by omega
      exact_mod_cast hnat
    have haccrued : (rate : ℚ) * (((b.lastRefill - created : ℕ) : ℚ) / 10 ^ 9) +
        rate * ((elapsed : ℚ) / 10 ^ 9) ≤ rate * (((now - created : ℕ) : ℚ) / 10 ^ 9) := by
      rw [← mul_add, ← add_div]
      gcongr
    have hmin : (b.refill elapsed now).tokens ≤ b.tokens + (elapsed : ℚ) / 10 ^ 9 * rate := by
      rw [← h.rate_eq]
      exact min_le_left ..
    have hold := h.covered
    simp only [SimpleTokenBucket.refill] at hmin ⊢
    linarith

theorem take (h : Covers capacity rate created now n b) :
    Covers capacity rate created now (if b.take.1 then n + 1 else n) b.take.2 := by
  unfold SimpleTokenBucket.take
  split
  · rename_i hone
    refine { h with nonneg := sub_nonneg.mpr hone, covered := ?_ }
    have hold := h.covered
    simp only [if_true]
    push_cast
    linarith
  · exact h

/-- What a bucket has given out is bounded by the time that has passed. -/
theorem le (h : Covers capacity rate created now n b) :
    (n : ℚ) ≤ capacity.toNat + rate * (((now - created : ℕ) : ℚ) / 10 ^ 9) := by
  have hrate : (0 : ℚ) ≤ rate := rate.2
  have hspan : ((b.lastRefill - created : ℕ) : ℚ) ≤ ((now - created : ℕ) : ℚ) := by
    exact_mod_cast Nat.sub_le_sub_right h.lastRefill_le created
  have haccrued : (rate : ℚ) * (((b.lastRefill - created : ℕ) : ℚ) / 10 ^ 9) ≤
      rate * (((now - created : ℕ) : ℚ) / 10 ^ 9) := by gcongr
  have hnonneg := h.nonneg
  have hcovered := h.covered
  linarith

end Covers

def ApiConfig.capacity (config : ApiConfig) : Option String → UInt32
  | none => config.globalCapacity
  | some _ => config.tenantCapacity

def ApiConfig.refillRate (config : ApiConfig) : Option String → ℚ≥0
  | none => config.globalRefillRate
  | some _ => config.tenantRefillRate

/-- The call has a token of the bucket and has not been rejected since. -/
def ApiTask.paid (c : ApiTask) : Option String → Prop
  | none => c.pc = .granted
  | some t => c.tenant = t ∧ (c.pc = .granted ∨ ∃ stage, c.pc = .layer .global stage)

/-- What the values that a call keeps between its steps are worth. -/
structure ApiTask.Sound (config : ApiConfig) (created : ℕ) (m : ApiMemory) (i : ℕ) (c : ApiTask) :
    Prop where
  locked : ∀ l stage, c.pc = .layer l stage → stage ≠ .lock →
    ∃ b, m.bucket (l.key c.tenant) = some b ∧ b.holder = some i
  elapsed : ∀ l e b, c.pc = .layer l (.refill e) → m.bucket (l.key c.tenant) = some b →
    e ≤ m.now - b.bucket.lastRefill
  fresh : ∀ b, c.pc = .insert b → ∃ start, created ≤ start ∧ start ≤ m.now ∧
    b = .new config.tenantCapacity config.tenantRefillRate start

/-- The bucket under `key` covers what it has given out. -/
structure ApiFunded (config : ApiConfig) (created : ℕ) (key : Option String)
    (p : Pool ApiMemory ApiTask) : Prop where
  created_le : created ≤ p.shared.now
  sound : ∀ i, (p.task i).Sound config created p.shared i
  absent : p.shared.bucket key = none → ∀ i, ¬(p.task i).paid key
  covered : ∀ b, p.shared.bucket key = some b →
    ∃ n, Census (fun i => (p.task i).paid key) n ∧
      Covers (config.capacity key) (config.refillRate key) created p.shared.now n b.bucket

theorem ApiTask.Sound.other {config : ApiConfig} {created j : ℕ} {m m' : ApiMemory} {c : ApiTask}
    (h : c.Sound config created m j) (hnow : m.now ≤ m'.now)
    (hbucket : ∀ k, m'.bucket k = m.bucket k ∨
      ∀ b, m.bucket k = some b → b.holder ≠ some j) : c.Sound config created m' j where
  locked l stage hpc hstage := by
    obtain ⟨b, hb, hholder⟩ := h.locked l stage hpc hstage
    obtain hsame | hfree := hbucket (l.key c.tenant)
    · exact ⟨b, hsame.trans hb, hholder⟩
    · exact absurd hholder (hfree b hb)
  elapsed l e b hpc hb := by
    obtain ⟨b₀, hb₀, hholder⟩ := h.locked l _ hpc (by simp)
    obtain hsame | hfree := hbucket (l.key c.tenant)
    · exact (h.elapsed l e b hpc (hsame ▸ hb)).trans (Nat.sub_le_sub_right hnow _)
    · exact absurd hholder (hfree b₀ hb₀)
  fresh b hpc := by
    obtain ⟨start, hcreated, hstart, rfl⟩ := h.fresh b hpc
    exact ⟨start, hcreated, hstart.trans hnow, rfl⟩

theorem LayerStage.proceed_cases {config : ApiConfig} {i : ℕ} {m m' : ApiMemory} {tenant : String}
    {l : Layer} {stage : LayerStage} {pc : ApiPc}
    (h : stage.proceed config i m tenant l = some (m', pc)) :
    m.bucket (l.key tenant) = none ∧ m' = m ∧
        pc = .rejected (.globalRateLimitExceeded config.tenantCapacity 0) ∨
      ∃ b, m.bucket (l.key tenant) = some b ∧
        (stage = .lock ∧ b.holder = none ∧
            m' = m.setBucket (l.key tenant) { b with holder := some i } ∧
            pc = .layer l l.entered ∨
          stage = .access ∧ m' = m.access tenant ∧ pc = .layer l .readElapsed ∨
          stage = .readElapsed ∧ m' = m ∧
            pc = .layer l (.refill (m.now - b.bucket.lastRefill)) ∨
          (∃ e, stage = .refill e ∧
            m' = m.setBucket (l.key tenant) { b with bucket := b.bucket.refill e m.now } ∧
            pc = .layer l .take) ∨
          stage = .take ∧ m' = m.setBucket (l.key tenant) ⟨b.bucket.take.2, none⟩ ∧
            pc = if b.bucket.take.1 then l.passed
              else .rejected (l.refused config tenant b.bucket.take.2)) := by
  unfold LayerStage.proceed at h
  dsimp only at h
  cases hb : m.bucket (l.key tenant) with
  | none =>
      rw [hb] at h
      cases stage with
      | lock =>
          obtain ⟨rfl, rfl⟩ := Prod.mk.inj (Option.some.inj h)
          exact .inl ⟨rfl, rfl, rfl⟩
      | _ => simp at h
  | some b =>
      rw [hb] at h
      refine .inr ⟨b, rfl, ?_⟩
      cases stage with
      | lock =>
          by_cases hfree : b.holder = none
          · simp only [hfree, if_true, Option.some.injEq, Prod.mk.injEq] at h
            exact .inl ⟨rfl, hfree, h.1.symm, h.2.symm⟩
          · simp [hfree] at h
      | access =>
          obtain ⟨rfl, rfl⟩ := Prod.mk.inj (Option.some.inj h)
          exact .inr (.inl ⟨rfl, rfl, rfl⟩)
      | readElapsed =>
          obtain ⟨rfl, rfl⟩ := Prod.mk.inj (Option.some.inj h)
          exact .inr (.inr (.inl ⟨rfl, rfl, rfl⟩))
      | refill e =>
          obtain ⟨rfl, rfl⟩ := Prod.mk.inj (Option.some.inj h)
          exact .inr (.inr (.inr (.inl ⟨e, rfl, rfl, rfl⟩)))
      | take =>
          obtain ⟨rfl, rfl⟩ := Prod.mk.inj (Option.some.inj h)
          exact .inr (.inr (.inr (.inr ⟨rfl, rfl, rfl⟩)))

/-- A call that holds no mutex. -/
theorem ApiTask.Sound.outside {config : ApiConfig} {created i : ℕ} {m : ApiMemory} {c : ApiTask}
    (hlayer : ∀ l stage, c.pc = .layer l stage → stage = .lock)
    (hinsert : ∀ b, c.pc ≠ .insert b) : c.Sound config created m i where
  locked l stage hpc hstage := absurd (hlayer l stage hpc) hstage
  elapsed l e b hpc _ := by simpa using hlayer l _ hpc
  fresh b hpc := absurd hpc (hinsert b)

theorem ApiTask.Sound.holding {config : ApiConfig} {created i : ℕ} {m : ApiMemory} {c : ApiTask}
    {l : Layer} {stage : LayerStage} {b : LockedBucket} (hpc : c.pc = .layer l stage)
    (hb : m.bucket (l.key c.tenant) = some b) (hholder : b.holder = some i)
    (helapsed : ∀ e, stage = .refill e → e ≤ m.now - b.bucket.lastRefill) :
    c.Sound config created m i where
  locked l' stage' hpc' _ := by
    obtain ⟨rfl, rfl⟩ := ApiPc.layer.inj (hpc.symm.trans hpc')
    exact ⟨b, hb, hholder⟩
  elapsed l' e b' hpc' hb' := by
    obtain ⟨rfl, rfl⟩ := ApiPc.layer.inj (hpc.symm.trans hpc')
    obtain rfl := Option.some.inj (hb.symm.trans hb')
    exact helapsed e rfl
  fresh b' hpc' := by simp [hpc] at hpc'

/-- Moving on within a layer does not pay for anything. -/
theorem ApiTask.paid_of_layer {c : ApiTask} {l : Layer} {stage stage' : LayerStage}
    {key : Option String} (hpc : c.pc = .layer l stage)
    (h : { c with pc := .layer l stage' }.paid key) : c.paid key := by
  cases key with
  | none => simp [ApiTask.paid] at h
  | some t =>
      simp only [ApiTask.paid, reduceCtorEq, ApiPc.layer.injEq, false_or] at h
      obtain ⟨htenant, -, hlayer, -⟩ := h
      exact ⟨htenant, .inr ⟨stage, hlayer ▸ hpc⟩⟩

theorem ApiTask.not_paid_rejected {c : ApiTask} {error : NetworkError} {key : Option String} :
    ¬{ c with pc := .rejected error }.paid key := by
  cases key <;> simp [ApiTask.paid]

theorem ApiTask.not_paid_of_layer {c : ApiTask} {l : Layer} {stage : LayerStage}
    (hpc : c.pc = .layer l stage) : ¬c.paid (l.key c.tenant) := by
  cases l <;> simp [Layer.key, ApiTask.paid, hpc]

theorem ApiTask.paid_passed (c : ApiTask) (l : Layer) :
    { c with pc := l.passed }.paid (l.key c.tenant) := by
  cases l <;> simp [Layer.key, Layer.passed, ApiTask.paid]

theorem ApiTask.paid_of_passed {c : ApiTask} {l : Layer} {stage : LayerStage}
    {key : Option String} (hpc : c.pc = .layer l stage) (hkey : key ≠ l.key c.tenant)
    (h : { c with pc := l.passed }.paid key) : c.paid key := by
  cases key with
  | none => cases l <;> simp_all [Layer.key, Layer.passed, ApiTask.paid]
  | some t => cases l <;> simp_all [Layer.key, Layer.passed, ApiTask.paid]

namespace ApiFunded

variable {config : ApiConfig} {created i : ℕ} {key : Option String} {p q : Pool ApiMemory ApiTask}
  {m : ApiMemory} {c : ApiTask}

theorem move (h : ApiFunded config created key p) (hnow : p.shared.now ≤ m.now)
    (hown : c.Sound config created m i)
    (hother : ∀ j, j ≠ i → ∀ k, m.bucket k = p.shared.bucket k ∨
      ∀ b, p.shared.bucket k = some b → b.holder ≠ some j)
    (hbucket : m.bucket key = p.shared.bucket key)
    (hpaid : c.paid key → (p.task i).paid key) :
    ApiFunded config created key ⟨m, Function.update p.task i c⟩ where
  created_le := h.created_le.trans hnow
  sound := Pool.forall_task h.sound hown fun j hj hsound => hsound.other hnow (hother j hj)
  absent hnone := by
    have hold := h.absent (hbucket ▸ hnone)
    have hnew : ∀ j, ¬(Function.update p.task i c j).paid key := by
      refine Pool.forall_task (p := p) (s := m) (Q := fun _ _ c => ¬c.paid key) hold ?_ ?_
      · exact fun hnew => hold i (hpaid hnew)
      · exact fun _ _ hj => hj
    exact hnew
  covered b hb := by
    obtain ⟨n, hcount, hcovers⟩ := h.covered b (hbucket ▸ hb)
    obtain ⟨n', hle, hcount'⟩ :=
      Census.update_of_imp (P := fun c => c.paid key) (c := c) hcount hpaid
    exact ⟨n', hcount', (hcovers.fewer hle).later hnow⟩

theorem move_call (h : ApiFunded config created key p) (hnow : p.shared.now ≤ m.now)
    (hbucket : ∀ k, m.bucket k = p.shared.bucket k) (hown : c.Sound config created m i)
    (hpaid : c.paid key → (p.task i).paid key) :
    ApiFunded config created key ⟨m, Function.update p.task i c⟩ :=
  h.move hnow hown (fun _ _ k => .inl (hbucket k)) (hbucket key) hpaid

theorem write {k : Option String} {b b' : LockedBucket} (h : ApiFunded config created key p)
    (hb : p.shared.bucket k = some b) (hexcl : ∀ j, j ≠ i → b.holder ≠ some j)
    (hown : c.Sound config created (p.shared.setBucket k b') i)
    (hpaid : key ≠ k → c.paid key → (p.task i).paid key)
    (hcovers : key = k → ∀ n, Census (fun j => (p.task j).paid key) n →
      Covers (config.capacity key) (config.refillRate key) created p.shared.now n b.bucket →
      ∃ n', Census (fun j => (Function.update p.task i c j).paid key) n' ∧
        Covers (config.capacity key) (config.refillRate key) created p.shared.now n' b'.bucket) :
    ApiFunded config created key
      ⟨p.shared.setBucket k b', Function.update p.task i c⟩ := by
  have hother : ∀ j, j ≠ i → ∀ k', (p.shared.setBucket k b').bucket k' = p.shared.bucket k' ∨
      ∀ b₀, p.shared.bucket k' = some b₀ → b₀.holder ≠ some j := by
    intro j hj k'
    by_cases hk : k' = k
    · refine .inr fun b₀ hb₀ => ?_
      obtain rfl : b₀ = b := Option.some.inj (hb₀.symm.trans (hk ▸ hb))
      exact hexcl j hj
    · exact .inl (ApiMemory.bucket_setBucket_of_ne hk)
  by_cases hk : key = k
  · refine ⟨by simpa using h.created_le, ?_, ?_, ?_⟩
    · exact Pool.forall_task h.sound hown fun j hj hsound => hsound.other (by simp) (hother j hj)
    · intro hnone
      rw [hk, ApiMemory.bucket_setBucket_self hb] at hnone
      simp at hnone
    · intro b₀ hb₀
      rw [hk, ApiMemory.bucket_setBucket_self hb, Option.some.injEq] at hb₀
      subst hb₀
      obtain ⟨n, hcount, hcov⟩ := h.covered b (hk ▸ hb)
      simpa using hcovers hk n hcount hcov
  · exact h.move (by simp) hown hother (ApiMemory.bucket_setBucket_of_ne hk) (hpaid hk)

theorem layer {l : Layer} {stage : LayerStage} {pc : ApiPc} (h : ApiFunded config created key p)
    (hpc : (p.task i).pc = .layer l stage)
    (hstep : stage.proceed config i p.shared (p.task i).tenant l = some (m, pc)) :
    ApiFunded config created key
      ⟨m, Function.update p.task i { p.task i with pc := pc }⟩ := by
  have hsound := h.sound i
  obtain ⟨hnone, rfl, rfl⟩ | ⟨b, hb, hcases⟩ := LayerStage.proceed_cases hstep
  · refine h.move_call le_rfl (fun _ => rfl) (.outside (by simp) (by simp)) fun hnew => ?_
    exact absurd hnew ApiTask.not_paid_rejected
  have hheld : stage ≠ .lock → b.holder = some i := by
    intro hstage
    obtain ⟨b₀, hb₀, hholder⟩ := hsound.locked l stage hpc hstage
    obtain rfl : b = b₀ := Option.some.inj (hb.symm.trans hb₀)
    exact hholder
  have hexcl : stage ≠ .lock → ∀ j, j ≠ i → b.holder ≠ some j := by
    intro hstage j hj hother
    exact hj (Option.some.inj (hother.symm.trans (hheld hstage)))
  have hself : ∀ b', (p.shared.setBucket (l.key (p.task i).tenant) b').bucket
      (l.key (p.task i).tenant) = some b' := fun b' => ApiMemory.bucket_setBucket_self hb
  have hkeep : ∀ n stage', Census (fun j => (p.task j).paid key) n → ∃ n' ≤ n, Census (fun j =>
      (Function.update p.task i { p.task i with pc := .layer l stage' } j).paid key) n' :=
    fun n stage' hcount => Census.update_of_imp (P := fun c : ApiTask => c.paid key) hcount
      (ApiTask.paid_of_layer hpc)
  obtain ⟨rfl, hfree, rfl, rfl⟩ | ⟨rfl, rfl, rfl⟩ | ⟨rfl, rfl, rfl⟩ | ⟨e, rfl, rfl, rfl⟩ |
    ⟨rfl, rfl, rfl⟩ := hcases
  · -- The mutex is acquired.
    refine h.write hb (by simp [hfree]) (.holding rfl (hself _) rfl ?_)
      (fun _ => ApiTask.paid_of_layer hpc) fun _ n hcount hcovers => ?_
    · cases l <;> simp [Layer.entered]
    · obtain ⟨n', hle, hcount'⟩ := hkeep n _ hcount
      exact ⟨n', hcount', hcovers.fewer hle⟩
  · refine h.move_call (by simp) (by simp) (.holding rfl (b := b) ?_ (hheld (by simp)) (by simp))
      (ApiTask.paid_of_layer hpc)
    simpa using hb
  · refine h.move_call le_rfl (fun _ => rfl) (.holding rfl hb (hheld (by simp)) ?_)
      (ApiTask.paid_of_layer hpc)
    simp
  · have helapsed : e ≤ p.shared.now - b.bucket.lastRefill := hsound.elapsed l e b hpc hb
    refine h.write hb (hexcl (by simp)) (.holding rfl (hself _) (hheld (by simp)) (by simp))
      (fun _ => ApiTask.paid_of_layer hpc) fun _ n hcount hcovers => ?_
    obtain ⟨n', hle, hcount'⟩ := hkeep n _ hcount
    have hlast := hcovers.lastRefill_le
    exact ⟨n', hcount', (hcovers.refill (by omega)).fewer hle⟩
  · -- The token is taken or not, and the mutex is released.
    cases htake : b.bucket.take.1 with
    | true =>
        refine h.write hb (hexcl (by simp)) (.outside ?_ ?_)
          (fun hkey => ApiTask.paid_of_passed hpc hkey) fun hkey n hcount hcovers => ?_
        · cases l <;> simp [Layer.passed]
        · cases l <;> simp [Layer.passed]
        · have hnew := hcovers.take
          rw [htake, if_pos rfl] at hnew
          refine ⟨n + 1, ?_, hnew⟩
          subst hkey
          exact Census.update_enter (P := fun c : ApiTask => c.paid _) hcount
            (ApiTask.not_paid_of_layer hpc) (ApiTask.paid_passed (p.task i) l)
    | false =>
        refine h.write hb (hexcl (by simp)) (.outside (by simp) (by simp))
          (fun _ hnew => absurd hnew ApiTask.not_paid_rejected) fun hkey n hcount hcovers => ?_
        have hnew := hcovers.take
        rw [htake, if_neg (by simp)] at hnew
        refine ⟨n, ?_, hnew⟩
        subst hkey
        exact Census.update_stay (P := fun c : ApiTask => c.paid _) hcount
          (iff_of_false ApiTask.not_paid_rejected (ApiTask.not_paid_of_layer hpc))

/-- A call that has not reached a mutex yet moves on. -/
theorem early {pc : ApiPc} (h : ApiFunded config created key p)
    (hlayer : ∀ l stage, pc = .layer l stage → l = .tenant ∧ stage = .lock)
    (hinsert : ∀ b, pc ≠ .insert b) (hgranted : pc ≠ .granted) :
    ApiFunded config created key
      ⟨p.shared, Function.update p.task i { p.task i with pc := pc }⟩ := by
  refine h.move_call le_rfl (fun _ => rfl)
    (.outside (fun l stage heq => (hlayer l stage heq).2) hinsert) fun hnew => ?_
  cases key with
  | none => exact absurd hnew hgranted
  | some t =>
      obtain ⟨-, hpc | ⟨stage, hpc⟩⟩ := hnew
      · exact absurd hpc hgranted
      · simpa using (hlayer _ _ hpc).1

theorem insert {b : SimpleTokenBucket} (h : ApiFunded config created key p)
    (hpc : (p.task i).pc = .insert b) :
    ApiFunded config created key ⟨p.shared.insertTenant (p.task i).tenant b,
      Function.update p.task i { p.task i with pc := .layer .tenant .lock }⟩ := by
  have hown : ApiTask.Sound config created (p.shared.insertTenant (p.task i).tenant b) i
      { p.task i with pc := .layer .tenant .lock } := .outside (by simp) (by simp)
  have hunpaid : ¬{ p.task i with pc := .layer .tenant .lock }.paid key := by
    cases key <;> simp [ApiTask.paid]
  have hother : ∀ j, j ≠ i → ∀ k,
      (p.shared.insertTenant (p.task i).tenant b).bucket k = p.shared.bucket k ∨
        ∀ b₀, p.shared.bucket k = some b₀ → b₀.holder ≠ some j := by
    intro j _ k
    obtain hsame | ⟨-, hnone, -⟩ := ApiMemory.bucket_insertTenant k b
    · exact .inl hsame
    · exact .inr (by simp [hnone])
  obtain hsame | ⟨hkey, hnone, hsome⟩ := ApiMemory.bucket_insertTenant key b
  · exact h.move (by simp) hown hother hsame fun hnew => absurd hnew hunpaid
  · obtain ⟨start, hcreated, hstart, rfl⟩ := (h.sound i).fresh b hpc
    refine ⟨by simpa using h.created_le, ?_, by simp [hsome], ?_⟩
    · exact Pool.forall_task h.sound hown fun j hj hsound => hsound.other (by simp) (hother j hj)
    · intro b' hb'
      obtain rfl := Option.some.inj (hsome.symm.trans hb')
      refine ⟨0, ?_, ?_⟩
      · have hzero := Census.zero (h.absent hnone)
        exact Census.update_stay (P := fun c : ApiTask => c.paid key) hzero
          (iff_of_false hunpaid (h.absent hnone i))
      · subst hkey
        exact Covers.new hcreated (by simpa using hstart)

theorem proceed {pc : ApiPc} (h : ApiFunded config created key p)
    (hstep : (p.task i).pc.proceed config i p.shared (p.task i).tenant = some (m, pc)) :
    ApiFunded config created key
      ⟨m, Function.update p.task i { p.task i with pc := pc }⟩ := by
  cases hpc : (p.task i).pc with
  | idle => simp [hpc, ApiPc.proceed] at hstep
  | granted => simp [hpc, ApiPc.proceed] at hstep
  | rejected _ => simp [hpc, ApiPc.proceed] at hstep
  | containsKey =>
      rw [hpc, ApiPc.proceed] at hstep
      split at hstep
      all_goals
        obtain ⟨rfl, rfl⟩ := Prod.mk.inj (Option.some.inj hstep)
        exact h.early (by simp) (by simp) (by simp)
  | countTenants =>
      rw [hpc, ApiPc.proceed] at hstep
      split at hstep
      all_goals
        obtain ⟨rfl, rfl⟩ := Prod.mk.inj (Option.some.inj hstep)
        exact h.early (by simp) (by simp) (by simp)
  | entry =>
      rw [hpc, ApiPc.proceed] at hstep
      split at hstep
      · obtain ⟨rfl, rfl⟩ := Prod.mk.inj (Option.some.inj hstep)
        refine h.early ?_ (by simp) (by simp)
        rintro l stage ⟨⟩
        exact ⟨rfl, rfl⟩
      · obtain ⟨rfl, rfl⟩ := Prod.mk.inj (Option.some.inj hstep)
        refine h.move_call le_rfl (fun _ => rfl) ⟨by simp, by simp, ?_⟩ ?_
        · rintro b ⟨⟩
          exact ⟨p.shared.now, h.created_le, le_rfl, rfl⟩
        · cases key <;> simp [ApiTask.paid]
  | insert b =>
      rw [hpc, ApiPc.proceed] at hstep
      obtain ⟨rfl, rfl⟩ := Prod.mk.inj (Option.some.inj hstep)
      exact h.insert hpc
  | layer l stage =>
      rw [hpc, ApiPc.proceed] at hstep
      exact h.layer hpc hstep

theorem step {e : ℕ × ApiAction} (h : ApiFunded config created key p)
    (hevict : ∀ t maxAge, e.2 = .evict t maxAge → key ≠ some t)
    (hstep : p.step (apiStep config) e = some q) : ApiFunded config created key q := by
  obtain ⟨m, c, hact, rfl⟩ := Pool.step_eq_some.mp hstep
  obtain ⟨i, action⟩ := e
  cases action with
  | call tenant =>
      simp only [apiStep] at hact
      split at hact
      · obtain ⟨rfl, rfl⟩ := Prod.mk.inj (Option.some.inj hact)
        refine h.move_call le_rfl (fun _ => rfl) (.outside (by simp) (by simp)) ?_
        cases key <;> simp [ApiTask.paid]
      · simp at hact
  | proceed =>
      obtain ⟨⟨m', pc⟩, hproceed, heq⟩ := Option.map_eq_some_iff.mp hact
      obtain ⟨rfl, rfl⟩ := Prod.mk.inj heq
      exact h.proceed hproceed
  | tick elapsed =>
      obtain ⟨rfl, rfl⟩ := Prod.mk.inj (Option.some.inj hact)
      have hlater : p.shared.now ≤ p.shared.now + elapsed := Nat.le_add_right ..
      have hsame : ∀ k, { p.shared with now := p.shared.now + elapsed }.bucket k =
          p.shared.bucket k := by
        intro k
        cases k <;> rfl
      exact h.move_call hlater hsame ((h.sound i).other hlater fun k => .inl (hsame k)) id
  | evict tenant maxAge =>
      obtain ⟨m', hevicted, heq⟩ := Option.map_eq_some_iff.mp hact
      obtain ⟨rfl, rfl⟩ := Prod.mk.inj heq
      obtain ⟨hnow, hbuckets⟩ := ApiMemory.bucket_evict hevicted
      have hfree : ∀ j k, m'.bucket k = p.shared.bucket k ∨
          ∀ b, p.shared.bucket k = some b → b.holder ≠ some j := by
        intro j k
        obtain hsame | ⟨-, -, hfree⟩ := hbuckets k
        · exact .inl hsame
        · exact .inr fun b hb => by simp [hfree b hb]
      have hkey : m'.bucket key = p.shared.bucket key := by
        obtain hsame | ⟨heq, -, -⟩ := hbuckets key
        · exact hsame
        · exact absurd heq (hevict tenant maxAge rfl)
      exact h.move hnow.ge ((h.sound i).other hnow.ge (hfree i)) (fun j _ => hfree j) hkey id

theorem start (config : ApiConfig) (created : ℕ) (key : Option String) :
    ApiFunded config created key (apiStart config created) where
  created_le := le_rfl
  sound i := .outside (by simp [apiStart]) (by simp [apiStart])
  absent _ i := by cases key <;> simp [apiStart, ApiTask.paid]
  covered b hb := by
    refine ⟨0, Census.zero fun i => ?_, ?_⟩
    · cases key <;> simp [apiStart, ApiTask.paid]
    · cases key with
      | none =>
          obtain rfl := Option.some.inj hb
          exact Covers.new le_rfl le_rfl
      | some t => simp [apiStart, ApiMemory.bucket] at hb

/-- The calls that have paid a bucket are covered by it. -/
theorem paid_le (h : ApiFunded config created key p) {S : Finset ℕ}
    (hS : ∀ i ∈ S, (p.task i).paid key) :
    (S.card : ℚ) ≤ (config.capacity key).toNat +
      config.refillRate key * (((p.shared.now - created : ℕ) : ℚ) / 10 ^ 9) := by
  cases hb : p.shared.bucket key with
  | none =>
      have hempty : S = ∅ := by
        refine Finset.eq_empty_of_forall_notMem fun i hi => ?_
        exact h.absent hb i (hS i hi)
      have hrate : (0 : ℚ) ≤ config.refillRate key := (config.refillRate key).2
      rw [hempty, Finset.card_empty, Nat.cast_zero]
      positivity
  | some b =>
      obtain ⟨n, hcount, hcovers⟩ := h.covered b hb
      have hcard : (S.card : ℚ) ≤ n := by exact_mod_cast hcount.card_le hS
      exact hcard.trans hcovers.le

end ApiFunded

/-- No step of the run evicts the tenant. -/
def keepsTenant (tenant : String) (_ : Pool ApiMemory ApiTask) (e : ℕ × ApiAction) : Prop :=
  ∀ maxAge, e.2 ≠ .evict tenant maxAge

/-- What a token bucket, a tenant and the whole gateway are granted up to any
moment is at most the capacity and what the rate has refilled since the
creation. -/
theorem admission_bound :
    (∀ (config : BucketConfig) (created : ℕ) (p : Pool BucketMemory BucketPc),
      Reach (Pool.step (bucketStep config)) anyStep (bucketStart config created) p →
      p.shared.bucket.tokens ≤ config.maxTokens ∧
      ∀ S : Finset ℕ, (∀ i ∈ S, p.task i = .granted) →
        (S.card : ℚ) * config.costPerRequest.toNat ≤ config.maxTokens.toNat +
          config.refillRatePerSec * (((p.shared.now - created : ℕ) : ℚ) / 10 ^ 9)) ∧
    (∀ (config : ApiConfig) (created : ℕ) (tenant : String) (p : Pool ApiMemory ApiTask),
      Reach (Pool.step (apiStep config)) (keepsTenant tenant) (apiStart config created) p →
      ∀ S : Finset ℕ, (∀ i ∈ S, p.task i = ⟨tenant, .granted⟩) →
        (S.card : ℚ) ≤ config.tenantCapacity.toNat +
          config.tenantRefillRate * (((p.shared.now - created : ℕ) : ℚ) / 10 ^ 9)) ∧
    (∀ (config : ApiConfig) (created : ℕ) (p : Pool ApiMemory ApiTask),
      Reach (Pool.step (apiStep config)) anyStep (apiStart config created) p →
      ∀ S : Finset ℕ, (∀ i ∈ S, (p.task i).pc = .granted) →
        (S.card : ℚ) ≤ config.globalCapacity.toNat +
          config.globalRefillRate * (((p.shared.now - created : ℕ) : ℚ) / 10 ^ 9)) := by
  refine ⟨fun config created p hreach => ?_, fun config created tenant p hreach S hS => ?_,
    fun config created p hreach S hS => ?_⟩
  · have hfunded := Funded.of_reach hreach
    exact ⟨hfunded.capped, fun S hS => hfunded.granted_le hS⟩
  · have hfunded : ApiFunded config created (some tenant) p := by
      refine hreach.invariant (ApiFunded.start config created _) fun q e r hq hkeeps hstep => ?_
      refine hq.step (fun t maxAge hevict hsame => ?_) hstep
      obtain rfl := Option.some.inj hsame
      exact hkeeps maxAge hevict
    refine hfunded.paid_le fun i hi => ?_
    rw [hS i hi]
    exact ⟨rfl, .inl rfl⟩
  · have hfunded : ApiFunded config created none p := by
      refine hreach.invariant (ApiFunded.start config created _) fun q e r hq _ hstep => ?_
      exact hq.step (fun t maxAge _ => by simp) hstep
    exact hfunded.paid_le hS

/-- Two calls on a bucket of two tokens, of which the second loses a
compare-exchange to the first, and a call on a limiter of one token. -/
theorem admission_bound_contended :
    (∃ p, Reach (Pool.step (bucketStep ⟨2, 0, 1⟩)) anyStep (bucketStart ⟨2, 0, 1⟩ 0) p ∧
      p.task 0 = .granted ∧ p.task 1 = .granted ∧ p.shared.bucket.tokens ≤ 2 ∧
      ((({0, 1} : Finset ℕ).card : ℚ) * (1 : UInt64).toNat ≤ (2 : UInt64).toNat +
        (0 : ℚ≥0) * (((p.shared.now - 0 : ℕ) : ℚ) / 10 ^ 9))) ∧
    ∃ p, Reach (Pool.step (apiStep ⟨2, 0, 1, 0, 10⟩)) (keepsTenant "acme")
        (apiStart ⟨2, 0, 1, 0, 10⟩ 0) p ∧
      p.task 0 = ⟨"acme", .granted⟩ ∧
      ((({0} : Finset ℕ).card : ℚ) ≤ (1 : UInt32).toNat +
        (0 : ℚ≥0) * (((p.shared.now - 0 : ℕ) : ℚ) / 10 ^ 9)) ∧
      (({0} : Finset ℕ).card : ℚ) ≤ (2 : UInt32).toNat +
        (0 : ℚ≥0) * (((p.shared.now - 0 : ℕ) : ℚ) / 10 ^ 9) := by
  constructor
  · have hrun : (exec (Pool.step (bucketStep ⟨2, 0, 1⟩)) (bucketStart ⟨2, 0, 1⟩ 0)
        (List.flatten [[(0, .call), (1, .call)], .replicate 5 (0, .proceed),
          .replicate 5 (1, .proceed), [(1, .spurious), (1, .proceed)],
          .replicate 2 (0, .proceed), .replicate 4 (1, .proceed)])).map
        (fun p => decide (p.task 0 = .granted ∧ p.task 1 = .granted)) = some true := by
      decide +kernel
    obtain ⟨p, hexec, hdecide⟩ := Option.map_eq_some_iff.mp hrun
    obtain ⟨hfirst, hsecond⟩ := of_decide_eq_true hdecide
    obtain ⟨hcap, hbound⟩ := admission_bound.1 ⟨2, 0, 1⟩ 0 p (Reach.of_exec _ hexec)
    refine ⟨p, Reach.of_exec _ hexec, hfirst, hsecond, hcap, hbound {0, 1} ?_⟩
    simp [hfirst, hsecond]
  · have hrun : (exec (Pool.step (apiStep ⟨2, 0, 1, 0, 10⟩)) (apiStart ⟨2, 0, 1, 0, 10⟩ 0)
        ((0, .call "acme") :: List.replicate 13 (0, .proceed))).map
        (fun p => decide (p.task 0 = ⟨"acme", .granted⟩)) = some true := by
      decide +kernel
    obtain ⟨p, hexec, hdecide⟩ := Option.map_eq_some_iff.mp hrun
    have hgranted := of_decide_eq_true hdecide
    have hkeeps : Reach (Pool.step (apiStep ⟨2, 0, 1, 0, 10⟩)) (keepsTenant "acme")
        (apiStart ⟨2, 0, 1, 0, 10⟩ 0) p := by
      refine Reach.of_exec_forall _ hexec fun e he _ maxAge => ?_
      obtain rfl | ⟨-, rfl⟩ := (List.mem_cons.trans (or_congr_right List.mem_replicate)).mp he
      all_goals simp
    refine ⟨p, hkeeps, hgranted, ?_, ?_⟩
    · exact admission_bound.2.1 _ 0 "acme" p hkeeps {0} (by simp [hgranted])
    · exact admission_bound.2.2 _ 0 p (Reach.of_exec _ hexec) {0} (by simp [hgranted])

end SereinGateway.TrafficControl
