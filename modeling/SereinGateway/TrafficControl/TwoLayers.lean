import SereinGateway.TrafficControl.Eviction

/-!
What one call of `acquire_api_token` takes from the two buckets.

A bucket that has been looked at is compared with the bucket as the refill left it: it
is kept if it is that bucket or was not touched, and spent if it has one token less.

The tenant's bucket is settled before the global one is consulted, and nothing is
given back.
-/

namespace SereinGateway.TrafficControl

namespace SimpleTokenBucket

variable {before after : ℕ} {b : SimpleTokenBucket}

/-- `refill`, whose two readings of the clock are `before` and `after`. -/
def refilled (before after : ℕ) (b : SimpleTokenBucket) : SimpleTokenBucket :=
  b.refill (before - b.lastRefill) after

def less (b : SimpleTokenBucket) : SimpleTokenBucket := { b with tokens := b.tokens - 1 }

theorem tryAcquire_of_le (h : 1 ≤ (b.refilled before after).tokens) :
    b.tryAcquire before after = (true, (b.refilled before after).less) :=
  if_pos h

theorem tryAcquire_of_lt (h : (b.refilled before after).tokens < 1) :
    b.tryAcquire before after = (false, b.refilled before after) :=
  if_neg (not_le.mpr h)

theorem refilled_tokens_le (h : before ≤ b.lastRefill) :
    (b.refilled before after).tokens ≤ b.tokens := by
  have helapsed : before - b.lastRefill = 0 := Nat.sub_eq_zero_of_le h
  refine (min_le_left _ _).trans_eq ?_
  rw [helapsed, Nat.cast_zero, zero_div, zero_mul, add_zero]

/-- No token is lost: the bucket was not touched or was only refilled. -/
def Kept (before after : ℕ) (b b' : SimpleTokenBucket) : Prop :=
  b' = b ∨ b' = b.refilled before after

/-- One token is lost, apart from the refill. -/
def Spent (before after : ℕ) (b b' : SimpleTokenBucket) : Prop :=
  b' = (b.refilled before after).less

theorem Spent.not_kept {b' : SimpleTokenBucket} (hordered : before ≤ after)
    (h : Spent before after b b') : ¬Kept before after b b' := by
  have htokens : b'.tokens = (b.refilled before after).tokens - 1 := congrArg (·.tokens) h
  rintro (heq | heq)
  · -- An untouched bucket still has the time of its last refill.
    have hstamp : b.lastRefill = after :=
      (congrArg (·.lastRefill) heq).symm.trans (congrArg (·.lastRefill) h)
    have hle : (b.refilled before after).tokens ≤ b.tokens :=
      refilled_tokens_le (hstamp ▸ hordered)
    rw [heq] at htokens
    linarith
  · rw [heq] at htokens
    linarith

end SimpleTokenBucket

namespace ApiMemory

section Layers

variable (config : ApiConfig) (tenant : String) (r : AcquireReadings) (m : ApiMemory)

/-- The tenant has a bucket or the map has room for one. -/
def Admitted : Prop :=
  tenant ∈ m.tenantBuckets ∨ m.tenantBuckets.keys.length < config.maxTenants

def tenantBucket : SimpleTokenBucket := (m.entryOrNew config r tenant).locked.bucket

/-- An error costs no token of either bucket, and `Ok` one of each. A tenant that has no
bucket afterwards had none before. -/
structure Atomic (out : Except NetworkError Unit × ApiMemory) : Prop where
  kept : (∃ e, out.1 = .error e) →
    (match out.2.bucket (some tenant) with
      | some b => (m.tenantBucket config tenant r).Kept r.tenantElapsed r.tenantRefilled b.bucket
      | none => m.bucket (some tenant) = none) ∧
    m.globalBucket.bucket.Kept r.globalElapsed r.globalRefilled out.2.globalBucket.bucket
  spent : out.1 = .ok () →
    (∃ b, out.2.bucket (some tenant) = some b ∧
      (m.tenantBucket config tenant r).Spent r.tenantElapsed r.tenantRefilled b.bucket) ∧
    m.globalBucket.bucket.Spent r.globalElapsed r.globalRefilled out.2.globalBucket.bucket

/-- The tenant passes the first layer and the global bucket, once refilled, has no token. -/
structure Stranded : Prop where
  admitted : m.Admitted config tenant
  covered : 1 ≤ ((m.tenantBucket config tenant r).refilled r.tenantElapsed r.tenantRefilled).tokens
  short : (m.globalBucket.bucket.refilled r.globalElapsed r.globalRefilled).tokens < 1

end Layers

section Cases

variable {config : ApiConfig} {tenant : String} {r : AcquireReadings} {m : ApiMemory}

/-- What a call comes to. -/
inductive Acquires (config : ApiConfig) (tenant : String) (r : AcquireReadings) (m : ApiMemory) :
    Except NetworkError Unit × ApiMemory → Prop
  | full (e : NetworkError) (hfull : ¬m.Admitted config tenant)
      (hnone : m.bucket (some tenant) = none) : Acquires config tenant r m (.error e, m)
  | tenantRefused (e : NetworkError) (m' : ApiMemory) (b : LockedBucket)
      (htokens :
        ((m.tenantBucket config tenant r).refilled r.tenantElapsed r.tenantRefilled).tokens < 1)
      (htenant : m'.bucket (some tenant) = some b)
      (hkept :
        b.bucket = (m.tenantBucket config tenant r).refilled r.tenantElapsed r.tenantRefilled)
      (hglobal : m'.globalBucket = m.globalBucket) : Acquires config tenant r m (.error e, m')
  | globalRefused (e : NetworkError) (m' : ApiMemory) (b : LockedBucket)
      (hstranded : m.Stranded config tenant r)
      (htenant : m'.bucket (some tenant) = some b)
      (hspent :
        (m.tenantBucket config tenant r).Spent r.tenantElapsed r.tenantRefilled b.bucket) :
      Acquires config tenant r m (.error e, m')
  | granted (m' : ApiMemory) (b : LockedBucket)
      (hsupply : 1 ≤ (m.globalBucket.bucket.refilled r.globalElapsed r.globalRefilled).tokens)
      (htenant : m'.bucket (some tenant) = some b)
      (hspent :
        (m.tenantBucket config tenant r).Spent r.tenantElapsed r.tenantRefilled b.bucket)
      (hglobal : m.globalBucket.bucket.Spent r.globalElapsed r.globalRefilled
        m'.globalBucket.bucket) : Acquires config tenant r m (.ok (), m')

theorem acquires (config : ApiConfig) (tenant : String) (r : AcquireReadings) (m : ApiMemory) :
    Acquires config tenant r m (m.acquireApiToken config tenant r) := by
  rw [acquireApiToken]
  split
  · rename_i hfull
    refine .full _ ?_ ?_
    · rintro (hmem | hroom)
      · exact hfull.1 hmem
      · omega
    · exact Option.map_eq_none_iff.mpr (AList.lookup_eq_none.mpr hfull.1)
  · rename_i hroom
    have hadmitted : m.Admitted config tenant := by
      by_contra hnot
      obtain ⟨hmem, hlength⟩ := not_or.mp hnot
      exact hroom ⟨hmem, Nat.not_lt.mp hlength⟩
    have hfound (entry : TenantBucket) (now : ℕ) (g : LockedBucket) :
        bucket ⟨g, m.tenantBuckets.insert tenant entry, now⟩ (some tenant) =
          some entry.locked := by
      simp [bucket]
    by_cases htokens :
        1 ≤ ((m.tenantBucket config tenant r).refilled r.tenantElapsed r.tenantRefilled).tokens
    · have htaken := SimpleTokenBucket.tryAcquire_of_le htokens
      rw [tenantBucket] at htaken
      simp only [htaken, if_true]
      by_cases hsupply :
          1 ≤ (m.globalBucket.bucket.refilled r.globalElapsed r.globalRefilled).tokens
      · rw [SimpleTokenBucket.tryAcquire_of_le hsupply]
        exact .granted _ _ hsupply (hfound _ _ _) rfl rfl
      · rw [SimpleTokenBucket.tryAcquire_of_lt (not_le.mp hsupply)]
        exact .globalRefused _ _ _ ⟨hadmitted, htokens, not_le.mp hsupply⟩ (hfound _ _ _) rfl
    · have hrefused := SimpleTokenBucket.tryAcquire_of_lt (not_le.mp htokens)
      rw [tenantBucket] at hrefused
      simp only [hrefused, Bool.false_eq_true, if_false]
      exact .tenantRefused _ _ _ (not_le.mp htokens) (hfound _ _ _) rfl rfl

theorem Stranded.not_atomic (h : m.Stranded config tenant r) :
    ¬m.Atomic config tenant r (m.acquireApiToken config tenant r) := by
  intro hatomic
  obtain ⟨-, -, -, hordered, -, -⟩ := r.steps
  have hcases := acquires config tenant r m
  generalize m.acquireApiToken config tenant r = out at hatomic hcases
  cases hcases with
  | full e hfull hnone => exact hfull h.admitted
  | tenantRefused e m' b htokens htenant hkept hglobal => exact not_le.mpr htokens h.covered
  | globalRefused e m' b hstranded htenant hspent =>
      have hkept := (hatomic.kept ⟨e, rfl⟩).1
      rw [htenant] at hkept
      exact hspent.not_kept (by omega) hkept
  | granted m' b hsupply htenant hspent hglobal => exact not_le.mpr h.short hsupply

/-- A call is atomic unless it is stranded between the layers. -/
theorem acquire_atomic_iff (config : ApiConfig) (tenant : String) (r : AcquireReadings)
    (m : ApiMemory) :
    m.Atomic config tenant r (m.acquireApiToken config tenant r) ↔
      ¬m.Stranded config tenant r := by
  constructor
  · intro hatomic hstranded
    exact hstranded.not_atomic hatomic
  · intro hnot
    have hcases := acquires config tenant r m
    generalize m.acquireApiToken config tenant r = out at hcases ⊢
    cases hcases with
    | full e hfull hnone =>
        refine ⟨fun _ => ⟨?_, .inl rfl⟩, nofun⟩
        rw [hnone]
    | tenantRefused e m' b htokens htenant hkept hglobal =>
        refine ⟨fun _ => ⟨?_, .inl (congrArg (·.bucket) hglobal)⟩, nofun⟩
        rw [htenant]
        exact .inr hkept
    | globalRefused e m' b hstranded htenant hspent => exact absurd hstranded hnot
    | granted m' b hsupply htenant hspent hglobal =>
        exact ⟨nofun, fun _ => ⟨⟨b, htenant, hspent⟩, hglobal⟩⟩

end Cases

/-- The global bucket is empty, and a new tenant is charged for being told so. -/
theorem refused_call_charged :
    ¬Atomic ⟨2, 0, 1000, 0, 100⟩ "t3" (.instant 0) ⟨⟨⟨2, 0, 0, 0⟩, none⟩, ∅, 0⟩
      (acquireApiToken ⟨2, 0, 1000, 0, 100⟩ "t3" (.instant 0)
        ⟨⟨⟨2, 0, 0, 0⟩, none⟩, ∅, 0⟩) := by
  refine Stranded.not_atomic ⟨.inr (by decide), ?_, ?_⟩
  · decide +kernel
  · decide +kernel

end ApiMemory

end SereinGateway.TrafficControl
