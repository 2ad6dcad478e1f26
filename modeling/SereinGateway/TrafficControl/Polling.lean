import Mathlib
import SereinGateway.TrafficControl.TokenBucket

/-!
A bucket that is polled while it has too few tokens.

Every call of `try_acquire` credits the whole tokens that have accrued since
the last one and moves `last_refill` to its own time, so the fraction of a
token that is left over is lost. After calls that all failed the bucket
holds what it held before and the whole tokens of each gap, up to the
maximum; that is `polls_tokens`. What it would hold had it been left alone
is the whole tokens of the gaps together. The two agree when the fractions
that were dropped do not add up to a token, and `polls_keep_refill_iff` makes
that exact.

In the extreme every gap is shorter than the time of one token. Then nothing
is ever credited, however long the polling goes on: `polls_starved`.
-/

namespace SereinGateway.TrafficControl

namespace BucketConfig

variable (config : BucketConfig)

/-- The whole tokens among them. -/
def credit (elapsed : ℕ) : ℕ := ⌊config.accrual elapsed⌋₊

/-- The fraction of a token that a call drops. -/
def dropped (elapsed : ℕ) : ℚ := config.accrual elapsed - config.credit elapsed

theorem tokensToAdd_eq (elapsed : ℕ) :
    config.tokensToAdd elapsed = saturate (config.credit elapsed) := rfl

theorem accrual_add (d e : ℕ) : config.accrual (d + e) = config.accrual d + config.accrual e := by
  simp only [accrual, Nat.cast_add]
  ring

@[simp] theorem accrual_zero : config.accrual 0 = 0 := by
  simp [accrual]

theorem credit_eq_zero {elapsed : ℕ} (h : config.accrual elapsed < 1) :
    config.credit elapsed = 0 :=
  Nat.floor_eq_zero.mpr h

end BucketConfig

/-- The times between calls, from `last` on. -/
def gaps : ℕ → List ℕ → List ℕ
  | _, [] => []
  | last, t :: ts => (t - last) :: gaps t ts

theorem sum_gaps {last : ℕ} {times : List ℕ} (h : (last :: times).Pairwise (· ≤ ·)) :
    last + (gaps last times).sum = times.getLastD last := by
  induction times generalizing last with
  | nil => simp [gaps]
  | cons t ts ih =>
      obtain ⟨hfirst, hrest⟩ := List.pairwise_cons.mp h
      have hle : last ≤ t := hfirst t List.mem_cons_self
      have htail := ih hrest
      rw [gaps, List.sum_cons, List.getLastD_cons, ← htail]
      omega

namespace BucketConfig

variable (config : BucketConfig)

/-- A time that is polled in gaps accrues what the calls credit and drop. -/
theorem accrual_sum (ds : List ℕ) :
    (config.accrual ds.sum : ℚ) = (ds.map config.credit).sum + (ds.map config.dropped).sum := by
  induction ds with
  | nil => simp
  | cons d ds ih =>
      have hd : (config.accrual d : ℚ) = config.credit d + config.dropped d := by
        simp [dropped]
      rw [List.sum_cons, accrual_add, NNRat.cast_add, ih, hd]
      simp only [List.map_cons, List.sum_cons, Nat.cast_add]
      ring

end BucketConfig

namespace TokenBucket

/-- Calls of `try_acquire` at the given times, one after the other. -/
def polls (config : BucketConfig) (nodeId : String) :
    List ℕ → TokenBucket → Option (List (Except RateLimitError Unit) × TokenBucket)
  | [], b => some ([], b)
  | t :: ts, b =>
      (b.tryAcquire config nodeId t t).bind fun (r, b) =>
        (polls config nodeId ts b).map fun (rs, b) => (r :: rs, b)

variable {config : BucketConfig} {nodeId : String} {b b' : TokenBucket}

theorem refillTokens_eq_some {now : ℕ} (h : b.refillTokens config now now = some b') :
    b'.lastRefill = now ∧
      min config.maxTokens.toNat b'.tokens.toNat =
        min config.maxTokens.toNat (b.tokens.toNat + config.credit (now - b.lastRefill)) := by
  have hmax := config.maxTokens.toNat_lt
  unfold refillTokens at h
  dsimp only at h
  rw [config.tokensToAdd_eq, saturate] at h
  split at h
  · obtain ⟨newVal, hnew, rfl⟩ := Option.map_eq_some_iff.mp h
    refine ⟨rfl, ?_⟩
    unfold BucketConfig.refilled at hnew
    split at hnew
    · rename_i hfit
      obtain rfl := Option.some.inj hnew
      set a := min (config.credit (now - b.lastRefill)) (2 ^ 64 - 1)
      have hsum : (b.tokens + UInt64.ofNat a).toNat = b.tokens.toNat + a := by
        rw [UInt64.toNat_add, UInt64.toNat_ofNat']
        omega
      have hmin : (min (b.tokens + UInt64.ofNat a) config.maxTokens).toNat =
          min (b.tokens.toNat + a) config.maxTokens.toNat := by
        rw [← hsum]
        exact UInt64.toNat_min ..
      show min _ (min (b.tokens + UInt64.ofNat a) config.maxTokens).toNat = _
      rw [hmin]
      omega
    · simp at hnew
  · obtain rfl := Option.some.inj h
    refine ⟨rfl, ?_⟩
    show min _ b.tokens.toNat = _
    omega

theorem refillTokens_of_tryAcquire {now : ℕ} {r : Except RateLimitError Unit}
    (h : b.tryAcquire config nodeId now now = some (r, b')) (hfail : r ≠ .ok ()) :
    ∃ b₁, b.refillTokens config now now = some b₁ ∧ b' = { b₁ with isLimited := true } := by
  obtain ⟨b₁, hrefill, hrest⟩ := Option.map_eq_some_iff.mp h
  refine ⟨b₁, hrefill, ?_⟩
  dsimp only at hrest
  split at hrest
  · exact (Prod.mk.inj hrest).2.symm
  · exact absurd (Prod.mk.inj hrest).1.symm hfail

/-- What the bucket holds after calls that all failed. -/
theorem polls_tokens {times : List ℕ} {results : List (Except RateLimitError Unit)}
    (h : b.polls config nodeId times = some (results, b')) (hfail : ∀ r ∈ results, r ≠ .ok ()) :
    min config.maxTokens.toNat b'.tokens.toNat =
      min config.maxTokens.toNat
        (b.tokens.toNat + ((gaps b.lastRefill times).map config.credit).sum) := by
  induction times generalizing b results with
  | nil =>
      obtain ⟨-, rfl⟩ := Prod.mk.inj (Option.some.inj h)
      simp [gaps]
  | cons t ts ih =>
      obtain ⟨⟨r, b₁⟩, hfirst, hrest⟩ := Option.bind_eq_some_iff.mp h
      obtain ⟨⟨rs, b₂⟩, hpolls, heq⟩ := Option.map_eq_some_iff.mp hrest
      obtain ⟨rfl, rfl⟩ := Prod.mk.inj heq
      obtain ⟨b₀, hrefill, rfl⟩ :=
        refillTokens_of_tryAcquire hfirst (hfail r List.mem_cons_self)
      obtain ⟨hlast, htokens⟩ := refillTokens_eq_some hrefill
      have hlater := ih hpolls fun r hr => hfail r (List.mem_cons_of_mem _ hr)
      simp only [hlast] at hlater
      rw [gaps, List.map_cons, List.sum_cons]
      omega

/-- After calls that all failed, the last of them at the end of the interval
that began at `start`, the bucket holds what accrued in the interval exactly
when it is full, or the fractions that the calls dropped are less than a
token more than what had accrued before the interval. -/
theorem polls_keep_refill_iff (config : BucketConfig) (nodeId : String) (b b' : TokenBucket)
    (start : ℕ) (times : List ℕ) (results : List (Except RateLimitError Unit))
    (hstart : b.lastRefill ≤ start) (hsorted : (start :: times).Pairwise (· ≤ ·))
    (hrun : b.polls config nodeId times = some (results, b'))
    (hfail : ∀ r ∈ results, r ≠ .ok ()) :
    min config.maxTokens.toNat
        (b.tokens.toNat + ⌊config.accrual (times.getLastD start - start)⌋₊) ≤ b'.tokens.toNat ↔
      config.maxTokens.toNat ≤
        b.tokens.toNat + ((gaps b.lastRefill times).map config.credit).sum ∨
      ((gaps b.lastRefill times).map config.dropped).sum <
        1 + config.accrual (start - b.lastRefill) := by
  have htokens := polls_tokens hrun hfail
  set credits := ((gaps b.lastRefill times).map config.credit).sum with hcredits
  have hcompare : ⌊config.accrual (times.getLastD start - start)⌋₊ ≤ credits ↔
      ((gaps b.lastRefill times).map config.dropped).sum <
        1 + (config.accrual (start - b.lastRefill) : ℚ) := by
    cases times with
    | nil =>
        have hpos : (0 : ℚ) < 1 + config.accrual (start - b.lastRefill) := by positivity
        simpa [gaps, credits] using hpos
    | cons t ts =>
        obtain ⟨hfirst, hrest⟩ := List.pairwise_cons.mp hsorted
        have hle : start ≤ t := hfirst t List.mem_cons_self
        have hpairs : (b.lastRefill :: t :: ts).Pairwise (· ≤ ·) :=
          List.pairwise_cons.mpr ⟨fun u hu => hstart.trans (hfirst u hu), hrest⟩
        have hspan := sum_gaps hpairs
        have hsplit := config.accrual_sum (gaps b.lastRefill (t :: ts))
        have hend : start ≤ (t :: ts).getLastD start := by
          rw [← sum_gaps hsorted]
          exact Nat.le_add_right ..
        rw [List.getLastD_cons] at hspan hend ⊢
        set stop := ts.getLastD t
        have htotal : (gaps b.lastRefill (t :: ts)).sum =
            (stop - start) + (start - b.lastRefill) := by omega
        rw [htotal, config.accrual_add, NNRat.cast_add, ← hcredits] at hsplit
        rw [← Nat.lt_add_one_iff, Nat.floor_lt zero_le, ← NNRat.cast_lt (K := ℚ)]
        push_cast
        constructor <;> intro h <;> linarith
  rw [← hcompare]
  omega

def dearConfig : BucketConfig := { BucketConfig.default with costPerRequest := 10 }

theorem polls_keep_refill_twice :
    (⟨0, 0, true⟩ : TokenBucket).polls dearConfig "p-1" [1250000000, 2500000000] =
        some ([.error (.rateLimited "p-1" 9), .error (.rateLimited "p-1" 8)],
          ⟨2, 2500000000, true⟩) ∧
      min 60 (0 + ⌊dearConfig.accrual 2500000000⌋₊) ≤ 2 := by
  have hrun : (⟨0, 0, true⟩ : TokenBucket).polls dearConfig "p-1" [1250000000, 2500000000] =
      some ([.error (.rateLimited "p-1" 9), .error (.rateLimited "p-1" 8)],
        ⟨2, 2500000000, true⟩) := by
    decide +kernel
  refine ⟨hrun, ?_⟩
  refine (polls_keep_refill_iff dearConfig "p-1" _ _ 0 _ _ le_rfl (by decide) hrun
    (by simp)).mpr (.inr ?_)
  decide +kernel

/-- Calls that come faster than the tokens all fail, and nothing is ever
credited. -/
theorem polls_starved (config : BucketConfig) (nodeId : String) (times : List ℕ) (b : TokenBucket)
    (hfew : b.tokens < config.costPerRequest)
    (hfast : ∀ d ∈ gaps b.lastRefill times, config.accrual d < 1) :
    ∃ results b', b.polls config nodeId times = some (results, b') ∧
      results.length = times.length ∧ (∀ r ∈ results, r ≠ .ok ()) ∧ b'.tokens = b.tokens := by
  induction times generalizing b with
  | nil => exact ⟨[], b, rfl, rfl, by simp, rfl⟩
  | cons t ts ih =>
      have hnone : config.tokensToAdd (t - b.lastRefill) = 0 := by
        rw [config.tokensToAdd_eq, config.credit_eq_zero (hfast _ List.mem_cons_self)]
        rfl
      have hfirst : b.tryAcquire config nodeId t t =
          some (.error (.rateLimited nodeId (config.estimateRetryAfter b.tokens)),
            { b with lastRefill := t, isLimited := true }) := by
        simp [tryAcquire, refillTokens, hnone, hfew]
      obtain ⟨results, b', hrest, hlength, hfail, htokens⟩ :=
        ih { b with lastRefill := t, isLimited := true } hfew
          fun d hd => hfast d (List.mem_cons_of_mem _ hd)
      refine ⟨.error (.rateLimited nodeId (config.estimateRetryAfter b.tokens)) :: results, b',
        ?_, by simp [hlength], ?_, htokens⟩
      · simp [polls, hfirst, hrest]
      · simpa using hfail

/-- An empty bucket with one token a second that is asked every half second
is still empty after a second. -/
theorem refill_lost_to_polling :
    ¬∀ (config : BucketConfig) (nodeId : String) (b b' : TokenBucket) (start : ℕ)
      (times : List ℕ) (results : List (Except RateLimitError Unit)),
      b.lastRefill ≤ start → (start :: times).Pairwise (· ≤ ·) →
      b.polls config nodeId times = some (results, b') → (∀ r ∈ results, r ≠ .ok ()) →
      min config.maxTokens.toNat
        (b.tokens.toNat + ⌊config.accrual (times.getLastD start - start)⌋₊) ≤
          b'.tokens.toNat := by
  intro hall
  have hheld := hall .default "p-1" ⟨0, 0, true⟩ ⟨0, 1000000000, true⟩ 0 [500000000, 1000000000]
    [.error (.rateLimited "p-1" 1), .error (.rateLimited "p-1" 1)] le_rfl (by decide)
    (by decide +kernel) (by simp)
  revert hheld
  decide +kernel

end TokenBucket

end SereinGateway.TrafficControl
