import Mathlib
import SereinGateway.Lib.Census

/-!
The token bucket of one provider node: `try_acquire` as a single caller sees
it, the atomic steps that concurrent callers interleave, and the bound on
what they are granted together.

The rate is a non-negative rational and times are the readings of the
monotonic clock in nanoseconds; the token counter is a 64-bit atomic. The
`+` of a refill is a checked addition, and one that does not fit aborts the
process: the call has no next step. `refill_enabled` says when that cannot
happen. `refill_tokens` reads the clock twice, once for the elapsed time and
once for the new `last_refill`, and the time between the readings is lost.

The accounting is `Funded`. The tokens in the counter, those already paid
for requests, and those that the holder of the lock is about to add never
exceed what the bucket started with and what `last_refill` has accrued.
-/

namespace SereinGateway.TrafficControl

open SereinGateway.Lib

structure BucketConfig where
  maxTokens : UInt64
  refillRatePerSec : ℚ≥0
  costPerRequest : UInt64
  deriving DecidableEq

def BucketConfig.default : BucketConfig where
  maxTokens := 60
  refillRatePerSec := 1
  costPerRequest := 1

structure TokenBucket where
  tokens : UInt64
  lastRefill : ℕ
  isLimited : Bool
  deriving DecidableEq, Repr

inductive RateLimitError where
  | rateLimited (node : String) (retryAfterSecs : ℕ)
  | internal (message : String)
  deriving DecidableEq, Repr

/-- A cast from a floating point number to `u64` saturates. -/
def saturate (n : ℕ) : ℕ := min n (2 ^ 64 - 1)

namespace BucketConfig

/-- What a refill after `elapsed` nanoseconds adds. -/
def tokensToAdd (config : BucketConfig) (elapsed : ℕ) : ℕ :=
  saturate ⌊(elapsed : ℚ≥0) / 10 ^ 9 * config.refillRatePerSec⌋₊

/-- The tokens that accrue in `elapsed` nanoseconds, with the fraction. -/
def accrual (config : BucketConfig) (elapsed : ℕ) : ℚ≥0 :=
  (elapsed : ℚ≥0) / 10 ^ 9 * config.refillRatePerSec

/-- `(current + tokens_to_add).min(self.max_tokens)`. -/
def refilled (config : BucketConfig) (current : UInt64) (tokensToAdd : ℕ) : Option UInt64 :=
  if current.toNat + tokensToAdd < 2 ^ 64 then
    some (min (current + .ofNat tokensToAdd) config.maxTokens)
  else none

/-- `estimate_retry_after`. A division by the rate zero is infinite. -/
def estimateRetryAfter (config : BucketConfig) (current : UInt64) : ℕ :=
  if config.costPerRequest ≤ current then 0
  else
    let deficit := config.costPerRequest - current
    if config.refillRatePerSec = 0 then 2 ^ 64 - 1
    else saturate ⌈(deficit.toNat : ℚ≥0) / config.refillRatePerSec⌉₊

end BucketConfig

namespace TokenBucket

/-- A new bucket, created at the time `now`. -/
def new (config : BucketConfig) (now : ℕ) : TokenBucket := ⟨config.maxTokens, now, false⟩

/-- `refill_tokens`, whose two readings of the clock are `before` and `after`. -/
def refillTokens (config : BucketConfig) (before after : ℕ) (b : TokenBucket) :
    Option TokenBucket :=
  let elapsed := before - b.lastRefill
  let b := { b with lastRefill := after }
  let tokensToAdd := config.tokensToAdd elapsed
  if 0 < tokensToAdd then
    (config.refilled b.tokens tokensToAdd).map fun newVal => { b with tokens := newVal }
  else some b

def tryAcquire (config : BucketConfig) (nodeId : String) (before after : ℕ) (b : TokenBucket) :
    Option (Except RateLimitError Unit × TokenBucket) :=
  (b.refillTokens config before after).map fun b =>
    if b.tokens < config.costPerRequest then
      let b := { b with isLimited := true }
      (.error (.rateLimited nodeId (config.estimateRetryAfter b.tokens)), b)
    else (.ok (), { b with tokens := b.tokens - config.costPerRequest, isLimited := false })

end TokenBucket

/-! ### Atomic steps -/

/-- Where a call of `try_acquire` stands. The states from `readElapsed` to
`unlock` are those in which it holds the lock of `last_refill`. -/
inductive BucketPc where
  | idle
  | lock
  | readElapsed
  | stamp (elapsed : ℕ)
  | refillLoad (tokensToAdd : ℕ)
  | refillExchange (tokensToAdd : ℕ) (current newVal : UInt64)
  | unlock
  | load
  | exchange (current : UInt64)
  | storeLimited
  | estimate
  | limited (retryAfterSecs : ℕ)
  | storeNotLimited
  | granted
  deriving DecidableEq, Repr

/-- Memory shared by the calls: the bucket, the holder of the lock and the clock. -/
structure BucketMemory where
  bucket : TokenBucket
  holder : Option ℕ
  now : ℕ
  deriving DecidableEq, Repr

/-- A call begins, takes its next step, has its compare-exchange fail for no
reason, or time passes. -/
inductive BucketAction where
  | call
  | proceed
  | spurious
  | tick (elapsed : ℕ)
  deriving DecidableEq, Repr

def BucketMemory.setTokens (m : BucketMemory) (tokens : UInt64) : BucketMemory :=
  { m with bucket := { m.bucket with tokens := tokens } }

def BucketMemory.setLimited (m : BucketMemory) (isLimited : Bool) : BucketMemory :=
  { m with bucket := { m.bucket with isLimited := isLimited } }

def BucketMemory.setLastRefill (m : BucketMemory) (lastRefill : ℕ) : BucketMemory :=
  { m with bucket := { m.bucket with lastRefill := lastRefill } }

/-- The next step of the call `i`. -/
def BucketPc.proceed (config : BucketConfig) (i : ℕ) (m : BucketMemory) (pc : BucketPc) :
    Option (BucketMemory × BucketPc) :=
  match pc with
  | .lock => if m.holder = none then some ({ m with holder := some i }, .readElapsed) else none
  | .readElapsed => some (m, .stamp (m.now - m.bucket.lastRefill))
  | .stamp elapsed =>
      let tokensToAdd := config.tokensToAdd elapsed
      some (m.setLastRefill m.now, if 0 < tokensToAdd then .refillLoad tokensToAdd else .unlock)
  | .refillLoad tokensToAdd =>
      (config.refilled m.bucket.tokens tokensToAdd).map fun newVal =>
        (m, .refillExchange tokensToAdd m.bucket.tokens newVal)
  | .refillExchange tokensToAdd current newVal =>
      if m.bucket.tokens = current then some (m.setTokens newVal, .unlock)
      else some (m, .refillLoad tokensToAdd)
  | .unlock => some ({ m with holder := none }, .load)
  | .load =>
      if m.bucket.tokens < config.costPerRequest then some (m, .storeLimited)
      else some (m, .exchange m.bucket.tokens)
  | .exchange current =>
      if m.bucket.tokens = current then
        some (m.setTokens (current - config.costPerRequest), .storeNotLimited)
      else some (m, .load)
  | .storeLimited => some (m.setLimited true, .estimate)
  | .estimate => some (m, .limited (config.estimateRetryAfter m.bucket.tokens))
  | .storeNotLimited => some (m.setLimited false, .granted)
  | .idle | .limited _ | .granted => none

/-- A compare-exchange that fails although the value is the expected one. -/
def BucketPc.spurious : BucketPc → Option BucketPc
  | .refillExchange tokensToAdd _ _ => some (.refillLoad tokensToAdd)
  | .exchange _ => some .load
  | _ => none

def bucketStep (config : BucketConfig) (i : ℕ) (m : BucketMemory) (pc : BucketPc) :
    BucketAction → Option (BucketMemory × BucketPc)
  | .call => if pc = .idle then some (m, .lock) else none
  | .proceed => pc.proceed config i m
  | .spurious => pc.spurious.map fun pc' => (m, pc')
  | .tick elapsed => some ({ m with now := m.now + elapsed }, pc)

/-- The calls on a bucket that was created at the time `created`. -/
def bucketStart (config : BucketConfig) (created : ℕ) : Pool BucketMemory BucketPc :=
  ⟨⟨.new config created, none, created⟩, fun _ => .idle⟩

/-! ### One call on its own -/

/-- What a finished call returns. -/
def BucketPc.result (nodeId : String) : BucketPc → Option (Except RateLimitError Unit)
  | .granted => some (.ok ())
  | .limited secs => some (.error (.rateLimited nodeId secs))
  | _ => none

section Alone

variable {config : BucketConfig} {i now : ℕ} {b b' : TokenBucket}

theorem reach_refillTokens {after : ℕ} (hle : now ≤ after)
    (h : b.refillTokens config now after = some b') :
    Reach (Pool.alone (bucketStep config) i) anyStep (⟨b, none, now⟩, .lock)
      (⟨b', none, after⟩, .load) := by
  have hlate : now + (after - now) = after := by omega
  unfold TokenBucket.refillTokens at h
  dsimp only at h
  split at h
  · rename_i hadd
    obtain ⟨newVal, hnew, rfl⟩ := Option.map_eq_some_iff.mp h
    refine Reach.of_exec [.proceed, .proceed, .tick (after - now), .proceed, .proceed, .proceed,
      .proceed] ?_
    simp [exec, Pool.alone, bucketStep, BucketPc.proceed, hlate, hadd, hnew,
      BucketMemory.setLastRefill, BucketMemory.setTokens]
  · rename_i hadd
    obtain rfl := Option.some.inj h
    refine Reach.of_exec [.proceed, .proceed, .tick (after - now), .proceed, .proceed] ?_
    simp [exec, Pool.alone, bucketStep, BucketPc.proceed, hlate, hadd,
      BucketMemory.setLastRefill]

theorem reach_tryAcquire {nodeId : String} {after : ℕ} {r : Except RateLimitError Unit}
    (hle : now ≤ after) (h : b.tryAcquire config nodeId now after = some (r, b')) :
    ∃ pc, pc.result nodeId = some r ∧
      Reach (Pool.alone (bucketStep config) i) anyStep (⟨b, none, now⟩, .idle)
        (⟨b', none, after⟩, pc) := by
  obtain ⟨b₁, hrefill, hrest⟩ := Option.map_eq_some_iff.mp h
  have hcall : Reach (Pool.alone (bucketStep config) i) anyStep (⟨b, none, now⟩, .idle)
      (⟨b₁, none, after⟩, .load) := by
    refine Reach.trans (Reach.of_exec [.call] ?_) (reach_refillTokens hle hrefill)
    simp [exec, Pool.alone, bucketStep]
  dsimp only at hrest
  split at hrest
  · rename_i hfew
    obtain ⟨rfl, rfl⟩ := Prod.mk.inj hrest
    refine ⟨.limited (config.estimateRetryAfter b₁.tokens), rfl, hcall.trans ?_⟩
    refine Reach.of_exec [.proceed, .proceed, .proceed] ?_
    simp [exec, Pool.alone, bucketStep, BucketPc.proceed, hfew, BucketMemory.setLimited]
  · rename_i henough
    obtain ⟨rfl, rfl⟩ := Prod.mk.inj hrest
    refine ⟨.granted, rfl, hcall.trans ?_⟩
    refine Reach.of_exec [.proceed, .proceed, .proceed] ?_
    simp [exec, Pool.alone, bucketStep, BucketPc.proceed, henough,
      BucketMemory.setLimited, BucketMemory.setTokens]

end Alone

/-! ### Accounting -/

namespace BucketPc

/-- Whether the call holds the lock of `last_refill`. -/
def inRefill : BucketPc → Prop
  | .readElapsed | .stamp _ | .refillLoad _ | .refillExchange .. | .unlock => True
  | _ => False

def pending : BucketPc → ℕ
  | .refillLoad tokensToAdd => tokensToAdd
  | .refillExchange tokensToAdd _ _ => tokensToAdd
  | _ => 0

/-- Whether the call has paid for its request. -/
def paid : BucketPc → Prop
  | .storeNotLimited | .granted => True
  | _ => False

theorem pending_eq_zero {pc : BucketPc} (h : ¬pc.inRefill) : pc.pending = 0 := by
  cases pc <;> simp_all [inRefill, pending]

end BucketPc

/-- What the values that a call keeps between its steps are worth. -/
structure CallSound (config : BucketConfig) (m : BucketMemory) (i : ℕ) (pc : BucketPc) : Prop where
  locked : pc.inRefill → m.holder = some i
  elapsed : ∀ e, pc = .stamp e → m.bucket.lastRefill + e ≤ m.now
  refill : ∀ a current newVal, pc = .refillExchange a current newVal →
    newVal.toNat ≤ current.toNat + a ∧ newVal ≤ config.maxTokens
  enough : ∀ current, pc = .exchange current → config.costPerRequest ≤ current

/-- What the bucket was filled with and has accrued up to `last_refill`. -/
def accrued (config : BucketConfig) (created : ℕ) (b : TokenBucket) : ℚ :=
  config.maxTokens.toNat + config.refillRatePerSec * (((b.lastRefill - created : ℕ) : ℚ) / 10 ^ 9)

structure Funded (config : BucketConfig) (created : ℕ) (p : Pool BucketMemory BucketPc) :
    Prop where
  created_le : created ≤ p.shared.bucket.lastRefill
  lastRefill_le : p.shared.bucket.lastRefill ≤ p.shared.now
  capped : p.shared.bucket.tokens ≤ config.maxTokens
  sound : ∀ i, CallSound config p.shared i (p.task i)
  funds : ∃ n : ℕ, Census (fun i => (p.task i).paid) n ∧
    ∀ i, (p.shared.bucket.tokens.toNat : ℚ) + config.costPerRequest.toNat * n +
      (p.task i).pending ≤ accrued config created p.shared.bucket

section Steps

variable {config : BucketConfig} {created i : ℕ} {m m' : BucketMemory} {pc pc' : BucketPc}

theorem tokensToAdd_le (config : BucketConfig) (elapsed : ℕ) :
    (config.tokensToAdd elapsed : ℚ) ≤ config.refillRatePerSec * ((elapsed : ℚ) / 10 ^ 9) := by
  have hfloor : ((config.tokensToAdd elapsed : ℕ) : ℚ≥0) ≤
      (elapsed : ℚ≥0) / 10 ^ 9 * config.refillRatePerSec := by
    refine le_trans ?_ (Nat.floor_le zero_le)
    exact_mod_cast Nat.min_le_left ..
  have hcast : ((config.tokensToAdd elapsed : ℕ) : ℚ) ≤
      (elapsed : ℚ) / 10 ^ 9 * config.refillRatePerSec := by
    exact_mod_cast hfloor
  rw [mul_comm]
  exact hcast

theorem refilled_eq_some {current newVal : UInt64} {a : ℕ}
    (h : config.refilled current a = some newVal) :
    newVal.toNat ≤ current.toNat + a ∧ newVal ≤ config.maxTokens := by
  unfold BucketConfig.refilled at h
  split at h
  · rename_i hfit
    obtain rfl := Option.some.inj h
    have hsum : (current + UInt64.ofNat a).toNat = current.toNat + a := by
      rw [UInt64.toNat_add, UInt64.toNat_ofNat']
      omega
    rw [← hsum, ← UInt64.le_iff_toNat_le]
    exact ⟨Std.min_le_left, Std.min_le_right⟩
  · simp at h

theorem CallSound.not_inRefill {j : ℕ} (h : CallSound config m j pc) (hij : j ≠ i)
    (hi : m.holder = some i) : ¬pc.inRefill := by
  intro hj
  have hsame : some i = some j := hi.symm.trans (h.locked hj)
  exact hij (Option.some.inj hsame).symm

/-- A call is not affected by a step of another call that leaves the lock and
`last_refill` alone. -/
theorem CallSound.of_eq (h : CallSound config m i pc) (hholder : m'.holder = m.holder)
    (hrefill : m'.bucket.lastRefill = m.bucket.lastRefill) (hnow : m.now ≤ m'.now) :
    CallSound config m' i pc where
  locked hin := hholder.trans (h.locked hin)
  elapsed e he := by
    rw [hrefill]
    exact (h.elapsed e he).trans hnow
  refill := h.refill
  enough := h.enough

theorem CallSound.of_not_inRefill (h : CallSound config m i pc) (hout : ¬pc.inRefill) :
    CallSound config m' i pc where
  locked hin := absurd hin hout
  elapsed e he := absurd (by simp [he, BucketPc.inRefill]) hout
  refill := h.refill
  enough := h.enough

end Steps

namespace Funded

variable {config : BucketConfig} {created i : ℕ} {p q : Pool BucketMemory BucketPc}
  {m : BucketMemory} {pc pc' : BucketPc}

/-- A step that changes neither the counter nor `last_refill`. -/
theorem move (h : Funded config created p) (htokens : m.bucket.tokens = p.shared.bucket.tokens)
    (hrefill : m.bucket.lastRefill = p.shared.bucket.lastRefill) (hnow : p.shared.now ≤ m.now)
    (hown : CallSound config m i pc')
    (hother : ∀ j, j ≠ i → CallSound config m j (p.task j))
    (hpaid : pc'.paid ↔ (p.task i).paid) (hpending : pc'.pending ≤ (p.task i).pending) :
    Funded config created ⟨m, Function.update p.task i pc'⟩ where
  created_le := hrefill ▸ h.created_le
  lastRefill_le := hrefill ▸ h.lastRefill_le.trans hnow
  capped := htokens ▸ h.capped
  sound := Pool.forall_task h.sound hown fun j hj _ => hother j hj
  funds := by
    obtain ⟨n, hcount, hfunds⟩ := h.funds
    refine ⟨n, hcount.update_stay hpaid, fun j => ?_⟩
    have hle : (Function.update p.task i pc' j).pending ≤ (p.task j).pending := by
      by_cases hj : j = i
      · subst hj
        rwa [Function.update_self]
      · rw [Function.update_of_ne hj]
    have hle' : ((Function.update p.task i pc' j).pending : ℚ) ≤ (p.task j).pending := by
      exact_mod_cast hle
    have hold := hfunds j
    simp only [accrued, htokens, hrefill] at hold ⊢
    linarith

theorem move_call (h : Funded config created p) (hown : CallSound config p.shared i pc')
    (hpaid : pc'.paid ↔ (p.task i).paid) (hpending : pc'.pending ≤ (p.task i).pending) :
    Funded config created ⟨p.shared, Function.update p.task i pc'⟩ :=
  h.move rfl rfl le_rfl hown (fun j _ => h.sound j) hpaid hpending

/-- A successful compare-exchange of `try_acquire`. -/
theorem pay (h : Funded config created p)
    (hpc : p.task i = .exchange p.shared.bucket.tokens) :
    Funded config created
      ⟨p.shared.setTokens (p.shared.bucket.tokens - config.costPerRequest),
        Function.update p.task i .storeNotLimited⟩ where
  created_le := h.created_le
  lastRefill_le := h.lastRefill_le
  capped := by
    have henough := (h.sound i).enough _ hpc
    exact UInt64.le_trans (UInt64.sub_le henough) h.capped
  sound := by
    refine Pool.forall_task h.sound ?_ fun j _ hj => hj.of_eq rfl rfl le_rfl
    constructor <;> simp [BucketPc.inRefill]
  funds := by
    obtain ⟨n, hcount, hfunds⟩ := h.funds
    refine ⟨n + 1, hcount.update_enter (by simp [hpc, BucketPc.paid]) trivial, fun j => ?_⟩
    have henough := (h.sound i).enough _ hpc
    have hsub : ((p.shared.bucket.tokens - config.costPerRequest).toNat : ℚ) =
        p.shared.bucket.tokens.toNat - config.costPerRequest.toNat := by
      rw [UInt64.toNat_sub_of_le _ _ henough]
      exact Nat.cast_sub (UInt64.le_iff_toNat_le.mp henough)
    have hle : ((Function.update p.task i BucketPc.storeNotLimited j).pending : ℚ) ≤
        (p.task j).pending := by
      by_cases hj : j = i
      · subst hj
        simp [BucketPc.pending]
      · rw [Function.update_of_ne hj]
    have hold := hfunds j
    simp only [accrued, BucketMemory.setTokens, hsub] at hold ⊢
    push_cast
    linarith

theorem add {a : ℕ} {newVal : UInt64} (h : Funded config created p)
    (hpc : p.task i = .refillExchange a p.shared.bucket.tokens newVal) :
    Funded config created ⟨p.shared.setTokens newVal, Function.update p.task i .unlock⟩ := by
  obtain ⟨hle, hcap⟩ := (h.sound i).refill _ _ _ hpc
  have hholder : p.shared.holder = some i :=
    (h.sound i).locked (by simp [hpc, BucketPc.inRefill])
  refine ⟨h.created_le, h.lastRefill_le, hcap, ?_, ?_⟩
  · refine Pool.forall_task h.sound ?_ fun j _ hj => hj.of_eq rfl rfl le_rfl
    exact ⟨fun _ => hholder, by simp, by simp, by simp⟩
  · obtain ⟨n, hcount, hfunds⟩ := h.funds
    refine ⟨n, hcount.update_stay (by simp [hpc, BucketPc.paid]), fun j => ?_⟩
    -- No other call has tokens to add.
    have hnone : (Function.update p.task i BucketPc.unlock j).pending = 0 := by
      by_cases hj : j = i
      · subst hj
        rw [Function.update_self]
        rfl
      · rw [Function.update_of_ne hj]
        exact BucketPc.pending_eq_zero ((h.sound j).not_inRefill hj hholder)
    have hold := hfunds i
    have hle' : (newVal.toNat : ℚ) ≤ p.shared.bucket.tokens.toNat + a := by exact_mod_cast hle
    rw [hpc] at hold
    simp only [accrued, BucketPc.pending] at hold
    simp only [accrued, BucketMemory.setTokens, hnone, Nat.cast_zero]
    linarith

theorem stamp {e : ℕ} (h : Funded config created p) (hpc : p.task i = .stamp e)
    (hpending : pc'.pending ≤ config.tokensToAdd e) (hpaid : ¬pc'.paid)
    (hown : CallSound config (p.shared.setLastRefill p.shared.now) i pc') :
    Funded config created
      ⟨p.shared.setLastRefill p.shared.now, Function.update p.task i pc'⟩ := by
  have helapsed : p.shared.bucket.lastRefill + e ≤ p.shared.now := (h.sound i).elapsed e hpc
  have hholder : p.shared.holder = some i :=
    (h.sound i).locked (by simp [hpc, BucketPc.inRefill])
  have hcreated := h.created_le
  refine ⟨h.created_le.trans h.lastRefill_le, le_rfl, h.capped, ?_, ?_⟩
  · refine Pool.forall_task h.sound hown fun j hj hsound => ?_
    exact hsound.of_not_inRefill (hsound.not_inRefill hj hholder)
  · obtain ⟨n, hcount, hfunds⟩ := h.funds
    refine ⟨n, hcount.update_stay (iff_of_false hpaid ?_), fun j => ?_⟩
    · simp [hpc, BucketPc.paid]
    have hnone : ((Function.update p.task i pc' j).pending : ℚ) ≤ config.tokensToAdd e := by
      by_cases hj : j = i
      · subst hj
        rw [Function.update_self]
        exact_mod_cast hpending
      · rw [Function.update_of_ne hj,
          BucketPc.pending_eq_zero ((h.sound j).not_inRefill hj hholder)]
        simp
    have hspan : ((p.shared.bucket.lastRefill - created : ℕ) : ℚ) + e ≤
        ((p.shared.now - created : ℕ) : ℚ) := by
      have hnat : p.shared.bucket.lastRefill - created + e ≤ p.shared.now - created := by omega
      exact_mod_cast hnat
    have hrate : (config.refillRatePerSec : ℚ) *
          (((p.shared.bucket.lastRefill - created : ℕ) : ℚ) / 10 ^ 9) +
        config.refillRatePerSec * ((e : ℚ) / 10 ^ 9) ≤
        config.refillRatePerSec * (((p.shared.now - created : ℕ) : ℚ) / 10 ^ 9) := by
      rw [← mul_add, ← add_div]
      have hnonneg : (0 : ℚ) ≤ config.refillRatePerSec := config.refillRatePerSec.2
      gcongr
    have hadd := tokensToAdd_le config e
    have hold := hfunds i
    rw [hpc] at hold
    simp only [accrued, BucketPc.pending, Nat.cast_zero, add_zero] at hold
    simp only [accrued, BucketMemory.setLastRefill]
    linarith

/-- The two steps on the lock change only its holder. -/
theorem setHolder {holder : Option ℕ} (h : Funded config created p)
    (hown : CallSound config { p.shared with holder := holder } i pc')
    (hother : ∀ j, j ≠ i → ¬(p.task j).inRefill)
    (hpaid : pc'.paid ↔ (p.task i).paid) (hpending : pc'.pending ≤ (p.task i).pending) :
    Funded config created
      ⟨{ p.shared with holder := holder }, Function.update p.task i pc'⟩ :=
  h.move rfl rfl le_rfl hown (fun j hj => (h.sound j).of_not_inRefill (hother j hj))
    hpaid hpending

theorem proceed (h : Funded config created p)
    (hstep : (p.task i).proceed config i p.shared = some (m, pc')) :
    Funded config created ⟨m, Function.update p.task i pc'⟩ := by
  have hsound := h.sound i
  unfold BucketPc.proceed at hstep
  cases hpc : p.task i with
  | idle => simp [hpc] at hstep
  | limited _ => simp [hpc] at hstep
  | granted => simp [hpc] at hstep
  | lock =>
      simp only [hpc] at hstep
      split at hstep
      · rename_i hfree
        obtain ⟨rfl, rfl⟩ := Prod.mk.inj (Option.some.inj hstep)
        refine h.setHolder ⟨fun _ => rfl, by simp, by simp, by simp⟩ (fun j _ hin => ?_)
          (by simp [hpc, BucketPc.paid]) (by simp [BucketPc.pending])
        have hheld := (h.sound j).locked hin
        simp [hfree] at hheld
      · simp at hstep
  | readElapsed =>
      simp only [hpc, Option.some.injEq, Prod.mk.injEq] at hstep
      obtain ⟨rfl, rfl⟩ := hstep
      have hlocked := hsound.locked (by simp [hpc, BucketPc.inRefill])
      refine h.move_call ⟨fun _ => hlocked, fun e he => ?_, by simp, by simp⟩
        (by simp [hpc, BucketPc.paid]) (by simp [BucketPc.pending])
      have hle := h.lastRefill_le
      obtain rfl := BucketPc.stamp.inj he
      omega
  | stamp e =>
      simp only [hpc, Option.some.injEq, Prod.mk.injEq] at hstep
      obtain ⟨rfl, rfl⟩ := hstep
      have hlocked := hsound.locked (by simp [hpc, BucketPc.inRefill])
      refine h.stamp hpc ?_ ?_ ⟨fun _ => hlocked, ?_, ?_, ?_⟩ <;>
        split <;> simp [BucketPc.pending, BucketPc.paid]
  | refillLoad a =>
      simp only [hpc, Option.map_eq_some_iff, Prod.mk.injEq] at hstep
      obtain ⟨newVal, hnew, rfl, rfl⟩ := hstep
      have hlocked := hsound.locked (by simp [hpc, BucketPc.inRefill])
      refine h.move_call ⟨fun _ => hlocked, by simp, ?_, by simp⟩
        (by simp [hpc, BucketPc.paid]) (by simp [hpc, BucketPc.pending])
      rintro _ _ _ ⟨⟩
      exact refilled_eq_some hnew
  | refillExchange a current newVal =>
      have hlocked := hsound.locked (by simp [hpc, BucketPc.inRefill])
      simp only [hpc] at hstep
      split at hstep
      · rename_i hcurrent
        obtain ⟨rfl, rfl⟩ := Prod.mk.inj (Option.some.inj hstep)
        exact h.add (hcurrent ▸ hpc)
      · obtain ⟨rfl, rfl⟩ := Prod.mk.inj (Option.some.inj hstep)
        exact h.move_call ⟨fun _ => hlocked, by simp, by simp, by simp⟩
          (by simp [hpc, BucketPc.paid]) (by simp [hpc, BucketPc.pending])
  | unlock =>
      simp only [hpc, Option.some.injEq, Prod.mk.injEq] at hstep
      obtain ⟨rfl, rfl⟩ := hstep
      have hlocked := hsound.locked (by simp [hpc, BucketPc.inRefill])
      exact h.setHolder ⟨by simp [BucketPc.inRefill], by simp, by simp, by simp⟩
        (fun j hj => (h.sound j).not_inRefill hj hlocked)
        (by simp [hpc, BucketPc.paid]) (by simp [BucketPc.pending])
  | load =>
      simp only [hpc] at hstep
      split at hstep
      · obtain ⟨rfl, rfl⟩ := Prod.mk.inj (Option.some.inj hstep)
        exact h.move_call ⟨by simp [BucketPc.inRefill], by simp, by simp, by simp⟩
          (by simp [hpc, BucketPc.paid]) (by simp [BucketPc.pending])
      · rename_i henough
        obtain ⟨rfl, rfl⟩ := Prod.mk.inj (Option.some.inj hstep)
        refine h.move_call ⟨by simp [BucketPc.inRefill], by simp, by simp, ?_⟩
          (by simp [hpc, BucketPc.paid]) (by simp [BucketPc.pending])
        rintro _ ⟨⟩
        exact UInt64.not_lt.mp henough
  | exchange current =>
      simp only [hpc] at hstep
      split at hstep
      · rename_i hcurrent
        subst hcurrent
        obtain ⟨rfl, rfl⟩ := Prod.mk.inj (Option.some.inj hstep)
        exact h.pay hpc
      · obtain ⟨rfl, rfl⟩ := Prod.mk.inj (Option.some.inj hstep)
        exact h.move_call ⟨by simp [BucketPc.inRefill], by simp, by simp, by simp⟩
          (by simp [hpc, BucketPc.paid]) (by simp [BucketPc.pending])
  | storeLimited =>
      simp only [hpc, Option.some.injEq, Prod.mk.injEq] at hstep
      obtain ⟨rfl, rfl⟩ := hstep
      exact h.move rfl rfl le_rfl ⟨by simp [BucketPc.inRefill], by simp, by simp, by simp⟩
        (fun j _ => (h.sound j).of_eq rfl rfl le_rfl)
        (by simp [hpc, BucketPc.paid]) (by simp [BucketPc.pending])
  | estimate =>
      simp only [hpc, Option.some.injEq, Prod.mk.injEq] at hstep
      obtain ⟨rfl, rfl⟩ := hstep
      exact h.move_call ⟨by simp [BucketPc.inRefill], by simp, by simp, by simp⟩
        (by simp [hpc, BucketPc.paid]) (by simp [BucketPc.pending])
  | storeNotLimited =>
      simp only [hpc, Option.some.injEq, Prod.mk.injEq] at hstep
      obtain ⟨rfl, rfl⟩ := hstep
      exact h.move rfl rfl le_rfl ⟨by simp [BucketPc.inRefill], by simp, by simp, by simp⟩
        (fun j _ => (h.sound j).of_eq rfl rfl le_rfl)
        (by simp [hpc, BucketPc.paid]) (by simp [BucketPc.pending])

theorem spurious (h : Funded config created p) (hstep : (p.task i).spurious = some pc') :
    Funded config created ⟨p.shared, Function.update p.task i pc'⟩ := by
  have hsound := h.sound i
  cases hpc : p.task i with
  | refillExchange a current newVal =>
      rw [hpc, BucketPc.spurious, Option.some.injEq] at hstep
      subst hstep
      have hlocked := hsound.locked (by simp [hpc, BucketPc.inRefill])
      exact h.move_call ⟨fun _ => hlocked, by simp, by simp, by simp⟩
        (by simp [hpc, BucketPc.paid]) (by simp [hpc, BucketPc.pending])
  | exchange current =>
      rw [hpc, BucketPc.spurious, Option.some.injEq] at hstep
      subst hstep
      exact h.move_call ⟨by simp [BucketPc.inRefill], by simp, by simp, by simp⟩
        (by simp [hpc, BucketPc.paid]) (by simp [BucketPc.pending])
  | _ => simp [hpc, BucketPc.spurious] at hstep

theorem step {e : ℕ × BucketAction} (h : Funded config created p)
    (hstep : p.step (bucketStep config) e = some q) : Funded config created q := by
  obtain ⟨m, pc', hact, rfl⟩ := Pool.step_eq_some.mp hstep
  obtain ⟨i, action⟩ := e
  cases action with
  | call =>
      simp only [bucketStep] at hact
      split at hact
      · rename_i hidle
        obtain ⟨rfl, rfl⟩ := Prod.mk.inj (Option.some.inj hact)
        exact h.move_call ⟨by simp [BucketPc.inRefill], by simp, by simp, by simp⟩
          (by simp [hidle, BucketPc.paid]) (by simp [BucketPc.pending])
      · simp at hact
  | proceed => exact h.proceed hact
  | spurious =>
      obtain ⟨pc₁, hspurious, heq⟩ := Option.map_eq_some_iff.mp hact
      obtain ⟨rfl, rfl⟩ := Prod.mk.inj heq
      exact h.spurious hspurious
  | tick elapsed =>
      obtain ⟨rfl, rfl⟩ := Prod.mk.inj (Option.some.inj hact)
      have hlater : p.shared.now ≤ p.shared.now + elapsed := Nat.le_add_right ..
      exact h.move rfl rfl hlater ((h.sound i).of_eq rfl rfl hlater)
        (fun j _ => (h.sound j).of_eq rfl rfl hlater) Iff.rfl le_rfl

theorem start (config : BucketConfig) (created : ℕ) :
    Funded config created (bucketStart config created) where
  created_le := le_rfl
  lastRefill_le := le_rfl
  capped := UInt64.le_refl _
  sound i := ⟨by simp [bucketStart, BucketPc.inRefill], by simp [bucketStart],
    by simp [bucketStart], by simp [bucketStart]⟩
  funds := by
    refine ⟨0, Census.zero fun i => ?_, fun i => ?_⟩
    · simp [bucketStart, BucketPc.paid]
    · simp [bucketStart, accrued, BucketPc.pending, TokenBucket.new]

theorem of_reach
    (h : Reach (Pool.step (bucketStep config)) anyStep (bucketStart config created) p) :
    Funded config created p :=
  h.invariant (start config created) fun _ _ _ hfunded _ hstep => hfunded.step hstep

theorem accrued_le (h : Funded config created p) :
    accrued config created p.shared.bucket ≤ config.maxTokens.toNat +
      config.refillRatePerSec * (((p.shared.now - created : ℕ) : ℚ) / 10 ^ 9) := by
  have hspan : p.shared.bucket.lastRefill - created ≤ p.shared.now - created :=
    Nat.sub_le_sub_right h.lastRefill_le created
  have hnonneg : (0 : ℚ) ≤ config.refillRatePerSec := config.refillRatePerSec.2
  unfold accrued
  gcongr

theorem granted_le (h : Funded config created p) {S : Finset ℕ}
    (hS : ∀ i ∈ S, p.task i = .granted) :
    (S.card : ℚ) * config.costPerRequest.toNat ≤ config.maxTokens.toNat +
      config.refillRatePerSec * (((p.shared.now - created : ℕ) : ℚ) / 10 ^ 9) := by
  obtain ⟨n, hcount, hfunds⟩ := h.funds
  have hcard : S.card ≤ n := hcount.card_le fun i hi => by simp [hS i hi, BucketPc.paid]
  calc (S.card : ℚ) * config.costPerRequest.toNat
      ≤ (n : ℚ) * config.costPerRequest.toNat := by gcongr
    _ ≤ p.shared.bucket.tokens.toNat + config.costPerRequest.toNat * n + (p.task 0).pending := by
        have htokens : (0 : ℚ) ≤ p.shared.bucket.tokens.toNat := Nat.cast_nonneg _
        have hpending : (0 : ℚ) ≤ (p.task 0).pending := Nat.cast_nonneg _
        linarith
    _ ≤ accrued config created p.shared.bucket := hfunds 0
    _ ≤ _ := h.accrued_le

/-- As long as the rate has accrued less than `2 ^ 63 - max_tokens`, no refill
overflows: a call at the addition has its next step. -/
theorem refill_enabled {a : ℕ} (h : Funded config created p) (hpc : p.task i = .refillLoad a)
    (hbound : (config.refillRatePerSec : ℚ) * (((p.shared.now - created : ℕ) : ℚ) / 10 ^ 9) <
      2 ^ 63 - config.maxTokens.toNat) :
    ∃ q, p.step (bucketStep config) (i, .proceed) = some q := by
  obtain ⟨n, -, hfunds⟩ := h.funds
  have hpending := hfunds i
  rw [hpc] at hpending
  have hcost : (0 : ℚ) ≤ config.costPerRequest.toNat * n := by positivity
  have hsum : (p.shared.bucket.tokens.toNat : ℚ) + a < 2 ^ 63 := by
    have haccrued := h.accrued_le
    simp only [BucketPc.pending] at hpending
    linarith
  have hfit : p.shared.bucket.tokens.toNat + a < 2 ^ 64 := by
    have hnat : p.shared.bucket.tokens.toNat + a < 2 ^ 63 := by exact_mod_cast hsum
    omega
  simpa [Pool.step, bucketStep, hpc, BucketPc.proceed, BucketConfig.refilled] using hfit

end Funded

end SereinGateway.TrafficControl
