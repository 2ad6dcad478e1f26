import Mathlib

/-!
`jittered_backoff.rs`: the delays between the attempts of an operation.

A call of `next_delay` draws a delay, caps it and counts one attempt more. The draws are
arguments and the seconds are rationals; a call that panics has no value. Decorrelated
jitter draws from the range between the first delay and three times the delay before,
which can be empty, and can reach what a `Duration` does not hold.
-/

namespace SereinGateway.Consensus

/-- A `Duration`, in seconds. -/
abbrev Duration := {secs : ℚ // 0 ≤ secs ∧ secs < 2 ^ 64}

/-- `Duration::from_secs_f64`, which panics for what is negative or too long. -/
def fromSecsF64 (secs : ℚ) : Option Duration :=
  if h : 0 ≤ secs ∧ secs < 2 ^ 64 then some ⟨secs, h⟩ else none

/-- What `gen::<f64>` draws. -/
abbrev Draw := {u : ℚ // 0 ≤ u ∧ u < 1}

inductive JitterStrategy where
  | full
  | decorrelated
  | equal
deriving Repr, DecidableEq

structure BackoffConfig where
  baseDelay : Duration
  maxDelay : Duration
  maxRetries : UInt32
  jitterStrategy : JitterStrategy
  multiplier : ℚ

instance : Inhabited BackoffConfig where
  default :=
    { baseDelay := ⟨200 / 1000, by norm_num⟩
      maxDelay := ⟨30, by norm_num⟩
      maxRetries := 3
      jitterStrategy := .full
      multiplier := 2 }

structure JitteredBackoff where
  config : BackoffConfig
  currentAttempt : UInt32
  previousDelay : Duration

namespace JitteredBackoff

def withConfig (config : BackoffConfig) : JitteredBackoff where
  config := config
  currentAttempt := 0
  previousDelay := config.baseDelay

/-- The `cap` of full and of equal jitter. The power is taken at the attempt as an `i32`;
where it is infinite the minimum is the longest delay. -/
def cap (b : JitteredBackoff) : ℚ :=
  let attempt := b.currentAttempt.toInt32.toInt
  if b.config.multiplier = 0 ∧ attempt < 0 then b.config.maxDelay.val
  else min b.config.maxDelay.val (b.config.baseDelay.val * b.config.multiplier ^ attempt)

def fullJitter (b : JitteredBackoff) (u : Draw) : Option Duration :=
  fromSecsF64 (max (u.val * b.cap) (1 / 1000))

/-- `decorrelated_jitter`: `gen_range` panics if the range is empty. -/
def decorrelatedJitter (b : JitteredBackoff) (u : Draw) : Option Duration :=
  let lower := b.config.baseDelay.val
  let upper := 3 * b.previousDelay.val
  if lower < upper then fromSecsF64 (lower + u.val * (upper - lower)) else none

def equalJitter (b : JitteredBackoff) (u : Draw) : Option Duration :=
  let half := b.cap / 2
  fromSecsF64 (half + u.val * half)

def jittered (b : JitteredBackoff) (u : Draw) : Option Duration :=
  match b.config.jitterStrategy with
  | .full => b.fullJitter u
  | .decorrelated => b.decorrelatedJitter u
  | .equal => b.equalJitter u

def advance (b : JitteredBackoff) (capped : Duration) : JitteredBackoff :=
  { b with previousDelay := capped, currentAttempt := b.currentAttempt + 1 }

/-- `next_delay`, with what the strategy draws. -/
def nextDelayOf (jittered : Option Duration) (b : JitteredBackoff) :
    Option (Option Duration × JitteredBackoff) :=
  if b.config.maxRetries ≤ b.currentAttempt then some (none, b)
  else do
    let delay ← jittered
    let capped := min delay b.config.maxDelay
    return (some capped, b.advance capped)

def nextDelay (b : JitteredBackoff) (u : Draw) : Option (Option Duration × JitteredBackoff) :=
  b.nextDelayOf (b.jittered u)

def attempts (b : JitteredBackoff) : UInt32 := b.currentAttempt

def canRetry (b : JitteredBackoff) : Bool := b.currentAttempt < b.config.maxRetries

/-- One call of `next_delay` after the other. -/
def delays (b : JitteredBackoff) : List Draw → Option (List (Option Duration) × JitteredBackoff)
  | [] => some ([], b)
  | u :: us => do
      let (delay, after) ← b.nextDelay u
      let (rest, last) ← after.delays us
      return (delay :: rest, last)

/-- How many delays are left to be given. -/
def remaining (b : JitteredBackoff) : ℕ := b.config.maxRetries.toNat - b.currentAttempt.toNat

end JitteredBackoff

open JitteredBackoff

/-- No call panics. As many calls as retries are allowed give a delay, which is not longer
than the longest, and the calls after them give none. -/
def AlwaysDefined (config : BackoffConfig) : Prop :=
  ∀ us : List Draw, ∃ (ts : List Duration) (last : JitteredBackoff),
    (withConfig config).delays us =
      some (ts.map some ++ List.replicate (us.length - config.maxRetries.toNat) none, last) ∧
    ts.length = min us.length config.maxRetries.toNat ∧
    ∀ t ∈ ts, t ≤ config.maxDelay

/-- Decorrelated jitter can draw from the first delay up to three times the delay before,
for the first call and for all between the shortest and the longest delay of the others. -/
def DrawsInRange (config : BackoffConfig) : Prop :=
  0 < config.baseDelay.val ∧ 3 * config.baseDelay.val ≤ 2 ^ 64 ∧
    (1 < config.maxRetries.toNat →
      config.baseDelay.val < 3 * config.maxDelay.val ∧
      3 * min (3 ^ (config.maxRetries.toNat - 1) * config.baseDelay.val) config.maxDelay.val ≤
        2 ^ 64)

namespace JitteredBackoff

/-! ### One call -/

section Call

variable {b b' : JitteredBackoff} {u : Draw} {d : Duration}

@[simp] theorem config_withConfig (config : BackoffConfig) :
    (withConfig config).config = config := rfl

@[simp] theorem currentAttempt_withConfig (config : BackoffConfig) :
    (withConfig config).currentAttempt = 0 := rfl

@[simp] theorem previousDelay_withConfig (config : BackoffConfig) :
    (withConfig config).previousDelay = config.baseDelay := rfl

@[simp] theorem config_advance : (b.advance d).config = b.config := rfl

@[simp] theorem previousDelay_advance : (b.advance d).previousDelay = d := rfl

theorem fromSecsF64_of_lt {secs : ℚ} (h0 : 0 ≤ secs) (h : secs < 2 ^ 64) :
    fromSecsF64 secs = some ⟨secs, h0, h⟩ := dif_pos ⟨h0, h⟩

theorem val_min (d e : Duration) : (min d e).val = min d.val e.val :=
  Monotone.map_min fun _ _ h => h

/-- The counter does not overflow while retries are left. -/
theorem toNat_advance (h : b.currentAttempt < b.config.maxRetries) :
    (b.advance d).currentAttempt.toNat = b.currentAttempt.toNat + 1 := by
  have hlt := UInt32.lt_iff_toNat_lt.mp h
  have hmax := b.config.maxRetries.toNat_lt
  rw [advance, UInt32.toNat_add, UInt32.toNat_one, Nat.mod_eq_of_lt (by omega)]

theorem nextDelayOf_of_le (h : b.config.maxRetries ≤ b.currentAttempt) (jittered) :
    b.nextDelayOf jittered = some (none, b) := if_pos h

theorem nextDelayOf_of_lt (h : b.currentAttempt < b.config.maxRetries) (jittered) :
    b.nextDelayOf jittered = jittered.map fun delay =>
      (some (min delay b.config.maxDelay), b.advance (min delay b.config.maxDelay)) := by
  rw [nextDelayOf, if_neg (UInt32.not_le.mpr h)]
  cases jittered <;> rfl

theorem remaining_advance (h : b.currentAttempt < b.config.maxRetries) :
    b.remaining = (b.advance d).remaining + 1 := by
  have hnat := UInt32.lt_iff_toNat_lt.mp h
  rw [remaining, remaining, toNat_advance h, config_advance]
  omega

end Call

/-! ### What the strategies draw -/

section Strategies

variable {b : JitteredBackoff} {u : Draw}

theorem cap_le (b : JitteredBackoff) : b.cap ≤ b.config.maxDelay.val := by
  simp only [cap]
  split
  · exact le_rfl
  · exact min_le_left _ _

theorem cap_nonneg (h : 0 ≤ b.config.multiplier) : 0 ≤ b.cap := by
  simp only [cap]
  split
  · exact b.config.maxDelay.2.1
  · exact le_min b.config.maxDelay.2.1
      (mul_nonneg b.config.baseDelay.2.1 (zpow_nonneg h _))

theorem cap_lt (b : JitteredBackoff) : b.cap < 2 ^ 64 :=
  b.cap_le.trans_lt b.config.maxDelay.2.2

theorem exists_fullJitter (h : 0 ≤ b.config.multiplier) (u : Draw) :
    ∃ d, b.fullJitter u = some d := by
  have hle : u.val * b.cap ≤ b.cap := mul_le_of_le_one_left (cap_nonneg h) u.2.2.le
  have hlt : max (u.val * b.cap) (1 / 1000) < 2 ^ 64 :=
    max_lt (hle.trans_lt b.cap_lt) (by norm_num)
  exact ⟨_, fromSecsF64_of_lt (le_max_of_le_right (by norm_num)) hlt⟩

theorem exists_equalJitter (h : 0 ≤ b.config.multiplier) (u : Draw) :
    ∃ d, b.equalJitter u = some d := by
  have hhalf : 0 ≤ b.cap / 2 := div_nonneg (cap_nonneg h) (by norm_num)
  have hle : u.val * (b.cap / 2) ≤ b.cap / 2 := mul_le_of_le_one_left hhalf u.2.2.le
  have hnonneg : 0 ≤ u.val * (b.cap / 2) := mul_nonneg u.2.1 hhalf
  have hlt := b.cap_lt
  exact ⟨_, fromSecsF64_of_lt (by linarith) (by linarith)⟩

theorem decorrelatedJitter_eq (b : JitteredBackoff) (u : Draw) {x : ℚ}
    (hx : x = b.config.baseDelay.val + u.val * (3 * b.previousDelay.val - b.config.baseDelay.val)) :
    b.decorrelatedJitter u =
      if b.config.baseDelay.val < 3 * b.previousDelay.val then fromSecsF64 x else none := by
  rw [hx]
  rfl

theorem exists_draw {lower upper x : ℚ} (hlower : lower ≤ x) (hupper : x < upper) :
    ∃ u : Draw, x = lower + u.val * (upper - lower) := by
  have hpos : 0 < upper - lower := by linarith
  have hone : (x - lower) / (upper - lower) < 1 := by
    rw [div_lt_one hpos]
    linarith
  refine ⟨⟨(x - lower) / (upper - lower), div_nonneg (by linarith) hpos.le, hone⟩, ?_⟩
  rw [div_mul_cancel₀ _ hpos.ne']
  ring

theorem exists_decorrelatedJitter
    (hrange : b.config.baseDelay.val < 3 * b.previousDelay.val)
    (hlong : 3 * b.previousDelay.val ≤ 2 ^ 64) (u : Draw) :
    ∃ d, b.decorrelatedJitter u = some d ∧ b.config.baseDelay.val ≤ d.val ∧
      d.val ≤ 3 * b.previousDelay.val := by
  have hspan : 0 < 3 * b.previousDelay.val - b.config.baseDelay.val := by linarith
  have hnonneg := mul_nonneg u.2.1 hspan.le
  have hlt := mul_lt_of_lt_one_left hspan u.2.2
  have hbase := b.config.baseDelay.2.1
  rw [decorrelatedJitter_eq b u rfl, if_pos hrange,
    fromSecsF64_of_lt (by linarith) (by linarith)]
  exact ⟨_, rfl, by linarith, by linarith⟩

end Strategies

/-! ### All calls -/

section Calls

theorem delays_of_invariant {I : JitteredBackoff → Prop}
    (hstep : ∀ b, I b → b.currentAttempt < b.config.maxRetries → ∀ u, ∃ d,
      b.jittered u = some d ∧ I (b.advance (min d b.config.maxDelay)))
    (us : List Draw) {b : JitteredBackoff} (hb : I b) :
    ∃ (ts : List Duration) (last : JitteredBackoff),
      b.delays us = some (ts.map some ++ List.replicate (us.length - b.remaining) none, last) ∧
      ts.length = min us.length b.remaining ∧ ∀ t ∈ ts, t ≤ b.config.maxDelay := by
  induction us generalizing b with
  | nil => exact ⟨[], b, by simp [delays], by simp, by simp⟩
  | cons u us ih =>
      by_cases hlt : b.currentAttempt < b.config.maxRetries
      · obtain ⟨d, hdraw, hinv⟩ := hstep b hb hlt u
        obtain ⟨ts, last, hrun, hlen, hle⟩ := ih hinv
        have hrem := remaining_advance (d := min d b.config.maxDelay) hlt
        refine ⟨min d b.config.maxDelay :: ts, last, ?_, ?_, ?_⟩
        · rw [delays, nextDelay, nextDelayOf_of_lt hlt, hdraw, hrem, List.length_cons,
            Nat.add_sub_add_right]
          simp only [Option.map_some, Option.bind_eq_bind, Option.bind_some]
          rw [hrun]
          rfl
        · rw [List.length_cons, List.length_cons, hlen, hrem, Nat.add_min_add_right]
        · intro t ht
          rcases List.mem_cons.mp ht with rfl | ht
          · exact min_le_right _ _
          · exact hle t ht
      · have hge := UInt32.not_lt.mp hlt
        obtain ⟨ts, last, hrun, hlen, -⟩ := ih hb
        have hrem : b.remaining = 0 := Nat.sub_eq_zero_of_le (UInt32.le_iff_toNat_le.mp hge)
        rw [hrem, Nat.min_zero, List.length_eq_zero_iff] at hlen
        subst hlen
        refine ⟨[], last, ?_, by simp [hrem], by simp⟩
        rw [delays, nextDelay, nextDelayOf_of_le hge]
        simp only [Option.bind_eq_bind, Option.bind_some]
        rw [hrun, hrem]
        rfl

theorem delays_append (b : JitteredBackoff) (us vs : List Draw) :
    b.delays (us ++ vs) = (b.delays us).bind fun (given, after) =>
      (after.delays vs).map fun (rest, last) => (given ++ rest, last) := by
  induction us generalizing b with
  | nil => simp [delays]
  | cons u us ih =>
      rw [List.cons_append, delays, delays]
      cases b.nextDelay u with
      | none => rfl
      | some called =>
          simp only [Option.bind_eq_bind, Option.bind_some, ih]
          cases called.2.delays us with
          | none => rfl
          | some run =>
              simp only [Option.pure_def, Option.bind_some]
              cases run.2.delays vs <;> rfl

end Calls

/-! ### Decorrelated jitter -/

section Decorrelated

variable {config : BackoffConfig} {b : JitteredBackoff}

def longest (config : BackoffConfig) : ℕ → ℚ
  | 0 => config.baseDelay.val
  | n + 1 => min (3 ^ (n + 1) * config.baseDelay.val) config.maxDelay.val

theorem longest_le (config : BackoffConfig) (n : ℕ) :
    longest config n ≤ 3 ^ n * config.baseDelay.val := by
  cases n with
  | zero => rw [longest, pow_zero, one_mul]
  | succ n => exact min_le_left _ _

theorem longest_le_last {n m : ℕ} (hn : n ≠ 0) (hle : n ≤ m) :
    longest config n ≤ min (3 ^ m * config.baseDelay.val) config.maxDelay.val := by
  obtain ⟨k, rfl⟩ := Nat.exists_eq_succ_of_ne_zero hn
  have hpow : (3 : ℚ) ^ (k + 1) ≤ 3 ^ m := pow_le_pow_right₀ (by norm_num) hle
  exact min_le_min_right _ (mul_le_mul_of_nonneg_right hpow config.baseDelay.2.1)

/-- The delay before is between the shortest and the longest. -/
structure Within (config : BackoffConfig) (b : JitteredBackoff) : Prop where
  config_eq : b.config = config
  first : b.currentAttempt.toNat = 0 → b.previousDelay = config.baseDelay
  lower : b.currentAttempt.toNat ≠ 0 →
    min config.baseDelay.val config.maxDelay.val ≤ b.previousDelay.val
  upper : b.previousDelay.val ≤ longest config b.currentAttempt.toNat

theorem within_withConfig (config : BackoffConfig) : Within config (withConfig config) where
  config_eq := rfl
  first := fun _ => rfl
  lower := fun h => absurd rfl h
  upper := le_rfl

theorem Within.advance (hb : Within config b) (hlt : b.currentAttempt < b.config.maxRetries)
    {d : Duration} (hlower : b.config.baseDelay.val ≤ d.val)
    (hupper : d.val ≤ 3 * b.previousDelay.val) :
    Within config (b.advance (min d b.config.maxDelay)) := by
  have hcount := toNat_advance (d := min d b.config.maxDelay) hlt
  have hlong : d.val ≤ 3 ^ (b.currentAttempt.toNat + 1) * config.baseDelay.val :=
    calc d.val ≤ 3 * b.previousDelay.val := hupper
      _ ≤ 3 * (3 ^ b.currentAttempt.toNat * config.baseDelay.val) :=
        mul_le_mul_of_nonneg_left (hb.upper.trans (longest_le _ _)) (by norm_num)
      _ = 3 ^ (b.currentAttempt.toNat + 1) * config.baseDelay.val := by ring
  rw [hb.config_eq] at hlower
  refine ⟨hb.config_eq, ?_, ?_, ?_⟩
  · intro hzero
    omega
  · intro _
    rw [previousDelay_advance, val_min, hb.config_eq]
    exact min_le_min_right _ hlower
  · rw [hcount, previousDelay_advance, val_min, hb.config_eq]
    exact min_le_min_right _ hlong

theorem Within.range (hb : Within config b) (h : DrawsInRange config)
    (hlt : b.currentAttempt < b.config.maxRetries) :
    b.config.baseDelay.val < 3 * b.previousDelay.val ∧ 3 * b.previousDelay.val ≤ 2 ^ 64 := by
  obtain ⟨hpos, hfirst, hlater⟩ := h
  have hnat := UInt32.lt_iff_toNat_lt.mp hlt
  rw [hb.config_eq] at hnat ⊢
  by_cases hzero : b.currentAttempt.toNat = 0
  · rw [hb.first hzero]
    exact ⟨by linarith, hfirst⟩
  · obtain ⟨hmax, hlast⟩ := hlater (by omega)
    have hlower := hb.lower hzero
    have hupper := hb.upper.trans
      (longest_le_last hzero (m := config.maxRetries.toNat - 1) (by omega))
    have hshort : config.baseDelay.val < 3 * min config.baseDelay.val config.maxDelay.val := by
      rcases min_choice config.baseDelay.val config.maxDelay.val with hmin | hmin <;>
        rw [hmin] <;> linarith
    exact ⟨by linarith, by linarith⟩

/-- A state that some draws lead to. -/
def Reached (config : BackoffConfig) (b : JitteredBackoff) : Prop :=
  ∃ us given, (withConfig config).delays us = some (given, b)

theorem reached_withConfig (config : BackoffConfig) : Reached config (withConfig config) :=
  ⟨[], [], rfl⟩

theorem Reached.draw (hb : Reached config b) (h : AlwaysDefined config)
    (hlt : b.currentAttempt < b.config.maxRetries) (u : Draw) :
    ∃ d, b.jittered u = some d ∧ Reached config (b.advance (min d b.config.maxDelay)) := by
  obtain ⟨us, given, hrun⟩ := hb
  obtain ⟨ts, last, hall, -, -⟩ := h (us ++ [u])
  rw [delays_append, hrun, Option.bind_some] at hall
  cases hdraw : b.jittered u with
  | none =>
      simp only [delays, nextDelay, nextDelayOf_of_lt hlt, hdraw] at hall
      cases hall
  | some d =>
      refine ⟨d, rfl, us ++ [u], given ++ [some (min d b.config.maxDelay)], ?_⟩
      rw [delays_append, hrun, Option.bind_some]
      simp only [delays, nextDelay, nextDelayOf_of_lt hlt, hdraw]
      rfl

theorem Reached.range (hb : Reached config b) (h : AlwaysDefined config)
    (hstrategy : b.config.jitterStrategy = .decorrelated)
    (hlt : b.currentAttempt < b.config.maxRetries) :
    b.config.baseDelay.val < 3 * b.previousDelay.val ∧ 3 * b.previousDelay.val ≤ 2 ^ 64 := by
  have hdraw : ∀ u, ∃ d, b.decorrelatedJitter u = some d := by
    intro u
    obtain ⟨d, hd, -⟩ := hb.draw h hlt u
    rw [jittered, hstrategy] at hd
    exact ⟨d, hd⟩
  have hrange : b.config.baseDelay.val < 3 * b.previousDelay.val := by
    by_contra hempty
    obtain ⟨d, hd⟩ := hdraw ⟨0, by norm_num⟩
    rw [decorrelatedJitter_eq b _ rfl, if_neg hempty] at hd
    cases hd
  refine ⟨hrange, ?_⟩
  by_contra hlong
  obtain ⟨u, hu⟩ := exists_draw b.config.baseDelay.2.2.le (not_le.mp hlong)
  obtain ⟨d, hd⟩ := hdraw u
  rw [decorrelatedJitter_eq b u hu, if_pos hrange, fromSecsF64, dif_neg (by norm_num)] at hd
  cases hd

theorem Reached.next (hb : Reached config b) (h : AlwaysDefined config)
    (hstrategy : b.config.jitterStrategy = .decorrelated)
    (hlt : b.currentAttempt < b.config.maxRetries) {x : ℚ}
    (hlower : b.config.baseDelay.val ≤ x) (hupper : x < 3 * b.previousDelay.val) :
    ∃ d : Duration, d.val = x ∧ Reached config (b.advance (min d b.config.maxDelay)) := by
  obtain ⟨hrange, hlong⟩ := hb.range h hstrategy hlt
  obtain ⟨u, hu⟩ := exists_draw hlower hupper
  obtain ⟨d, hd, hreached⟩ := hb.draw h hlt u
  rw [jittered, hstrategy] at hd
  rw [decorrelatedJitter_eq b u hu, if_pos hrange,
    fromSecsF64_of_lt (b.config.baseDelay.2.1.trans hlower) (hupper.trans_le hlong)] at hd
  exact ⟨d, by rw [← Option.some.inj hd], hreached⟩

theorem exists_near_longest (h : AlwaysDefined config)
    (hstrategy : config.jitterStrategy = .decorrelated) (n : ℕ)
    (hn : n < config.maxRetries.toNat) {t : ℚ} (ht : t < longest config n) :
    ∃ b, Reached config b ∧ b.config = config ∧ b.currentAttempt.toNat = n ∧
      t ≤ b.previousDelay.val := by
  induction n generalizing t with
  | zero => exact ⟨withConfig config, reached_withConfig config, rfl, rfl, ht.le⟩
  | succ n ih =>
      obtain ⟨hpow, hmax⟩ := lt_min_iff.mp ht
      -- a delay that is more than a third of `t`
      have hthird : t / 3 < longest config n := by
        cases n with
        | zero =>
            rw [zero_add, pow_one] at hpow
            rw [longest]
            linarith
        | succ n =>
            have hnonneg := config.maxDelay.2.1
            refine lt_min ?_ (by linarith)
            rw [pow_succ] at hpow
            linarith
      obtain ⟨s, hts, hs⟩ := exists_between hthird
      obtain ⟨b, hreached, hconfig, hcount, hle⟩ := ih (by omega) hs
      have hlt : b.currentAttempt < b.config.maxRetries := by
        rw [UInt32.lt_iff_toNat_lt, hcount, hconfig]
        omega
      have hdecorrelated : b.config.jitterStrategy = .decorrelated := by rw [hconfig, hstrategy]
      have hrange := (hreached.range h hdecorrelated hlt).1
      obtain ⟨d, hd, hnext⟩ := hreached.next h hdecorrelated hlt
        (x := max t b.config.baseDelay.val) (le_max_right _ _) (max_lt (by linarith) hrange)
      refine ⟨_, hnext, hconfig, by rw [toNat_advance hlt, hcount], ?_⟩
      rw [previousDelay_advance, val_min, hd, hconfig]
      exact le_min (le_max_left _ _) hmax.le

end Decorrelated

end JitteredBackoff

/-! ### The condition -/

section Condition

variable {config : BackoffConfig}

theorem alwaysDefined_of_draws
    (h : ∀ b : JitteredBackoff, b.config = config → ∀ u, ∃ d, b.jittered u = some d) :
    AlwaysDefined config := fun us =>
  delays_of_invariant (I := fun b => b.config = config)
    (fun b hb _ u => by
      obtain ⟨d, hd⟩ := h b hb u
      exact ⟨d, hd, hb⟩) us rfl

theorem alwaysDefined_of_drawsInRange (hstrategy : config.jitterStrategy = .decorrelated)
    (h : config.maxRetries.toNat ≠ 0 → DrawsInRange config) : AlwaysDefined config := fun us =>
  delays_of_invariant (I := Within config)
    (fun b hb hlt u => by
      have hnat := UInt32.lt_iff_toNat_lt.mp hlt
      rw [hb.config_eq] at hnat
      obtain ⟨hrange, hlong⟩ := hb.range (h (by omega)) hlt
      obtain ⟨d, hd, hlower, hupper⟩ := exists_decorrelatedJitter hrange hlong u
      refine ⟨d, ?_, hb.advance hlt hlower hupper⟩
      rw [jittered, hb.config_eq, hstrategy]
      exact hd) us (within_withConfig config)

theorem AlwaysDefined.drawsInRange (h : AlwaysDefined config)
    (hstrategy : config.jitterStrategy = .decorrelated)
    (hretries : config.maxRetries.toNat ≠ 0) : DrawsInRange config := by
  have hstart := reached_withConfig config
  have hlt : (withConfig config).currentAttempt < (withConfig config).config.maxRetries :=
    UInt32.lt_iff_toNat_lt.mpr (Nat.pos_of_ne_zero hretries)
  obtain ⟨hrange, hlong⟩ := hstart.range h hstrategy hlt
  rw [config_withConfig, previousDelay_withConfig] at hrange
  rw [previousDelay_withConfig] at hlong
  refine ⟨by linarith, hlong, fun hmore => ⟨?_, ?_⟩⟩
  · -- the second call, after a first delay that is the shortest
    obtain ⟨d, -, hnext⟩ := hstart.next h hstrategy hlt le_rfl hrange
    rw [config_withConfig] at hnext
    have hcount := toNat_advance (d := min d config.maxDelay) hlt
    obtain ⟨hsecond, -⟩ := hnext.range h hstrategy
      (UInt32.lt_iff_toNat_lt.mpr (by rw [hcount]; exact hmore))
    have hle : (min d config.maxDelay).val ≤ config.maxDelay.val := min_le_right _ _
    rw [config_advance, previousDelay_advance, config_withConfig] at hsecond
    linarith
  · -- the last call, after delays that are nearly the longest
    obtain ⟨n, hn⟩ := Nat.exists_eq_add_of_le hmore
    have hlast : config.maxRetries.toNat - 1 = n + 1 := by omega
    rw [hlast]
    by_contra hfar
    have hthird : 2 ^ 64 / 3 < longest config (n + 1) := by
      rw [longest]
      linarith
    obtain ⟨t, ht, hlongest⟩ := exists_between hthird
    obtain ⟨b, hreached, hconfig, hcount, hle⟩ :=
      exists_near_longest h hstrategy (n + 1) (by omega) hlongest
    obtain ⟨-, hshort⟩ := hreached.range h (by rw [hconfig, hstrategy])
      (by rw [UInt32.lt_iff_toNat_lt, hcount, hconfig]; omega)
    linarith

end Condition

/-- All calls are defined, whatever is drawn, exactly if decorrelated jitter, where it is
used and a retry is allowed, can draw from its ranges. -/
theorem alwaysDefined_iff (config : BackoffConfig) (h : 0 ≤ config.multiplier) :
    AlwaysDefined config ↔
      (config.jitterStrategy = .decorrelated → config.maxRetries.toNat ≠ 0 →
        DrawsInRange config) := by
  constructor
  · intro hdefined hstrategy hretries
    exact hdefined.drawsInRange hstrategy hretries
  · intro hrange
    cases hstrategy : config.jitterStrategy with
    | full =>
        refine alwaysDefined_of_draws fun b hb u => ?_
        rw [jittered, hb, hstrategy]
        exact exists_fullJitter (by rw [hb]; exact h) u
    | equal =>
        refine alwaysDefined_of_draws fun b hb u => ?_
        rw [jittered, hb, hstrategy]
        exact exists_equalJitter (by rw [hb]; exact h) u
    | decorrelated => exact alwaysDefined_of_drawsInRange hstrategy (hrange hstrategy)

/-- The defaults with decorrelated jitter: 90 seconds are not too long. -/
theorem alwaysDefined_default :
    0 ≤ (default : BackoffConfig).multiplier ∧
      AlwaysDefined { (default : BackoffConfig) with jitterStrategy := .decorrelated } := by
  refine ⟨by norm_num [default], (alwaysDefined_iff _ (by norm_num [default])).mpr ?_⟩
  intro _ _
  refine ⟨by norm_num [default], by norm_num [default], fun _ => ⟨by norm_num [default], ?_⟩⟩
  exact (mul_le_mul_of_nonneg_left (min_le_right _ _) (by norm_num)).trans
    (by norm_num [default])

/-- Decorrelated jitter without a first delay. -/
def withoutBaseDelay : BackoffConfig where
  baseDelay := ⟨0, by norm_num⟩
  maxDelay := ⟨30, by norm_num⟩
  maxRetries := 1
  jitterStrategy := .decorrelated
  multiplier := 2

/-- The first call draws from an empty range. -/
theorem not_alwaysDefined_withoutBaseDelay :
    ¬∀ config : BackoffConfig, 0 ≤ config.multiplier → AlwaysDefined config := by
  intro h
  obtain ⟨ts, last, hrun, -⟩ := h withoutBaseDelay (by norm_num [withoutBaseDelay])
    [⟨0, by norm_num⟩]
  have hempty : (withConfig withoutBaseDelay).jittered ⟨0, by norm_num⟩ = none :=
    if_neg (by norm_num [withConfig, withoutBaseDelay])
  rw [delays, nextDelay, nextDelayOf_of_lt (by decide), hempty] at hrun
  cases hrun

end SereinGateway.Consensus
