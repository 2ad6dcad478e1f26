import SereinGateway.Consensus.JitteredBackoff

/-!
The retry loops of `jittered_backoff.rs`.

An operation is called with the attempts so far, and after a failure again as long as the
backoff has retries. The outcomes of the calls, and the delays that are drawn before they
are capped, are sequences; a loop whose `unwrap` panics has no result.
-/

namespace SereinGateway.Consensus

open JitteredBackoff

variable {ω ρ T E : Type}

/-- What a loop has done: the numbers that it called the operation with, and its result. -/
structure Execution (ρ : Type) where
  calls : List UInt32
  result : Option ρ

def Execution.prepend (attempt : UInt32) (e : Execution ρ) : Execution ρ :=
  { e with calls := attempt :: e.calls }

/-- What a loop makes of an outcome: it returns, or retries and returns the error if the
attempts are exhausted. -/
inductive Reaction (ρ : Type) where
  | finish (result : ρ)
  | retry (exhausted : UInt32 → ρ)

/-- The loop of both functions. -/
def retryLoop (react : ω → Reaction ρ) (outcomes : ℕ → ω) (delays : ℕ → Duration)
    (backoff : JitteredBackoff) : Execution ρ :=
  match react (outcomes 0) with
  | .finish result => ⟨[backoff.attempts], some result⟩
  | .retry exhausted =>
      if backoff.canRetry then
        match hdelay : backoff.nextDelayOf (some (delays 0)) with
        | some (some _, after) =>
            (retryLoop react (fun i => outcomes (i + 1)) (fun i => delays (i + 1)) after).prepend
              backoff.attempts
        -- the `unwrap` of an exhausted backoff
        | _ => ⟨[backoff.attempts], none⟩
      else ⟨[backoff.attempts], some (exhausted backoff.attempts)⟩
termination_by backoff.remaining
decreasing_by
  by_cases hlt : backoff.currentAttempt < backoff.config.maxRetries
  · rw [nextDelayOf_of_lt hlt] at hdelay
    obtain ⟨-, rfl⟩ := Prod.mk.inj (Option.some.inj hdelay)
    have hrem := remaining_advance (d := min (delays 0) backoff.config.maxDelay) hlt
    omega
  · rw [nextDelayOf_of_le (UInt32.not_lt.mp hlt)] at hdelay
    cases hdelay

def onResult : Except E T → Reaction (Except E T)
  | .ok result => .finish (.ok result)
  | .error err => .retry fun _ => .error err

def executeWithBackoff (outcomes : ℕ → Except E T) (config : Option BackoffConfig)
    (delays : ℕ → Duration) : Execution (Except E T) :=
  retryLoop onResult outcomes delays (withConfig (config.getD default))

inductive HttpOutcome (T : Type) where
  | success (result : T)
  | retryableStatus (code : UInt16)

inductive HttpBackoffError (E : Type) where
  | retryableStatusExhausted (statusCode : UInt16) (attempts : UInt32)
  | transport (err : E)

def onHttpOutcome : Except E (HttpOutcome T) → Reaction (Except (HttpBackoffError E) T)
  | .ok (.success result) => .finish (.ok result)
  | .ok (.retryableStatus code) =>
      .retry fun attempts => .error (.retryableStatusExhausted code attempts)
  | .error err => .retry fun _ => .error (.transport err)

def executeWithHttpBackoff (outcomes : ℕ → Except E (HttpOutcome T))
    (config : Option BackoffConfig) (delays : ℕ → Duration) :
    Execution (Except (HttpBackoffError E) T) :=
  retryLoop onHttpOutcome outcomes delays
    (withConfig (config.getD { (default : BackoffConfig) with jitterStrategy := .full }))

/-- The loop ends with the call of an index, after failures. It returns what the call
gives, or the error if the call fails too and no retry is left. -/
structure EndsAt (react : ω → Reaction ρ) (outcomes : ℕ → ω) (backoff : JitteredBackoff) (n : ℕ)
    (e : Execution ρ) : Prop where
  le : n ≤ backoff.remaining
  calls : e.calls.map UInt32.toNat = List.range' backoff.currentAttempt.toNat (n + 1)
  failed : ∀ i < n, ∃ exhausted, react (outcomes i) = .retry exhausted
  last : (∃ result, react (outcomes n) = .finish result ∧ e.result = some result) ∨
    n = backoff.remaining ∧ ∃ exhausted, react (outcomes n) = .retry exhausted ∧
      e.result = some (exhausted backoff.config.maxRetries)

def successOf : Except E (HttpOutcome T) → Option T
  | .ok (.success result) => some result
  | _ => none

/-- The error for a call that fails when no retry is left. -/
inductive HttpFailure (attempts : UInt32) :
    Except E (HttpOutcome T) → HttpBackoffError E → Prop where
  | retryableStatus (code : UInt16) :
      HttpFailure attempts (.ok (.retryableStatus code)) (.retryableStatusExhausted code attempts)
  | transport (err : E) : HttpFailure attempts (.error err) (.transport err)

/-- The calls are numbered from zero. They end with the first that succeeds, whose result
is returned, or with one call more than the retries, whose error is returned. -/
def CalledAsPromised {ε : Type} (success : ω → Option T) (failure : ω → ε → Prop)
    (outcomes : ℕ → ω) (retries : ℕ) (e : Execution (Except ε T)) : Prop :=
  (∃ n ≤ retries, ∃ result, success (outcomes n) = some result ∧
      (∀ i < n, success (outcomes i) = none) ∧
      e.calls.map UInt32.toNat = List.range (n + 1) ∧ e.result = some (.ok result)) ∨
    ∃ err, (∀ i ≤ retries, success (outcomes i) = none) ∧ failure (outcomes retries) err ∧
      e.calls.map UInt32.toNat = List.range (retries + 1) ∧ e.result = some (.error err)

/-! ### One call of the operation -/

section Step

variable {react : ω → Reaction ρ} {outcomes : ℕ → ω} {delays : ℕ → Duration}
  {b : JitteredBackoff}

theorem retryLoop_finish {result : ρ} (h : react (outcomes 0) = .finish result) :
    retryLoop react outcomes delays b = ⟨[b.attempts], some result⟩ := by
  rw [retryLoop, h]

theorem retryLoop_exhausted {exhausted : UInt32 → ρ} (h : react (outcomes 0) = .retry exhausted)
    (hge : ¬b.currentAttempt < b.config.maxRetries) :
    retryLoop react outcomes delays b = ⟨[b.attempts], some (exhausted b.attempts)⟩ := by
  rw [retryLoop, h]
  exact if_neg (by rw [canRetry, decide_eq_true_eq]; exact hge)

theorem retryLoop_retry {exhausted : UInt32 → ρ} (h : react (outcomes 0) = .retry exhausted)
    (hlt : b.currentAttempt < b.config.maxRetries) :
    retryLoop react outcomes delays b =
      (retryLoop react (fun i => outcomes (i + 1)) (fun i => delays (i + 1))
        (b.advance (min (delays 0) b.config.maxDelay))).prepend b.attempts := by
  have hdelay := nextDelayOf_of_lt hlt (some (delays 0))
  rw [Option.map_some] at hdelay
  rw [retryLoop, h]
  simp only [canRetry, hlt, decide_true, if_true]
  split
  · rename_i after hsome
    rw [hdelay] at hsome
    rw [(Prod.mk.inj (Option.some.inj hsome)).2]
  · rename_i hother
    exact absurd hdelay (hother _ _)

end Step

/-! ### All calls -/

section Run

variable {react : ω → Reaction ρ} {outcomes : ℕ → ω} {b : JitteredBackoff}

/-- A failure in front of a loop that goes on with one retry less. -/
theorem EndsAt.prepend {n : ℕ} {e : Execution ρ} {d : Duration} {exhausted : UInt32 → ρ}
    (h : EndsAt react (fun i => outcomes (i + 1)) (b.advance d) n e)
    (hfirst : react (outcomes 0) = .retry exhausted)
    (hlt : b.currentAttempt < b.config.maxRetries) :
    EndsAt react outcomes b (n + 1) (e.prepend b.attempts) := by
  have hrem := remaining_advance (d := d) hlt
  refine ⟨by have := h.le; omega, ?_, ?_, ?_⟩
  · rw [Execution.prepend, List.map_cons, h.calls, toNat_advance hlt, List.range'_succ]
    rfl
  · intro i hi
    cases i with
    | zero => exact ⟨exhausted, hfirst⟩
    | succ i => exact h.failed i (Nat.lt_of_succ_lt_succ hi)
  · rcases h.last with hfinish | ⟨hn, hretry⟩
    · exact .inl hfinish
    · exact .inr ⟨by omega, hretry⟩

theorem exists_endsAt (react : ω → Reaction ρ) (outcomes : ℕ → ω) (delays : ℕ → Duration)
    (hb : b.currentAttempt ≤ b.config.maxRetries) :
    ∃ n, EndsAt react outcomes b n (retryLoop react outcomes delays b) := by
  induction hrem : b.remaining generalizing outcomes delays b with
  | zero =>
      have hnat := UInt32.le_iff_toNat_le.mp hb
      have hge : ¬b.currentAttempt < b.config.maxRetries := by
        rw [UInt32.lt_iff_toNat_lt]
        rw [remaining] at hrem
        omega
      have hattempts : b.attempts = b.config.maxRetries :=
        UInt32.le_antisymm hb (UInt32.not_lt.mp hge)
      refine ⟨0, Nat.zero_le _, ?_, by simp, ?_⟩
      · cases hreact : react (outcomes 0) with
        | finish result => rw [retryLoop_finish hreact]; rfl
        | retry exhausted => rw [retryLoop_exhausted hreact hge]; rfl
      · cases hreact : react (outcomes 0) with
        | finish result => exact .inl ⟨result, rfl, by rw [retryLoop_finish hreact]⟩
        | retry exhausted =>
            refine .inr ⟨hrem.symm, exhausted, rfl, ?_⟩
            rw [retryLoop_exhausted hreact hge, hattempts]
  | succ k ih =>
      have hlt : b.currentAttempt < b.config.maxRetries := by
        rw [UInt32.lt_iff_toNat_lt]
        rw [remaining] at hrem
        omega
      cases hreact : react (outcomes 0) with
      | finish result =>
          rw [retryLoop_finish hreact]
          exact ⟨0, Nat.zero_le _, rfl, by simp, .inl ⟨result, hreact, rfl⟩⟩
      | retry exhausted =>
          have hcount := toNat_advance (d := min (delays 0) b.config.maxDelay) hlt
          have hnext := remaining_advance (d := min (delays 0) b.config.maxDelay) hlt
          obtain ⟨n, hn⟩ := ih (fun i => outcomes (i + 1)) (fun i => delays (i + 1))
            (b := b.advance (min (delays 0) b.config.maxDelay))
            (UInt32.le_iff_toNat_le.mpr (by
              rw [hcount, config_advance]
              exact UInt32.lt_iff_toNat_lt.mp hlt))
            (by omega)
          rw [retryLoop_retry hreact hlt]
          exact ⟨n + 1, hn.prepend hreact hlt⟩

end Run

/-! ### The two functions -/

section Functions

theorem calledAsPromised {ε : Type} {react : ω → Reaction (Except ε T)} {success : ω → Option T}
    {failure : ω → ε → Prop} (config : BackoffConfig) (outcomes : ℕ → ω) (delays : ℕ → Duration)
    (hfinish : ∀ o r, react o = .finish r → ∃ t, success o = some t ∧ r = .ok t)
    (hretry : ∀ o f, react o = .retry f → success o = none ∧
      ∃ err, failure o err ∧ f config.maxRetries = .error err) :
    CalledAsPromised success failure outcomes config.maxRetries.toNat
      (retryLoop react outcomes delays (withConfig config)) := by
  have hstart : (withConfig config).currentAttempt ≤ (withConfig config).config.maxRetries :=
    UInt32.le_iff_toNat_le.mpr (Nat.zero_le _)
  obtain ⟨n, hle, hcalls, hfailed, hlast⟩ := exists_endsAt react outcomes delays hstart
  have hnone : ∀ i < n, success (outcomes i) = none := by
    intro i hi
    obtain ⟨exhausted, hreact⟩ := hfailed i hi
    exact (hretry _ _ hreact).1
  have hrange : List.range' (withConfig config).currentAttempt.toNat (n + 1) =
      List.range (n + 1) := List.range_eq_range'.symm
  rw [hrange] at hcalls
  rcases hlast with ⟨result, hreact, hresult⟩ | ⟨hn, exhausted, hreact, hresult⟩
  · obtain ⟨t, hsuccess, rfl⟩ := hfinish _ _ hreact
    exact .inl ⟨n, hle, t, hsuccess, hnone, hcalls, hresult⟩
  · obtain ⟨hfails, err, hfailure, herr⟩ := hretry _ _ hreact
    have hretries : config.maxRetries.toNat = n := hn.symm
    rw [hretries]
    refine .inr ⟨err, fun i hi => ?_, hfailure, hcalls, ?_⟩
    · rcases Nat.lt_or_eq_of_le hi with hlt | rfl
      · exact hnone i hlt
      · exact hfails
    · rw [hresult, config_withConfig, herr]

/-- Both functions, whatever the calls give and whatever is drawn. -/
theorem execute_calledAsPromised (config : Option BackoffConfig) (delays : ℕ → Duration)
    (outcomes : ℕ → Except E T) (httpOutcomes : ℕ → Except E (HttpOutcome T)) :
    CalledAsPromised Except.toOption (fun outcome err => outcome = .error err) outcomes
        (config.getD default).maxRetries.toNat (executeWithBackoff outcomes config delays) ∧
      CalledAsPromised successOf (HttpFailure (config.getD default).maxRetries) httpOutcomes
        (config.getD default).maxRetries.toNat
        (executeWithHttpBackoff httpOutcomes config delays) := by
  constructor
  · refine calledAsPromised _ _ _ (fun o r h => ?_) (fun o f h => ?_)
    · cases o with
      | ok t => cases h; exact ⟨t, rfl, rfl⟩
      | error err => cases h
    · cases o with
      | ok t => cases h
      | error err => cases h; exact ⟨rfl, err, rfl, rfl⟩
  · have hconfig : config.getD { (default : BackoffConfig) with jitterStrategy := .full } =
        config.getD default := rfl
    rw [executeWithHttpBackoff, hconfig]
    refine calledAsPromised _ _ _ (fun o r h => ?_) (fun o f h => ?_)
    · rcases o with err | t | code
      · cases h
      · cases h; exact ⟨t, rfl, rfl⟩
      · cases h
    · rcases o with err | t | code
      · cases h; exact ⟨rfl, _, .transport err, rfl⟩
      · cases h
      · cases h; exact ⟨rfl, _, .retryableStatus code, rfl⟩

end Functions

end SereinGateway.Consensus
