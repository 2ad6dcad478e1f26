import Mathlib
import SereinGateway.Lib.Transition
import SereinGateway.Security.HmacAuth

/-!
How long the replay cache remembers a nonce.

The cache forgets a nonce 300 seconds after it was accepted, and a header is
accepted up to 300 seconds before and after its timestamp. The two windows
fit only if the header was already stamped in an earlier second when it was
first accepted: a header that is stamped in the current second or in the
future can be presented again after its nonce has expired and before its
timestamp has. Apart from that the cache forgets a nonce early only when it
is full.
-/

namespace SereinGateway.Security

open SereinGateway.Lib

/-- The wall clock in seconds, in step with the monotonic one: `epoch` is the
wall-clock time, in nanoseconds, at which the latter was zero. -/
def utcAt (epoch instant : ℕ) : ℤ := ((epoch + instant) / nanosPerSec : ℕ)

/-- The cache and the time of the latest call. -/
structure CacheClock where
  cache : NonceCacheInner
  now : ℕ

/-- A nonce is presented to the cache. -/
structure Presentation where
  instant : ℕ
  nonce : String
  drain : Shuffle (Σ _ : String, ℕ)

namespace Presentation

variable (c : Presentation) (s : CacheClock)

def accepted : Bool := (s.cache.checkAndInsert c.drain c.instant c.nonce).1

/-- The call makes room in a full cache. -/
def evicts : Bool :=
  !s.cache.holds c.instant c.nonce &&
    nonceCacheMaxCapacity ≤ (s.cache.cleaned c.instant).entries.length

def after : CacheClock := ⟨(s.cache.checkAndInsert c.drain c.instant c.nonce).2, c.instant⟩

end Presentation

/-- Calls of `check_and_insert` at times that do not decrease. -/
def cacheStep (s : CacheClock) (c : Presentation) : Option CacheClock :=
  if s.now ≤ c.instant then some (c.after s) else none

theorem cacheStep_eq_some {s s' : CacheClock} {c : Presentation} :
    cacheStep s c = some s' ↔ s.now ≤ c.instant ∧ c.after s = s' := by
  rw [cacheStep, Option.ite_none_right_eq_some, Option.some.injEq]

namespace NonceCacheInner

variable {cache : NonceCacheInner} {now t : ℕ} {nonce other : String}

theorem unexpired_iff : unexpired now t = true ↔ now - t < nonceTtlSecs * nanosPerSec := by
  rw [unexpired, decide_eq_true_eq, Nat.div_lt_iff_lt_mul (by decide)]

theorem lookup_cleaned (h : cache.entries.lookup nonce = some t)
    (hfresh : unexpired now t = true) : (cache.cleaned now).lookup nonce = some t := by
  rw [cleaned]
  split
  · exact lookup_retain h hfresh
  · exact h

theorem lookup_checkAndInsert (drain : Shuffle (Σ _ : String, ℕ))
    (h : cache.entries.lookup nonce = some t) (hfresh : unexpired now t = true)
    (hroom : cache.holds now other = false →
      (cache.cleaned now).entries.length < nonceCacheMaxCapacity) :
    (cache.checkAndInsert drain now other).2.entries.lookup nonce = some t := by
  rw [checkAndInsert]
  split
  next => exact h
  next hnew =>
    have hne : nonce ≠ other := by
      rintro rfl
      simp [holds, h, hfresh] at hnew
    have hspace := hroom (by simpa using hnew)
    simp only [not_le.mpr hspace, if_false]
    show ((cache.cleaned now).insert other now).lookup nonce = some t
    rw [AList.lookup_insert_ne hne]
    exact lookup_cleaned h hfresh

theorem lookup_of_accepted (drain : Shuffle (Σ _ : String, ℕ)) (h : cache.holds now nonce = false) :
    (cache.checkAndInsert drain now nonce).2.entries.lookup nonce = some now := by
  rw [checkAndInsert, if_neg (by simp [h])]
  exact AList.lookup_insert _

end NonceCacheInner

theorem lookup_of_reach {s s' : CacheClock} {nonce : String} {t : ℕ}
    (h : s.cache.entries.lookup nonce = some t) (hnow : t ≤ s.now)
    (hreach : Reach cacheStep (fun s c => c.evicts s = false) s s') :
    t ≤ s'.now ∧ (s'.now - t < nonceTtlSecs * nanosPerSec →
      s'.cache.entries.lookup nonce = some t) := by
  refine hreach.invariant (I := fun s => t ≤ s.now ∧ (s.now - t < nonceTtlSecs * nanosPerSec →
    s.cache.entries.lookup nonce = some t)) ⟨hnow, fun _ => h⟩ ?_
  rintro s c s' ⟨hle, hheld⟩ hroom hstep
  obtain ⟨hlater, rfl⟩ := cacheStep_eq_some.mp hstep
  refine ⟨hle.trans hlater, fun hage => ?_⟩
  have hage' : c.instant - t < nonceTtlSecs * nanosPerSec := hage
  refine NonceCacheInner.lookup_checkAndInsert c.drain (hheld (by omega))
    (NonceCacheInner.unexpired_iff.mpr hage') ?_
  intro hnew
  simpa [Presentation.evicts, hnew] using hroom

/-- The end of the window of a timestamp is before the end of the life of a
nonce that was accepted in a later second. -/
theorem age_lt_of_window {epoch s t : ℕ} {ts : ℤ} (hearly : ts < utcAt epoch s)
    (hin : (utcAt epoch t - ts).natAbs ≤ hmacReplayWindowSecs) :
    t - s < nonceTtlSecs * nanosPerSec := by
  simp only [utcAt, hmacReplayWindowSecs, nonceTtlSecs, nanosPerSec] at *
  omega

/-- And not before it otherwise. -/
theorem window_of_age {epoch s : ℕ} {ts : ℤ} (hlate : utcAt epoch s ≤ ts)
    (hin : (utcAt epoch s - ts).natAbs ≤ hmacReplayWindowSecs) :
    (utcAt epoch (s + nonceTtlSecs * nanosPerSec) - ts).natAbs ≤ hmacReplayWindowSecs := by
  simp only [utcAt, hmacReplayWindowSecs, nonceTtlSecs, nanosPerSec] at *
  omega

theorem Presentation.accepted_eq (c : Presentation) (s : CacheClock) :
    c.accepted s = !s.cache.holds c.instant c.nonce :=
  NonceCacheInner.checkAndInsert_fst c.drain c.instant c.nonce s.cache

/-- Under a cache that does not evict, a nonce that was accepted with the
timestamp `ts` is rejected for the rest of the window of `ts` exactly when
`ts` was in an earlier second than the acceptance. -/
theorem replay_window_iff (epoch : ℕ) (s : CacheClock) (a : Presentation) (ts : ℤ)
    (haccepted : a.accepted s = true)
    (hwindow : (utcAt epoch a.instant - ts).natAbs ≤ hmacReplayWindowSecs) :
    (∀ s', Reach cacheStep (fun s c => c.evicts s = false) (a.after s) s' →
      ∀ c : Presentation, c.nonce = a.nonce → s'.now ≤ c.instant →
        (utcAt epoch c.instant - ts).natAbs ≤ hmacReplayWindowSecs → c.accepted s' = false) ↔
    ts < utcAt epoch a.instant := by
  rw [Presentation.accepted_eq, Bool.not_eq_true'] at haccepted
  have hheld : (a.after s).cache.entries.lookup a.nonce = some a.instant :=
    NonceCacheInner.lookup_of_accepted a.drain haccepted
  constructor
  · intro hall
    by_contra hlate
    -- Presented again when the nonce has just expired.
    obtain ⟨later, hlater⟩ : ∃ t, t = a.instant + nonceTtlSecs * nanosPerSec := ⟨_, rfl⟩
    have hin : (utcAt epoch later - ts).natAbs ≤ hmacReplayWindowSecs :=
      hlater ▸ window_of_age (not_lt.mp hlate) hwindow
    have hnow : (a.after s).now ≤ later := by
      show a.instant ≤ later
      omega
    have hagain := hall (a.after s) .refl ⟨later, a.nonce, a.drain⟩ rfl hnow hin
    have hexpired : NonceCacheInner.unexpired later a.instant = false := by
      rw [Bool.eq_false_iff, Ne, NonceCacheInner.unexpired_iff]
      omega
    rw [Presentation.accepted_eq, NonceCacheInner.holds, hheld] at hagain
    simp [hexpired] at hagain
  · intro hearly s' hreach c hnonce hlater hin
    obtain ⟨hle, hkept⟩ := lookup_of_reach hheld le_rfl hreach
    have hage := age_lt_of_window hearly hin
    have hlookup := hkept (by omega)
    rw [Presentation.accepted_eq, NonceCacheInner.holds, hnonce, hlookup]
    simp [NonceCacheInner.unexpired_iff.mpr hage]

/-- A nonce stamped one second before it is accepted. -/
theorem replay_window_iff_stamped_before :
    Presentation.accepted ⟨0, "n-1", .id⟩ ⟨.new, 0⟩ = true ∧
    ∀ s', Reach cacheStep (fun s c => c.evicts s = false)
        (Presentation.after ⟨0, "n-1", .id⟩ ⟨.new, 0⟩) s' →
      ∀ c : Presentation, c.nonce = "n-1" → s'.now ≤ c.instant →
        (utcAt (1700000000 * nanosPerSec) c.instant - 1699999999).natAbs ≤ hmacReplayWindowSecs →
        c.accepted s' = false :=
  ⟨by decide, (replay_window_iff (1700000000 * nanosPerSec) ⟨.new, 0⟩ ⟨0, "n-1", .id⟩ 1699999999
    (by decide) (by decide)).mpr (by decide)⟩

/-- A nonce stamped in the second in which it is accepted is accepted again 300
seconds later, when its timestamp is still in the window. -/
theorem accepted_twice_in_window :
    ¬∀ (epoch : ℕ) (s : CacheClock) (a : Presentation) (ts : ℤ), a.accepted s = true →
      (utcAt epoch a.instant - ts).natAbs ≤ hmacReplayWindowSecs →
      ∀ s', Reach cacheStep anyStep (a.after s) s' →
        ∀ c : Presentation, c.nonce = a.nonce → s'.now ≤ c.instant →
          (utcAt epoch c.instant - ts).natAbs ≤ hmacReplayWindowSecs → c.accepted s' = false := by
  intro hall
  have hagain := hall (1700000000 * nanosPerSec) ⟨.new, 0⟩ ⟨0, "n-1", .id⟩ 1700000000 (by decide)
    (by decide) _ .refl ⟨300 * nanosPerSec, "n-1", .id⟩ rfl (Nat.zero_le _) (by decide)
  revert hagain
  decide

end SereinGateway.Security
