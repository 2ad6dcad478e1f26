import Mathlib
import SereinGateway.Lib.Calendar

/-!
The daily garbage collection of the audit log.

A record has its time in the form of RFC 3339, with a `T` between the date and the
time of day, and the limit is written by the database with a space there. They are
compared as texts, and the space comes first, so a record is kept on the whole day of
the limit and deleted from the next day on.
-/

namespace SereinGateway.CacheStorage

open SereinGateway.Lib

/-- The number of the first of January 1970. -/
def epochDay : ℕ := 719528

/-- An instant of the system clock, in seconds since the epoch, up to the end of the
year 9999. -/
structure Instant where
  seconds : ℕ
  nanos : ℕ
  nanos_lt : nanos < 10 ^ 9
  seconds_lt : epochDay * 86400 + seconds < lastDay * 86400

/-- The seconds since the beginning of the year 0. -/
def Instant.absolute (t : Instant) : ℕ := epochDay * 86400 + t.seconds

/-- `hh:mm:ss` -/
def timeText (seconds : ℕ) : List Char :=
  padded 2 (seconds / 3600) ++
    ':' :: (padded 2 (seconds / 60 % 60) ++ ':' :: padded 2 (seconds % 60))

/-- The fraction of a second, with as many digits as it needs, in steps of three. -/
def fractionText (nanos : ℕ) : List Char :=
  if nanos = 0 then []
  else if nanos % 1000000 = 0 then '.' :: padded 3 (nanos / 1000000)
  else if nanos % 1000 = 0 then '.' :: padded 6 (nanos / 1000)
  else '.' :: padded 9 nanos

/-- `to_rfc3339`, which the records are stored with. -/
def rfc3339Text (t : Instant) : List Char :=
  dateText (t.absolute / 86400) ++
    'T' :: (timeText (t.absolute % 86400) ++ (fractionText t.nanos ++ "+00:00".toList))

/-- The days that a record is kept. -/
def retentionSeconds : ℕ := 30 * 86400

/-- The limit of a sweep. -/
def cutoff (now : Instant) : ℕ := now.absolute - retentionSeconds

/-- `datetime('now', '-30 days')` -/
def cutoffText (now : Instant) : List Char :=
  dateText (cutoff now / 86400) ++ ' ' :: timeText (cutoff now % 86400)

/-- The statement of a sweep deletes the record. -/
def Deletes (now record : Instant) : Prop := rfc3339Text record < cutoffText now

/-- The record is more than 30 days old. -/
def Expired (now record : Instant) : Prop :=
  (record.seconds + retentionSeconds) * 10 ^ 9 + record.nanos < now.seconds * 10 ^ 9

variable {now record : Instant}

theorem cutoff_add (now : Instant) : cutoff now + retentionSeconds = now.absolute :=
  Nat.sub_add_cancel (Nat.le_add_right_of_le (by decide))

theorem expired_iff : Expired now record ↔ record.absolute < cutoff now := by
  have hlimit := cutoff_add now
  have hnanos := record.nanos_lt
  unfold Instant.absolute at hlimit ⊢
  unfold Expired
  omega

/-- The dates decide. -/
theorem deletes_iff : Deletes now record ↔ record.absolute / 86400 < cutoff now / 86400 := by
  have hrecord : record.absolute / 86400 < lastDay :=
    (Nat.div_lt_iff_lt_mul (by decide)).mpr record.seconds_lt
  have hnow : cutoff now / 86400 < lastDay := by
    have hlimit := cutoff_add now
    have hlast := now.seconds_lt
    unfold Instant.absolute at hlimit
    omega
  rw [Deletes, rfc3339Text, cutoffText, append_lt_append_iff (by simp [length_dateText])]
  have hseparator : ¬('T' :: (timeText (record.absolute % 86400) ++
      (fractionText record.nanos ++ "+00:00".toList)) < ' ' :: timeText (cutoff now % 86400)) := by
    rw [List.cons_lt_cons_iff, not_or]
    exact ⟨by decide, fun h => absurd h.1 (by decide)⟩
  rw [or_iff_left fun h => hseparator h.2]
  constructor
  · intro hlt
    by_contra hge
    rcases Nat.lt_or_eq_of_le (Nat.not_lt.mp hge) with hafter | hsame
    · exact lt_asymm hlt (dateText_lt_dateText hrecord hafter)
    · rw [hsame] at hlt
      exact lt_irrefl _ hlt
  · exact dateText_lt_dateText hnow

/-- A sweep treats a record right exactly if the record is not of the day of the limit
and before it. -/
theorem retention_exact_iff (now record : Instant) :
    (Deletes now record ↔ Expired now record) ↔
      ¬(record.absolute / 86400 = cutoff now / 86400 ∧ record.absolute < cutoff now) := by
  rw [deletes_iff, expired_iff]
  omega

/-- A record is not deleted one second after it has expired. -/
theorem expired_record_kept :
    ¬∀ now record : Instant, Deletes now record ↔ Expired now record := by
  intro hall
  have hexpired : Expired ⟨2592001, 0, by decide, by decide⟩ ⟨0, 0, by decide, by decide⟩ :=
    expired_iff.mpr (by decide)
  exact absurd (deletes_iff.mp ((hall _ _).mpr hexpired)) (by decide)

end SereinGateway.CacheStorage
