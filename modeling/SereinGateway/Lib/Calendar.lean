import Mathlib

/-!
Dates of the Gregorian calendar, and their texts.

A day has a number, counted from the first day of the year 0. Its date is the last
year that has begun, the last month of this year that has begun, and what is left.
Numbers written with a fixed number of digits are ordered like their texts, so dates
are, too, as long as four digits are enough for the year.
-/

namespace SereinGateway.Lib

/-! ### Numbers of a fixed width -/

/-- `{:0wd}`, for a number of at most `w` digits. -/
def padded : ℕ → ℕ → List Char
  | 0, _ => []
  | w + 1, n => padded w (n / 10) ++ [Nat.digitChar (n % 10)]

@[simp] theorem length_padded (w n : ℕ) : (padded w n).length = w := by
  induction w generalizing n with
  | zero => rfl
  | succ w ih => rw [padded, List.length_append, ih, List.length_singleton]

theorem append_lt_append_iff {α : Type*} [LinearOrder α] {a b x y : List α}
    (hlen : a.length = b.length) : a ++ x < b ++ y ↔ a < b ∨ a = b ∧ x < y := by
  induction a generalizing b with
  | nil =>
      obtain rfl := List.length_eq_zero_iff.mp hlen.symm
      simp
  | cons c a ih =>
      cases b with
      | nil => cases hlen
      | cons d b =>
          have hrest := ih (Nat.succ.inj hlen)
          simp only [List.cons_append, List.cons_lt_cons_iff, hrest, List.cons.injEq]
          tauto

theorem digitChar_lt {m n : ℕ} (hn : n < 10) (h : m < n) : Nat.digitChar m < Nat.digitChar n := by
  interval_cases n <;> interval_cases m <;> decide

theorem padded_lt_padded {w m n : ℕ} (hn : n < 10 ^ w) (h : m < n) : padded w m < padded w n := by
  induction w generalizing m n with
  | zero => omega
  | succ w ih =>
      have hn' : n / 10 < 10 ^ w := by
        rw [Nat.div_lt_iff_lt_mul (by omega)]
        rwa [pow_succ] at hn
      rw [padded, padded, append_lt_append_iff (by simp)]
      rcases Nat.lt_or_eq_of_le (Nat.div_le_div_right (c := 10) h.le) with hlt | heq
      · exact .inl (ih hn' hlt)
      · refine .inr ⟨by rw [heq], List.cons_lt_cons_iff.mpr (.inl ?_)⟩
        exact digitChar_lt (Nat.mod_lt _ (by omega)) (by omega)

/-! ### Dates -/

def daysBeforeYear (y : ℕ) : ℕ := 365 * y + (y + 3) / 4 - (y + 99) / 100 + (y + 399) / 400

def isLeapYear (y : ℕ) : Bool := y % 4 = 0 && (y % 100 ≠ 0 || y % 400 = 0)

/-- The days before the first of a month, the months counted from 0. -/
def daysBeforeMonth (leap : Bool) (m : ℕ) : ℕ :=
  [0, 31, 59, 90, 120, 151, 181, 212, 243, 273, 304, 334].getD m 0 +
    if leap ∧ 2 ≤ m then 1 else 0

def yearOf (n : ℕ) : ℕ := Nat.findGreatest (fun y => daysBeforeYear y ≤ n) (n / 365)

def dayOfYear (n : ℕ) : ℕ := n - daysBeforeYear (yearOf n)

/-- The month in which the day `d` of a year is. -/
def monthIn (leap : Bool) (d : ℕ) : ℕ := Nat.findGreatest (fun m => daysBeforeMonth leap m ≤ d) 11

def monthOf (n : ℕ) : ℕ := monthIn (isLeapYear (yearOf n)) (dayOfYear n)

def dayOf (n : ℕ) : ℕ := dayOfYear n - daysBeforeMonth (isLeapYear (yearOf n)) (monthOf n)

/-- `YYYY-MM-DD` -/
def dateText (n : ℕ) : List Char :=
  padded 4 (yearOf n) ++ '-' :: (padded 2 (monthOf n + 1) ++ '-' :: padded 2 (dayOf n + 1))

example : dateText 719528 = ['1', '9', '7', '0', '-', '0', '1', '-', '0', '1'] := by decide +kernel

/-- The days of the years with four digits. -/
def lastDay : ℕ := 3652425

variable {n n' : ℕ}

theorem daysBeforeYear_succ (y : ℕ) :
    daysBeforeYear (y + 1) = daysBeforeYear y + if isLeapYear y then 366 else 365 := by
  have h4 : (y + 1 + 3) / 4 = (y + 3) / 4 + if y % 4 = 0 then 1 else 0 := by
    split <;> omega
  have h100 : (y + 1 + 99) / 100 = (y + 99) / 100 + if y % 100 = 0 then 1 else 0 := by
    split <;> omega
  have h400 : (y + 1 + 399) / 400 = (y + 399) / 400 + if y % 400 = 0 then 1 else 0 := by
    split <;> omega
  have hle : (y + 99) / 100 ≤ (y + 3) / 4 := by omega
  have hcentury : y % 100 = 0 → y % 4 = 0 := by omega
  have hcycle : y % 400 = 0 → y % 100 = 0 := by omega
  unfold daysBeforeYear isLeapYear
  rw [h4, h100, h400]
  generalize (y + 3) / 4 = a at *
  generalize (y + 99) / 100 = b at *
  generalize (y + 399) / 400 = c at *
  by_cases hy4 : y % 4 = 0
  · by_cases hy100 : y % 100 = 0
    · by_cases hy400 : y % 400 = 0
      · simp [hy4, hy100, hy400]
        omega
      · simp [hy4, hy100, hy400]
        omega
    · simp [hy4, hy100, mt hcycle hy100]
      omega
  · have hy100 := mt hcentury hy4
    simp [hy4, hy100, mt hcycle hy100]
    omega

theorem daysBeforeYear_strictMono : StrictMono daysBeforeYear := by
  refine strictMono_nat_of_lt_succ fun y => ?_
  rw [daysBeforeYear_succ]
  split <;> omega

theorem le_daysBeforeYear (y : ℕ) : 365 * y ≤ daysBeforeYear y := by
  unfold daysBeforeYear
  omega

theorem daysBeforeYear_yearOf (n : ℕ) : daysBeforeYear (yearOf n) ≤ n :=
  Nat.findGreatest_spec (P := fun y => daysBeforeYear y ≤ n) (Nat.zero_le _) (Nat.zero_le n)

theorem lt_daysBeforeYear_succ (n : ℕ) : n < daysBeforeYear (yearOf n + 1) := by
  by_contra hle
  have hbound : yearOf n + 1 ≤ n / 365 := by
    have hsmall := le_daysBeforeYear (yearOf n + 1)
    omega
  exact Nat.findGreatest_is_greatest (P := fun y => daysBeforeYear y ≤ n) (Nat.lt_succ_self _)
    hbound (Nat.not_lt.mp hle)

theorem yearOf_mono (h : n ≤ n') : yearOf n ≤ yearOf n' := by
  by_contra hlt
  have hle : daysBeforeYear (yearOf n' + 1) ≤ daysBeforeYear (yearOf n) :=
    daysBeforeYear_strictMono.monotone (Nat.succ_le_of_lt (Nat.not_le.mp hlt))
  have hbegun := daysBeforeYear_yearOf n
  have hnext := lt_daysBeforeYear_succ n'
  omega

theorem yearOf_lt (h : n < lastDay) : yearOf n < 10 ^ 4 := by
  have hbegun := daysBeforeYear_yearOf n
  have hlast : daysBeforeYear 10000 = lastDay := by decide
  by_contra hge
  have hle : daysBeforeYear 10000 ≤ daysBeforeYear (yearOf n) :=
    daysBeforeYear_strictMono.monotone (Nat.not_lt.mp hge)
  omega

theorem dayOfYear_lt (n : ℕ) : dayOfYear n < 366 := by
  have hbegun := daysBeforeYear_yearOf n
  have hnext := lt_daysBeforeYear_succ n
  rw [daysBeforeYear_succ] at hnext
  unfold dayOfYear
  split at hnext <;> omega

theorem daysBeforeMonth_monthIn (leap : Bool) (d : ℕ) :
    daysBeforeMonth leap (monthIn leap d) ≤ d :=
  Nat.findGreatest_spec (P := fun m => daysBeforeMonth leap m ≤ d) (Nat.zero_le 11) (by
    cases leap <;> exact Nat.zero_le d)

theorem monthIn_le (leap : Bool) (d : ℕ) : monthIn leap d ≤ 11 := Nat.findGreatest_le 11

theorem monthIn_mono (leap : Bool) {d d' : ℕ} (h : d ≤ d') : monthIn leap d ≤ monthIn leap d' :=
  Nat.findGreatest_mono (fun _ hle => hle.trans h) (le_refl 11)

theorem sub_daysBeforeMonth_lt (leap : Bool) {d : ℕ} (hd : d < 366) :
    d - daysBeforeMonth leap (monthIn leap d) < 32 := by
  have hle := monthIn_le leap d
  have hspan : ∀ m < 11, daysBeforeMonth leap (m + 1) ≤ daysBeforeMonth leap m + 31 := by
    cases leap <;> decide
  have hlast : 334 ≤ daysBeforeMonth leap 11 := by cases leap <;> decide
  rcases Nat.lt_or_eq_of_le hle with hlt | heq
  · have hnext : ¬daysBeforeMonth leap (monthIn leap d + 1) ≤ d :=
      Nat.findGreatest_is_greatest (P := fun m => daysBeforeMonth leap m ≤ d) (Nat.lt_succ_self _)
        hlt
    have hmonth := hspan _ hlt
    omega
  · rw [heq]
    omega

theorem dateText_lt_dateText (hn : n' < lastDay) (h : n < n') : dateText n < dateText n' := by
  rw [dateText, dateText, append_lt_append_iff (by simp)]
  rcases Nat.lt_or_eq_of_le (yearOf_mono h.le) with hyear | hyear
  · exact .inl (padded_lt_padded (yearOf_lt hn) hyear)
  · have hday : dayOfYear n < dayOfYear n' := by
      have hbegun := daysBeforeYear_yearOf n
      unfold dayOfYear
      rw [← hyear]
      omega
    refine .inr ⟨by rw [hyear], List.cons_lt_cons_iff.mpr (.inr ⟨rfl, ?_⟩)⟩
    rw [append_lt_append_iff (by simp)]
    have hmono : monthOf n ≤ monthOf n' := by
      rw [monthOf, monthOf, hyear]
      exact monthIn_mono _ hday.le
    rcases Nat.lt_or_eq_of_le hmono with hmonth | hmonth
    · have hle := monthIn_le (isLeapYear (yearOf n')) (dayOfYear n')
      refine .inl (padded_lt_padded ?_ (Nat.succ_lt_succ hmonth))
      change monthIn _ _ + 1 < _
      omega
    · have hbegun := daysBeforeMonth_monthIn (isLeapYear (yearOf n)) (dayOfYear n)
      have hlast := sub_daysBeforeMonth_lt (isLeapYear (yearOf n')) (dayOfYear_lt n')
      refine .inr ⟨by rw [hmonth], List.cons_lt_cons_iff.mpr (.inr ⟨rfl, ?_⟩)⟩
      refine padded_lt_padded ?_ (Nat.succ_lt_succ ?_)
      · change dayOfYear n' - daysBeforeMonth _ (monthIn _ _) + 1 < _
        omega
      · change daysBeforeMonth _ (monthOf n) ≤ _ at hbegun
        unfold dayOf
        rw [← hmonth, ← hyear]
        omega

theorem length_dateText (n : ℕ) : (dateText n).length = 10 := by
  simp [dateText]

end SereinGateway.Lib
