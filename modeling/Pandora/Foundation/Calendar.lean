import Mathlib.Algebra.Ring.Divisibility.Basic
import Mathlib.Data.Int.ConditionallyCompleteOrder
import Mathlib.Tactic.Linarith
import Mathlib.Tactic.Ring
import Pandora.Foundation.Clock

/-!
# Dates

`AddDate` moves a point in time by years, months and days of the Gregorian calendar, in
universal time.  Months are counted from March of the year 0: then the leap day is the
last day of its year, the months of a year start at the days `(153 m + 2) / 5`, and a
date is a month and a day within it, both counted from zero.

Adding months moves the month and keeps the day within it, even if the new month is
shorter: the 31st of January and one month is the 3rd of March, or the 2nd in a leap
year.  So adding a month is not monotone.

`monthOf_spec` is what everything else needs: a date names its day.  Adding only days is
therefore adding days; and whatever is added, whole days pass.
-/

namespace Pandora.Calendar

open Int

/-- The first day of a year that begins in March, counted from the 1st of March of the
year 0. -/
def yearStart (y : ℤ) : ℤ := 365 * y + y / 4 - y / 100 + y / 400

/-- The year of a day: four centuries, then centuries, then four years, then years.  The
last century of four, and the last year of four, may be one day longer. -/
def yearOf (n : ℤ) : ℤ :=
  let n400 := n / 146097
  let d400 := n % 146097
  let n100 := min (d400 / 36524) 3
  let d100 := d400 - 36524 * n100
  let n4 := d100 / 1461
  let d4 := d100 % 1461
  let n1 := min (d4 / 365) 3
  400 * n400 + 100 * n100 + 4 * n4 + n1

/-- The day of a year on which a month starts, from March on. -/
def monthDay (m : ℤ) : ℤ := (153 * m + 2) / 5

/-- The first day of a month. -/
def monthStart (m : ℤ) : ℤ := yearStart (m / 12) + monthDay (m % 12)

/-- The month of a day, and the day within it. -/
def monthOf (n : ℤ) : ℤ × ℤ :=
  let y := yearOf n
  let day := n - yearStart y
  let m := (5 * day + 2) / 153
  (12 * y + m, day - monthDay m)

/-- The 1st of January 1970. -/
def epoch : ℤ := 719468

/-- Nanoseconds of a day. -/
def dayLength : ℤ := 24 * 60 * 60 * 1000000000

def addDate (t : Time) (years months days : ℤ) : Time :=
  let date := monthOf (t / dayLength + epoch)
  (monthStart (date.1 + 12 * years + months) + date.2 + days - epoch) * dayLength + t % dayLength

/-! ## A date names its day -/

theorem yearStart_parts {a b c e : ℤ} (hb : 0 ≤ b ∧ b ≤ 3) (hc : 0 ≤ c ∧ c ≤ 24)
    (he : 0 ≤ e ∧ e ≤ 3) : yearStart (400 * a + 100 * b + 4 * c + e) =
      146097 * a + 36524 * b + 1461 * c + 365 * e := by
  have h4 : (400 * a + 100 * b + 4 * c + e) / 4 = 100 * a + 25 * b + c := by omega
  have h100 : (400 * a + 100 * b + 4 * c + e) / 100 = 4 * a + b := by omega
  have h400 : (400 * a + 100 * b + 4 * c + e) / 400 = a := by omega
  rw [yearStart, h4, h100, h400]
  ring

theorem yearOf_parts (n : ℤ) : ∃ a b c e k : ℤ, yearOf n = 400 * a + 100 * b + 4 * c + e ∧
    n = 146097 * a + 36524 * b + 1461 * c + 365 * e + k ∧ (0 ≤ b ∧ b ≤ 3) ∧ (0 ≤ c ∧ c ≤ 24) ∧
    (0 ≤ e ∧ e ≤ 3) ∧ (0 ≤ k ∧ k ≤ 365) ∧ (e < 3 → k < 365) ∧
      (b < 3 → c = 24 → e = 3 → k < 365) := by
  simp only [yearOf]
  set a := n / 146097 with ha
  set r := n % 146097 with hr
  set b := min (r / 36524) 3 with hb
  set c := (r - 36524 * b) / 1461 with hc
  set d := (r - 36524 * b) % 1461 with hd
  set e := min (d / 365) 3 with he
  have hbounds : (0 ≤ b ∧ b ≤ 3) ∧ 0 ≤ r - 36524 * b ∧ r - 36524 * b ≤ 36524 := by omega
  exact ⟨a, b, c, e, d - 365 * e, rfl, by omega,
    hbounds.1, by omega, by omega, by omega, by omega, by omega⟩

theorem yearOf_spec (n : ℤ) : yearStart (yearOf n) ≤ n ∧ n - yearStart (yearOf n) ≤ 365 := by
  obtain ⟨a, b, c, e, k, hyear, hn, hb, hc, he, hk, -⟩ := yearOf_parts n
  rw [hyear, yearStart_parts hb hc he]
  omega

/-- **A date names its day.** -/
theorem monthOf_spec (n : ℤ) :
    monthStart (monthOf n).1 + (monthOf n).2 = n ∧ 0 ≤ (monthOf n).2 ∧ (monthOf n).2 < 31 := by
  obtain ⟨hle, hlt⟩ := yearOf_spec n
  simp only [monthOf, monthStart]
  set y := yearOf n
  set day := n - yearStart y with hday
  have hyear : (12 * y + (5 * day + 2) / 153) / 12 = y := by omega
  have hmonth : (12 * y + (5 * day + 2) / 153) % 12 = (5 * day + 2) / 153 := by omega
  rw [hyear, hmonth]
  unfold monthDay
  omega

/-! ## What is added -/

theorem addDate_days (t : Time) (days : ℤ) : addDate t 0 0 days = t + days * dayLength := by
  simp only [addDate]
  rw [mul_zero, add_zero, add_zero, (monthOf_spec _).1]
  have hsplit := mul_ediv_add_emod t dayLength
  linarith

theorem monthStart_lt (m : ℤ) : monthStart m < monthStart (m + 1) := by
  unfold monthStart yearStart monthDay
  omega

theorem lt_truncate_addDate_days (t : ℤ) {days : ℕ} (hdays : 1 ≤ days) :
    t < Time.truncate (addDate t 0 0 days) := by
  have hadd : (addDate t 0 0 days : ℤ) = t + days * dayLength := addDate_days t days
  rw [hadd]
  unfold Time.truncate dayLength
  omega

variable {k t u m : ℤ}

theorem lt_addDate_day : t < addDate t 0 0 1 := by
  have hadd : (addDate t 0 0 1 : ℤ) = t + 1 * dayLength := addDate_days t 1
  rw [hadd]
  unfold dayLength
  omega

theorem lt_addDate_month (t : ℤ) : t < addDate t 0 1 0 := by
  have hmonth := monthStart_lt (monthOf (t / dayLength + epoch)).1
  have hday := (monthOf_spec (t / dayLength + epoch)).1
  simp only [addDate]
  rw [mul_zero, add_zero, add_zero]
  unfold dayLength at *
  omega

/-! ## Dates are in order

A date is in its month, so the month of a day is the one that has begun last.  Added months move on
by months: the more of them, the later, and always to a later month than before. -/

theorem lt_yearStart_succ (n : ℤ) : n < yearStart (yearOf n + 1) := by
  obtain ⟨a, b, c, e, k, hn, hday, hb, hc, he, hk, hlast, hleap⟩ := yearOf_parts n
  rw [hn]
  -- the next year is in the same four years, or the next four, the next century or the next four
  by_cases hyear : e < 3
  · rw [show 400 * a + 100 * b + 4 * c + e + 1 = 400 * a + 100 * b + 4 * c + (e + 1) by ring,
      yearStart_parts hb hc (by omega)]
    omega
  by_cases hfour : c < 24
  · rw [show 400 * a + 100 * b + 4 * c + e + 1 = 400 * a + 100 * b + 4 * (c + 1) + 0 by omega,
      yearStart_parts hb (by omega) (by omega)]
    omega
  by_cases hcentury : b < 3
  · rw [show 400 * a + 100 * b + 4 * c + e + 1 = 400 * a + 100 * (b + 1) + 4 * 0 + 0 by omega,
      yearStart_parts (by omega) (by omega) (by omega)]
    omega
  · rw [show 400 * a + 100 * b + 4 * c + e + 1 = 400 * (a + 1) + 100 * 0 + 4 * 0 + 0 by omega,
      yearStart_parts (by omega) (by omega) (by omega)]
    omega

theorem lt_monthStart_succ (n : ℤ) : n < monthStart ((monthOf n).1 + 1) := by
  obtain ⟨hle, hlt⟩ := yearOf_spec n
  have hnext := lt_yearStart_succ n
  simp only [monthOf, monthStart]
  set y := yearOf n
  set day := n - yearStart y with hday
  by_cases hlast : (5 * day + 2) / 153 = 11
  · rw [show (12 * y + (5 * day + 2) / 153 + 1) / 12 = y + 1 by omega,
      show (12 * y + (5 * day + 2) / 153 + 1) % 12 = 0 by omega]
    unfold monthDay
    omega
  · rw [show (12 * y + (5 * day + 2) / 153 + 1) / 12 = y by omega,
      show (12 * y + (5 * day + 2) / 153 + 1) % 12 = (5 * day + 2) / 153 + 1 by omega]
    unfold monthDay
    omega

theorem monthStart_strictMono : StrictMono monthStart := strictMono_int_of_lt_succ monthStart_lt

theorem monthOf_eq {n : ℤ} (hle : monthStart m ≤ n) (hlt : n < monthStart (m + 1)) :
    monthOf n = (m, n - monthStart m) := by
  obtain ⟨hday, hpos, -⟩ := monthOf_spec n
  have hnext := lt_monthStart_succ n
  have hm : (monthOf n).1 = m := by
    have h₁ : (monthOf n).1 < m + 1 := monthStart_strictMono.lt_iff_lt.mp (by omega)
    have h₂ : m < (monthOf n).1 + 1 := monthStart_strictMono.lt_iff_lt.mp (by omega)
    omega
  refine Prod.ext hm ?_
  rw [← hm]
  omega

theorem long_after_short (h : monthStart (m + 1) - monthStart m < 31) :
    31 ≤ monthStart (m + 2) - monthStart (m + 1) := by
  have hm : m % 12 = 0 ∨ m % 12 = 1 ∨ m % 12 = 2 ∨ m % 12 = 3 ∨ m % 12 = 4 ∨ m % 12 = 5 ∨
      m % 12 = 6 ∨ m % 12 = 7 ∨ m % 12 = 8 ∨ m % 12 = 9 ∨ m % 12 = 10 ∨ m % 12 = 11 := by omega
  unfold monthStart monthDay yearStart at *
  rcases hm with hm | hm | hm | hm | hm | hm | hm | hm | hm | hm | hm | hm <;> omega

/-- The month of a point in time, and the day within it. -/
def dateOf (t : ℤ) : ℤ × ℤ := monthOf (t / dayLength + epoch)

/-- `AddDate` for months alone. -/
def addMonths (t k : ℤ) : ℤ := addDate t 0 k 0

theorem addMonths_eq (t k : ℤ) : addMonths t k =
    (monthStart ((dateOf t).1 + k) + (dateOf t).2 - epoch) * dayLength + t % dayLength := by
  simp only [addMonths, addDate, dateOf]
  rw [mul_zero, add_zero, add_zero]

theorem addMonths_zero : addMonths t 0 = t := by
  have hadd : addMonths t 0 = t + 0 * dayLength := addDate_days t 0
  rw [hadd]
  ring

theorem addDate_years : addDate t k 0 0 = addMonths t (12 * k) := by
  rw [addMonths_eq]
  simp only [addDate, dateOf]
  rw [add_zero, add_zero]

theorem addMonths_strictMono : StrictMono (addMonths t) := by
  intro k l hkl
  have hstart := monthStart_strictMono (show (dateOf t).1 + k < (dateOf t).1 + l by omega)
  rw [addMonths_eq, addMonths_eq]
  unfold dayLength
  omega

theorem lt_addMonths (hk : 0 < k) : t < addMonths t k :=
  addMonths_zero.symm.trans_lt (addMonths_strictMono hk)

theorem addMonths_day (t k : ℤ) : addMonths t k / dayLength + epoch =
      monthStart ((dateOf t).1 + k) + (dateOf t).2 ∧ addMonths t k % dayLength = t % dayLength := by
  rw [addMonths_eq]
  unfold dayLength
  omega

/-- Months one by one are no less than months at once: a day that the month did not have has become
one of the next month, and stays there. -/
theorem addMonths_succ_le (t k : ℤ) : addMonths t (k + 1) ≤ addMonths (addMonths t k) 1 := by
  obtain ⟨-, hpos, hlt⟩ := monthOf_spec (t / dayLength + epoch)
  obtain ⟨hday, hmod⟩ := addMonths_day t k
  have hdate : dateOf (addMonths t k) = monthOf (monthStart ((dateOf t).1 + k) + (dateOf t).2) := by
    unfold dateOf at hday ⊢
    rw [hday]
  rw [addMonths_eq t, addMonths_eq (addMonths t k), hmod, hdate, ← add_assoc]
  change 0 ≤ (dateOf t).2 at hpos
  change (dateOf t).2 < 31 at hlt
  generalize (dateOf t).2 = d at *
  generalize (dateOf t).1 + k = m
  by_cases hshort : monthStart m + d < monthStart (m + 1)
  · rw [monthOf_eq (by omega) hshort]
    dsimp only
    unfold dayLength
    omega
  · have hlong := long_after_short (m := m) (by omega)
    have hnext := monthStart_lt m
    rw [show m + 2 = m + 1 + 1 by omega] at hlong
    rw [monthOf_eq (m := m + 1) (by omega) (by omega)]
    dsimp only
    unfold dayLength
    omega

theorem dateOf_mono (h : t ≤ u) : (dateOf t).1 ≤ (dateOf u).1 := by
  have hdays : t / dayLength ≤ u / dayLength := Int.ediv_le_ediv (by decide) h
  obtain ⟨hday, hpos, -⟩ := monthOf_spec (t / dayLength + epoch)
  have hnext := lt_monthStart_succ (u / dayLength + epoch)
  unfold dateOf
  have hlt : (monthOf (t / dayLength + epoch)).1 < (monthOf (u / dayLength + epoch)).1 + 1 :=
    monthStart_strictMono.lt_iff_lt.mp (by omega)
  omega

theorem lt_addMonths_of_month (h : (dateOf u).1 < (dateOf t).1 + k) : u < addMonths t k := by
  have hnext := lt_monthStart_succ (u / dayLength + epoch)
  obtain ⟨-, hpos, -⟩ := monthOf_spec (t / dayLength + epoch)
  have hle : monthStart ((monthOf (u / dayLength + epoch)).1 + 1) ≤ monthStart ((dateOf t).1 + k) :=
    monthStart_strictMono.monotone h
  change 0 ≤ (dateOf t).2 at hpos
  rw [addMonths_eq]
  unfold dayLength at *
  omega

/-- `Time.Year`: the year 0 begins two months before the months are counted. -/
def year (t : ℤ) : ℤ := ((dateOf t).1 + 2) / 12

/-- `Time.Month`, from 1 for January. -/
def month (t : ℤ) : ℤ := ((dateOf t).1 + 2) % 12 + 1

theorem months_between (t u : ℤ) :
    (year u - year t) * 12 + month u - month t = (dateOf u).1 - (dateOf t).1 := by
  unfold year month
  omega

-- the last and the first day of a year
example : year (20453 * dayLength) = 2025 ∧ month (20453 * dayLength) = 12 ∧
    year (20454 * dayLength) = 2026 ∧ month (20454 * dayLength) = 1 := by decide

theorem addDate_dvd {unit : ℤ} (hunit : unit ∣ dayLength) {t : Time} (ht : unit ∣ t)
    (years months days : ℤ) : unit ∣ addDate t years months days := by
  have hday : unit ∣ t % dayLength := by
    rw [emod_def]
    exact dvd_sub ht (Dvd.dvd.mul_right hunit _)
  exact dvd_add (Dvd.dvd.mul_left hunit _) hday

-- the 31st of January 2026 and one month is the 3rd of March, after the 1st of February
-- and one month
example : addDate (20484 * dayLength) 0 1 0 = 20515 * dayLength ∧
    addDate (20485 * dayLength) 0 1 0 = 20513 * dayLength := by decide

-- a leap day, one year later and four years later
example : addDate (19782 * dayLength) 1 0 0 = 20148 * dayLength ∧
    addDate (19782 * dayLength) 4 0 0 = 21243 * dayLength := by decide

end Pandora.Calendar
