import Mathlib.Algebra.Order.Ring.Int

/-!
# Points in time, and what lies between them

A `time.Time` is a number of nanoseconds since 1970 began, in universal time.  A
`time.Duration` is a signed number of nanoseconds of 64 bits: the difference of two times
stops at the largest and the smallest duration.
-/

namespace Pandora

/-- A point in time, in nanoseconds. -/
abbrev Time : Type := ℤ

namespace Duration

/-- The largest duration. -/
def most : ℤ := 2 ^ 63 - 1

/-- The smallest duration. -/
def least : ℤ := -2 ^ 63

end Duration

namespace Time

/-- The zero `time.Time`. -/
def zeroTime : ℤ := -62135596800000000000

def sub (t u : ℤ) : ℤ := max Duration.least (min Duration.most (t - u))

/-- `Time.Truncate` to microseconds, the precision of the database. -/
def truncate (t : ℤ) : ℤ := t - t % 1000

variable {t u d : ℤ}

theorem sub_of_fits (h : Duration.least ≤ t - u) (h' : t - u ≤ Duration.most) :
    sub t u = t - u := by
  rw [sub, min_eq_right h', max_eq_right h]

theorem lt_sub_of_lt (hd : d < Duration.most) (h : u + d < t) : d < sub t u := by
  unfold sub
  refine lt_max_of_lt_right (lt_min hd ?_)
  omega

theorem lt_of_lt_sub (hd : Duration.least ≤ d) (h : d < sub t u) : d < t - u := by
  unfold sub at h
  rcases lt_max_iff.mp h with hleast | hmin
  · exact absurd hleast hd.not_gt
  · exact (lt_min_iff.mp hmin).2

theorem sub_le_sub {s : ℤ} (h : s ≤ t) : sub s u ≤ sub t u := by
  unfold sub
  refine max_le_max le_rfl (min_le_min le_rfl ?_)
  omega

theorem truncate_of_dvd (h : (1000 : ℤ) ∣ t) : truncate t = t := by
  unfold truncate
  omega

theorem dvd_truncate (t : ℤ) : (1000 : ℤ) ∣ truncate t := by
  unfold truncate
  omega

end Time
end Pandora
