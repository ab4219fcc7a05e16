import Mathlib.Data.Int.Log
import Mathlib.Data.Rat.Floor

/-!
# Numbers of 64 bits with a floating point

A number of this format is `m * 2 ^ e` with `|m| < 2 ^ 53` and `-1074 ≤ e ≤ 971`.  `float64 q` is
the one that is nearest to `q`, and of two that are equally near the one with the even `m`;
there is none if `q` is too large.  The two zeros are one here, and there are no values that are
not numbers.

What an exact number is needs no look at this: `q` is one if `float64 q = some q`.  All whole
numbers up to `2 ^ 53` are (`float64_intCast`).
-/

namespace Pandora

open Int

/-- The nearest whole number, and of two the even one. -/
def roundHalfEven (q : ℚ) : ℤ :=
  if q - ⌊q⌋ < 1 / 2 then ⌊q⌋
  else if 1 / 2 < q - ⌊q⌋ then ⌊q⌋ + 1
  else if ⌊q⌋ % 2 = 0 then ⌊q⌋
  else ⌊q⌋ + 1

/-- The exponent of the last digit of the numbers about as large as `q`. -/
def lastDigit (q : ℚ) : ℤ := max (log 2 |q| - 52) (-1074)

/-- The nearest number of the format. -/
def float64 (q : ℚ) : Option ℚ :=
  let nearest := roundHalfEven (q / 2 ^ lastDigit q) * (2 : ℚ) ^ lastDigit q
  if |nearest| < 2 ^ 1024 then some nearest else none

@[simp] theorem roundHalfEven_intCast (n : ℤ) : roundHalfEven n = n := by
  rw [roundHalfEven, floor_intCast, sub_self, if_pos (by norm_num)]

theorem float64_of_digits {q : ℚ} {m : ℤ} (h : q / 2 ^ lastDigit q = m) (hq : |q| < 2 ^ 1024) :
    float64 q = some q := by
  have hpow : (2 : ℚ) ^ lastDigit q ≠ 0 := zpow_ne_zero _ two_ne_zero
  have hback : (m : ℚ) * 2 ^ lastDigit q = q := by
    rw [← h, div_mul_cancel₀ q hpow]
  unfold float64
  rw [h, roundHalfEven_intCast]
  rw [hback, if_pos hq]

theorem float64_intCast {n : ℤ} (h : |n| ≤ 2 ^ 53) : float64 n = some (n : ℚ) := by
  have hq : |(n : ℚ)| ≤ 2 ^ 53 := by exact_mod_cast h
  have hlarge : |(n : ℚ)| < 2 ^ 1024 :=
    hq.trans_lt (pow_lt_pow_right₀ one_lt_two (by norm_num))
  rcases hq.lt_or_eq with hlt | heq
  · -- the last digit is not larger than one
    have hlog : log 2 |(n : ℚ)| ≤ 52 := by
      by_cases hzero : n = 0
      · subst hzero
        simp
      · have hpos : 0 < |(n : ℚ)| := abs_pos.mpr (by exact_mod_cast hzero)
        have hlt' : log 2 |(n : ℚ)| < 53 := by
          rw [← lt_zpow_iff_log_lt (by norm_num) hpos]
          exact_mod_cast hlt
        omega
    have hdigit : lastDigit n ≤ 0 := by
      unfold lastDigit
      omega
    obtain ⟨k, hk⟩ := eq_ofNat_of_zero_le (neg_nonneg.mpr hdigit)
    have hdigit' : lastDigit n = -(k : ℤ) := by omega
    refine float64_of_digits (m := n * 2 ^ k) ?_ hlarge
    rw [hdigit', zpow_neg, zpow_natCast, div_inv_eq_mul]
    push_cast
    rfl
  · have hdigit : lastDigit n = 1 := by
      rw [lastDigit, heq]
      have hlog : log 2 ((2 : ℚ) ^ 53) = 53 := by
        have := log_zpow (R := ℚ) (b := 2) (by norm_num) 53
        exact_mod_cast this
      rw [hlog]
      norm_num
    have habs : |n| = 2 ^ 53 := by exact_mod_cast heq
    obtain ⟨m, hm⟩ : ∃ m, n = 2 * m := by
      rcases abs_eq_abs.mp (habs.trans (abs_of_pos (by norm_num : (0 : ℤ) < 2 ^ 53)).symm) with
        hn | hn
      · exact ⟨2 ^ 52, hn⟩
      · exact ⟨-2 ^ 52, hn⟩
    refine float64_of_digits (m := m) ?_ hlarge
    rw [hdigit, zpow_one, hm]
    push_cast
    ring

example : float64 9007199254740993 = some 9007199254740992 := by decide +kernel

end Pandora
