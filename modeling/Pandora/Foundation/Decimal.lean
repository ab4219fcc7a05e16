import Mathlib.Data.Rat.Floor
import Mathlib.Tactic.Positivity

/-!
# Decimals by value

An arbitrary-precision decimal is a rational whose denominator divides a power
of ten, and the operations that programs use on it --- addition, negation,
comparison --- are exact, so a decimal is taken here by its value, in `ℚ`.

What is not exact is truncation.  `truncate places d` drops the digits after the
given place, *toward zero*, and a decimal has at most `places` digits exactly
when truncation leaves it alone: that is `HasPlaces`.  The point of the file is
`hasPlaces_iff`, which says that such a number is an integer over `10 ^ places`.
Closure under addition and negation follows, and with it every later statement
that sums of amounts in cents are amounts in cents.
-/

namespace Pandora.Decimal

/-- The integer part of a rational, rounded toward zero. -/
def trunc (q : ℚ) : ℤ := q.num.tdiv q.den

/-- Drop the digits after `places`, toward zero. -/
def truncate (places : ℕ) (d : ℚ) : ℚ := (trunc (d * 10 ^ places) : ℚ) / 10 ^ places

/-- At most `places` digits after the point. -/
def HasPlaces (places : ℕ) (d : ℚ) : Prop := truncate places d = d

instance (places : ℕ) (d : ℚ) : Decidable (HasPlaces places d) :=
  inferInstanceAs (Decidable (_ = _))

/-! ## The integer part -/

@[simp] theorem trunc_intCast (n : ℤ) : trunc (n : ℚ) = n := by
  simp [trunc]

variable {a d b : ℚ} {places : ℕ}

/-! ## Decimals with a bounded number of places -/

/-- **A decimal with at most `places` digits is an integer over `10 ^ places`.** -/
theorem hasPlaces_iff : HasPlaces places d ↔ ∃ n : ℤ, d = n / 10 ^ places := by
  constructor
  · intro h
    exact ⟨trunc (d * 10 ^ places), h.symm⟩
  · rintro ⟨n, rfl⟩
    have hpow : (10 : ℚ) ^ places ≠ 0 := by positivity
    rw [HasPlaces, truncate, div_mul_cancel₀ _ hpow, trunc_intCast]

@[simp] theorem hasPlaces_zero (places : ℕ) : HasPlaces places 0 :=
  hasPlaces_iff.mpr ⟨0, by simp⟩

theorem HasPlaces.add (ha : HasPlaces places a)
    (hb : HasPlaces places b) : HasPlaces places (a + b) := by
  obtain ⟨m, rfl⟩ := hasPlaces_iff.mp ha
  obtain ⟨n, rfl⟩ := hasPlaces_iff.mp hb
  exact hasPlaces_iff.mpr ⟨m + n, by push_cast; ring⟩

theorem HasPlaces.neg (ha : HasPlaces places a) : HasPlaces places (-a) := by
  obtain ⟨m, rfl⟩ := hasPlaces_iff.mp ha
  exact hasPlaces_iff.mpr ⟨-m, by push_cast; ring⟩

theorem HasPlaces.sub (ha : HasPlaces places a)
    (hb : HasPlaces places b) : HasPlaces places (a - b) := by
  rw [sub_eq_add_neg]
  exact ha.add hb.neg

theorem HasPlaces.list_sum {l : List ℚ} (h : ∀ a ∈ l, HasPlaces places a) :
    HasPlaces places l.sum := by
  induction l with
  | nil => exact hasPlaces_zero places
  | cons a l ih =>
    rw [List.sum_cons]
    exact (h a List.mem_cons_self).add (ih fun b hb => h b (List.mem_cons_of_mem _ hb))

end Pandora.Decimal
