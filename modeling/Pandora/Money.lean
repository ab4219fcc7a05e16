import Pandora.Foundation.Decimal

/-!
# Amounts of money

The panel keeps every amount in yuan, as a decimal with at most two places, in
columns of type `numeric(20,2)`.  Two places are checked by the program before
each write (`Check`), because the database would silently round; the width of
the column is checked by the database, which refuses a value that does not fit.

Amounts taken by proportion (percentage coupons, commissions, prorated credits)
are computed exactly and truncated toward zero once, at the end: `mulRatio`.
-/

namespace Pandora.Money

open Decimal

/-- The number of decimal places of an amount. -/
def scale : ℕ := 2

/-- At most two places: `money.Check` passes. -/
def Check (d : ℚ) : Prop := HasPlaces scale d

instance (d : ℚ) : Decidable (Check d) := inferInstanceAs (Decidable (HasPlaces scale d))

/-- `money.CheckNonNegative` passes. -/
def CheckNonNegative (d : ℚ) : Prop := 0 ≤ d ∧ Check d

instance (d : ℚ) : Decidable (CheckNonNegative d) := inferInstanceAs (Decidable (_ ∧ _))

/-- A value the column type `numeric(20,2)` can hold: eighteen digits before the
point. -/
def Fits (d : ℚ) : Prop := |d| < 10 ^ 18

instance (d : ℚ) : Decidable (Fits d) := inferInstanceAs (Decidable (_ < _))

/-- The amount of a whole number of cents. -/
def fromCents (cents : ℤ) : ℚ := cents / 100

/-- `d * num / den`, truncated toward zero to cents.  The program refuses a
denominator that is not positive and an amount with more than two places. -/
def mulRatio (d : ℚ) (num den : ℤ) : ℚ := truncate scale (d * num / den)

/-- The denominator of a basis-point rate. -/
def basisPoints : ℤ := 10000

/-- An amount by basis points. -/
def applyBP (d : ℚ) (bp : ℤ) : ℚ := mulRatio d bp basisPoints

/-! ## Amounts are closed under the operations of bookkeeping -/

@[simp] theorem check_zero : Check 0 := hasPlaces_zero scale

variable {a : ℚ}

theorem Check.add {b : ℚ} (ha : Check a) (hb : Check b) : Check (a + b) :=
  HasPlaces.add ha hb

theorem Check.neg (ha : Check a) : Check (-a) := HasPlaces.neg ha

theorem Check.list_sum {l : List ℚ} (h : ∀ a ∈ l, Check a) : Check l.sum :=
  HasPlaces.list_sum h

end Pandora.Money
