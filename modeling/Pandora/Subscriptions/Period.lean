import Pandora.Catalog
import Pandora.Foundation.Calendar

/-!
# Periods

When a period ends, and what a renewal or an extension is added to.  All of it is
arithmetic on dates, done by the program and not by the database.

Permanence is not stored.  A permanent period ends a hundred years after it began, and a
period counts as permanent if it ends more than fifty years from now, by the clock of the
machine (`clock`).
-/

namespace Pandora.Subscriptions

open Calendar Time

def addInterval (start : Time) (interval : Interval) (count : ℤ) : Time :=
  let count := if count ≤ 0 then 1 else count
  match interval with
  | .day => addDate start 0 0 count
  | .week => addDate start 0 0 (7 * count)
  | .month => addDate start 0 count 0
  | .quarter => addDate start 0 (3 * count) 0
  | .year => addDate start count 0 0
  | .oneTime => addDate start 100 0 0

/-- Years from now after which an end is taken for permanent. -/
def permanentHorizon : ℤ := 50

def IsPermanent (clock end_ : Time) : Prop := addDate clock permanentHorizon 0 0 < end_

instance (clock end_ : Time) : Decidable (IsPermanent clock end_) :=
  inferInstanceAs (Decidable (_ < _))

def periodEndFor (start : Time) (p : PriceSnapshot) : Time :=
  match p.interval, p.validityDays with
  | .oneTime, some days =>
    if 0 < days then Time.truncate (addDate start 0 0 days)
    else Time.truncate (addInterval start .oneTime p.intervalCount)
  | interval, _ => Time.truncate (addInterval start interval p.intervalCount)

def stackEnd (clock oldEnd now : Time) (p : PriceSnapshot) : Time :=
  if IsPermanent clock oldEnd then oldEnd
  else
    match p.validityDays with
    | some days =>
      if 0 < days then Time.truncate (addDate (max oldEnd now) 0 0 days)
      else Time.truncate (addInterval now .oneTime 1)
    | none => Time.truncate (addInterval now .oneTime 1)

/-- `RenewalBase`: where a renewal is added, and whether the period begins anew. -/
def renewalBase (oldEnd paidAt : Time) (orderCreatedAt : Option Time) : Time × Bool :=
  if paidAt < oldEnd then (oldEnd, false)
  else if ∃ created ∈ orderCreatedAt, created < oldEnd then (oldEnd, false)
  else (paidAt, true)

/-- `ExtendBase`: where an extension is added, and whether the period had lapsed. -/
def extendBase (oldEnd now : Time) : Time × Bool :=
  if oldEnd ≤ now then (now, true) else (oldEnd, false)

/-! ## Order -/

theorem lt_addInterval {start : ℤ} {interval : Interval} {count : ℤ} :
    start < addInterval start interval count := by
  unfold addInterval
  have hcount : 0 < (if count ≤ 0 then 1 else count) := by
    split_ifs with h
    · exact one_pos
    · omega
  generalize (if count ≤ 0 then 1 else count) = n at hcount
  have hdays : ∀ d : ℤ, 0 < d → start < addDate start 0 0 d := by
    intro d hd
    have hadd : (addDate start 0 0 d : ℤ) = start + d * dayLength := addDate_days start d
    rw [hadd]
    unfold dayLength
    omega
  cases interval with
  | day => exact hdays n hcount
  | week => exact hdays (7 * n) (by omega)
  | month => exact lt_addMonths hcount
  | quarter => exact lt_addMonths (show 0 < 3 * n by omega)
  | year => exact (lt_addMonths (show 0 < 12 * n by omega)).trans_eq addDate_years.symm
  | oneTime =>
    exact (lt_addMonths (show 0 < 12 * (100 : ℤ) by decide)).trans_eq addDate_years.symm

/-! ## Microseconds -/

theorem addInterval_dvd {start : Time} (h : (1000 : ℤ) ∣ start) (interval : Interval)
    (count : ℤ) : (1000 : ℤ) ∣ addInterval start interval count := by
  have hunit : (1000 : ℤ) ∣ dayLength := by decide
  unfold addInterval
  cases interval <;> exact addDate_dvd hunit h _ _ _

theorem dvd_addDays {start : Time} (h : (1000 : ℤ) ∣ start) (days : ℤ) :
    (1000 : ℤ) ∣ start + days * dayLength :=
  Int.dvd_add h (Dvd.dvd.mul_left (by decide) _)

theorem periodEndFor_spec {start : ℤ} (h : (1000 : ℤ) ∣ start) (p : PriceSnapshot) :
    (1000 : ℤ) ∣ periodEndFor start p ∧ start < periodEndFor start p := by
  have hinterval : ∀ interval, (1000 : ℤ) ∣ truncate (addInterval start interval p.intervalCount) ∧
      start < truncate (addInterval start interval p.intervalCount) := by
    intro interval
    rw [truncate_of_dvd (addInterval_dvd h interval p.intervalCount)]
    exact ⟨addInterval_dvd h interval p.intervalCount, lt_addInterval⟩
  unfold periodEndFor
  split
  · split
    · rename_i days _ hpos
      rw [addDate_days, truncate_of_dvd (dvd_addDays h _)]
      exact ⟨dvd_addDays h _, lt_add_of_pos_right _
        (mul_pos (Int.natCast_pos.mpr hpos) (by decide))⟩
    · exact hinterval _
  · exact hinterval _

end Pandora.Subscriptions
