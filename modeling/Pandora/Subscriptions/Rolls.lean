import Pandora.Subscriptions.Entitlement

/-!
# When a quota begins anew

The rows of a day or a month begin anew by themselves, and the row of a cycle with the billing cycle
of the subscription.  The job that does it may have been away for a while; it then goes to the
current window at once.

* `naturalRollStart` counts days or months from where the row ended, each time from there and in one
  step, so that the day of the month is not lost in a short month.
* `cycleRollWindow` goes on cycle by cycle.  The last cycle ends with the subscription, and so does
  the one before it if what would be left is not a whole cycle.
-/

namespace Pandora.Subscriptions

open Calendar Option Nat Duration Time

/-! ## Days and months -/

/-- `overlongPeriod`: the end of a row was written as that of the subscription. -/
def OverlongPeriod (period : QuotaPeriod) (start end_ : ℤ) : Prop :=
  match period with
  | .day => start + 25 * 60 * 60 * 1000000000 < end_
  | .month => addDate start 0 1 4 < end_
  | _ => False

instance (period : QuotaPeriod) (start end_ : ℤ) :
    Decidable (OverlongPeriod period start end_) := by
  unfold OverlongPeriod
  cases period <;> infer_instance

/-- Where the windows of a row are counted from. -/
def rollAnchor (period : QuotaPeriod) (start end_ : ℤ) : ℤ :=
  if OverlongPeriod period start end_ then start else end_

/-- Some natural periods after a point in time. -/
def naturalStep (period : QuotaPeriod) (anchor : ℤ) (k : ℕ) : ℤ :=
  match period with
  | .day => addDate anchor 0 0 k
  | _ => addMonths anchor k

/-- The number of periods that is tried first. -/
def naturalGuess (period : QuotaPeriod) (anchor now : ℤ) : ℤ :=
  match period with
  | .day => (Time.sub now anchor).tdiv dayLength
  | _ => (year now - year anchor) * 12 + month now - month anchor

/-- `naturalRollStart`: the loop counts down from the first guess. -/
def naturalRollStart (period : QuotaPeriod) (start end_ now : ℤ) : Option ℤ :=
  let anchor := rollAnchor period start end_
  if now < anchor ∨ ¬ (period = .day ∨ period = .month) then none
  else
    let k := findGreatest (fun k => naturalStep period anchor k ≤ now)
      (naturalGuess period anchor now).toNat
    if OverlongPeriod period start end_ ∧ k = 0 then none else some (naturalStep period anchor k)

/-- The days of the longest `time.Duration`, and one more. -/
def durationDays : ℕ := 106752

variable {anchor : ℤ} {period : QuotaPeriod}

theorem naturalStep_zero : naturalStep period anchor 0 = anchor := by
  cases period with
  | day =>
    have hadd : naturalStep .day anchor 0 = anchor + 0 * dayLength := addDate_days anchor 0
    rw [hadd]
    ring
  | _ => exact addMonths_zero

theorem naturalStep_strictMono : StrictMono (naturalStep period anchor) := by
  intro k l hkl
  cases period with
  | day =>
    have hadd : ∀ n : ℕ, naturalStep .day anchor n = anchor + n * dayLength := fun n =>
      addDate_days anchor n
    rw [hadd, hadd]
    unfold dayLength
    omega
  | _ => exact addMonths_strictMono (cast_lt.mpr hkl)

variable {now subEnd start : ℤ}

theorem lt_naturalStep_guess (hperiod : period = .day ∨ period = .month) (hle : anchor ≤ now)
    (hfits : period = .day → now < naturalStep .day anchor durationDays) :
    now < naturalStep period anchor ((naturalGuess period anchor now).toNat + 1) := by
  rcases hperiod with rfl | rfl
  · have hlt := hfits rfl
    have hadd : ∀ n : ℕ, naturalStep .day anchor n = anchor + n * dayLength := fun n =>
      addDate_days anchor n
    rw [hadd] at hlt ⊢
    unfold naturalGuess durationDays dayLength at *
    have hsub : 0 ≤ sub now anchor ∧
        (sub now anchor = now - anchor ∨ sub now anchor = most) := by
      unfold sub most least
      omega
    unfold most at hsub
    dsimp only
    rw [Int.tdiv_eq_ediv_of_nonneg hsub.1]
    omega
  · have hmonths := months_between anchor now
    refine lt_addMonths_of_month ?_
    unfold naturalGuess
    dsimp only
    rw [hmonths]
    omega

theorem findGreatest_naturalStep (hle : anchor ≤ now) {n : ℕ}
    (hguess : now < naturalStep period anchor (n + 1)) :
    naturalStep period anchor (findGreatest (fun k => naturalStep period anchor k ≤ now) n) ≤ now ∧
      now < naturalStep period anchor
        (findGreatest (fun k => naturalStep period anchor k ≤ now) n + 1) := by
  refine ⟨findGreatest_spec (m := 0) (P := fun k => naturalStep period anchor k ≤ now)
    (zero_le n) (naturalStep_zero.trans_le hle), ?_⟩
  set k := findGreatest (fun k => naturalStep period anchor k ≤ now) n with hk
  have hkn : k ≤ n := findGreatest_le n
  rcases hkn.lt_or_eq with hlt | heq
  · exact not_le.mp (findGreatest_is_greatest (lt_succ_self k) hlt)
  · rw [heq]
    exact hguess

theorem naturalStep_succ_le (hperiod : period = .day ∨ period = .month)
    (anchor cycleEnd : ℤ) (k : ℕ) :
    ∃ e : ℤ, quotaPeriodEnd period (naturalStep period anchor k) cycleEnd = some e ∧
      naturalStep period anchor (k + 1) ≤ e := by
  rcases hperiod with rfl | rfl
  · refine ⟨_, rfl, ?_⟩
    have hadd : ∀ (t : ℤ) (n : ℤ), (addDate t 0 0 n : ℤ) = t + n * dayLength := addDate_days
    unfold naturalStep
    rw [hadd, hadd, hadd]
    push_cast
    linarith
  · refine ⟨_, rfl, ?_⟩
    have := addMonths_succ_le anchor k
    exact_mod_cast this

theorem not_overlong_rolled {cycleEnd e : ℤ} (hperiod : period = .day ∨ period = .month)
    (he : quotaPeriodEnd period start cycleEnd = some e) : ¬ OverlongPeriod period start e := by
  rcases hperiod with rfl | rfl
  · obtain rfl := some.inj he
    have hadd : (addDate start 0 0 1 : ℤ) = start + 1 * dayLength := addDate_days start 1
    rw [OverlongPeriod, hadd]
    unfold dayLength
    omega
  · obtain rfl := some.inj he
    have hadd : (addDate start 0 1 4 : ℤ) = addDate start 0 1 0 + 4 * dayLength := by
      unfold addDate
      ring
    have hlater : ∀ t : ℤ, ¬ t + 4 * dayLength < t := by
      intro t
      unfold dayLength
      omega
    simp only [OverlongPeriod]
    rw [hadd]
    exact hlater _

/-- **A row of days or months is rolled to the last of its windows that has begun**, and that one is
not over and is not rolled again; a row that is over and not too long is rolled. -/
theorem naturalRollStart_lands {period : QuotaPeriod} (hperiod : period = .day ∨ period = .month)
    {start end_ now : ℤ}
    (hfits : period = .day → now < naturalStep .day (rollAnchor period start end_) durationDays) :
    (∀ s' cycleEnd : ℤ, naturalRollStart period start end_ now = some s' →
      (∃ k : ℕ, s' = naturalStep period (rollAnchor period start end_) k) ∧ s' ≤ now ∧
      (∀ k : ℕ, naturalStep period (rollAnchor period start end_) k ≤ now →
        naturalStep period (rollAnchor period start end_) k ≤ s') ∧
      ∃ e : ℤ, quotaPeriodEnd period s' cycleEnd = some e ∧ now < e ∧
        naturalRollStart period s' e now = none) ∧
    (¬ OverlongPeriod period start end_ → end_ ≤ now →
      ∃ s', naturalRollStart period start end_ now = some s') := by
  refine ⟨fun s' cycleEnd hroll => ?_, fun hnormal hdue => ?_⟩
  · simp only [naturalRollStart] at hroll
    split_ifs at hroll with hbefore hstay
    obtain ⟨hanchor, -⟩ := not_or.mp hbefore
    have hle := not_lt.mp hanchor
    obtain ⟨hk, hnext⟩ := findGreatest_naturalStep hle (lt_naturalStep_guess hperiod hle hfits)
    set anchor := rollAnchor period start end_
    set k := findGreatest (fun k => naturalStep period anchor k ≤ now)
      (naturalGuess period anchor now).toNat
    obtain rfl := some.inj hroll
    obtain ⟨e, he, hlater⟩ := naturalStep_succ_le hperiod anchor cycleEnd k
    refine ⟨⟨k, rfl⟩, hk, fun j hj => ?_, e, he, hnext.trans_le hlater, ?_⟩
    · -- a window that has begun is not after the last one that has
      have hlt := naturalStep_strictMono.lt_iff_lt.mp (hj.trans_lt hnext)
      exact naturalStep_strictMono.monotone (Nat.lt_succ_iff.mp hlt)
    · rw [naturalRollStart, rollAnchor, if_neg (not_overlong_rolled hperiod he)]
      exact if_pos (.inl (hnext.trans_le hlater))
  · rw [naturalRollStart, rollAnchor, if_neg hnormal]
    rw [if_neg (not_or.mpr ⟨not_lt.mpr hdue, not_not.mpr hperiod⟩), if_neg fun h => hnormal h.1]
    exact ⟨_, rfl⟩

/-- A row that has been over for three centuries: the difference stops at the longest duration. -/
theorem rolled_behind : ∃ s', naturalRollStart .day 0 dayLength (106753 * dayLength) = some s' ∧
    ∃ e, quotaPeriodEnd .day s' 0 = some e ∧ e ≤ 106753 * dayLength := by
  refine ⟨106752 * dayLength, ?_, _, rfl, ?_⟩ <;> decide +kernel

/-- The 31st of January: a row that ended then is rolled to the 3rd of March, not to the 28th. -/
theorem rolled_from_january :
    (∃ k : ℕ, 20515 * dayLength = naturalStep .month (20484 * dayLength) k) ∧
      naturalRollStart .month (20453 * dayLength) (20484 * dayLength) (20520 * dayLength) =
        some (20515 * dayLength) := by
  have hroll : naturalRollStart .month (20453 * dayLength) (20484 * dayLength) (20520 * dayLength) =
      some (20515 * dayLength) := by decide +kernel
  have hanchor : rollAnchor .month (20453 * dayLength) (20484 * dayLength) = 20484 * dayLength := by
    decide +kernel
  have h := ((naturalRollStart_lands (.inr rfl) nofun).1 _ 0 hroll).1
  rw [hanchor] at h
  exact ⟨h, hroll⟩

/-! ## Billing cycles -/

/-- `NextCycleEnd`: what is left of the subscription after one more cycle, if it is less than a
cycle, belongs to this one. -/
def nextCycleEnd (start subEnd : ℤ) (interval : Interval) (count : ℤ) : ℤ :=
  let next : ℤ := addInterval start interval count
  if subEnd < addInterval next interval count then subEnd else next

theorem lt_nextCycleEnd {interval : Interval} {count : ℤ}
    (h : nextCycleEnd start subEnd interval count < subEnd) :
    start < nextCycleEnd start subEnd interval count := by
  simp only [nextCycleEnd] at h ⊢
  split_ifs at h ⊢
  · exact absurd h (lt_irrefl _)
  · exact lt_addInterval

/-- `cycleRollWindow`.  Each round goes on by a cycle, so the loop ends. -/
def cycleRollWindow (start subEnd now : ℤ) (interval : Interval) (count : ℤ) : ℤ × ℤ :=
  let end_ := nextCycleEnd start subEnd interval count
  if _h : end_ ≤ now ∧ end_ < subEnd then cycleRollWindow end_ subEnd now interval count
  else (start, end_)
termination_by (subEnd - start).toNat
decreasing_by
  have hlt : start < nextCycleEnd start subEnd interval count := lt_nextCycleEnd _h.2
  change nextCycleEnd start subEnd interval count ≤ now ∧
    nextCycleEnd start subEnd interval count < subEnd at _h
  omega

/-! ### Paid periods

The periods that are still to come, up to the end of the subscription, all have the interval the
roll goes by.  Then the roll lands on one of them, however long it has been away. -/

section Periods

variable {b : ℕ → ℤ} {interval : Interval} {count : ℤ} {j n : ℕ}

section

variable (hb : ∀ k, j ≤ k → k < n → b (k + 1) = addInterval (b k) interval count)
include hb

theorem periods_le {l m : ℕ} (hjl : j ≤ l) (hlm : l ≤ m) (hmn : m ≤ n) : b l ≤ b m := by
  induction m, hlm using le_induction with
  | base => exact le_rfl
  | succ m hlm ih =>
    have hstep : b m < b (m + 1) :=
      lt_addInterval.trans_eq (hb m (hjl.trans hlm) hmn).symm
    exact (ih (m.le_succ.trans hmn)).trans hstep.le

theorem nextCycleEnd_period (hj : j < n) : nextCycleEnd (b j) (b n) interval count = b (j + 1) := by
  simp only [nextCycleEnd]
  rw [← hb j le_rfl hj]
  rcases eq_or_lt_of_le (succ_le_of_lt hj) with hlast | hmore
  · -- this period is the last one
    rw [← hlast, if_pos lt_addInterval]
  · rw [← hb (j + 1) j.le_succ hmore]
    exact if_neg (not_lt.mpr (periods_le hb (j.le_add_right 2) hmore le_rfl))

/-- **A roll lands on the paid period that contains it.** -/
theorem cycleRollWindow_period {k : ℕ} (hjk : j ≤ k)
    (hk : k < n) (hle : b k ≤ now) (hlt : now < b (k + 1)) :
    cycleRollWindow (b j) (b n) now interval count = (b k, b (k + 1)) := by
  induction hjk using decreasingInduction with
  | self =>
    rw [cycleRollWindow, nextCycleEnd_period hb hk]
    exact dif_neg fun h => not_lt.mpr h.1 hlt
  | of_succ i hi ih =>
    have hb' : ∀ l, i + 1 ≤ l → l < n → b (l + 1) = addInterval (b l) interval count := fun l hl =>
      hb l (i.le_succ.trans hl)
    have hnext : b (i + 1) ≤ b k := periods_le hb' le_rfl hi hk.le
    have hend : b (k + 1) ≤ b n := periods_le hb' (succ_le_succ hi.le) hk le_rfl
    rw [cycleRollWindow, nextCycleEnd_period hb (hi.trans hk),
      dif_pos ⟨hnext.trans hle, (hnext.trans hle).trans_lt (hlt.trans_le hend)⟩]
    exact ih hb'

end

theorem exists_period (hjn : j ≤ n) (hle : b j ≤ now) (hlt : now < b n) :
    ∃ k, j ≤ k ∧ k < n ∧ b k ≤ now ∧ now < b (k + 1) := by
  induction n, hjn using le_induction with
  | base => exact absurd (hle.trans_lt hlt) (lt_irrefl _)
  | succ n hjn ih =>
    by_cases hbefore : now < b n
    · obtain ⟨k, hjk, hk, h⟩ := ih hbefore
      exact ⟨k, hjk, hk.trans n.lt_succ_self, h⟩
    · exact ⟨n, hjn, n.lt_succ_self, not_lt.mp hbefore, hlt⟩

end Periods

end Pandora.Subscriptions
