import Mathlib.Data.List.TakeWhile
import Pandora.Foundation.Runs
import Pandora.Subscriptions.Grants

/-!
# A subscription rescued again and again

An extension of a subscription that is over takes its cycle up again, and adds to the limit of the
cycle what the days are worth.  It goes by the limit that the row has, not by that of the plan: what
an earlier rescue added counts again in the next one.

`Rescues` is a sequence of such extensions with nothing in between, and `rescuedLimit` what each of
them makes of the limit.
-/

namespace Pandora.Subscriptions

open Calendar Runs List Option Int Entitlement

/-- An extension by some days. -/
structure Extension where
  now : ℤ
  days : ℕ

/-- Extensions one after another, each of a subscription that is over, while a cycle has the same
length. -/
def Entitlement.Rescues (cycle : ℤ) : Entitlement → List Extension → Entitlement → Prop
  | m, [], m' => m' = m
  | m, x :: calls, m' =>
    m.periodEnd ≤ x.now ∧ cycleLength x.now m.interval m.intervalCount = cycle ∧
      ∃ next, m.extend x.now x.days = .ok next ∧ next.Rescues cycle calls m'

/-- The limit of a row after a rescue. -/
def rescuedLimit (cycle : ℤ) (l days : ℕ) : ℕ :=
  let add := proratedQuota l days cycle
  if 0 < add ∧ add ≤ maxInt64 - l then l + add else l

/-- The limit after a number of them. -/
def rescuedLimits (cycle : ℤ) (l : ℕ) (calls : List ℕ) : ℕ := calls.foldl (rescuedLimit cycle) l

/-- What the days of a cycle are worth. -/
def share (cycle : ℤ) (l days : ℕ) : ℤ := l * (days * dayLength) / cycle

/-- What a limit has grown by is worth nothing in these days; where the sum is too large to be
stored, so that nothing is added, the days are worth nothing themselves. -/
def Worthless (cycle : ℤ) (limit l days : ℕ) : Prop :=
  if l + share cycle l days ≤ maxInt64 then
    (limit * (days * dayLength)) % cycle + (l - limit) * (days * dayLength) < cycle
  else limit * (days * dayLength) < cycle

instance (cycle : ℤ) (limit l days : ℕ) : Decidable (Worthless cycle limit l days) := by
  unfold Worthless
  infer_instance

/-! ## The row -/

variable {calls : List Extension} {i : ℕ}

section Row

variable {cycle : ℤ} {m m' : Entitlement} {x : Extension} {q : StoredQuota}

/-- A rescue moves the end of the row with that of the subscription, and its limit grows. -/
theorem Entitlement.rescued_row (hover : m.periodEnd ≤ x.now)
    (hcycle : cycleLength x.now m.interval m.intervalCount = cycle)
    (hextend : m.extend x.now x.days = .ok m') (hq : m.quotas[i]? = some q)
    (hperiod : q.1.period = .cycle) (hend : q.1.periodEnd = some m.periodEnd) :
    ∃ q', m'.quotas[i]? = some q' ∧ q'.1.period = .cycle ∧ q'.1.periodEnd = some m'.periodEnd ∧
      q'.1.limit = q.1.limit.map fun l => rescuedLimit cycle l x.days := by
  obtain ⟨-, -, -, -, -, hend', hquotas⟩ := extend_ok hextend
  have hrow := congrArg (fun rows : List QuotaRow => rows[i]?) hquotas
  simp only [List.getElem?_map, hq, map_some] at hrow
  obtain ⟨q', hq', hrow⟩ := map_eq_some_iff.mp hrow
  have hmoves : (m.extending x.now x.days).Moves q.1 := ⟨hperiod, hend⟩
  have hlimit : ∀ l, (m.extending x.now x.days).limit l = rescuedLimit cycle l x.days := by
    intro l
    rw [Extending.limit, rescuedLimit, extending, extendBase, if_pos hover]
    rw [hcycle]
    simp only [Bool.true_or, true_and]
  refine ⟨q', hq', ?_⟩
  rw [hrow]
  rw [Extending.row, if_pos hmoves]
  exact ⟨hperiod, congrArg some hend'.symm, congrArg (Option.map · q.1.limit) (funext hlimit)⟩

theorem Entitlement.Rescues.row (hrun : m.Rescues cycle calls m')
    (hq : m.quotas[i]? = some q) (hperiod : q.1.period = .cycle)
    (hend : q.1.periodEnd = some m.periodEnd) {l : ℕ} (hlimit : q.1.limit = some l) :
    ∃ q', m'.quotas[i]? = some q' ∧
      q'.1.limit = some (rescuedLimits cycle l (calls.map (·.days))) := by
  induction calls generalizing m q l with
  | nil =>
    obtain rfl := hrun
    exact ⟨q, hq, hlimit⟩
  | cons x calls ih =>
    obtain ⟨hover, hcycle, next, hextend, hrest⟩ := hrun
    obtain ⟨q₁, hq₁, hperiod₁, hend₁, hlimit₁⟩ :=
      rescued_row hover hcycle hextend hq hperiod hend
    rw [hlimit, map_some] at hlimit₁
    exact ih hrest hq₁ hperiod₁ hend₁ hlimit₁

end Row

/-! ## The limit -/

section Limit

variable {cycle : ℤ} {limit l days : ℕ}

section

variable (hcycle : 0 < cycle)
include hcycle

theorem share_nonneg (l days : ℕ) : 0 ≤ share cycle l days := by
  have hlength : 0 ≤ days * dayLength := mul_nonneg (natCast_nonneg days) (by decide)
  exact ediv_nonneg (mul_nonneg (natCast_nonneg l) hlength) hcycle.le

theorem rescuedLimit_eq (hl : l ≤ maxInt64) (hdays : 1 ≤ days) : (rescuedLimit cycle l days : ℤ) =
      if l + share cycle l days ≤ maxInt64 then l + share cycle l days else l := by
  have hnonneg := share_nonneg hcycle l days
  have hprorated : l ≠ 0 → proratedQuota l days cycle =
      if (share cycle l days).toNat ≤ maxInt64 then (share cycle l days).toNat else 0 := by
    intro hl0
    rw [proratedQuota, share, if_neg (by omega)]
  simp only [rescuedLimit]
  by_cases hl0 : l = 0
  · subst hl0
    have hshare : share cycle 0 days = 0 := by simp [share]
    rw [hshare]
    simp [proratedQuota]
  · rw [hprorated hl0]
    unfold maxInt64 at *
    split_ifs <;> omega

theorem share_eq_iff (hle : limit ≤ l) (days : ℕ) : share cycle l days = share cycle limit days ↔
      (limit * (days * dayLength)) % cycle + (l - limit) * (days * dayLength) < cycle := by
  have hsplit : (l : ℤ) * (days * dayLength) =
      limit * (days * dayLength) + (l - limit) * (days * dayLength) := by ring
  have hmore : (0 : ℤ) ≤ (l - limit) * (days * dayLength) := by
    have hlength : 0 ≤ days * dayLength := mul_nonneg (natCast_nonneg days) (by decide)
    exact mul_nonneg (by omega) hlength
  unfold share
  rw [hsplit]
  generalize (limit : ℤ) * (days * dayLength) = X
  generalize ((l : ℤ) - limit) * (days * dayLength) = E at hmore
  have hX := mul_ediv_add_emod X cycle
  have hXE := mul_ediv_add_emod (X + E) cycle
  constructor
  · intro h
    rw [h] at hXE
    have hlt := emod_lt_of_pos (X + E) hcycle
    linarith
  · intro h
    have hpos := emod_nonneg X hcycle.ne'
    refine ((Int.ediv_emod_unique (r := X % cycle + E) hcycle).mpr ⟨?_, by omega, h⟩).1
    linarith

/-- A rescue adds what the limit of the plan is worth exactly if what came before is worth
nothing. -/
theorem rescuedLimit_eq_iff (hle : limit ≤ l) (hl : l ≤ maxInt64) (hdays : 1 ≤ days) :
    (rescuedLimit cycle l days : ℤ) = l + share cycle limit days ↔
      Worthless cycle limit l days := by
  rw [rescuedLimit_eq hcycle hl hdays]
  unfold Worthless
  split_ifs
  · rw [← share_eq_iff hcycle hle]
    constructor <;> intro h <;> omega
  · have hnonneg := share_nonneg hcycle limit days
    have hlt : share cycle limit days < 1 ↔ (limit : ℤ) * (days * dayLength) < 1 * cycle :=
      Int.ediv_lt_iff_lt_mul hcycle
    rw [one_mul] at hlt
    rw [← hlt]
    constructor <;> intro h <;> omega

end

theorem rescuedLimits_cons (cycle : ℤ) (l d : ℕ) (calls : List ℕ) :
    rescuedLimits cycle l (d :: calls) = rescuedLimits cycle (rescuedLimit cycle l d) calls := rfl

theorem rescuedLimit_bounds (hcycle : 0 < cycle) (hl : l ≤ maxInt64) (hdays : 1 ≤ days) :
    l ≤ rescuedLimit cycle l days ∧ rescuedLimit cycle l days ≤ maxInt64 := by
  have heq := rescuedLimit_eq hcycle hl hdays
  have hnonneg := share_nonneg hcycle l days
  split_ifs at heq <;> omega

/-- A number of rescues add what the limit of the plan is worth, and so does every first part of
them, exactly if what came before is worth nothing each time. -/
theorem foldl_rescuedLimit_iff (hcycle : 0 < cycle) {calls : List ℕ} (hcalls : ∀ d ∈ calls, 1 ≤ d)
    (hle : limit ≤ l) (hl : l ≤ maxInt64) :
    (∀ k ≤ calls.length, (rescuedLimits cycle l (calls.take k) : ℤ) =
        l + ((calls.take k).map (share cycle limit)).sum) ↔
      Along (rescuedLimit cycle) (Worthless cycle limit) l calls := by
  induction calls generalizing l with
  | nil => simp [Along, rescuedLimits]
  | cons d calls ih =>
    obtain ⟨hd, hcalls⟩ := forall_mem_cons.mp hcalls
    obtain ⟨hmore, hmost⟩ := rescuedLimit_bounds hcycle hl hd
    have hfirst := rescuedLimit_eq_iff hcycle hle hl hd
    have hrest := ih hcalls (hle.trans hmore) hmost
    rw [Along, ← hfirst, ← hrest]
    constructor
    · intro h
      have hone : (rescuedLimit cycle l d : ℤ) = l + share cycle limit d := by
        have := h 1 (by simp)
        simpa [rescuedLimits] using this
      refine ⟨hone, fun k hk => ?_⟩
      have hnext := h (k + 1) (Nat.succ_le_succ hk)
      rw [take_succ_cons, rescuedLimits_cons, map_cons, sum_cons] at hnext
      rw [hnext, hone]
      ring
    · rintro ⟨hone, h⟩ k hk
      cases k with
      | zero => simp [rescuedLimits]
      | succ k =>
        rw [take_succ_cons, rescuedLimits_cons, map_cons, sum_cons,
          h k (Nat.le_of_succ_le_succ hk), hone]
        ring

theorem sum_share_le (hcycle : 0 < cycle) (limit : ℕ) (calls : List ℕ) :
    (calls.map (share cycle limit)).sum ≤ share cycle limit calls.sum := by
  induction calls with
  | nil => simp [share]
  | cons d calls ih =>
    rw [map_cons, sum_cons, sum_cons]
    have hadd : share cycle limit d + share cycle limit calls.sum ≤
        share cycle limit (d + calls.sum) := by
      unfold share
      rw [Int.le_ediv_iff_mul_le hcycle, add_mul]
      have h₁ := Int.ediv_mul_le (limit * (d * dayLength)) hcycle.ne'
      have h₂ := Int.ediv_mul_le (limit * ((calls.sum : ℕ) * dayLength)) hcycle.ne'
      push_cast at h₁ h₂ ⊢
      linarith
    exact (Int.add_le_add_left ih _).trans hadd

end Limit

/-! ## All of them -/

theorem Entitlement.Rescues.days_pos {cycle : ℤ} {m m' : Entitlement}
    (hrun : m.Rescues cycle calls m') : ∀ d ∈ calls.map (·.days), 1 ≤ d := by
  induction calls generalizing m with
  | nil => simp
  | cons x calls ih =>
    obtain ⟨-, -, next, hextend, hrest⟩ := hrun
    rw [map_cons]
    exact forall_mem_cons.mpr ⟨days_of_extend hextend, ih hrest⟩

/-- **What rescues add is in proportion to their days exactly if what earlier ones added is worth
nothing in the later ones.** -/
theorem Entitlement.rescues_proportional_iff {cycle : ℤ} (hcycle : 0 < cycle) {m m' : Entitlement}
    {calls : List Extension} (hrun : m.Rescues cycle calls m') {i : ℕ} {q : StoredQuota}
    (hq : m.quotas[i]? = some q) (hperiod : q.1.period = .cycle)
    (hend : q.1.periodEnd = some m.periodEnd) {limit : ℕ} (hlimit : q.1.limit = some limit) :
    (∃ q', m'.quotas[i]? = some q' ∧
      q'.1.limit = some (rescuedLimits cycle limit (calls.map (·.days)))) ∧
    ((∀ k ≤ calls.length, (rescuedLimits cycle limit ((calls.map (·.days)).take k) : ℤ) =
        limit + (((calls.map (·.days)).take k).map (share cycle limit)).sum) ↔
      Along (rescuedLimit cycle) (Worthless cycle limit) limit (calls.map (·.days))) ∧
    (Along (rescuedLimit cycle) (Worthless cycle limit) limit (calls.map (·.days)) →
      (rescuedLimits cycle limit (calls.map (·.days)) : ℤ) ≤
        limit + share cycle limit (calls.map (·.days)).sum) := by
  have hmost : limit ≤ maxInt64 :=
    (Nat.le_add_right limit q.1.bonus).trans (q.2.remaining limit hlimit)
  have hiff := foldl_rescuedLimit_iff hcycle hrun.days_pos le_rfl hmost
  rw [length_map] at hiff
  refine ⟨hrun.row hq hperiod hend hlimit, hiff, fun hsmall => ?_⟩
  have htotal := hiff.mpr hsmall calls.length le_rfl
  rw [take_of_length_le (by rw [length_map])] at htotal
  rw [htotal]
  exact Int.add_le_add_left (sum_share_le hcycle limit _) _

/-- A plan of three hundred bytes for thirty days that is over. -/
def sampleLapsed : Entitlement where
  id := 1
  userId := 2
  planId := 3
  kind := .subscription
  status := .active
  periodStart := 0
  periodEnd := 30 * dayLength
  renewalClosedAt := none
  interval := .day
  intervalCount := 30
  quotas := [⟨⟨4, .traffic, .cycle, 0, some (30 * dayLength), some 300, 0, 0⟩, by decide +kernel⟩]
  ordered := by decide

theorem rescued_by_days : (rescuedLimits (30 * dayLength) 300 [1, 1] : ℤ) =
    300 + (10 + (10 + 0)) := by
  have hrun : ∃ m', sampleLapsed.Rescues (30 * dayLength)
      [⟨30 * dayLength, 1⟩, ⟨31 * dayLength, 1⟩] m' :=
    ⟨_, by decide, by decide +kernel, _, rfl, by decide, by decide +kernel, _, rfl, rfl⟩
  obtain ⟨m', hrun⟩ := hrun
  have h := (rescues_proportional_iff (by decide) hrun
    (show sampleLapsed.quotas[0]? = some _ from rfl) rfl rfl rfl).2.1.mpr
    (by decide +kernel) 2 le_rfl
  exact h

/-- Rescued twice for ten days: a hundred bytes, and then a hundred and thirty-three. -/
theorem rescued_beyond : ∃ m', sampleLapsed.Rescues (30 * dayLength)
      [⟨30 * dayLength, 10⟩, ⟨40 * dayLength, 10⟩] m' ∧ m'.quotas.map (·.1.limit) = [some 533] ∧
    300 + ([10, 10].map (share (30 * dayLength) 300)).sum = 500 ∧
    300 + share (30 * dayLength) 300 20 = 500 :=
  ⟨_, ⟨by decide, by decide +kernel, _, rfl, by decide, by decide +kernel, _, rfl, rfl⟩,
    by decide +kernel, by decide +kernel, by decide +kernel⟩

end Pandora.Subscriptions
