import Pandora.Foundation.Runs
import Pandora.Subscriptions.Rolls

/-!
# Cycles that have been paid for

A subscription that is renewed before it ends has several periods ahead of it, and its cycle row is
rolled from one to the next.  The ends of the periods are not stored: the roll finds them again from
the end of the row and the interval of the latest purchase.

If all purchases have one interval, that leads to the periods that were paid for, whether the roll
comes at every boundary or has been away.  If they have not, it does so only as long as the periods
still to come have the interval of the latest one (`Cycles.Fits`).
-/

namespace Pandora.Subscriptions

open Runs List Function Nat

/-! ## One interval -/

/-- The ends of periods of one interval, one after another. -/
def paidUntil (s : ℤ) (interval : Interval) (count : ℤ) (j : ℕ) : ℤ :=
  (fun t : ℤ => (addInterval t interval count : ℤ))^[j] s

theorem paidUntil_succ (s : ℤ) (interval : Interval) (count : ℤ) (j : ℕ) :
    paidUntil s interval count (j + 1) =
      addInterval (paidUntil s interval count j) interval count :=
  iterate_succ_apply' _ j s

theorem strictMono_paidUntil (s : ℤ) (interval : Interval) (count : ℤ) :
    StrictMono (paidUntil s interval count) :=
  strictMono_nat_of_lt_succ fun j =>
    lt_addInterval.trans_eq (paidUntil_succ s interval count j).symm

/-- What `RollQuotas` makes of the window of a cycle row: nothing, unless it is over and the
subscription is not. -/
def rollCycle (subEnd : ℤ) (interval : Interval) (count : ℤ) (w : ℤ × ℤ) (now : ℤ) : ℤ × ℤ :=
  if now < subEnd ∧ w.2 ≤ now ∧ w.2 < subEnd then cycleRollWindow w.2 subEnd now interval count
    else w

variable {s : ℤ} {interval : Interval} {count : ℤ} {k : ℕ}

theorem rollCycle_period {i j : ℕ} (hij : i ≤ j) (hj : j ≤ k) {now : ℤ}
    (hle : paidUntil s interval count j ≤ now) (hlt : now < paidUntil s interval count (j + 1)) :
    rollCycle (paidUntil s interval count (k + 1)) interval count
        (paidUntil s interval count i, paidUntil s interval count (i + 1)) now =
      (paidUntil s interval count j, paidUntil s interval count (j + 1)) := by
  have hmono := strictMono_paidUntil s interval count
  unfold rollCycle
  rcases eq_or_lt_of_le hij with rfl | hij
  · exact if_neg fun h => not_lt.mpr h.2.1 hlt
  · have hdue : paidUntil s interval count (i + 1) ≤ now := (hmono.monotone hij).trans hle
    have hlive : now < paidUntil s interval count (k + 1) :=
      hlt.trans_le (hmono.monotone (succ_le_succ hj))
    rw [if_pos ⟨hlive, hdue, hdue.trans_lt hlive⟩]
    exact cycleRollWindow_period (fun l _ _ => paidUntil_succ s interval count l) hij
      (lt_succ_of_le hj) hle hlt

/-- **Cycles of one interval.**  A subscription that was bought at `s` and renewed `k` times, always
for the same interval, is rolled at some times before it ends.  The window is the paid period of the
last of them, the one that a single roll at that time gives; the last period ends with the
subscription. -/
theorem rolled_to_paid_period (s : ℤ) (interval : Interval) (count : ℤ) (k : ℕ) (times : List ℤ)
    (hbegun : ∀ t ∈ times, s ≤ t) (hlive : ∀ t ∈ times, t < paidUntil s interval count (k + 1))
    (hsorted : times.Pairwise (· ≤ ·)) :
    ∃ j ≤ k, times.foldl (rollCycle (paidUntil s interval count (k + 1)) interval count)
        (s, paidUntil s interval count 1) =
        (paidUntil s interval count j, paidUntil s interval count (j + 1)) ∧
      paidUntil s interval count (j + 1) ≤ paidUntil s interval count (k + 1) ∧
      ∀ t ∈ times.getLast?, paidUntil s interval count j ≤ t ∧
        t < paidUntil s interval count (j + 1) ∧ (paidUntil s interval count k ≤ t → j = k) ∧
        rollCycle (paidUntil s interval count (k + 1)) interval count
          (s, paidUntil s interval count 1) t =
            (paidUntil s interval count j, paidUntil s interval count (j + 1)) := by
  have hmono := strictMono_paidUntil s interval count
  induction times using reverseRecOn with
  | nil => exact ⟨0, k.zero_le, rfl, hmono.monotone (succ_le_succ k.zero_le), nofun⟩
  | append_singleton times t ih =>
    rw [forall_mem_append, forall_mem_singleton] at hbegun hlive
    rw [pairwise_append] at hsorted
    obtain ⟨i, hi, heq, -, hlast⟩ := ih hbegun.1 hlive.1 hsorted.1
    obtain ⟨j, -, hj, hle, hlt⟩ := exists_period (k + 1).zero_le hbegun.2 hlive.2
    -- the period of the rolls so far is not a later one
    have hbefore : paidUntil s interval count i ≤ t := by
      cases hsome : times.getLast? with
      | none =>
        obtain rfl := getLast?_eq_none_iff.mp hsome
        exact (congrArg Prod.fst heq).symm.trans_le hbegun.2
      | some t' =>
        have hle : t' ≤ t := hsorted.2.2 t' (mem_of_getLast? hsome) t (mem_singleton_self t)
        exact (hlast t' hsome).1.trans hle
    have hij : i ≤ j := le_of_lt_succ (hmono.lt_iff_lt.mp (hbefore.trans_lt hlt))
    have hjk := le_of_lt_succ hj
    refine ⟨j, hjk, ?_, hmono.monotone (succ_le_succ hjk), fun t' ht' => ?_⟩
    · rw [foldl_append, heq]
      exact rollCycle_period hij hjk hle hlt
    · rw [getLast?_concat] at ht'
      obtain rfl := Option.some.inj ht'
      refine ⟨hle, hlt, fun hlater => ?_, rollCycle_period j.zero_le hjk hle hlt⟩
      exact hjk.antisymm (le_of_lt_succ (hmono.lt_iff_lt.mp (hlater.trans_lt hlt)))

/-- The last boundary and the ones in between: a subscription for three months, rolled late. -/
theorem rolled_in_march : ∃ j ≤ 2, [40 * Calendar.dayLength, 62 * Calendar.dayLength].foldl
    (rollCycle (paidUntil 0 .month 1 3) .month 1) (0, paidUntil 0 .month 1 1) =
      (paidUntil 0 .month 1 j, paidUntil 0 .month 1 (j + 1)) ∧
    paidUntil 0 .month 1 j ≤ 62 * Calendar.dayLength := by
  obtain ⟨j, hj, heq, -, hlast⟩ := rolled_to_paid_period 0 .month 1 2
    [40 * Calendar.dayLength, 62 * Calendar.dayLength] (by decide +kernel) (by decide +kernel)
    (by decide +kernel)
  exact ⟨j, hj, heq, (hlast _ rfl).1⟩

/-! ## Different intervals -/

/-- A cycle row. -/
structure CycleRow where
  start : ℤ
  end_ : ℤ
  limit : Option ℕ
  consumed : ℕ
  bonus : ℕ

def CycleRow.window (r : CycleRow) : ℤ × ℤ := (r.start, r.end_)

/-- A row that is written in its period, with all that the version allows. -/
def CycleRow.Full (limit : ℤ → Option ℕ) (r : CycleRow) (t : ℤ) : Prop :=
  r.start ≤ t ∧ t < r.end_ ∧ r.limit = limit t ∧ r.consumed = 0 ∧ r.bonus = 0

/-- A subscription with its cycle row.  Where the periods that were paid for begin and end, and the
rows that have been written, with the time of each, are not read by a step. -/
structure Cycles where
  clock : ℤ
  subEnd : ℤ
  interval : Interval
  count : ℤ
  row : CycleRow
  bound : ℕ → ℤ
  paid : ℕ
  begun : List (ℤ × CycleRow)

namespace Cycles

/-- The paid periods. -/
def periods (c : Cycles) (n : ℕ) : List (ℤ × ℤ) :=
  (range n).map fun j => (c.bound j, c.bound (j + 1))

/-- `quotaRollDueWhere`, of a cycle row. -/
def Due (c : Cycles) : Prop :=
  c.clock < c.subEnd ∧ c.row.end_ ≤ c.clock ∧ c.row.end_ < c.subEnd

instance (c : Cycles) : Decidable c.Due := inferInstanceAs (Decidable (_ ∧ _ ∧ _))

inductive Label
  | wait (d : ℕ)
  | renew (price : PriceSnapshot)
  | roll
  | use (consumed bonus : ℕ)

variable (limit : ℤ → Option ℕ)

/-- `Provision`; `limit` is what the version of the plan allows at a time. -/
def provision (s : ℤ) (p : PriceSnapshot) : Cycles :=
  let end_ : ℤ := periodEndFor s p
  ⟨s, end_, p.interval, p.intervalCount, ⟨s, end_, limit s, 0, 0⟩,
    fun j => if j = 0 then s else end_, 1, [(s, ⟨s, end_, limit s, 0, 0⟩)]⟩

def next (c : Cycles) : Label → Cycles
  | .wait d => { c with clock := c.clock + d }
  | .use consumed bonus => { c with row := { c.row with consumed := consumed, bonus := bonus } }
  | .renew p =>
    let base := renewalBase c.subEnd c.clock none
    -- after the end a new subscription begins, as it were
    if base.2 = true then c
    else
      { c with
        subEnd := periodEndFor base.1 p
        interval := p.interval
        count := p.intervalCount
        bound := update c.bound (c.paid + 1) (periodEndFor base.1 p)
        paid := c.paid + 1 }
  | .roll =>
    if c.Due then
      let w := cycleRollWindow c.row.end_ c.subEnd c.clock c.interval c.count
      let row : CycleRow := ⟨w.1, w.2, limit c.clock, 0, 0⟩
      { c with row := row, begun := c.begun ++ [(c.clock, row)] }
    else c

/-- The cycles of a new subscription end with it. -/
theorem subEnd_provision {now : Time} {v : Version} {p : PriceSnapshot} {orderId : Option UUID}
    {m : Subscription} (h : Subscriptions.provision now v p orderId = .ok m) :
    (provision limit now p).subEnd = m.periodEnd := by
  obtain ⟨_, -, h⟩ := except_bind_eq_ok.mp h
  cases h
  rfl

/-- A renewal moves both ends alike, if it is paid before them. -/
theorem subEnd_renew {c : Cycles} {m m' : Subscription} {now : Time} {v : Version} {r : Renewal}
    (h : m.renew now v r = .ok m') (hend : c.subEnd = m.periodEnd)
    (hclock : c.clock = Time.truncate r.paidAt) (hbefore : c.clock < c.subEnd) :
    (c.next limit (.renew r.price)).subEnd = m'.periodEnd := by
  have hcycles : renewalBase c.subEnd c.clock none = (c.subEnd, false) := if_pos hbefore
  have hrow : renewalBase m.periodEnd (Time.truncate r.paidAt) r.orderCreatedAt =
      (m.periodEnd, false) := if_pos (hclock ▸ hend ▸ hbefore)
  obtain ⟨_, -, h⟩ := except_bind_eq_ok.mp h
  obtain ⟨_, -, h⟩ := except_bind_eq_ok.mp h
  obtain ⟨_, -, h⟩ := except_bind_eq_ok.mp h
  simp only [hrow] at h
  cases h
  simp only [next, hcycles]
  rw [hend]
  rfl

/-- **When this holds**: a roll is made before a period has gone by without one, and all periods
still to come have the interval of the latest purchase. -/
def Fits (c : Cycles) : Label → Prop
  | .roll => c.Due → ∀ k < c.paid, c.row.end_ ≤ c.bound k →
      c.clock < c.bound (k + 1) ∧ c.bound (k + 1) = addInterval (c.bound k) c.interval c.count
  | _ => True

instance (c : Cycles) : DecidablePred c.Fits
  | .roll => inferInstanceAs (Decidable (_ → ∀ k < c.paid, _ → _ ∧ ((_ : ℤ) = _)))
  | .wait _ | .renew _ | .use .. => .isTrue trivial

/-- **Every paid period has its own quota.**  The rows that have been written are the paid periods
in order, each full, and a roll leads to the period of its time. -/
structure OwnQuota (c : Cycles) : Prop where
  inOrder : (c.begun.map fun x => x.2.window) <+: c.periods c.paid
  full : ∀ x ∈ c.begun, x.2.Full limit x.1
  rolls : c.clock < c.subEnd → c.Fits .roll →
    (c.next limit .roll).row.start ≤ c.clock ∧ c.clock < (c.next limit .roll).row.end_

structure Inv (c : Cycles) : Prop where
  aligned : (1000 : ℤ) ∣ c.subEnd
  last : c.bound c.paid = c.subEnd
  grows : ∀ j < c.paid, c.bound j < c.bound (j + 1)
  current : ∃ j < c.paid, c.row.window = (c.bound j, c.bound (j + 1)) ∧
    (c.begun.map fun x => x.2.window) = c.periods (j + 1)
  begun : c.row.start ≤ c.clock
  full : ∀ x ∈ c.begun, x.2.Full limit x.1

variable {limit} {c : Cycles}

theorem Inv.rolled (h : c.Inv limit) (hfits : c.Fits .roll) (hdue : c.Due) {j : ℕ} (hj : j < c.paid)
    (hrow : c.row.window = (c.bound j, c.bound (j + 1))) : j + 1 < c.paid ∧
      cycleRollWindow c.row.end_ c.subEnd c.clock c.interval c.count =
        (c.bound (j + 1), c.bound (j + 2)) ∧ c.bound (j + 1) ≤ c.clock ∧
          c.clock < c.bound (j + 2) := by
  obtain ⟨-, hdone, hlast⟩ := id hdue
  have hend : c.row.end_ = c.bound (j + 1) := congrArg Prod.snd hrow
  have hnext : j + 1 < c.paid := by
    refine lt_of_le_of_ne hj fun heq => hlast.ne ?_
    rw [hend, heq, h.last]
  have hgrows : ∀ k, j + 1 ≤ k → k < c.paid → c.bound (j + 1) ≤ c.bound k := by
    intro k hjk
    induction k, hjk using le_induction with
    | base => exact fun _ => le_rfl
    | succ k _ ih =>
      intro hk
      have hk' := k.lt_succ_self.trans hk
      exact (ih hk').trans (h.grows k hk').le
  have hlt : c.clock < c.bound (j + 2) := (hfits hdue (j + 1) hnext hend.le).1
  rw [hend] at hdone
  refine ⟨hnext, ?_, hdone, hlt⟩
  rw [hend, ← h.last]
  refine cycleRollWindow_period (fun k hjk hk => ?_) le_rfl hnext hdone hlt
  exact (hfits hdue k hk (hend.trans_le (hgrows k hjk hk))).2

theorem Inv.provision {s : ℤ} (hs : (1000 : ℤ) ∣ s) (p : PriceSnapshot) :
    (Cycles.provision limit s p).Inv limit := by
  obtain ⟨hdvd, hlt⟩ := periodEndFor_spec hs p
  refine ⟨hdvd, rfl, fun j hj => ?_, ⟨0, one_pos, rfl, rfl⟩, le_rfl, fun x hx => ?_⟩
  · obtain rfl := lt_one_iff.mp hj
    exact hlt
  · obtain rfl := mem_singleton.mp hx
    exact ⟨le_rfl, hlt, rfl, rfl, rfl⟩

theorem Inv.next {l : Label} (h : c.Inv limit) (hfits : c.Fits l) : (c.next limit l).Inv limit := by
  obtain ⟨j, hj, hrow, hbegun⟩ := h.current
  cases l with
  | wait d => exact { h with begun := h.begun.trans (Int.le_add_of_nonneg_right d.cast_nonneg) }
  | use => exact { h with }
  | renew p =>
    rw [Cycles.next]
    split
    · exact h
    · rename_i hearly
      have hbase : (renewalBase c.subEnd c.clock none).1 = c.subEnd := by
        unfold renewalBase at hearly ⊢
        split
        · rfl
        · simp_all
      obtain ⟨hdvd, hlt⟩ := periodEndFor_spec h.aligned p
      have hold : ∀ i ≤ c.paid, update c.bound (c.paid + 1)
          (periodEndFor (renewalBase c.subEnd c.clock none).1 p) i = c.bound i := fun i hi =>
        update_of_ne (lt_succ_of_le hi).ne _ _
      rw [hbase] at hold ⊢
      refine ⟨hdvd, update_self .., fun i hi => ?_, ⟨j, hj.trans c.paid.lt_succ_self, ?_, ?_⟩,
        h.begun, h.full⟩
      · dsimp only at hi ⊢
        rw [hold i (le_of_lt_succ hi)]
        rcases Nat.lt_succ_iff_lt_or_eq.mp hi with hi | rfl
        · rw [hold (i + 1) hi]
          exact h.grows i hi
        · rw [update_self, h.last]
          exact hlt
      · rw [hrow]
        dsimp only
        rw [hold j hj.le, hold (j + 1) hj]
      · rw [hbegun]
        refine map_congr_left fun i hi => ?_
        have hi := mem_range.mp hi
        dsimp only
        rw [hold i (by omega), hold (i + 1) (by omega)]
  | roll =>
    rw [Cycles.next]
    split
    · rename_i hdue
      obtain ⟨hnext, hw, hle, hlt⟩ := h.rolled hfits hdue hj hrow
      rw [hw]
      refine ⟨h.aligned, h.last, h.grows, ⟨j + 1, hnext, rfl, ?_⟩, hle, ?_⟩
      · rw [map_append, hbegun]
        unfold periods
        rw [range_succ (n := j + 1), map_append]
        rfl
      · exact forall_mem_append.mpr ⟨h.full, forall_mem_singleton.mpr ⟨hle, hlt, rfl, rfl, rfl⟩⟩
    · exact h

theorem Inv.ownQuota (h : c.Inv limit) : c.OwnQuota limit := by
  obtain ⟨j, hj, hrow, hbegun⟩ := h.current
  refine ⟨?_, h.full, fun hlive hfits => ?_⟩
  · rw [hbegun]
    obtain ⟨n, hn⟩ := Nat.exists_eq_add_of_le (succ_le_of_lt hj)
    unfold periods
    rw [hn, range_add (n := j + 1), map_append]
    exact prefix_append _ _
  · rw [Cycles.next]
    split
    · rename_i hdue
      obtain ⟨-, hw, hle, hlt⟩ := h.rolled hfits hdue hj hrow
      rw [hw]
      exact ⟨hle, hlt⟩
    · rename_i hdue
      refine ⟨h.begun, not_le.mp fun hdone => hdue ⟨hlive, hdone, hdone.trans_lt hlive⟩⟩

/-- **Paid cycles.**  Whatever intervals were paid for, every paid period has its own quota, as long
as the rolls fit. -/
theorem ownQuota_of_fits {s : ℤ} (hs : (1000 : ℤ) ∣ s) (p : PriceSnapshot) (labels : List Label)
    (hfits : Along (next limit) Fits (provision limit s p) labels) :
    (labels.foldl (next limit) (provision limit s p)).OwnQuota limit :=
  (hfits.invariant (fun _ _ => Inv.next) (Inv.provision hs p)).ownQuota

def month : PriceSnapshot := ⟨none, 0, .month, 1, none⟩

def year : PriceSnapshot := ⟨none, 0, .year, 1, none⟩

/-- Two months and a year, all paid before the first month is over.  The roll after it takes the
second month and the year for one period. -/
def yearAhead : List Label :=
  [.renew month, .renew year, .wait (31 * 24 * 60 * 60 * 1000000000), .roll]

theorem not_ownQuota_yearAhead : ¬ (yearAhead.foldl (next fun _ => some 100)
    (provision (fun _ => some 100) 0 month)).OwnQuota fun _ => some 100 := by
  intro h
  exact absurd h.inOrder (by decide +kernel)

/-- Three months fit, with some use between two rolls. -/
def monthsAhead : List Label :=
  [.renew month, .renew month, .use 7 3, .wait (31 * 24 * 60 * 60 * 1000000000), .roll,
    .wait (31 * 24 * 60 * 60 * 1000000000), .roll]

theorem ownQuota_monthsAhead : (monthsAhead.foldl (next fun _ => some 100)
    (provision (fun _ => some 100) 0 month)).OwnQuota fun _ => some 100 :=
  ownQuota_of_fits (by decide) _ _ (by decide +kernel)

end Cycles

end Pandora.Subscriptions
