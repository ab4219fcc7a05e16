import Pandora.Orders.Types

/-!
# What an order costs, and who pays which part

The total of an order is its subtotal less the discount and the credit of a plan
change, never below zero.  `planBalance` divides it between the user's balance
and a payment channel.  The difficulty is the channel's least payment: a rest
that the channel would refuse is moved to the balance if the balance can carry
it, otherwise the order takes less from the balance, and if neither helps the
order is refused --- except that the rest of a plan change, if it is less than one
yuan, is waived.

Whatever happens, the parts add up to the total, and as much is taken from the
balance as the user asked for and the channel allows (`balance_split`).
-/

namespace Pandora.Orders

open Money

/-- `OrderTotal`, before anything is waived. -/
def orderTotal (subtotal discount prorationCredit : ℚ) : ℚ :=
  let t := subtotal - discount - prorationCredit
  if t < 0 then 0 else t

/-- The smallest amount. -/
def oneCent : ℚ := 1 / 100

/-- An amount that may not be negative. -/
def nonNegative (x : ℚ) : ℚ := if x < 0 then 0 else x

/-- An amount that may not exceed `limit`. -/
def atMost (limit x : ℚ) : ℚ := if limit < x then limit else x

/-- `PlanBalance` after its arguments are brought into range: the rest that the
channel would refuse is moved. -/
def moveRest (due available requested minPay : ℚ) : BalancePlan :=
  let payable := due - requested
  if payable ≤ 0 then
    ⟨requested, payable, 0, 0 < due ∧ oneCent < minPay ∧ due < minPay, false, 0, false⟩
  else if minPay ≤ oneCent ∨ minPay ≤ payable then
    ⟨requested, payable, 0, false, false, 0, false⟩
  else if minPay ≤ due then
    ⟨due - minPay, minPay, requested - (due - minPay), false, false, 0, false⟩
  else if due ≤ available then
    ⟨due, 0, 0, true, false, 0, false⟩
  else
    ⟨available, due - available, 0, false, true, 0, false⟩

def planBalance (due available requested minPay : ℚ) : BalancePlan :=
  let due := nonNegative due
  let available := nonNegative available
  moveRest due available (atMost (atMost available due) (nonNegative requested)) minPay

/-- The most that is waived. -/
def maxSmallDueCents : ℤ := 99

def waiveSmallDue (b : BalancePlan) (allowed : Bool) : BalancePlan :=
  if allowed = false ∨ b.belowMinimum = false ∨ ¬0 < b.payable ∨
      fromCents maxSmallDueCents < b.payable then b
  else { b with waived := b.payable, payable := 0, belowMinimum := false, smallDue := true }

def manualDueBelowMinimum (due minPay : ℚ) : Prop := 0 < due ∧ oneCent < minPay ∧ due < minPay

instance (due minPay : ℚ) : Decidable (manualDueBelowMinimum due minPay) :=
  inferInstanceAs (Decidable (_ ∧ _))

/-- `planChangeRefund`: the credit that the new price did not use. -/
def planChangeRefund (credit subtotal discount : ℚ) : ℚ := max (credit - (subtotal - discount)) 0

/-- Ten minutes, in nanoseconds: how old a quote may be. -/
def quoteAsOfWindow : ℤ := 10 * 60 * 1000000000

def quoteTime (exp : Option Expect) (now : Time) : Except Error Time :=
  match exp.bind (·.asOf) with
  | none => .ok now
  | some asOf => do
    ensure (¬(now < asOf ∨ quoteAsOfWindow < now - asOf)) .quoteChanged
    pure asOf

def checkExpect (exp : Option Expect) (total : ℚ) (b : BalancePlan) (now : Time) :
    Except Error Unit :=
  match exp with
  | none => .ok ()
  | some e => do
    let _ ← quoteTime exp now
    ensure (e.total = total ∧ e.balanceApplied = b.applied ∧ e.payable = b.payable) .quoteChanged

/-! ## The parts add up -/

theorem nonNegative_eq (x : ℚ) : nonNegative x = max x 0 := by
  unfold nonNegative
  split_ifs with h
  · exact (max_eq_right h.le).symm
  · exact (max_eq_left (not_lt.mp h)).symm

theorem atMost_eq (limit x : ℚ) : atMost limit x = min x limit := by
  unfold atMost
  split_ifs with h
  · exact (min_eq_right h.le).symm
  · exact (min_eq_left (not_lt.mp h)).symm

/-- What `moveRest` answers, and when. -/
inductive Rest (due available requested minPay : ℚ) : BalancePlan → Prop
  | asked (forced : Bool) (h : due - requested = 0 ∨ minPay ≤ oneCent ∨ minPay ≤ due - requested) :
    Rest due available requested minPay ⟨requested, due - requested, 0, forced, false, 0, false⟩
  | kept (hcent : oneCent < minPay) (hrest : requested < due) (hlt : due - requested < minPay)
    (hdue : minPay ≤ due) : Rest due available requested minPay
      ⟨due - minPay, minPay, requested - (due - minPay), false, false, 0, false⟩
  | forced (hrest : requested < due) (hlt : due < minPay) (hdue : due ≤ available) :
    Rest due available requested minPay ⟨due, 0, 0, true, false, 0, false⟩
  | below (hcent : oneCent < minPay) (hlt : due < minPay) (hdue : available < due) :
    Rest due available requested minPay ⟨available, due - available, 0, false, true, 0, false⟩

variable {due available requested minPay : ℚ} {b : BalancePlan}

theorem moveRest_rest (hle : requested ≤ due) :
    Rest due available requested minPay (moveRest due available requested minPay) := by
  simp only [moveRest]
  split_ifs with h₁ h₂ h₃ h₄
  · exact .asked _ (.inl (le_antisymm h₁ (sub_nonneg.mpr hle)))
  · exact .asked _ (.inr h₂)
  all_goals rw [not_or, not_le, not_le] at h₂
  · exact .kept h₂.1 (sub_pos.mp (not_le.mp h₁)) h₂.2 h₃
  · exact .forced (sub_pos.mp (not_le.mp h₁)) (not_le.mp h₃) h₄
  · exact .below h₂.1 (not_le.mp h₃) (not_le.mp h₄)

theorem planBalance_rest (hdue : 0 ≤ due) (havail : 0 ≤ available) (requested minPay : ℚ) :
    Rest due available (min (max requested 0) (min due available)) minPay
      (planBalance due available requested minPay) := by
  unfold planBalance
  simp only [nonNegative_eq, atMost_eq, max_eq_left hdue, max_eq_left havail]
  exact moveRest_rest ((min_le_right _ _).trans (min_le_left _ _))

theorem waiveSmallDue_eq (h : b.belowMinimum = false) (allowed : Bool) :
    waiveSmallDue b allowed = b :=
  if_pos (.inr (.inl h))

/-- How a price is divided: `p` is the plan, of which `most` at most is asked for, and `b` is what
is left of it when a small rest has been waived. -/
structure Split (due available most minPay : ℚ) (allowed : Bool) (p b : BalancePlan) : Prop where
  total : b.applied + b.payable + b.waived = due
  applied : 0 ≤ b.applied ∧ b.applied ≤ min due available
  kept : 0 ≤ b.kept ∧
    (b.forced = true ∨ b.belowMinimum = true ∨ 0 < b.waived ∨ b.applied + b.kept ≤ most)
  payable : 1 / 100 < minPay → b.payable = 0 ∨ minPay ≤ b.payable ∨ b.belowMinimum = true
  below : b.belowMinimum = true → 1 / 100 < minPay ∧ due < minPay ∧ available < due
  waived : 0 < b.waived → allowed = true ∧ b.waived ≤ 99 / 100
  largest : ∀ a, 0 ≤ a → a ≤ most → (due - a = 0 ∨ minPay ≤ due - a) →
    a ≤ p.applied ∧ p.applied ≤ most ∧ (p.payable = 0 ∨ minPay ≤ p.payable)

section

variable {most : ℚ} {p : BalancePlan} (h : Rest due available most minPay p) (hmost : 0 ≤ most)
  (hle : most ≤ min due available)
include h hmost hle

theorem Rest.split (hcents : due - most = 0 ∨ oneCent ≤ due - most) (allowed : Bool) :
    Split due available most minPay allowed p (waiveSmallDue p allowed) := by
  have hdue : most ≤ due := hle.trans (min_le_left _ _)
  cases h with
  | asked forced h =>
    rw [waiveSmallDue_eq rfl]
    have hpay : oneCent < minPay → due - most = 0 ∨ minPay ≤ due - most := fun hcent =>
      h.imp_right (·.resolve_left (not_le.mpr hcent))
    refine ⟨by ring, ⟨hmost, hle⟩, ⟨le_rfl, .inr (.inr (.inr (add_zero most).le))⟩,
      fun hcent => (hpay hcent).imp_right .inl, nofun, fun h0 => absurd h0 (lt_irrefl _),
      fun a _ ha _ => ⟨ha, le_rfl, ?_⟩⟩
    obtain hcent | hcent := lt_or_ge oneCent minPay
    · exact hpay hcent
    · exact hcents.imp_right hcent.trans
  | kept hcent hrest hlt hmin =>
    rw [waiveSmallDue_eq rfl]
    have happ : due - minPay ≤ most := by linarith
    refine ⟨by ring, ⟨sub_nonneg.mpr hmin, happ.trans hle⟩,
      ⟨sub_nonneg.mpr happ, .inr (.inr (.inr ?_))⟩, fun _ => .inr (.inl le_rfl), nofun,
      fun h0 => absurd h0 (lt_irrefl _),
      fun a _ ha hrest' => ⟨?_, happ, .inr le_rfl⟩⟩
    · exact (add_sub_cancel _ _).le
    · show a ≤ due - minPay
      rcases hrest' with hzero | hmin' <;> linarith
  | forced hrest hlt hav =>
    rw [waiveSmallDue_eq rfl]
    refine ⟨by ring, ⟨hmost.trans hdue, le_min le_rfl hav⟩, ⟨le_rfl, .inl rfl⟩,
      fun _ => .inl rfl, nofun, fun h0 => absurd h0 (lt_irrefl _), fun a ha0 ha hrest' => ?_⟩
    rcases hrest' with hzero | hmin' <;> linarith
  | below hcent hlt hav =>
    have hmost' : most ≤ available := hle.trans (min_le_right _ _)
    have hnone : ∀ a, 0 ≤ a → a ≤ most → ¬ (due - a = 0 ∨ minPay ≤ due - a) := by
      rintro a ha0 ha (hzero | hmin') <;> linarith
    by_cases h : allowed = false ∨ true = false ∨ ¬ 0 < due - available ∨
        fromCents maxSmallDueCents < due - available
    · rw [waiveSmallDue, if_pos h]
      exact ⟨by ring, ⟨hmost.trans hmost', le_min hav.le le_rfl⟩, ⟨le_rfl, .inr (.inl rfl)⟩,
        fun _ => .inr (.inr rfl), fun _ => ⟨hcent, hlt, hav⟩, fun h0 => absurd h0 (lt_irrefl _),
        fun a ha0 ha hfit => absurd hfit (hnone a ha0 ha)⟩
    · rw [waiveSmallDue, if_neg h]
      simp only [not_or, not_le, not_lt, Bool.not_eq_false] at h
      exact ⟨by ring, ⟨hmost.trans hmost', le_min hav.le le_rfl⟩,
        ⟨le_rfl, .inr (.inr (.inl h.2.2.1))⟩, fun _ => .inl rfl, nofun,
        fun _ => ⟨h.1, h.2.2.2.trans (by norm_num [fromCents, maxSmallDueCents])⟩,
        fun a ha0 ha hfit => absurd hfit (hnone a ha0 ha)⟩

/-- If neither the channel nor the balance carries the price, it does not matter what is asked
for. -/
theorem Rest.eq_below (hcent : oneCent < minPay) (hlt : due < minPay)
    (hav : available < due) : p = ⟨available, due - available, 0, false, true, 0, false⟩ := by
  have hmost' : most ≤ available := hle.trans (min_le_right _ _)
  cases h with
  | asked forced h => rcases h with h | h | h <;> linarith
  | kept | forced => linarith
  | below => rfl

end

theorem oneCent_le {d : ℚ} (hd : Check d) (h : 0 < d) : oneCent ≤ d := by
  obtain ⟨n, rfl⟩ := Decimal.hasPlaces_iff.mp hd
  have hn : 0 < n := by
    by_contra hn
    exact absurd h (not_lt.mpr (div_nonpos_of_nonpos_of_nonneg
      (by exact_mod_cast not_lt.mp hn) (by positivity)))
  have hn' : (1 : ℚ) ≤ n := by exact_mod_cast hn
  norm_num [oneCent, scale]
  linarith

theorem check_most (hdue : Check due) (havail : Check available) (hreq : Check requested) :
    Check (min (max requested 0) (min due available)) := by
  rcases min_choice (max requested 0) (min due available) with h | h <;> rw [h]
  · rcases max_choice requested 0 with h | h <;> rw [h]
    exacts [hreq, check_zero]
  · rcases min_choice due available with h | h <;> rw [h]
    exacts [hdue, havail]

/-- **How the price is divided.** -/
theorem balance_split (hcheck : Check due ∧ Check available ∧ Check requested ∧ Check minPay)
    (hdue : 0 ≤ due) (havail : 0 ≤ available) (allowed : Bool) :
    Split due available (min (max requested 0) (min due available)) minPay allowed
      (planBalance due available requested minPay)
      (waiveSmallDue (planBalance due available requested minPay) allowed) ∧
    ((waiveSmallDue (planBalance due available requested minPay) allowed).belowMinimum = true →
      ∀ other, (waiveSmallDue (planBalance due available other minPay) allowed).belowMinimum =
        true) := by
  have hmost (asked : ℚ) : 0 ≤ min (max asked 0) (min due available) :=
    le_min (le_max_right _ _) (le_min hdue havail)
  have hcents : Check (due - min (max requested 0) (min due available)) :=
    Decimal.HasPlaces.sub hcheck.1 (check_most hcheck.1 hcheck.2.1 hcheck.2.2.1)
  have hsplit := (planBalance_rest hdue havail requested minPay).split (hmost requested)
    (min_le_right _ _) ((sub_nonneg.mpr ((min_le_right _ _).trans
      (min_le_left _ _))).eq_or_lt'.imp_right (oneCent_le hcents))
    allowed
  refine ⟨hsplit, fun hbelow other => ?_⟩
  obtain ⟨hcent, hlt, hav⟩ := hsplit.below hbelow
  have heq (asked : ℚ) := (planBalance_rest hdue havail asked minPay).eq_below (hmost asked)
    (min_le_right _ _) hcent hlt hav
  rw [heq] at hbelow ⊢
  exact hbelow

theorem balance_split_kept : (waiveSmallDue (planBalance 10 20 (19 / 2) 1) true).applied = 9 ∧
      Split 10 20 (min (max (19 / 2) 0) (min 10 20)) 1 true (planBalance 10 20 (19 / 2) 1)
        (waiveSmallDue (planBalance 10 20 (19 / 2) 1) true) :=
  ⟨by decide +kernel, (balance_split (by decide +kernel) (by decide) (by decide) true).1⟩

end Pandora.Orders
