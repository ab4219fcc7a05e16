import Pandora.Promo.Counters

/-!
# The coupons as an order sees them

An order has at most one redemption, and three methods change it.  Each changes the
redemption of its own order only.
-/

namespace Pandora.Promo

open Database Tx

/-- The redemption of an order. -/
def State.redemptionByOrder (s : State) (orderId : UUID) : Option Redemption :=
  s.redemptions.find? (·.orderId = orderId)

/-- The tables after a method that concerns the order `j`. -/
structure OrderStep (s s' : State) (j : UUID) (redemption : Option Redemption) : Prop where
  counted : s'.Counted
  redemptions : ∀ i, s'.redemptionByOrder i = if i = j then redemption else s.redemptionByOrder i

variable {s s' : State} {orderId : UUID} {a : Option Applied} {code : String} {t : Target}
  {env : Env} {u : Unit} {change : Redemption → Redemption} {move : Coupon → Coupon} {captured : ℕ}

theorem reserve_step {o : OrderRef}
    (hs : s.Counted) (hcode : normalizeCode code ≠ "") (h : reserve env code t o s = .ok (a, s')) :
    ∃ r applied, a = some applied ∧ s.redemptionByOrder o.id = none ∧
      r.couponId = applied.couponId ∧ r.status = .held ∧ OrderStep s s' o.id (some r) := by
  have hcounted := (reserve_change h).counted hs
  rcases reserve_spec h with ⟨hempty, -, -⟩ | ⟨-, c, -, r, -, -, hnew, hr, ha, rfl⟩
  · exact absurd hempty hcode
  · have hnone : s.redemptionByOrder o.id = none := by simpa [State.redemptionByOrder] using hnew
    have horder : r.orderId = o.id := by rw [hr]
    refine ⟨r, _, ha, hnone, by rw [hr], by rw [hr], hcounted, fun i => ?_⟩
    rw [← horder] at hnone ⊢
    exact find?_append_key hnone i

theorem redemptionByOrder_finished (hf : Finishing change move captured) (hs : s.Counted)
    {r : Redemption} (hr : r ∈ s.redemptions) (hheld : r.status = .held)
    (hs' : s'.redemptions = s.finished r.orderId change) (i : UUID) :
    s'.redemptionByOrder i = if i = r.orderId then some (change r) else s.redemptionByOrder i := by
  have hkey : ∀ x : Redemption, (x.finishFor r.orderId change).orderId = x.orderId :=
    fun x => (hf.becomes r.orderId x).orderId
  rw [State.redemptionByOrder, hs', State.finished]
  by_cases hi : i = r.orderId
  · rw [if_pos hi, find?_map_update hkey, hi, find?_key hs.orderIds hr, Option.map_some,
      Redemption.finishFor_self hheld]
  · rw [if_neg hi]
    exact find?_map_local hs.orderIds hr hkey (Redemption.finishFor_local _ r change) hi

theorem finish_step (hf : Finishing change move captured) (hs : s.Counted)
    (h : finish orderId change (fun id => updateCoupon id (0 < ·.reservedCount) move) s =
      .ok (u, s')) :
    ∃ r, s.redemptionByOrder orderId = some r ∧ OrderStep s s' orderId (some (change r)) := by
  obtain ⟨r, hr, rfl, hheld, rfl⟩ := finish_spec h
  exact ⟨r, find?_key hs.orderIds hr, hf.counted hs hr hheld,
    redemptionByOrder_finished hf hs hr hheld rfl⟩

end Pandora.Promo
