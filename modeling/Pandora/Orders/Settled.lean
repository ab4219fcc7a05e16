import Pandora.Orders.Agreement

/-!
# A settled order

`settlePayment` and `settleZeroPay` share `captureReservation`, `markPaid` and
`fulfil`.  Each statement is followed through the view of the order; at the end the
parts are captured, the order was fulfilled once, and it agrees.
-/

namespace Pandora.Orders

open Money Database Ledger List Tx Option

/-! ## Reading -/

variable {s s' : State} {o : Order} {u : Unit} {env : Env} {p : SettleInput}
  {item : Option Item} {id : UUID}

@[simp] theorem itemOf_ok {it : Item} :
    itemOf o s = .ok (it, s') ↔ s.onlyItem o = .ok it ∧ s = s' := by
  simp only [itemOf, bind_ok, read_ok, ofExcept_ok]
  constructor
  · rintro ⟨_, _, ⟨rfl, rfl⟩, h⟩
    exact h
  · rintro ⟨h, rfl⟩
    exact ⟨s, s, ⟨rfl, rfl⟩, h, rfl⟩

theorem reload_ok (h : reload id s = .ok (o, s')) : s' = s ∧ (s.view id).order = some o := by
  simp only [reload, bind_ok, read_ok, ofOption_ok] at h
  obtain ⟨_, _, ⟨rfl, rfl⟩, ho, rfl⟩ := h
  exact ⟨rfl, ho⟩

/-! ## Capturing and fulfilling -/

theorem captureReservation_local (hs : s.Base) (h : captureReservation o s = .ok (u, s')) :
    (s.view o.id).reservation = some .held ∧
      Local o.id s s' { s.view o.id with
        reservation := some .captured
        redemption := o.couponAfter Promo.Redemption.capture (s.view o.id).redemption } := by
  simp only [captureReservation, bind_ok, read_ok, ofOption_ok, require_ok, ite_ok,
    onPromo_ok, pure_ok] at h
  obtain ⟨_, _, ⟨rfl, rfl⟩, res, _, ⟨hres, rfl⟩, _, s₁, hupdate, _, _, ⟨rfl, rfl⟩, h⟩ := h
  obtain ⟨hheld, hlocal⟩ := updateReservation_local hs hres hupdate
  refine ⟨hheld, ?_⟩
  rcases h with ⟨hcoupon, p, hcapture, rfl⟩ | ⟨hcoupon, -, rfl⟩
  · obtain ⟨r, hr, hstep⟩ := Promo.finish_step Promo.finishing_capture hlocal.base.promo hcapture
    have hred : (s₁.view o.id).redemption = some r := hr
    have hstep' := hlocal.trans (promo_local hlocal.base hstep)
    rw [hlocal.self] at hstep' hred
    rw [Order.couponAfter, if_pos hcoupon]
    rw [show (s.view o.id).redemption = some r from hred]
    exact hstep'
  · rw [Order.couponAfter, if_neg hcoupon]
    exact hlocal

theorem askSubscription_local (hs : s.Base)
    {what : Fulfilment} (h : askSubscription env o what s = .ok (id, s')) :
    Local o.id s s' { s.view o.id with effects := (s.view o.id).effects + 1 } := by
  simp only [askSubscription, bind_ok, ofExcept_ok, pure_ok] at h
  obtain ⟨_, _, ⟨-, rfl⟩, _, _, heffect, -, rfl⟩ := h
  exact recordEffect_local hs heffect

theorem unfrozen_refundPosting {refund : ℚ} : (refundPosting o refund).Unfrozen := by
  intro leg hleg
  simp only [refundPosting, mem_cons, not_mem_nil, or_false] at hleg
  rcases hleg with rfl | rfl <;> simp [debit, credit]

theorem fulfilPlanChange_local (hs : s.Base) (h : fulfilPlanChange env o s = .ok (u, s')) :
    Local o.id s s' { s.view o.id with effects := (s.view o.id).effects + 1 } := by
  simp only [fulfilPlanChange, bind_ok, ofOption_ok, ofExcept_ok, itemOf_ok, ite_ok,
    onLedger_ok, pure_ok] at h
  obtain ⟨_, _, ⟨-, rfl⟩, it, _, ⟨-, rfl⟩, _, _, ⟨-, rfl⟩, _, _, ⟨-, rfl⟩, price, _, ⟨-, rfl⟩,
    _, s₁, hask, h⟩ := h
  have hlocal := askSubscription_local hs hask
  rcases h with ⟨-, id, _, ⟨l, hpost, rfl⟩, -, rfl⟩ | ⟨-, -, rfl⟩
  · have hstep := postGeneral_step hlocal.base.ledger unfrozen_refundPosting hpost o.id
    have hneutral := hlocal.trans (ledger_neutral hlocal.base hstep (by simp [refundPosting]))
    rwa [hlocal.self] at hneutral
  · exact hlocal

theorem fulfilKind_local (hs : s.Base) {sub : Option UUID}
    (h : fulfilKind env o s = .ok (sub, s')) :
    Local o.id s s' { s.view o.id with
      effects := (s.view o.id).effects + if o.kind = .topup then 0 else 1 } := by
  unfold fulfilKind at h
  cases hkind : o.kind with
  | topup =>
    simp only [hkind, pure_ok] at h
    rw [← h.2]
    exact Local.refl hs o.id
  | new | stack =>
    simp only [hkind, bind_ok, ofOption_ok, ofExcept_ok, itemOf_ok, pure_ok] at h
    obtain ⟨_, _, ⟨-, rfl⟩, _, _, ⟨-, rfl⟩, _, _, ⟨-, rfl⟩, _, _, ⟨-, rfl⟩, _, s₁, hask, -,
      rfl⟩ := h
    exact askSubscription_local hs hask
  | renewal =>
    simp only [hkind, bind_ok, ofOption_ok, ofExcept_ok, itemOf_ok, pure_ok] at h
    obtain ⟨_, _, ⟨-, rfl⟩, _, _, ⟨-, rfl⟩, _, _, ⟨-, rfl⟩, _, s₁, hask, -, rfl⟩ := h
    exact askSubscription_local hs hask
  | upgrade =>
    simp only [hkind, bind_ok, pure_ok] at h
    obtain ⟨_, s₁, hchange, -, rfl⟩ := h
    exact fulfilPlanChange_local hs hchange
  | trafficReset =>
    simp only [hkind, bind_ok, ofOption_ok, pure_ok] at h
    obtain ⟨_, _, ⟨-, rfl⟩, _, s₁, hask, -, rfl⟩ := h
    exact askSubscription_local hs hask

/-- The row of an order that was paid. -/
def Order.markedPaid (o : Order) (total : ℚ) : Order :=
  { o with status := .paid, paidAmount := total, stateVersion := o.stateVersion + 1 }

/-- The row of an order that was fulfilled. -/
def Order.markedFulfilled (o : Order) (subscriptionId : Option UUID) : Order :=
  { o with
    status := .fulfilled, subscriptionId := subscriptionId, stateVersion := o.stateVersion + 1 }

theorem markPaid_local (hs : s.Base) {x paid : Order}
    (hx : (s.view o.id).order = some x) (h : markPaid o s = .ok (paid, s')) :
    x.status = .pending ∧ paid = x.markedPaid o.totalAmount ∧
      Local o.id s s' { s.view o.id with order := some paid } := by
  simp only [markPaid, bind_ok, require_ok] at h
  obtain ⟨_, _, ⟨-, rfl⟩, _, s₁, hupdate, _, _, ⟨rfl, rfl⟩, hreload⟩ := h
  obtain ⟨rfl, hpaid⟩ := reload_ok hreload
  obtain ⟨hstatus, hlocal⟩ := updateOrder_local hs hx hupdate fun _ => rfl
  have heq : paid = x.markedPaid o.totalAmount := by
    rw [hlocal.self, some.injEq] at hpaid
    exact hpaid.symm
  refine ⟨hstatus, heq, ?_⟩
  rw [heq]
  exact hlocal

theorem fulfil_local (hs : s.Base) {done : Order}
    (ho : (s.view o.id).order = some o) (h : fulfil env o s = .ok (done, s')) :
    o.status = .paid ∧ ∃ sub, done = o.markedFulfilled sub ∧
      Local o.id s s' { s.view o.id with
        order := some done
        effects := (s.view o.id).effects + if o.kind = .topup then 0 else 1 } := by
  simp only [fulfil, bind_ok, require_ok] at h
  obtain ⟨_, _, ⟨hpaid, rfl⟩, sub, s₁, hkind, _, s₂, hupdate, _, _, ⟨rfl, rfl⟩, hreload⟩ := h
  obtain ⟨rfl, hdone⟩ := reload_ok hreload
  have hlocal := fulfilKind_local hs hkind
  have ho₁ : (s₁.view o.id).order = some o := by rw [hlocal.self]; exact ho
  obtain ⟨-, hlocal'⟩ := updateOrder_local hlocal.base ho₁ hupdate fun _ => rfl
  have heq : done = o.markedFulfilled sub := by
    rw [hlocal'.self, some.injEq] at hdone
    exact hdone.symm
  have htrans := hlocal.trans hlocal'
  rw [hlocal.self] at htrans
  refine ⟨hpaid, sub, heq, ?_⟩
  rw [heq]
  exact htrans

/-! ## Settling a payment -/

theorem settleItem_ok (h : settleItem env o s = .ok (item, s')) : s' = s := by
  simp only [settleItem, ite_ok, bind_ok, itemOf_ok, pure_ok] at h
  rcases h with ⟨-, it, _, ⟨-, rfl⟩, h⟩ | ⟨-, -, rfl⟩
  · cases hid : it.planId with
    | none =>
      simp only [hid, pure_ok] at h
      exact h.2.symm
    | some =>
      simp only [hid, bind_ok, ofExcept_ok, require_ok, pure_ok] at h
      obtain ⟨_, _, ⟨-, rfl⟩, _, _, ⟨-, rfl⟩, -, rfl⟩ := h
      rfl
  · rfl

theorem settleSubscription_ok (h : settleSubscription env o item s = .ok (u, s')) : s' = s := by
  simp only [settleSubscription, ite_ok, bind_ok, ofOption_ok, ofExcept_ok,
    require_ok, pure_ok] at h
  rcases h with ⟨-, _, _, ⟨-, rfl⟩, _, _, ⟨-, rfl⟩, _, _, ⟨-, rfl⟩, _, _, ⟨-, rfl⟩, _, _, ⟨-, rfl⟩,
    ⟨-, _, _, ⟨-, rfl⟩, -, rfl⟩ | ⟨-, -, rfl⟩⟩ | ⟨-, -, rfl⟩ <;> rfl

theorem unfrozen_topupPosting : (topupPosting o p).Unfrozen := by
  intro leg hleg
  simp only [topupPosting, mem_append, mem_legIfPositive, mem_singleton] at hleg
  rcases hleg with ((⟨rfl, -⟩ | ⟨rfl, -⟩) | rfl) | ⟨rfl, -⟩ <;> simp [debit, credit]

theorem topups_topupPosting {i : UUID} :
    topups [⟨id, topupPosting o p⟩] i = if o.id = i then 1 else 0 := by
  rw [topups, countP_singleton]
  simp [Record.About, topupPosting]

theorem postSettlement_local (hs : s.Base) (hpaid : p.amount = o.payableAmount)
    (hpos : 0 < o.payableAmount) (hpayable : o.payableAmount = o.totalAmount - o.balanceApplied)
    (htopup : o.kind = .topup → o.balanceApplied = 0)
    (hhold : o.HoldAgrees .held (s.view o.id).hold) (h : postSettlement env o p s = .ok (u, s')) :
    ∃ hold, o.HoldAgrees .captured hold ∧ Local o.id s s' { s.view o.id with
      hold := hold
      effects := (s.view o.id).effects + if o.kind = .topup then 1 else 0 } := by
  simp only [postSettlement, ite_ok, bind_ok, mapError_ok, onLedger_ok, pure_ok] at h
  rcases h with ⟨hkind, id, _, ⟨l, hpost, rfl⟩, -, rfl⟩ | ⟨hkind, id, _, ⟨l, hpost, rfl⟩, -, rfl⟩
  · have hstep := postGeneral_step hs.ledger unfrozen_topupPosting hpost o.id
    have hlocal := ledger_local hs hstep fun i hi => by
      rw [topups_topupPosting, if_neg (Ne.symm hi)]
    rw [topups_topupPosting, if_pos rfl] at hlocal
    refine ⟨(s.view o.id).hold, hhold.none (by rw [htopup hkind]; exact lt_irrefl _) _, ?_⟩
    rw [if_pos hkind]
    exact hlocal
  · have hpos' : 0 < (orderPaidInput o p).paid := hpos.trans_eq hpaid.symm
    have happlied : o.totalAmount - p.amount = o.balanceApplied := by
      rw [hpaid, hpayable]
      ring
    have hnotopup : ∀ r ∈ [(⟨id, orderPaidPosting (orderPaidInput o p)
        (o.totalAmount - p.amount)⟩ : Record)], r.posting.kind ≠ .balanceTopup := by
      simp [orderPaidPosting]
    rw [if_neg hkind]
    obtain ⟨-, ⟨heq, -, hstep⟩ | ⟨hlt, x, hfind, hheld, -, -, hstep⟩⟩ :=
      postOrderPaid_step hs.ledger hpos' hpost
    · have hzero : o.balanceApplied = 0 := by
        rw [← happlied]
        exact sub_eq_zero.mpr heq
      exact ⟨(s.view o.id).hold, hhold.none (by rw [hzero]; exact lt_irrefl _) _,
        ledger_hold hs hstep hnotopup⟩
    · have hview : (s.view o.id).hold = some x := hfind
      rw [hview] at hhold
      exact ⟨some (x.capture id), hhold.close closes_capture rfl, ledger_hold hs hstep hnotopup⟩

theorem unfrozen_accrualPosting {userId : UUID} {amount : ℚ} :
    (accrualPosting o userId amount).Unfrozen := by
  intro leg hleg
  simp only [accrualPosting, mem_cons, not_mem_nil, or_false] at hleg
  rcases hleg with rfl | rfl <;> simp [debit, credit]

theorem paidHook_local (hs : s.Base)
    (h : paidHook env o s = .ok (u, s')) : Local o.id s s' (s.view o.id) := by
  simp only [paidHook, ite_ok, bind_ok, ofExcept_ok, onLedger_ok, pure_ok] at h
  rcases h with ⟨-, accruals, _, ⟨-, rfl⟩, l, hposts, rfl⟩ | ⟨-, -, rfl⟩
  · obtain ⟨new, hstep, hnew⟩ := forEach_postGeneral_step
      (fun a : UUID × ℚ => unfrozen_accrualPosting) hs.ledger hposts o.id
    refine ledger_neutral hs hstep fun r hr => ?_
    obtain ⟨a, ha⟩ := hnew r hr
    rw [ha]
    simp [accrualPosting]
  · exact Local.refl hs o.id

theorem auditSettlement_local (hs : s.Base)
    (h : auditSettlement env p s = .ok (u, s')) (j : UUID) : Local j s s' (s.view j) := by
  simp only [auditSettlement, bind_ok, ofExcept_ok, write_ok] at h
  obtain ⟨_, _, ⟨-, rfl⟩, rfl⟩ := h
  refine hs.unseen ?_ ?_ ?_ ?_ ?_ ?_ j <;> rfl

theorem Order.continues_settled (o : Order) (total : ℚ) (sub : Option UUID) :
    o.Continues ((o.markedPaid total).markedFulfilled sub) :=
  ⟨rfl, rfl, rfl, rfl, rfl, rfl, rfl⟩

theorem settlePayment_step
    (hs : s.Consistent) (h : settlePayment env p s = .ok (u, s')) : Progress none s s' := by
  simp only [settlePayment, bind_ok, read_ok, ofOption_ok, require_ok, ofExcept_ok] at h
  obtain ⟨_, _, ⟨rfl, rfl⟩, o, _, ⟨ho, rfl⟩, _, _, ⟨hopen, rfl⟩, _, _, ⟨hlive, rfl⟩, h⟩ := h
  obtain ⟨_, _, ⟨⟨hpos, hamount⟩, rfl⟩, item, _, hitem, _, s₀, hsub, _, s₁, hcapture, h⟩ := h
  obtain ⟨_, s₂, hpost, paid, s₃, hmark, _, s₄, hhook, done, s₅, hfulfil, h⟩ := h
  obtain ⟨_, _, ⟨-, rfl⟩, haudit⟩ := h
  rw [settleItem_ok hitem] at hsub
  rw [settleSubscription_ok hsub] at hcapture
  rw [← (State.orderById_mem ho).2] at ho
  have hpending : o.status = .pending := by
    cases hst : o.status <;> simp_all
  have hheld := hs.held ho hpending
  -- the parts are captured and the money is booked
  obtain ⟨-, h₁⟩ := captureReservation_local hs.base hcapture
  have hhold₁ : o.HoldAgrees .held (s₁.view o.id).hold := by
    rw [h₁.self]
    exact hheld.hold
  obtain ⟨hold, hhold, h₂⟩ :=
    postSettlement_local h₁.base hamount hpos hheld.payable hheld.topup hhold₁ hpost
  rw [h₁.self] at h₂
  -- the order is paid, and then fulfilled
  have ho₂ : (s₂.view o.id).order = some o := by
    rw [h₂.self]
    exact ho
  obtain ⟨-, rfl, h₃⟩ := markPaid_local h₂.base ho₂ hmark
  rw [h₂.self] at h₃
  have h₄ := paidHook_local h₃.base hhook
  rw [h₃.self] at h₄
  obtain ⟨-, sub, rfl, h₅⟩ := fulfil_local (o := o.markedPaid o.totalAmount) h₄.base
    (congrArg View.order h₄.self) hfulfil
  have hid : (o.markedPaid o.totalAmount).id = o.id := rfl
  rw [hid, h₄.self] at h₅
  have h₆ := auditSettlement_local h₅.base haudit o.id
  rw [h₅.self] at h₆
  have hall := h₁.trans (h₂.trans (h₃.trans (h₄.trans (h₅.trans h₆))))
  refine hall.progress hs ((View.agrees_some rfl).mpr ⟨.captured, ?_⟩) ?_ fun o' ho' => ?_
  · refine hheld.next (o.continues_settled o.totalAmount sub) rfl (by simp [Order.markedFulfilled])
      rfl (hheld.coupon.finish (fun _ => rfl) fun _ => rfl) hhold ?_
    show (s.view o.id).effects + (if o.kind = .topup then 1 else 0) +
      (if o.kind = .topup then 0 else 1) = 1
    rw [hheld.effects, hpending]
    split_ifs <;> simp_all
  · rw [State.statusOf, ho, map_some, hpending]
    exact .closed _
  · cases ho'
    exact .inr ⟨o, ho, o.continues_settled o.totalAmount sub⟩

end Pandora.Orders
