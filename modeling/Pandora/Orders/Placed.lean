import Pandora.Orders.Released

/-!
# A placed order

`place` ends in one of two ways.  If a channel has to pay something the order is
pending, with its reservation, its coupon and its balance held.  If nothing is left
to pay, the order never waits: no balance is frozen beforehand, it is frozen and
taken in one statement, and the order is fulfilled before the transaction ends.  A
top-up cannot end that way, since all of it is payable.
-/

namespace Pandora.Orders

open Money Database Ledger Tx Option View Promo Orders.Order Local

/-! ## Statements that only read -/

variable {s s' : State} {env : Env} {d : Draft} {lim : Limits} {u : Unit} {o : Order}
  {code : String} {total : ℚ} {bal : BalancePlan}

theorem purchaseGate_ok (h : purchaseGate env d s = .ok (lim, s')) : s' = s := by
  simp only [purchaseGate, checkSubscriptionCap, ite_ok, bind_ok, ofExcept_ok, read_ok,
    require_ok, pure_ok] at h
  rcases h with ⟨-, -, rfl⟩ | ⟨-, _, _, ⟨-, rfl⟩,
    ⟨-, -, rfl⟩ | ⟨-, ⟨-, _, _, ⟨_, _, ⟨rfl, rfl⟩, _, _,
    ⟨-, rfl⟩, -, rfl⟩, -, rfl⟩ | ⟨-, -, rfl⟩⟩⟩ <;> rfl

theorem evaluateCoupon_ok
    {applied : Option Applied} (h : evaluateCoupon env d code s = .ok (applied, s')) :
    s' = s ∧ (code = "" → applied = none) ∧
      (normalizeCode code ≠ "" → code ≠ "" → ∃ a, applied = some a) := by
  simp only [evaluateCoupon, ite_ok, bind_ok, require_ok, onPromo_ok, pure_ok] at h
  rcases h with ⟨hcode, rfl, rfl⟩ | ⟨hcode, _, _, ⟨-, rfl⟩, _, _, ⟨p, hlock, rfl⟩, q, heval, rfl⟩
  · exact ⟨rfl, fun _ => rfl, fun _ h => absurd hcode h⟩
  · have hp := lock_ok hlock
    obtain ⟨rfl, hsome⟩ := evaluate_ok heval
    refine ⟨by rw [hp], fun h => absurd h hcode, fun hn _ => hsome hn⟩

theorem balanceFor_ok (h : balanceFor env d total s = .ok (bal, s')) : s' = s := by
  unfold balanceFor at h
  cases hm : d.manual with
  | none =>
    simp only [hm, ite_ok, bind_ok, ofExcept_ok, read_ok, require_ok, pure_ok] at h
    rcases h with ⟨-, -, rfl⟩ | ⟨-, _, _, ⟨-, rfl⟩, _, _, ⟨rfl, rfl⟩, _, _, ⟨-, rfl⟩, -,
      rfl⟩ <;> rfl
  | some =>
    simp only [hm, ite_ok, bind_ok, ofExcept_ok, require_ok, pure_ok] at h
    rcases h with ⟨-, -, rfl⟩ | ⟨-, ⟨-, _, _, ⟨-, rfl⟩, _, _, ⟨-, rfl⟩, -, rfl⟩ | ⟨-, -, rfl⟩⟩ <;>
      rfl

theorem checkUnpaid_ok (h : checkUnpaid env d bal lim s = .ok (u, s')) : s' = s := by
  simp only [checkUnpaid, checkUnpaidCap, ite_ok, bind_ok, read_ok, require_ok, pure_ok] at h
  rcases h with ⟨-, ⟨-, -, rfl⟩ | ⟨-, _, _, ⟨rfl, rfl⟩, -, rfl⟩⟩ | ⟨-, -, rfl⟩ <;> rfl

theorem auditPlaced_ok (h : auditPlaced env d s = .ok (u, s')) : s' = s := by
  simp only [auditPlaced, ite_ok, ofExcept_ok, pure_ok] at h
  rcases h with ⟨-, -, rfl⟩ | ⟨-, -, rfl⟩ <;> rfl

/-! ## Statements that write -/

/-- The view of an order that was never placed. -/
def View.blank : View := ⟨none, none, none, none, 0⟩

theorem placeOrder_local (hs : s.Base) (hfresh : o.id < s.nextId)
    (hview : s.view o.id = blank) (h : placeOrder o s = .ok (u, s')) :
    o.Shaped ∧ Local o.id s s' { blank with order := some o, reservation := some .held } := by
  simp only [placeOrder, bind_ok] at h
  obtain ⟨_, s₁, horder, hreservation⟩ := h
  have hnone : s.orderById o.id = none := congrArg order hview
  obtain ⟨hshaped, -, h₁⟩ := createOrder_local hs hfresh hnone horder
  rw [hview] at h₁
  have hnone₁ : s₁.reservationByOrder o.id = none :=
    map_eq_none_iff.mp (congrArg reservation h₁.self)
  have h₂ := createReservation_local h₁.base hnone₁ hreservation
  rw [h₁.self] at h₂
  exact ⟨hshaped, h₁.trans h₂⟩

theorem reserveCoupon_local
    (hs : s.Base) (h : reserveCoupon env d code o total s = .ok (u, s')) : (code = "" ∧ s' = s) ∨
    (code ≠ "" ∧ normalizeCode code ≠ "" ∧ ∃ r, r.status = .held ∧
      (∀ c ∈ o.couponId, r.couponId = c) ∧
      Local o.id s s' { s.view o.id with redemption := some r }) := by
  simp only [reserveCoupon, ite_ok, bind_ok, onPromo_ok, ofOption_ok, require_ok, pure_ok] at h
  rcases h with ⟨hcode, -, rfl⟩ | ⟨hcode, _, _, ⟨p, hreserve, rfl⟩, a, _, ⟨rfl, rfl⟩, _, _,
    ⟨hcoupon, rfl⟩, _, _, ⟨-, rfl⟩, -, rfl⟩
  · exact Or.inl ⟨hcode, rfl⟩
  · have hnorm : normalizeCode code ≠ "" := by
      intro hempty
      rcases reserve_spec hreserve with ⟨-, hnone, -⟩ | ⟨hne, -⟩
      · exact absurd hnone (by simp)
      · exact hne hempty
    obtain ⟨r, applied, ha, -, hr, hheld, hstep⟩ := reserve_step hs.promo hnorm hreserve
    rw [some.injEq] at ha
    subst ha
    exact Or.inr ⟨hcode, hnorm, r, hheld, fun c hc => hr.trans (hcoupon c hc), promo_local hs hstep⟩

theorem placeItem_local (hs : s.Base) {item : Option ItemData}
    (h : placeItem o item s = .ok (u, s')) : Local o.id s s' (s.view o.id) := by
  cases item with
  | none =>
    simp only [placeItem, pure_ok] at h
    rw [← h.2]
    exact refl hs o.id
  | some =>
    simp only [placeItem, createItem, bind_ok, require_ok, write_ok] at h
    obtain ⟨_, _, ⟨-, rfl⟩, rfl⟩ := h
    refine hs.unseen ?_ ?_ ?_ ?_ ?_ ?_ o.id <;> rfl

theorem freezeBalance_local (hs : s.Base)
    (hnone : (s.view o.id).hold = none) (h : freezeBalance env o s = .ok (u, s')) :
    ∃ hold, (0 < o.payableAmount → o.HoldAgrees .held hold) ∧ (¬0 < o.payableAmount → hold = none) ∧
      Local o.id s s' { s.view o.id with hold := hold } := by
  simp only [freezeBalance, ite_ok, bind_ok, onLedger_ok, pure_ok] at h
  rcases h with ⟨⟨hpayable, hpos⟩, x, _, ⟨l, hhold, rfl⟩, -, rfl⟩ | ⟨hnot, -, rfl⟩
  · obtain ⟨-, hamount, huser, hheld, hstep⟩ := holdForOrder_step hs.ledger hhold
    refine ⟨some x, fun _ => ?_, fun hn => absurd hpayable hn,
      ledger_hold hs hstep (by simp [holdPosting])⟩
    exact holdAgrees_pos hpos hamount huser hheld
  · refine ⟨none, fun hpayable => ?_, fun _ => rfl, ?_⟩
    · exact (holdAgrees_none (fun hpos => hnot ⟨hpayable, hpos⟩) _).mpr rfl
    · rw [← hnone]
      exact refl hs o.id

theorem takeBalance_local (hs : s.Base)
    (hnone : (s.view o.id).hold = none) (h : takeBalance env o s = .ok (u, s')) :
    ∃ hold, o.HoldAgrees .captured hold ∧ Local o.id s s' { s.view o.id with hold := hold } := by
  simp only [takeBalance, ite_ok, bind_ok, onLedger_ok, pure_ok] at h
  rcases h with ⟨hpos, r, _, ⟨l, htake, rfl⟩, -, rfl⟩ | ⟨hpos, -, rfl⟩
  · obtain ⟨-, hamount, huser, hcaptured, hstep⟩ := captureFromBalance_step hs.ledger htake
    exact ⟨some r.1, holdAgrees_pos hpos hamount huser hcaptured,
      ledger_hold hs hstep (by simp [holdPosting, orderPaidPosting])⟩
  · refine ⟨none, (holdAgrees_none hpos _).mpr rfl, ?_⟩
    rw [← hnone]
    exact refl hs o.id

/-! ## The two ways to end -/

theorem Order.Shaped.topup_payable (h : o.Shaped) (hk : o.kind = .topup)
    (hpos : 0 < o.subtotalAmount) : 0 < o.payableAmount := by
  obtain ⟨hdiscount, happlied, -⟩ := h.topup hk
  have hcredit : o.prorationCreditAmount = 0 := h.credit.resolve_right (by simp [hk])
  have hwaived : o.waivedAmount = 0 := h.waived.resolve_right (by simp [hk])
  rw [h.payable, h.total, hdiscount, happlied, hcredit, hwaived]
  simpa using hpos

theorem settleZeroPay_local (hs : s.Base) {done : Order}
    (ho : (s.view o.id).order = some o) (hhold : (s.view o.id).hold = none)
    (h : settleZeroPay env o s = .ok (done, s')) : ∃ sub hold, o.HoldAgrees .captured hold ∧
      done = (o.markedPaid o.totalAmount).markedFulfilled sub ∧
      Local o.id s s' ⟨some done, some .captured,
        o.couponAfter Redemption.capture (s.view o.id).redemption, hold,
        (s.view o.id).effects + if o.kind = .topup then 0 else 1⟩ := by
  simp only [settleZeroPay, bind_ok, ofExcept_ok, pure_ok] at h
  obtain ⟨_, s₁, hcapture, _, s₂, htake, paid, s₃, hmark, _, s₄, hfulfil, _, _, ⟨-, rfl⟩, rfl,
    rfl⟩ := h
  obtain ⟨-, h₁⟩ := captureReservation_local hs hcapture
  have hhold₁ : (s₁.view o.id).hold = none := by
    rw [h₁.self]
    exact hhold
  obtain ⟨hold, hagrees, h₂⟩ := takeBalance_local h₁.base hhold₁ htake
  rw [h₁.self] at h₂
  have ho₂ : (s₂.view o.id).order = some o := by
    rw [h₂.self]
    exact ho
  obtain ⟨-, rfl, h₃⟩ := markPaid_local h₂.base ho₂ hmark
  rw [h₂.self] at h₃
  obtain ⟨-, sub, rfl, h₄⟩ := fulfil_local (o := o.markedPaid o.totalAmount) h₃.base
    (congrArg order h₃.self) hfulfil
  have hid : (o.markedPaid o.totalAmount).id = o.id := rfl
  rw [hid, h₃.self] at h₄
  exact ⟨sub, hold, hagrees, rfl, h₁.trans (h₂.trans (h₃.trans h₄))⟩

theorem placePriced_local {r : Order} (hs : s.Base) (hfresh : o.id < s.nextId)
    (hview : s.view o.id = blank) (hpending : o.status = .pending)
    (htopup : o.kind = .topup → 0 < o.subtotalAmount) (hcode : code = "" → o.couponId = none)
    (hcoupon : normalizeCode code ≠ "" → code ≠ "" → ∃ c, o.couponId = some c)
    (h : placePriced env d code o total s = .ok (r, s')) :
    ∃ v, v.Agrees ∧ Local o.id s s' v ∧ ∀ o' ∈ v.order, o.Continues o' := by
  simp only [placePriced, bind_ok, ofExcept_ok, pure_ok] at h
  obtain ⟨_, s₁, hplace, _, s₂, hreserve, _, s₃, hitem, _, s₄, hfreeze, _, _, ⟨-, rfl⟩, _,
    s₅, hsettle, _, _, haudit, -, rfl⟩ := h
  obtain ⟨hshaped, h₁⟩ := placeOrder_local hs hfresh hview hplace
  -- the coupon
  obtain ⟨red, hred, h₂⟩ : ∃ red, o.CouponAgrees .held red ∧ Local o.id s₁ s₂ { blank with
      order := some o, reservation := some .held, redemption := red } := by
    rcases reserveCoupon_local h₁.base hreserve with ⟨hempty, rfl⟩ | ⟨hne, hnorm, x, hx, hc, h₂⟩
    · refine ⟨none, ?_, ?_⟩
      · rw [CouponAgrees, hcode hempty]
      · have hrefl := refl h₁.base o.id
        rw [h₁.self] at hrefl
        exact hrefl
    · rw [h₁.self] at h₂
      refine ⟨some x, ?_, h₂⟩
      obtain ⟨c, hsome⟩ := hcoupon hnorm hne
      rw [CouponAgrees, hsome]
      exact ⟨x, rfl, hc c hsome, hx⟩
  have h₃ := placeItem_local h₂.base hitem
  rw [h₂.self] at h₃
  -- the balance
  obtain ⟨hold, hfrozen, hnone, h₄⟩ :=
    freezeBalance_local h₃.base (congrArg hold h₃.self) hfreeze
  rw [h₃.self] at h₄
  have hplaced := h₁.trans (h₂.trans (h₃.trans h₄))
  rw [auditPlaced_ok haudit]
  simp only [settleIfNothingDue, ite_ok, pure_ok] at hsettle
  rcases hsettle with ⟨hzero, hsettle⟩ | ⟨hnonzero, -, rfl⟩
  · have hholdnone : hold = none := hnone (by rw [hzero]; exact lt_irrefl 0)
    have hkind : o.kind ≠ .topup := fun hk =>
      absurd (hshaped.topup_payable hk (htopup hk)) (by rw [hzero]; exact lt_irrefl 0)
    obtain ⟨sub, hold', hcaptured, rfl, h₅⟩ := settleZeroPay_local h₄.base
      (congrArg View.order h₄.self) ((congrArg View.hold h₄.self).trans hholdnone) hsettle
    rw [h₄.self] at h₅
    have hc := o.continues_settled o.totalAmount sub
    refine ⟨_, (agrees_some rfl).mpr ⟨.captured, ?_⟩, hplaced.trans h₅, fun o' ho' => ?_⟩
    swap
    · cases ho'
      exact hc
    exact {
      status := rfl
      reservation := rfl
      coupon := hc.couponAgrees.mpr (hred.finish (fun _ => rfl) fun _ => rfl)
      hold := hc.holdAgrees.mpr hcaptured
      effects := by
        show 0 + (if o.kind = .topup then 0 else 1) = 1
        rw [if_neg hkind]
      payable := hshaped.payable
      pending := fun hp => absurd hp (by simp [markedFulfilled])
      topup := fun hk => absurd hk hkind }
  · have hpos : 0 < o.payableAmount := lt_of_le_of_ne hshaped.nonneg.2.2.2.2.2.1 (Ne.symm hnonzero)
    refine ⟨_, (agrees_some rfl).mpr ⟨.held, ?_⟩, hplaced, fun o' ho' => ?_⟩
    swap
    · cases ho'
      exact .refl o
    exact {
      status := by rw [hpending]; rfl
      reservation := rfl
      coupon := hred
      hold := hfrozen hpos
      effects := by
        show 0 = if o.status = .fulfilled then 1 else 0
        rw [hpending, if_neg (by simp)]
      payable := hshaped.payable
      pending := fun _ => hpos
      topup := fun hk => (hshaped.topup hk).2.1 }

/-! ## The methods -/

theorem placeGated_step (hs : s.Consistent) (h : placeGated env d lim s = .ok (o, s')) :
    Progress (some (d.userId, d.kind)) s s' := by
  simp only [placeGated, bind_ok, require_ok, ofExcept_ok, freshId, read_ok, write_ok, pure_ok] at h
  obtain ⟨applied, s₂, heval, bal, s₃, hbal, _, s₄, hunpaid, _, _, ⟨-, rfl⟩, _, _,
    ⟨-, rfl⟩, id, s₅, ⟨_, _, ⟨rfl, rfl⟩, _, _, rfl, rfl, rfl⟩, h⟩ := h
  obtain ⟨heval', hempty, hsome⟩ := evaluateCoupon_ok heval
  have hread : s₄ = s := by
    rw [checkUnpaid_ok hunpaid, balanceFor_ok hbal, heval']
  subst hread
  -- the identifier is new, so nothing is known about it
  have hnone : s₄.orderById s₄.nextId = none := by
    rw [State.orderById, List.find?_eq_none]
    intro o ho
    simpa using (hs.base.orderFresh o ho).ne
  have hblank : s₄.view s₄.nextId = blank := (agrees_none hnone).mp (hs.agrees _)
  have hid : Local s₄.nextId s₄ { s₄ with nextId := s₄.nextId + 1 } (s₄.view s₄.nextId) := by
    refine hs.base.unseen ?_ ?_ ?_ ?_ ?_ (Nat.le_succ _) _ <;> rfl
  obtain ⟨v, hagrees, hplaced, hrow⟩ := placePriced_local
    (o := d.order env s₄.nextId applied bal (orderTotal d.subtotal (discountOf d applied)
      d.prorationCredit)) hid.base (Nat.lt_succ_self _) (hid.self.trans hblank) rfl d.topup_pos
    (fun hcode => by rw [Draft.order, hempty hcode, map_none])
    (fun hnorm hcode => by
      obtain ⟨a, ha⟩ := hsome hnorm hcode
      exact ⟨a.couponId, by rw [Draft.order, ha, map_some]⟩) h
  refine (hid.trans hplaced).progress hs hagrees ?_ fun o' ho' => ?_
  · rw [State.statusOf, hnone]
    exact .placed _
  · refine .inl ⟨rfl, ?_⟩
    rw [(hrow o' ho').userId, (hrow o' ho').kind]
    rfl

theorem place_step (hs : s.Consistent)
    (h : place env d s = .ok (o, s')) : Progress (some (d.userId, d.kind)) s s' := by
  change (purchaseGate env d >>= placeGated env d) s = _ at h
  rw [bind_ok] at h
  obtain ⟨lim, s₁, hgate, h⟩ := h
  rw [purchaseGate_ok hgate] at h
  exact placeGated_step hs h

theorem createTopup_step {userId : UUID} {amount : ℚ}
    (hs : s.Consistent) (h : createTopup env userId amount s = .ok (o, s')) :
    Progress (some (userId, .topup)) s s' := by
  simp only [createTopup, bind_ok, require_ok] at h
  obtain ⟨_, _, ⟨-, rfl⟩, _, _, ⟨-, rfl⟩, _, _, ⟨-, rfl⟩, _, _, ⟨-, rfl⟩, _, _, ⟨-, rfl⟩, h⟩ := h
  by_cases hpos : 0 < amount
  · rw [dif_pos hpos] at h
    exact place_step hs h
  · rw [dif_neg hpos, fail_ok] at h
    exact h.elim

end Pandora.Orders
