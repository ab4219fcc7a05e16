import Pandora.Orders.Placed

/-!
# Runs of the order module

A run is a list of calls, each a transaction of its own: it commits, or it leaves no
trace.  The calls are those of this module, and what other modules do to the tables
that an order shares with them: coupons are created and switched, and money is booked
for other reasons.
-/

namespace Pandora.Orders

open Money Database Ledger Tx

/-- A posting of another module: it freezes nothing, and its kind is none that an order
or a payment is booked under. -/
structure ForeignPosting where
  posting : Posting
  unfrozen : posting.Unfrozen
  foreign : posting.kind ∉ [.balanceTopup, .latePaymentSuspense, .latePaymentApplied]

/-- What the payment module does with the money for an archived plan, given the status
the order was found in. -/
structure ArchivedSettlement where
  settle : Status → Action Unit
  neutral : ∀ st, Neutral (settle st)

/-- The calls. -/
inductive Call
  | place (d : Draft)
  | createTopup (userId : UUID) (amount : ℚ)
  | settlePayment (p : SettleInput)
  | cancel (caller : Principal) (input : CancelInput)
  | expireOne (id : UUID)
  | cancelUserPending (userId : UUID)
  | closeArchivedOrder (orderId : UUID) (archived : ArchivedSettlement)
  | createCoupon (code : String) (spec : Promo.Spec)
  | setCouponStatus (id : UUID) (status : Promo.CouponStatus)
  | post (p : ForeignPosting)
  | adjustBalance (caller : Option Principal) (a : Adjustment)

/-- The method behind a call; answers are not looked at. -/
def exec (c : Env × Call) : Action Unit :=
  match c.2 with
  | .place d => do let _ ← Orders.place c.1 d
  | .createTopup userId amount => do let _ ← Orders.createTopup c.1 userId amount
  | .settlePayment p => Orders.settlePayment c.1 p
  | .cancel caller input => do let _ ← Orders.cancel c.1 caller input
  | .expireOne id => do let _ ← Orders.expireOne c.1 id
  | .cancelUserPending userId => Orders.cancelUserPending c.1 userId
  | .closeArchivedOrder orderId archived => Orders.closeArchivedOrder c.1 orderId archived.settle
  | .createCoupon code spec => onPromo do let _ ← Promo.createCoupon c.1.promo code spec
  | .setCouponStatus id status => onPromo (Promo.setStatus c.1.promo id status)
  | .post p => onLedger do let _ ← postGeneral c.1.ledger p.posting
  | .adjustBalance caller a => onLedger do let _ ← Ledger.adjustBalance c.1.ledger caller a

/-- The tables after the calls, from a new installation. -/
def runCalls (calls : List (Env × Call)) : State := Tx.run exec State.empty calls

/-! ## Calls of other modules -/

variable {s : State}

theorem promo_step (hs : s.Consistent) {p : Promo.State} (hchange : Promo.Change s.promo p)
    (hsame : p.redemptions = s.promo.redemptions) : Progress none s { s with promo := p } := by
  have hstep : Promo.OrderStep s.promo p UUID.nil (s.promo.redemptionByOrder UUID.nil) := by
    refine ⟨hchange.counted hs.base.promo, fun i => ?_⟩
    unfold Promo.State.redemptionByOrder
    rw [hsame]
    split_ifs with hi
    · rw [hi]
    · rfl
  exact (promo_local hs.base hstep).unchanged hs

theorem adjustBalance_step {env : Ledger.Env} {caller : Option Principal} {a : Adjustment}
    {s s' : Ledger.State} {r : ℚ × UUID} (hs : s.Kept)
    (h : Ledger.adjustBalance env caller a s = .ok (r, s')) (j : UUID) :
    ∃ reason, Ledger.OrderStep s s' j (s.holdByOrder j) [⟨r.2, adjustPosting a reason⟩] := by
  obtain ⟨reason, hspec⟩ := adjustBalance_spec hs.sound h
  have hchange : Changes Posting.Unfrozen s s' := .single (.adjusted hspec)
  exact ⟨reason, orderStep_of_holds (hchange.kept hs) hspec.holds hspec.journal j⟩

/-! ## Every call is a step -/

/-- The user and the kind of the order that a call places. -/
def Call.placed : Call → Option (UUID × Kind)
  | .place d => some (d.userId, d.kind)
  | .createTopup userId _ => some (userId, .topup)
  | _ => none

section

variable {c : Env × Call} {s' : State} {u : Unit} (hs : s.Consistent) (h : exec c s = .ok (u, s'))
include hs h

theorem exec_progress : Progress c.2.placed s s' := by
  obtain ⟨env, call⟩ := c
  unfold exec at h
  cases call with
  | place =>
    obtain ⟨_, h⟩ := of_bind_pure h
    exact place_step hs h
  | createTopup =>
    obtain ⟨_, h⟩ := of_bind_pure h
    exact createTopup_step hs h
  | settlePayment => exact settlePayment_step hs h
  | cancel =>
    obtain ⟨_, h⟩ := of_bind_pure h
    exact cancel_step hs h
  | expireOne =>
    obtain ⟨_, h⟩ := of_bind_pure h
    exact expireOne_step hs h
  | cancelUserPending => exact cancelUserPending_step hs h
  | closeArchivedOrder orderId archived => exact closeArchivedOrder_step archived.neutral hs h
  | createCoupon =>
    simp only [onPromo_ok] at h
    obtain ⟨p, h, rfl⟩ := h
    obtain ⟨_, h⟩ := of_bind_pure h
    obtain ⟨hchange, hsame⟩ := Promo.createCoupon_change h
    exact promo_step hs hchange hsame
  | setCouponStatus =>
    simp only [onPromo_ok] at h
    obtain ⟨p, h, rfl⟩ := h
    obtain ⟨hchange, hsame⟩ := Promo.setStatus_change h
    exact promo_step hs hchange hsame
  | post p =>
    simp only [onLedger_ok] at h
    obtain ⟨l, h, rfl⟩ := h
    obtain ⟨_, h⟩ := of_bind_pure h
    have hstep := postGeneral_step hs.base.ledger p.unfrozen h UUID.nil
    refine (ledger_neutral hs.base hstep fun r hr => ?_).unchanged hs
    rw [List.mem_singleton.mp hr]
    exact fun hk : p.posting.kind = _ => p.foreign (by simp [hk])
  | adjustBalance =>
    simp only [onLedger_ok] at h
    obtain ⟨l, h, rfl⟩ := h
    obtain ⟨_, h⟩ := of_bind_pure h
    obtain ⟨reason, hstep⟩ := adjustBalance_step hs.base.ledger h UUID.nil
    exact (ledger_neutral hs.base hstep (by simp [adjustPosting])).unchanged hs

theorem exec_step : Step s s' := (exec_progress hs h).toStep

end

theorem runCalls_consistent (calls : List (Env × Call)) : (runCalls calls).Consistent :=
  run_invariant State.consistent_empty fun _ _ _ _ _ hs h => (exec_step hs h).consistent

theorem runCalls_moves (calls more : List (Env × Call)) (i : UUID) :
    Moves ((runCalls calls).statusOf i) ((runCalls (calls ++ more)).statusOf i) := by
  rw [runCalls, runCalls, run_append]
  exact run_relation (I := State.Consistent) (R := fun s s' => Moves (s.statusOf i) (s'.statusOf i))
    (runCalls_consistent calls) (fun _ => .stays _) (fun _ _ _ => Moves.trans)
    (fun _ _ _ _ hs h => (exec_step hs h).consistent) fun _ _ _ _ hs h => (exec_step hs h).moves i

/-- **Order, reservation, coupon and frozen balance agree.**  After any calls, every
order is in one of three stages: its reservation, its coupon if it has one, and its
frozen balance if it has one are all held while it is pending, all captured once it is
fulfilled, and all released once it was cancelled or has expired.  No order is seen as
paid only.  It was fulfilled once if it is fulfilled, and otherwise never; and whatever
is called afterwards, an order that is not pending keeps its status. -/
theorem order_parts_agree (calls : List (Env × Call)) :
    (∀ o ∈ (runCalls calls).orders, ∃ stage, o.status.stage = some stage ∧
      ((runCalls calls).reservationByOrder o.id).map (·.state) = some stage ∧
      o.CouponAgrees stage ((runCalls calls).promo.redemptionByOrder o.id) ∧
      o.HoldAgrees stage ((runCalls calls).ledger.holdByOrder o.id) ∧
      (runCalls calls).effectsOf o.id = if o.status = .fulfilled then 1 else 0) ∧
    ∀ more, ∀ o ∈ (runCalls calls).orders, o.status ≠ .pending →
      (runCalls (calls ++ more)).statusOf o.id = some o.status := by
  have hs := runCalls_consistent calls
  refine ⟨fun o ho => ?_, fun more o ho hfinal => ?_⟩
  · obtain ⟨stage, h⟩ := hs.agreesWith (hs.base.orderById ho)
    exact ⟨stage, h.status, h.reservation, h.coupon, h.hold, h.effects⟩
  · have hmoves := runCalls_moves calls more o.id
    have hstatus : (runCalls calls).statusOf o.id = some o.status := by
      rw [State.statusOf, hs.base.orderById ho, Option.map_some]
    rw [hstatus] at hmoves
    exact hmoves.final hfinal

end Pandora.Orders
