import Pandora.Orders.Runs
import Pandora.Payments.Record

/-!
# What the order module leaves alone

No method of the order module writes to the payments, the cases or the settlements,
`settlePayment` apart, and none of its postings is of a kind that the payment module
books under.  `Frame` says this of two states, and composes; so a method is framed
because its statements are (`Tx.Relates`).
-/

namespace Pandora.Payments

open Money Database List
open Ledger hiding Env State Error
open Orders hiding Error Call exec runCalls

/-- The kinds that only this module posts. -/
def lateKinds : List Ledger.Kind := [.latePaymentSuspense, .latePaymentApplied]

/-- A posting of the order module. -/
def Quiet (p : Posting) : Prop := p.Unfrozen ∧ p.kind ∉ lateKinds

/-- What an intent never changes. -/
structure Intent.Keeps (i i' : Intent) : Prop where
  id : i'.id = i.id
  orderId : i'.orderId = i.orderId
  amount : i'.amount = i.amount
  surchargeAmount : i'.surchargeAmount = i.surchargeAmount

theorem Intent.Keeps.refl (i : Intent) : i.Keeps i := ⟨rfl, rfl, rfl, rfl⟩

theorem Intent.Keeps.trans (i j k : Intent) (h : i.Keeps j) (h' : j.Keeps k) : i.Keeps k :=
  ⟨h'.id.trans h.id, h'.orderId.trans h.orderId, h'.amount.trans h.amount,
    h'.surchargeAmount.trans h.surchargeAmount⟩

/-- The journal grew, by postings of other kinds than `lateKinds`. -/
def Quietly (j j' : List Record) : Prop :=
  ∃ new, j' = j ++ new ∧ ∀ r ∈ new, r.posting.kind ∉ lateKinds

theorem Quietly.refl (j : List Record) : Quietly j j := ⟨[], (append_nil j).symm, by simp⟩

theorem Quietly.trans {j₁ j₂ j₃ : List Record} (h : Quietly j₁ j₂) (h' : Quietly j₂ j₃) :
    Quietly j₁ j₃ := by
  obtain ⟨new, rfl, hnew⟩ := h
  obtain ⟨new', rfl, hnew'⟩ := h'
  exact ⟨new ++ new', append_assoc _ _ _, forall_mem_append.mpr ⟨hnew, hnew'⟩⟩

/-- What the payment module looks at is as it was, the payments apart. -/
structure Calm (s s' : State) : Prop where
  lateCases : s'.payment.lateCases = s.payment.lateCases
  intents : Evolves Intent.Keeps s.payment.intents s'.payment.intents
  settlements : s'.settlements = s.settlements
  journal : Quietly s.ledger.journal s'.ledger.journal
  nextId : s.nextId ≤ s'.nextId

theorem Calm.refl (s : State) : Calm s s := ⟨rfl, .refl .refl _, rfl, .refl _, le_rfl⟩

theorem Calm.trans {s₁ s₂ s₃ : State} (h : Calm s₁ s₂) (h' : Calm s₂ s₃) : Calm s₁ s₃ :=
  ⟨h'.lateCases.trans h.lateCases, h.intents.trans Intent.Keeps.trans h'.intents,
    h'.settlements.trans h.settlements, h.journal.trans h'.journal, h.nextId.trans h'.nextId⟩

/-- The payments, too, are as they were. -/
structure Frame (s s' : State) : Prop extends Calm s s' where
  payments : s'.payment.payments = s.payment.payments

instance : Std.Refl Frame := ⟨fun s => ⟨.refl s, rfl⟩⟩

instance : IsTrans State Frame :=
  ⟨fun _ _ _ h h' => ⟨h.toCalm.trans h'.toCalm, h'.payments.trans h.payments⟩⟩

/-- A body that keeps the ledger's invariants and the frame. -/
abbrev Framed {α : Type} (m : Action α) : Prop := Tx.Relates (fun s => s.ledger.Kept) Frame m

/-! ## Statements -/

theorem framed_write {f : State → State} (h : ∀ s, (f s).ledger = s.ledger ∧
    (f s).payment = s.payment ∧ (f s).settlements = s.settlements ∧ s.nextId ≤ (f s).nextId) :
    Framed (Tx.write f) := by
  refine .write fun s hs => ?_
  obtain ⟨hledger, hpayment, hsettled, hid⟩ := h s
  rw [hledger]
  refine ⟨hs, ⟨⟨by rw [hpayment], ?_, hsettled, ?_, hid⟩, by rw [hpayment]⟩⟩
  · rw [hpayment]
    exact .refl .refl _
  · rw [hledger]
    exact .refl _

theorem framed_onPromo {α : Type} {m : Tx Promo.State Promo.Error α} : Framed (onPromo m) := by
  intro s a s' hs h
  obtain ⟨p, -, rfl⟩ := onPromo_ok.mp h
  exact ⟨hs, ⟨⟨rfl, .refl .refl _, rfl, .refl _, le_rfl⟩, rfl⟩⟩

theorem framed_onLedger {α : Type} {m : Tx Ledger.State Ledger.Error α}
    (hm : ∀ ⦃l a l'⦄, l.Sound → m l = .ok (a, l') → Changes Quiet l l') : Framed (onLedger m) := by
  intro s a s' hs h
  obtain ⟨l, hl, rfl⟩ := onLedger_ok.mp h
  have hchanges := hm hs.sound hl
  obtain ⟨new, hjournal, hnew⟩ := hchanges.journal hs.sound
  refine ⟨(hchanges.mono fun _ hp => hp.1).kept hs, ⟨⟨rfl, .refl .refl _, rfl,
    ⟨new, hjournal, fun r hr => ?_⟩, le_rfl⟩, rfl⟩⟩
  rcases hnew r hr with hquiet | hded
  · exact hquiet.2
  · intro hlate
    simp only [lateKinds, mem_cons, not_mem_nil, or_false] at hlate
    rcases hlate with hkind | hkind <;> rw [hkind] at hded <;> exact absurd hded (by decide)

theorem framed_post {env : Ledger.Env} {p : Posting} (hp : Quiet p) :
    Framed (onLedger (postGeneral env p)) :=
  framed_onLedger fun _ _ _ hs h => postGeneral_changes hs hp h

variable {id : UUID}

theorem framed_updateReservation {to_ : ReservationState} {reason : Option String} :
    Framed (updateReservation id to_ reason) :=
  .bind .read fun _ => .bind (framed_write fun _ => ⟨rfl, rfl, rfl, le_rfl⟩) fun _ => .pure

theorem framed_updateOrder {from_ : Status} {change : Order → Order} :
    Framed (updateOrder id from_ change) :=
  .bind .read fun _ => .bind (framed_write fun _ => ⟨rfl, rfl, rfl, le_rfl⟩) fun _ => .pure

theorem framed_recordEffect {e : Effect} : Framed (recordEffect e) :=
  framed_write fun _ => ⟨rfl, rfl, rfl, le_rfl⟩

variable {o : Order} {env : Env} {d : Draft} {status : IntentStatus} {reason code : String}
  {userId orderId : UUID} {total : ℚ}

theorem framed_placeOrder : Framed (placeOrder o) :=
  .bind (.bind .require fun _ => .bind .require fun _ => .bind .read fun _ =>
    .bind .require fun _ => framed_write fun _ => ⟨rfl, rfl, rfl, le_rfl⟩) fun _ =>
  framed_write fun _ => ⟨rfl, rfl, rfl, Nat.le_succ _⟩

theorem framed_placeItem {item : Option ItemData} : Framed (placeItem o item) := by
  cases item with
  | none => exact .pure
  | some =>
    exact .bind .require fun _ =>
      framed_write fun _ => ⟨rfl, rfl, rfl, le_rfl⟩

theorem evolves_closeOrderIntents {t : Tables} {except : Option UUID} :
    Evolves Intent.Keeps t.intents (t.closeOrderIntents orderId except status).intents := by
  refine .map fun i _ => ?_
  split_ifs
  · exact ⟨rfl, rfl, rfl, rfl⟩
  · exact .refl i

theorem framed_closeOrderIntents : Framed (closeOrderIntents orderId status) :=
  .write fun _ hs => ⟨hs, ⟨⟨rfl, evolves_closeOrderIntents, rfl, .refl _, le_rfl⟩, rfl⟩⟩

/-! ## Fulfilling -/

theorem framed_captureReservation : Framed (captureReservation o) :=
  .bind .read fun _ => .bind .ofOption fun _ =>
    .bind framed_updateReservation fun _ => .bind .require fun _ =>
      .ite framed_onPromo .pure

theorem framed_itemOf : Framed (itemOf o) := .bind .read fun _ => .ofExcept

theorem framed_askSubscription {what : Fulfilment} : Framed (askSubscription env o what) :=
  .bind .ofExcept fun _ => .bind framed_recordEffect fun _ => .pure

theorem framed_fulfilPlanChange : Framed (fulfilPlanChange env o) :=
  .bind .ofOption fun _ => .bind framed_itemOf fun _ => .bind .ofOption fun _ =>
    .bind .ofOption fun _ => .bind .ofExcept fun _ =>
      .bind framed_askSubscription fun _ =>
        .ite (.bind (framed_post ⟨unfrozen_refundPosting, by simp [refundPosting, lateKinds]⟩)
          fun _ => .pure) .pure

theorem framed_fulfilKind : Framed (fulfilKind env o) := by
  unfold fulfilKind
  cases o.kind with
  | topup => exact .pure
  | new =>
    exact .bind framed_itemOf fun _ => .bind .ofOption fun _ => .bind .ofOption
      fun _ => .bind .ofExcept fun _ => .bind framed_askSubscription fun _ => .pure
  | renewal =>
    exact .bind .ofOption fun _ => .bind framed_itemOf fun _ => .bind .ofExcept
      fun _ => .bind framed_askSubscription fun _ => .pure
  | upgrade => exact .bind framed_fulfilPlanChange fun _ => .pure
  | stack =>
    exact .bind .ofOption fun _ => .bind framed_itemOf fun _ => .bind .ofOption
      fun _ => .bind .ofExcept fun _ => .bind framed_askSubscription fun _ => .pure
  | trafficReset =>
    exact .bind .ofOption fun _ => .bind framed_askSubscription fun _ => .pure

theorem framed_reload : Framed (reload id) := .bind .read fun _ => .ofOption

theorem framed_markPaid : Framed (markPaid o) :=
  .bind .require fun _ => .bind framed_updateOrder fun _ =>
    .bind .require fun _ => framed_reload

theorem framed_fulfil : Framed (fulfil env o) :=
  .bind .require fun _ => .bind framed_fulfilKind fun _ =>
    .bind framed_updateOrder fun _ => .bind .require fun _ => framed_reload

theorem framed_takeBalance : Framed (takeBalance env o) :=
  .ite (.bind (framed_onLedger fun _ _ _ hs => captureFromBalance_changes hs) fun _ => .pure) .pure

theorem framed_settleZeroPay : Framed (settleZeroPay env o) :=
  .bind framed_captureReservation fun _ => .bind framed_takeBalance fun _ =>
    .bind framed_markPaid fun _ => .bind framed_fulfil fun _ =>
      .bind .ofExcept fun _ => .pure

theorem framed_paidHook : Framed (paidHook env o) :=
  .ite (.bind .ofExcept fun _ => framed_onLedger fun _ _ _ hs h =>
    forEach_postGeneral_changes (fun _ : UUID × ℚ =>
      ⟨unfrozen_accrualPosting, by simp [accrualPosting, lateKinds]⟩) hs h)
    .pure

/-! ## Placing -/

theorem framed_reserveCoupon : Framed (reserveCoupon env d code o total) :=
  .ite .pure (.bind framed_onPromo fun _ => .bind .ofOption fun _ =>
    .bind .require fun _ => .bind .require fun _ => .require)

theorem framed_freezeBalance : Framed (freezeBalance env o) :=
  .ite (.bind (framed_onLedger fun _ _ _ => holdForOrder_changes) fun _ => .pure) .pure

theorem framed_placePriced : Framed (placePriced env d code o total) :=
  .bind framed_placeOrder fun _ => .bind framed_reserveCoupon fun _ =>
    .bind framed_placeItem fun _ => .bind framed_freezeBalance fun _ =>
      .bind .ofExcept fun _ => .bind (.ite framed_settleZeroPay .pure) fun _ =>
        .bind (.ite .ofExcept .pure) fun _ => .pure

theorem framed_place : Framed (place env d) :=
  .bind (.of_same fun _ _ _ => purchaseGate_ok) fun _ =>
    .bind (.of_same fun _ _ _ h => (evaluateCoupon_ok h).1) fun _ =>
      .bind (.of_same fun _ _ _ => balanceFor_ok) fun _ =>
        .bind (.of_same fun _ _ _ => checkUnpaid_ok) fun _ => .bind .require fun _ =>
          .bind .ofExcept fun _ =>
            .bind (.bind .read fun _ => .bind (framed_write fun _ => ⟨rfl, rfl, rfl, Nat.le_succ _⟩)
              fun _ => .pure) fun _ => framed_placePriced

theorem framed_createTopup {amount : ℚ} : Framed (createTopup env userId amount) := by
  refine .bind .require fun _ => .bind .require fun _ => .bind .require fun _ =>
    .bind .require fun _ => .bind .require fun _ => ?_
  split
  · exact framed_place
  · exact .fail

/-! ## Releasing -/

theorem framed_releaseBalance : Framed (releaseBalance env o reason) :=
  .ite (.bind (framed_onLedger fun _ _ _ hs => releaseOrderHold_changes hs) fun _ => .require) .pure

theorem framed_releaseOrder {to_ : Status} : Framed (releaseOrder env o to_ reason) :=
  .bind .require fun _ => .bind .read fun _ => .bind .ofOption fun _ =>
    .bind .require fun _ => .bind framed_updateReservation fun _ =>
      .bind .require fun _ => .bind (.ite framed_onPromo .pure) fun _ =>
        .bind .pure fun _ => .bind framed_releaseBalance fun _ =>
          .bind framed_closeOrderIntents fun _ => .bind framed_updateOrder fun _ =>
            .bind .require fun _ => .bind .ofExcept fun _ => .bind .ofExcept fun _ =>
              framed_reload

theorem framed_cancel {caller : Principal} {input : CancelInput} :
    Framed (cancel env caller input) := by
  refine .bind .require fun _ => .bind .ofExcept fun _ => .bind .read fun _ =>
    .bind .ofOption fun o => .bind .require fun _ => ?_
  cases o.status with
  | cancelled => exact .pure
  | expired | paid | fulfilled => exact .fail
  | pending =>
    exact .bind .require fun _ => .bind framed_releaseOrder fun _ => .pure

theorem framed_expireOne : Framed (expireOne env id) := by
  refine .bind .read fun s => ?_
  cases s.orderById id with
  | none => exact .pure
  | some o => exact .ite .pure (.bind framed_releaseOrder fun _ => .pure)

theorem framed_cancelUserPending : Framed (cancelUserPending env userId) :=
  .bind .read fun _ =>
    .forEach (fun _ => .bind framed_releaseOrder fun _ => .pure) _

end Pandora.Payments
