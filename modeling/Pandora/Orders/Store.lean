import Pandora.Ledger.Holds
import Pandora.Orders.Amounts
import Pandora.Promo.Redeem

/-!
# The state orders live in

An order is spread over four modules.  Its own rows are the order, its item and
its reservation; the coupon it holds is a redemption of `Promo`; the balance it
froze is a hold of `Ledger`; and what it did to a subscription is recorded by the
subscription module.  One database holds them all, and a transaction writes to
any of them, so they are one state here.

Of the subscription module only what an order can see is modelled: it refuses, or
it does what it was asked and records it (`effects`).  Its answers, like those of
the catalogue, of the settings and of the audit log, belong to the environment of
a call, and nothing is assumed about them.
-/

namespace Pandora.Orders

open Money Database Tx

/-- The tables. -/
structure State where
  ledger : Ledger.State
  promo : Promo.State
  orders : List Order
  items : List Item
  reservations : List Reservation
  effects : List Effect
  settlements : List Settlement
  payment : Payments.Tables
  nextId : UUID

/-- A new installation. -/
def State.empty : State where
  ledger := .empty
  promo := .empty
  orders := []
  items := []
  reservations := []
  effects := []
  settlements := []
  payment := ⟨[], [], [], []⟩
  nextId := 1

/-- The purchase limits of the settings; zero is no limit. -/
structure Limits where
  maxUnpaidOrders : ℕ
  maxSubscriptions : ℕ

/-- What settlement reads of a subscription. -/
structure SubscriptionView where
  acceptsChange : Bool
  periodStart : Time
  planId : UUID

/-- Everything a call depends on besides the tables. -/
structure Env where
  now : Time
  orderNo : String
  ledger : Ledger.Env
  promo : Promo.Env
  /-- The limits, as the settings answer; all zero if the module is not installed. -/
  limits : Except Error Limits
  /-- Subscriptions a user holds, as the subscription module counts them. -/
  heldCount : UUID → Except Error ℕ
  /-- The least amount a channel takes. -/
  minPayment : Except Error ℚ
  planArchived : UUID → Except Error Bool
  lockSubscription : UUID → UUID → Except Error SubscriptionView
  resetPayable : Order → Except Error Bool
  /-- The validity of a price, if there is such a price. -/
  priceValidity : UUID → Except Error (Option (Option ℕ))
  /-- The answer of the subscription module to a request; the identifier is that of
  the subscription. -/
  fulfil : Fulfilment → Except Error UUID
  /-- The commissions that an order pays, if the hook is installed. -/
  accruals : Except Error (List (UUID × ℚ))
  emit : Except Error Unit
  audit : Except Error Unit

/-- Nothing is limited and nothing fails. -/
def Env.sample : Env where
  now := 0
  orderNo := "1"
  ledger := ⟨fun _ => true, fun _ => false, true, true⟩
  promo := ⟨0, fun _ => .ok none, fun _ => .ok [], .ok ()⟩
  limits := .ok ⟨0, 0⟩
  heldCount := fun _ => .ok 0
  minPayment := .ok 0
  planArchived := fun _ => .ok false
  lockSubscription := fun _ _ => .error .orderNotFound
  resetPayable := fun _ => .ok true
  priceValidity := fun _ => .ok none
  fulfil := fun _ => .ok 1
  accruals := .ok []
  emit := .ok ()
  audit := .ok ()

/-- A transaction of this module. -/
abbrev Action (α : Type) : Type := Tx State Error α

/-! ## The modules it calls -/

/-- A call of the ledger, in the same transaction. -/
def onLedger {α : Type} (m : Tx Ledger.State Ledger.Error α) : Action α :=
  mapError .ledger m |>.zoom State.ledger fun s l => { s with ledger := l }

/-- A call of the promo module, in the same transaction. -/
def onPromo {α : Type} (m : Tx Promo.State Promo.Error α) : Action α :=
  mapError .promo m |>.zoom State.promo fun s p => { s with promo := p }

@[simp] theorem onLedger_ok {α : Type} {m : Tx Ledger.State Ledger.Error α} {s s' : State} {a : α} :
    onLedger m s = .ok (a, s') ↔ ∃ l, m s.ledger = .ok (a, l) ∧ { s with ledger := l } = s' := by
  simp [onLedger]

@[simp] theorem onPromo_ok {α : Type} {m : Tx Promo.State Promo.Error α} {s s' : State} {a : α} :
    onPromo m s = .ok (a, s') ↔ ∃ p, m s.promo = .ok (a, p) ∧ { s with promo := p } = s' := by
  simp [onPromo]

/-! ## Statements -/

/-- `OrderByID`; the lock is the order of transactions. -/
def State.orderById (s : State) (id : UUID) : Option Order := s.orders.find? (·.id = id)

def State.reservationByOrder (s : State) (orderId : UUID) : Option Reservation :=
  s.reservations.find? (·.orderId = orderId)

/-- `ItemsByOrders`, for one order. -/
def State.itemsOf (s : State) (orderId : UUID) : List Item := s.items.filter (·.orderId = orderId)

/-- The checks of the table `orders` on the amounts and the shape of a row. -/
structure Order.Shaped (o : Order) : Prop where
  nonneg : 0 ≤ o.subtotalAmount ∧ 0 ≤ o.discountAmount ∧ 0 ≤ o.prorationCreditAmount ∧
    0 ≤ o.totalAmount ∧ 0 ≤ o.balanceApplied ∧ 0 ≤ o.payableAmount ∧
    0 ≤ o.waivedAmount ∧ o.waivedAmount ≤ fromCents 99
  payable : o.payableAmount = o.totalAmount - o.balanceApplied
  total : o.totalAmount =
    max (o.subtotalAmount - o.discountAmount - o.prorationCreditAmount) 0 - o.waivedAmount
  discount : o.discountAmount ≤ o.subtotalAmount
  credit : o.prorationCreditAmount = 0 ∨ o.kind = .upgrade
  waived : o.waivedAmount = 0 ∨ o.kind = .upgrade
  topup : o.kind = .topup → o.discountAmount = 0 ∧ o.balanceApplied = 0 ∧ o.couponId = none ∧
    o.subscriptionId = none ∧ o.createdBy = none
  target : o.kind ∈ [.renewal, .upgrade, .stack, .trafficReset] → o.subscriptionId.isSome = true

theorem Order.shaped_iff (o : Order) : o.Shaped ↔
    (0 ≤ o.subtotalAmount ∧ 0 ≤ o.discountAmount ∧ 0 ≤ o.prorationCreditAmount ∧
      0 ≤ o.totalAmount ∧ 0 ≤ o.balanceApplied ∧ 0 ≤ o.payableAmount ∧
      0 ≤ o.waivedAmount ∧ o.waivedAmount ≤ fromCents 99) ∧
    o.payableAmount = o.totalAmount - o.balanceApplied ∧ o.totalAmount =
      max (o.subtotalAmount - o.discountAmount - o.prorationCreditAmount) 0 - o.waivedAmount ∧
    o.discountAmount ≤ o.subtotalAmount ∧ (o.prorationCreditAmount = 0 ∨ o.kind = .upgrade) ∧
    (o.waivedAmount = 0 ∨ o.kind = .upgrade) ∧
    (o.kind = .topup → o.discountAmount = 0 ∧ o.balanceApplied = 0 ∧ o.couponId = none ∧
      o.subscriptionId = none ∧ o.createdBy = none) ∧
    (o.kind ∈ [.renewal, .upgrade, .stack, .trafficReset] → o.subscriptionId.isSome = true) :=
  ⟨fun ⟨h₁, h₂, h₃, h₄, h₅, h₆, h₇, h₈⟩ => ⟨h₁, h₂, h₃, h₄, h₅, h₆, h₇, h₈⟩,
    fun ⟨h₁, h₂, h₃, h₄, h₅, h₆, h₇, h₈⟩ => ⟨h₁, h₂, h₃, h₄, h₅, h₆, h₇, h₈⟩⟩

instance (o : Order) : Decidable o.Shaped := decidable_of_iff _ o.shaped_iff.symm

/-- An order that is not finished. -/
def Order.isOpen (o : Order) : Prop := o.status = .pending ∨ o.status = .paid

instance (o : Order) : Decidable o.isOpen := inferInstanceAs (Decidable (_ ∨ _))

/-- The partial unique indexes on open changes and on open resets of a subscription. -/
def Order.Conflicts (o x : Order) : Prop :=
  x.isOpen ∧ x.subscriptionId = o.subscriptionId ∧
    ((o.kind.isChange = true ∧ x.kind.isChange = true) ∨
      (o.kind = .trafficReset ∧ x.kind = .trafficReset))

instance (o x : Order) : Decidable (o.Conflicts x) := inferInstanceAs (Decidable (_ ∧ _))

/-- What a duplicate row is taken for. -/
def duplicateError (kind : Kind) (orderNo : String) : Error :=
  if kind.isChange = true then .openChange
  else if kind = .trafficReset then .openReset
  else .internal ("order: 订单号碰撞 " ++ orderNo)

/-- `CreateOrder`, with the refusals of `placeOrder`. -/
def createOrder (o : Order) : Action Unit := do
  require (∀ d ∈ [o.subtotalAmount, o.discountAmount, o.prorationCreditAmount, o.waivedAmount,
    o.totalAmount, o.balanceApplied, o.payableAmount, o.paidAmount], Check d)
    (.internal "金额超过 2 位小数")
  require o.Shaped (.database "orders")
  let s ← read
  require (∀ x ∈ s.orders, x.orderNo ≠ o.orderNo ∧ ¬o.Conflicts x)
    (duplicateError o.kind o.orderNo)
  write fun s => { s with orders := s.orders ++ [o] }

/-- `CreateReservation`: held, until the order's deadline. -/
def createReservation (o : Order) : Action Unit :=
  write fun s => { s with
    reservations := s.reservations ++ [⟨s.nextId, o.id, o.userId, .held, o.expiresAt, none⟩]
    nextId := s.nextId + 1 }

def createItem (orderId : UUID) (it : ItemData) : Action Unit := do
  require (Check it.unitAmount ∧ Check it.lineAmount) (.internal "金额超过 2 位小数")
  write fun s => { s with items := s.items ++ [⟨it, orderId⟩] }

/-- A row of `orders`, if it has the identifier and the status, changed. -/
def Order.updateIf (id : UUID) (fromStatus : Status) (change : Order → Order) (o : Order) : Order :=
  if o.id = id ∧ o.status = fromStatus then change o else o

/-- `UpdateOrder`: the row with the identifier, if it is still in the status; every
update counts the version up. -/
def updateOrder (id : UUID) (fromStatus : Status) (change : Order → Order) : Action Bool := do
  let s ← read
  write fun s => { s with
    orders := s.orders.map (Order.updateIf id fromStatus fun o =>
      { change o with stateVersion := o.stateVersion + 1 }) }
  pure (decide (∃ o ∈ s.orders, o.id = id ∧ o.status = fromStatus))

/-- A row of `order_reservations`, if it has the identifier and is held, changed. -/
def Reservation.updateIf (id : UUID) (to_ : ReservationState) (reason : Option String)
    (r : Reservation) : Reservation :=
  if r.id = id ∧ r.state = .held then { r with state := to_, releaseReason := reason } else r

/-- `UpdateReservation`, from held. -/
def updateReservation (id : UUID) (to_ : ReservationState) (reason : Option String) :
    Action Bool := do
  let s ← read
  write fun s => { s with
    reservations := s.reservations.map (Reservation.updateIf id to_ reason) }
  pure (decide (∃ r ∈ s.reservations, r.id = id ∧ r.state = .held))

/-- `CloseOrderIntents`, when an order is released. -/
def closeOrderIntents (orderId : UUID) (status : Payments.IntentStatus) : Action Unit :=
  write fun s => { s with payment := s.payment.closeOrderIntents orderId none status }

/-- The record a fulfilment leaves in the subscription module. -/
def recordEffect (e : Effect) : Action Unit :=
  write fun s => { s with effects := s.effects ++ [e] }

end Pandora.Orders
