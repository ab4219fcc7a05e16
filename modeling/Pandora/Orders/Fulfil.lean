import Pandora.Orders.Store

/-!
# Capturing a reservation, and fulfilling an order

What every settled order goes through, whichever way it was paid: its reservation
and its coupon are captured, it becomes `paid`, the subscription module is asked
for what was bought, and it becomes `fulfilled`.

A top-up has nothing to ask for: its money reached the balance when it was booked.
-/

namespace Pandora.Orders

open Money Database Ledger Tx

/-- `captureReservation`: the reservation, and the coupon if the order has one. -/
def captureReservation (o : Order) : Action Unit := do
  let s ← read
  let res ← ofOption (s.reservationByOrder o.id) (.internal "order: 订单预留不存在")
  let updated ← updateReservation res.id .captured none
  require (updated = true) .stateChanged
  if o.couponId ≠ none then onPromo (Promo.capture o.id) else pure ()

def State.onlyItem (s : State) (o : Order) : Except Error Item :=
  match s.itemsOf o.id with
  | [it] => .ok it
  | _ => .error (.internal "order: 应有 1 条订单行")

/-- `itemPrice`: the price snapshot of an item. -/
def itemPrice (env : Env) (it : Item) : Except Error PriceSnapshot :=
  match it.snapshotInterval, it.snapshotIntervalCount with
  | some interval, some count =>
    match interval, it.priceId with
    | .oneTime, some priceId => do
      match ← env.priceValidity priceId with
      | some days => .ok ⟨it.priceId, it.unitAmount, interval, count, days⟩
      | none => .error (.internal "order: 订单行价格档不存在")
    | _, _ => .ok ⟨it.priceId, it.unitAmount, interval, count, none⟩
  | _, _ => .error (.internal "order: 订单行缺周期快照")

/-- The item of an order. -/
def itemOf (o : Order) : Action Item := do
  let s ← read
  ofExcept (s.onlyItem o)

/-- Ask the subscription module; what it did is on record in the same transaction. -/
def askSubscription (env : Env) (o : Order) (what : Fulfilment) : Action UUID := do
  let subscriptionId ← ofExcept (env.fulfil what)
  recordEffect ⟨o.id, what⟩
  pure subscriptionId

/-- The refund of a plan change: income given back to the user's balance. -/
def refundPosting (o : Order) (refund : ℚ) : Posting where
  kind := .planChangeRefund
  sourceType := sourceOrder
  sourceId := o.id
  memo := "换套餐剩余价值退回余额"
  legs := [debit (platformAccount .platformRevenue refMain) refund,
    credit (userAccount .userBalance o.userId) refund]

def fulfilPlanChange (env : Env) (o : Order) : Action Unit := do
  let subscriptionId ← ofOption o.subscriptionId (.internal "order: 换套餐订单缺订阅")
  let it ← itemOf o
  let planId ← ofOption it.planId (.internal "order: 换套餐订单行缺套餐或版本")
  let versionId ← ofOption it.planVersionId (.internal "order: 换套餐订单行缺套餐或版本")
  let price ← ofExcept (itemPrice env it)
  let _ ← askSubscription env o (.changePlan subscriptionId planId versionId price)
  let refund := planChangeRefund o.prorationCreditAmount o.subtotalAmount o.discountAmount
  if 0 < refund then do
    let _ ← onLedger (postGeneral env.ledger (refundPosting o refund))
  else pure ()

/-- The effect of an order by its kind; a new order learns its subscription. -/
def fulfilKind (env : Env) (o : Order) : Action (Option UUID) :=
  match o.kind with
  | .topup => pure o.subscriptionId
  | .new => do
    let it ← itemOf o
    let planId ← ofOption it.planId (.internal "order: 新购订单行缺套餐或版本")
    let versionId ← ofOption it.planVersionId (.internal "order: 新购订单行缺套餐或版本")
    let price ← ofExcept (itemPrice env it)
    let subscriptionId ← askSubscription env o (.provision planId versionId price)
    pure (some subscriptionId)
  | .renewal => do
    let subscriptionId ← ofOption o.subscriptionId (.internal "order: 续费订单缺订阅")
    let it ← itemOf o
    let price ← ofExcept (itemPrice env it)
    let _ ← askSubscription env o (.renew subscriptionId price)
    pure o.subscriptionId
  | .upgrade => do
    fulfilPlanChange env o
    pure o.subscriptionId
  | .stack => do
    let subscriptionId ← ofOption o.subscriptionId (.internal "order: 叠加订单缺订阅")
    let it ← itemOf o
    let versionId ← ofOption it.planVersionId (.internal "order: 叠加订单行缺版本")
    let price ← ofExcept (itemPrice env it)
    let _ ← askSubscription env o (.stack subscriptionId versionId price)
    pure o.subscriptionId
  | .trafficReset => do
    let subscriptionId ← ofOption o.subscriptionId (.internal "order: 流量重置订单缺订阅")
    let _ ← askSubscription env o (.resetTraffic subscriptionId)
    pure o.subscriptionId

def reload (id : UUID) : Action Order := do
  let s ← read
  ofOption (s.orderById id) (.internal "order: 订单不存在")

/-- `markPaid`: what was paid is the total, the balance part included. -/
def markPaid (o : Order) : Action Order := do
  require (Check o.totalAmount) (.internal "金额超过 2 位小数")
  let ok ← updateOrder o.id .pending fun x =>
    { x with status := .paid, paidAmount := o.totalAmount }
  require (ok = true) .stateChanged
  reload o.id

def fulfil (env : Env) (o : Order) : Action Order := do
  require (o.status = .paid) .stateChanged
  let subscriptionId ← fulfilKind env o
  let ok ← updateOrder o.id .paid fun x =>
    { x with status := .fulfilled, subscriptionId := subscriptionId }
  require (ok = true) .stateChanged
  reload o.id

/-- The part of an order that the balance pays, taken at once. -/
def takeBalance (env : Env) (o : Order) : Action Unit :=
  if 0 < o.balanceApplied then do
    let _ ← onLedger (captureFromBalance env.ledger ⟨o.id, o.userId, o.balanceApplied⟩)
  else pure ()

/-- `settleZeroPay`: an order with nothing left for a channel is settled in the
transaction that placed it. -/
def settleZeroPay (env : Env) (o : Order) : Action Order := do
  captureReservation o
  takeBalance env o
  let paid ← markPaid o
  let done ← fulfil env paid
  ofExcept env.emit
  pure done

end Pandora.Orders
