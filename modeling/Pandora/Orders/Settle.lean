import Pandora.Orders.Checkout

/-!
# Settling and releasing

The other four ways an order moves.  `settlePayment` is called by the payment
module when a channel collected money for the order; it refuses with `notPayable`
if the order cannot take the money any more, and the payment module then keeps the
money elsewhere.  `cancel`, `expireOne` and `closeArchivedOrder` release a pending
order, each for its own reason.
-/

namespace Pandora.Orders

open Money Database Ledger Tx

/-! ## Settling -/

structure SettleInput where
  orderId : UUID
  paymentId : UUID
  amount : ℚ
  fee : ℚ
  surcharge : ℚ
  providerCode : String

/-- The item of an order that buys a plan; the plan must still be on offer. -/
def settleItem (env : Env) (o : Order) : Action (Option Item) :=
  if o.kind.isPlan = true then do
    let it ← itemOf o
    match it.planId with
    | none => pure ()
    | some planId => do
      let archived ← ofExcept (env.planArchived planId)
      require (archived = false) (.notPayable .archivedPlan o.status)
    pure (some it)
  else pure none

/-- The subscription an order changes must still be the one it was priced for. -/
def settleSubscription (env : Env) (o : Order) (item : Option Item) : Action Unit :=
  if o.kind ∈ [.renewal, .upgrade, .stack, .trafficReset] then do
    let subscriptionId ← ofOption o.subscriptionId (.internal "order: 订单缺订阅")
    let sub ← ofExcept (env.lockSubscription subscriptionId o.userId)
    let refusal := Error.notPayable .ineligibleSubscription o.status
    require (o.kind = .trafficReset ∨ sub.acceptsChange = true) refusal
    require (o.kind = .upgrade → ¬o.createdAt < sub.periodStart) refusal
    require (o.kind = .renewal ∨ o.kind = .stack → ∃ it ∈ item, it.planId = some sub.planId)
      refusal
    if o.kind = .trafficReset then do
      let payable ← ofExcept (env.resetPayable o)
      require (payable = true) refusal
    else pure ()
  else pure ()

/-- A top-up: what the channel collected, to the user's balance. -/
def topupPosting (o : Order) (p : SettleInput) : Posting where
  kind := .balanceTopup
  sourceType := sourceOrder
  sourceId := o.id
  memo := "余额充值"
  legs :=
    legIfPositive (debit (platformAccount .channelCash p.providerCode)
      (p.amount + p.surcharge - p.fee)) ++
    legIfPositive (debit (platformAccount .platformFeeExpense p.providerCode) p.fee) ++
    [credit (userAccount .userBalance o.userId) p.amount] ++
    legIfPositive (credit (platformAccount .platformRevenue refSurcharge) p.surcharge)

/-- The settlement of any other order. -/
def orderPaidInput (o : Order) (p : SettleInput) : OrderPaid :=
  ⟨o.id, o.userId, o.totalAmount, p.amount, p.fee, p.surcharge, p.providerCode⟩

def postSettlement (env : Env) (o : Order) (p : SettleInput) : Action Unit :=
  if o.kind = .topup then do
    let _ ← onLedger (postGeneral env.ledger (topupPosting o p))
  else do
    let _ ← mapError
      (fun e => if e = .ledger .holdReleased then .notPayable .releasedOrder o.status else e)
      (onLedger (postOrderPaid env.ledger (orderPaidInput o p)))

/-- A commission accrued by an order. -/
def accrualPosting (o : Order) (userId : UUID) (amount : ℚ) : Posting where
  kind := .commissionAccrued
  sourceType := sourceOrder
  sourceId := o.id
  legs := [debit (platformAccount .platformRevenue refMain) amount,
    credit (userAccount .userCommissionPending userId) amount]

/-- `OnOrderPaid`, as the ledger sees it. -/
def paidHook (env : Env) (o : Order) : Action Unit :=
  if o.kind ≠ .topup ∧ 0 < o.totalAmount then do
    let accruals ← ofExcept env.accruals
    onLedger (forEach (fun a : UUID × ℚ => do
      let _ ← postGeneral env.ledger (accrualPosting o a.1 a.2)) accruals)
  else pure ()

/-- The audit row of a settlement. -/
def auditSettlement (env : Env) (p : SettleInput) : Action Unit := do
  ofExcept env.audit
  write fun s => { s with
    settlements := s.settlements ++ [⟨p.orderId, p.paymentId, p.amount, p.fee, p.surcharge,
      p.providerCode⟩] }

def settlePayment (env : Env) (p : SettleInput) : Action Unit := do
  let s ← read
  let o ← ofOption (s.orderById p.orderId) .orderNotFound
  require (o.status ≠ .paid ∧ o.status ≠ .fulfilled) (.notPayable .excessCapture o.status)
  require (o.status ≠ .cancelled ∧ o.status ≠ .expired) (.notPayable .releasedOrder o.status)
  require (0 < o.payableAmount ∧ p.amount = o.payableAmount) .amountMismatch
  let item ← settleItem env o
  settleSubscription env o item
  captureReservation o
  postSettlement env o p
  let paid ← markPaid o
  paidHook env o
  let _ ← fulfil env paid
  ofExcept env.emit
  auditSettlement env p

/-! ## Releasing -/

/-- Give the frozen balance of an order back; there must be some if the order says
so. -/
def releaseBalance (env : Env) (o : Order) (reason : String) : Action Unit :=
  if 0 < o.balanceApplied then do
    let released ← onLedger (releaseOrderHold env.ledger o.id reason)
    require (released = true) (.internal "order: 有余额抵扣但没有可释放的冻结")
  else pure ()

/-- Give the coupon of an order back, if it has one. -/
def releaseCoupon (o : Order) (reason : String) : Action Unit :=
  if o.couponId ≠ none then onPromo (Promo.release o.id reason) else pure ()

/-- The row of a released order; only a cancelled one has a reason. -/
def Order.releaseTo (to_ : Status) (reason : String) (o : Order) : Order :=
  { o with
    status := to_
    cancelReason := if to_ = .cancelled then some reason else o.cancelReason }

/-- `releaseOrderWith`: the reservation, the coupon, `beforeHold`, the balance, the
intents, and the order, in this sequence. -/
def releaseOrderWith (env : Env) (o : Order) (to_ : Status) (reason : String)
    (beforeHold : Action Unit) : Action Order := do
  require (o.status = .pending) .stateChanged
  let s ← read
  let res ← ofOption (s.reservationByOrder o.id) (.internal "order: 订单预留不存在")
  require (res.state = .held) .stateChanged
  let updated ← updateReservation res.id .released (some reason)
  require (updated = true) .stateChanged
  releaseCoupon o reason
  beforeHold
  releaseBalance env o reason
  closeOrderIntents o.id (if to_ = .expired then .expired else .cancelled)
  let ok ← updateOrder o.id .pending (Order.releaseTo to_ reason)
  require (ok = true) .stateChanged
  ofExcept env.audit
  ofExcept env.emit
  reload o.id

def releaseOrder (env : Env) (o : Order) (to_ : Status) (reason : String) : Action Order :=
  releaseOrderWith env o to_ reason (pure ())

structure CancelInput where
  orderId : UUID
  admin : Bool
  reason : String
  expectedStateVersion : Option ℕ

/-- `checkReason`: 5 to 500 characters. -/
def checkReason (reason : String) : Except Error String :=
  let r := Text.trimSpace reason.toList
  if r.length < 5 ∨ 500 < r.length ∨ '\x00' ∈ r then
    .error (.invalid "reason" "请填写 5–500 字的原因")
  else .ok (String.ofList r)

/-- The reason of a cancellation: a user gives none, an administrator must. -/
def cancelReason (caller : Principal) (input : CancelInput) : Except Error String :=
  if input.admin = true then do
    ensure (caller.audience = .admin) .forbidden
    let reason ← checkReason input.reason
    ensure (input.expectedStateVersion ≠ none) (.invalid "expected_state_version" "必填")
    pure reason
  else .ok "user_cancelled"

/-- `Cancel`.  Cancelling twice is no error; the answer says whether it was. -/
def cancel (env : Env) (caller : Principal) (input : CancelInput) : Action (Order × Bool) := do
  require (caller.userId ≠ UUID.nil) .unauthorized
  let reason ← ofExcept (cancelReason caller input)
  let s ← read
  let o ← ofOption (s.orderById input.orderId) .notFound
  require (input.admin = true ∨ o.userId = caller.userId) .notFound
  match o.status with
  | .cancelled => pure (o, true)
  | .expired => fail .orderExpired
  | .paid => fail .alreadyPaid
  | .fulfilled => fail .alreadyPaid
  | .pending => do
    require (input.admin = true → input.expectedStateVersion = some o.stateVersion) .stateChanged
    let released ← releaseOrder env o .cancelled reason
    pure (released, false)

/-- `expireOne`; the answer says whether the order was released. -/
def expireOne (env : Env) (id : UUID) : Action Bool := do
  let s ← read
  match s.orderById id with
  | none => pure false
  | some o =>
    if o.status ≠ .pending ∨ env.now < o.expiresAt then pure false
    else do
      let _ ← releaseOrder env o .expired "expired"
      pure true

/-- `CancelUserPending`: every pending order of a user, when the account is deleted. -/
def cancelUserPending (env : Env) (userId : UUID) : Action Unit := do
  let s ← read
  forEach (fun o => do let _ ← releaseOrder env o .cancelled "account_deleted")
    (s.orders.filter fun o => o.userId = userId ∧ o.status = .pending)

/-- `CloseArchivedOrder`: `settle` is what the payment module does with the money. -/
def closeArchivedOrder (env : Env) (orderId : UUID) (settle : Status → Action Unit) :
    Action Unit := do
  let s ← read
  let o ← ofOption (s.orderById orderId) .orderNotFound
  if o.status ≠ .pending then settle o.status
  else do
    let _ ← releaseOrderWith env o .cancelled "plan_archived" (settle o.status)

end Pandora.Orders
