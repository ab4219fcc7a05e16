import Pandora.Orders.Fulfil

/-!
# Placing an order

`place` is the only way an order comes into being.  In one transaction it prices
the order, divides it between balance and channel, inserts the order and its
reservation, holds the coupon, freezes the balance, and --- if nothing is left for
a channel --- settles the order at once.
-/

namespace Pandora.Orders

open Money Database Ledger Tx

/-- `PendingCounts.All`: the pending orders of a user that can still be paid. -/
def State.pendingAll (s : State) (userId : UUID) (now : Time) : ℕ :=
  s.orders.countP fun o => o.userId = userId ∧ o.status = .pending ∧ now < o.expiresAt

/-- `PendingCounts.New`: the pending new orders of a user, whatever their deadline. -/
def State.pendingNew (s : State) (userId : UUID) : ℕ :=
  s.orders.countP fun o => o.userId = userId ∧ o.status = .pending ∧ o.kind = .new

def checkSubscriptionCap (env : Env) (userId : UUID) (most : ℕ) : Action Unit := do
  let s ← read
  let held ← ofExcept (env.heldCount userId)
  let pendingNew := s.pendingNew userId
  require (held + pendingNew < most) (.tooManySubscriptions most (held + pendingNew) pendingNew)

/-- `purchaseGate`: the limits that apply, and the one on subscriptions checked. -/
def purchaseGate (env : Env) (d : Draft) : Action Limits :=
  if d.manual.isSome then pure ⟨0, 0⟩
  else do
    let lim ← ofExcept env.limits
    if lim.maxUnpaidOrders = 0 ∧ lim.maxSubscriptions = 0 then pure ⟨0, 0⟩
    else do
      if d.kind = .new ∧ 0 < lim.maxSubscriptions then
        checkSubscriptionCap env d.userId lim.maxSubscriptions
      else pure ()
      pure lim

def checkUnpaidCap (env : Env) (userId : UUID) (most : ℕ) : Action Unit :=
  if most = 0 then pure ()
  else do
    let s ← read
    let pending := s.pendingAll userId env.now
    require (pending < most) (.tooManyUnpaid pending)

/-- The cap applies to orders of the portal that a channel has to pay. -/
def checkUnpaid (env : Env) (d : Draft) (bal : BalancePlan) (lim : Limits) : Action Unit :=
  if d.manual.isSome = false ∧ 0 < bal.payable then
    checkUnpaidCap env d.userId lim.maxUnpaidOrders
  else pure ()

/-- The code of an order that may use one. -/
def couponCodeOf (d : Draft) : String :=
  if d.kind ≠ .topup ∧ d.manual.isSome = false then Promo.normalizeCode d.checkout.couponCode
  else ""

/-- The order as the promo module sees it. -/
def Draft.target (d : Draft) : Promo.Target := ⟨d.userId, d.couponPlanId, d.subtotal⟩

/-- The coupon part of `place`: the row is locked and the discount computed. -/
def evaluateCoupon (env : Env) (d : Draft) (code : String) : Action (Option Promo.Applied) :=
  if code = "" then pure none
  else do
    require (d.kind ≠ .trafficReset) (.promo .couponNotForReset)
    onPromo (Promo.lock code)
    onPromo (Promo.evaluate env.promo code d.target)

/-- The discount of an order: the coupon's, or everything if it is a gift. -/
def discountOf (d : Draft) (applied : Option Promo.Applied) : ℚ :=
  if ∃ m ∈ d.manual, m.grant = true then d.subtotal
  else (applied.map (·.discount)).getD 0

/-- An order without a part paid from the balance. -/
def allPayable (total : ℚ) : BalancePlan := ⟨0, total, 0, false, false, 0, false⟩

def balanceFor (env : Env) (d : Draft) (total : ℚ) : Action BalancePlan :=
  if d.kind = .topup ∨ ¬0 < total then pure (allPayable total)
  else
    match d.manual with
    | some m =>
      if m.grant = false ∧ m.offline = false then do
        let minPay ← ofExcept env.minPayment
        require (¬manualDueBelowMinimum total minPay) .manualBelowMinimum
        pure (allPayable total)
      else pure (allPayable total)
    | none => do
      let minPay ← ofExcept env.minPayment
      let s ← read
      let requested := d.checkout.useBalance
      let available :=
        if 0 < requested ∨ total < minPay then s.ledger.balance (userAccount .userBalance d.userId)
        else 0
      let bal := waiveSmallDue (planBalance total available requested minPay) d.allowWaive
      require (bal.belowMinimum = false) .belowMinimum
      pure bal

/-- Thirty minutes, in nanoseconds: how long an order can be paid. -/
def paymentWindow : ℤ := 30 * 60 * 1000000000

/-- The row that `place` inserts. -/
def Draft.order (d : Draft) (env : Env) (id : UUID) (applied : Option Promo.Applied)
    (bal : BalancePlan) (total : ℚ) : Order where
  id := id
  orderNo := env.orderNo
  userId := d.userId
  kind := d.kind
  status := .pending
  subtotalAmount := d.subtotal
  discountAmount := discountOf d applied
  prorationCreditAmount := d.prorationCredit
  waivedAmount := bal.waived
  totalAmount := total - bal.waived
  balanceApplied := bal.applied
  payableAmount := bal.payable
  paidAmount := 0
  couponId := applied.map (·.couponId)
  createdBy := d.manual.map (·.createdBy)
  subscriptionId := d.subscriptionId
  stateVersion := 1
  expiresAt := env.now + paymentWindow
  createdAt := env.now
  cancelReason := none

/-- `placeOrder`: the order and its reservation. -/
def placeOrder (o : Order) : Action Unit := do
  createOrder o
  createReservation o

/-- Hold the coupon; the quote must not have changed since it was evaluated. -/
def reserveCoupon (env : Env) (d : Draft) (code : String) (o : Order) (total : ℚ) :
    Action Unit :=
  if code = "" then pure ()
  else do
    let reserved ← onPromo (Promo.reserve env.promo code d.target ⟨o.id, o.orderNo⟩)
    let r ← ofOption reserved .quoteChanged
    require (∀ c ∈ o.couponId, r.couponId = c) .quoteChanged
    require (r.discount = o.discountAmount) .quoteChanged
    require (orderTotal d.subtotal r.discount d.prorationCredit = total) .quoteChanged

/-- Freeze the part paid from the balance, if a channel has to pay the rest. -/
def freezeBalance (env : Env) (o : Order) : Action Unit :=
  if 0 < o.payableAmount ∧ 0 < o.balanceApplied then do
    let _ ← onLedger (holdForOrder env.ledger ⟨o.id, o.userId, o.balanceApplied⟩)
  else pure ()

/-- The line of the order; a top-up has none. -/
def placeItem (o : Order) (item : Option ItemData) : Action Unit :=
  match item with
  | some it => createItem o.id it
  | none => pure ()

/-- An order with nothing left for a channel is settled at once. -/
def settleIfNothingDue (env : Env) (o : Order) : Action Order :=
  if o.payableAmount = 0 then settleZeroPay env o else pure o

/-- The audit row of an order, where the caller writes one. -/
def auditPlaced (env : Env) (d : Draft) : Action Unit :=
  if d.audited = true then ofExcept env.audit else pure ()

/-- Everything of `place` that writes, for an order that has been priced. -/
def placePriced (env : Env) (d : Draft) (code : String) (o : Order) (total : ℚ) :
    Action Order := do
  placeOrder o
  reserveCoupon env d code o total
  placeItem o d.item
  freezeBalance env o
  ofExcept env.emit
  let o' ← settleIfNothingDue env o
  auditPlaced env d
  pure o'

/-- A fresh identifier. -/
def freshId : Action UUID := do
  let s ← read
  write fun s => { s with nextId := s.nextId + 1 }
  pure s.nextId

/-- What `place` does once the gate has let the order pass, under the limits read there. -/
def placeGated (env : Env) (d : Draft) (lim : Limits) : Action Order := do
  let code := couponCodeOf d
  let applied ← evaluateCoupon env d code
  let total := orderTotal d.subtotal (discountOf d applied) d.prorationCredit
  let bal ← balanceFor env d total
  checkUnpaid env d bal lim
  require (¬((∃ m ∈ d.manual, m.offline = true) ∧ ¬0 < bal.payable))
    (if d.kind = .upgrade then .offlineChangeNothingDue else .offlineNothingDue)
  ofExcept (checkExpect d.checkout.expect total bal env.now)
  let id ← freshId
  placePriced env d code (d.order env id applied bal total) total

def place (env : Env) (d : Draft) : Action Order := do
  let lim ← purchaseGate env d
  placeGated env d lim

/-- The least top-up, in cents. -/
def topupMinCents : ℤ := 100

/-- The largest top-up, in cents. -/
def topupMaxCents : ℤ := 5000000

/-- The draft of a top-up. -/
def topupDraft (userId : UUID) (amount : ℚ) (h : 0 < amount) : Draft where
  kind := .topup
  userId := userId
  subtotal := amount
  couponPlanId := none
  subscriptionId := none
  item := none
  checkout := ⟨"", 0, none⟩
  prorationCredit := 0
  allowWaive := false
  manual := none
  audited := true
  topup_pos _ := h

/-- `CreateTopup`: the amount within bounds, and the account not deleted. -/
def createTopup (env : Env) (userId : UUID) (amount : ℚ) : Action Order := do
  require (userId ≠ UUID.nil) .unauthorized
  require (Check amount) (.invalid "amount" "金额格式不正确")
  require (fromCents topupMinCents ≤ amount) (.invalid "amount" "充值金额太小")
  require (amount ≤ fromCents topupMaxCents) (.invalid "amount" "单次充值金额超出上限")
  require (env.ledger.isDeleted userId = false) (.conflict "账号已注销")
  if h : 0 < amount then place env (topupDraft userId amount h)
  else fail (.invalid "amount" "充值金额太小")

end Pandora.Orders
