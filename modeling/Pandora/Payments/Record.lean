import Pandora.Orders.Settle

/-!
# Recording what a channel collected

`recordPaymentTx` is the only place where a collected sum enters the books.  It runs
for every notification, for every answer to a query and for every receipt outside the
channels, and has three parts, between which it waits for a lock that another
transaction may hold:

* `receive` inserts the event, whose key is unique, and finds what the payment is for;
* `collect` inserts the payment under the lock of its reference, and asks the order
  module to settle the order.  That attempt is behind a savepoint: if the order does not
  take the money, nothing of the attempt is left, and the money goes to suspense;
* `closeArchived` is for a plan that was archived meanwhile.  The rollback gave the lock
  of the order away, so the order is locked again and released, and in the same
  transaction the money goes through suspense to the user's balance.
-/

namespace Pandora.Payments

open Money Database Tx
open Ledger hiding Env State Error
open Orders (State Action Env SettleInput)

/-! ## Inputs and answers -/

/-- The types of an event. -/
inductive EventType
  | succeeded | failed | refunded | unknown
  | unregistered (name : String)
  deriving DecidableEq

/-- A receipt outside the channels names its order. -/
structure OfflineTarget where
  orderId : UUID
  userId : UUID

structure RecordInput where
  provider : Provider
  eventId : String
  eventType : EventType
  paymentRef : String
  outTradeNo : String
  offline : Option OfflineTarget
  amount : ℚ
  fee : ℚ
  signatureVerified : Bool
  /-- The fee is not the channel's: a query does not answer it. -/
  feeUnknown : Bool

structure RecordResult where
  processed : Bool
  alreadyHandled : Bool
  signatureFailed : Bool
  paymentId : Option UUID
  quarantineKind : Option CaseKind

/-- `strings.TrimSpace`. -/
def trim (s : String) : String := String.ofList (Text.trimSpace s.toList)

/-- The event identifier, trimmed. -/
def RecordInput.event (input : RecordInput) : String := trim input.eventId

/-- The payment reference, trimmed. -/
def RecordInput.ref (input : RecordInput) : String := trim input.paymentRef

/-- One text for every malformed event. -/
def missingReference : Error := .badRequest "缺少支付事件号或支付流水号"

/-- 1 to 200 bytes. -/
def referenceFits (s : String) : Prop := s ≠ "" ∧ s.utf8ByteSize ≤ 200

instance (s : String) : Decidable (referenceFits s) := inferInstanceAs (Decidable (_ ∧ _))

def validateRecordInput (input : RecordInput) : Except Error Unit := do
  ensure (referenceFits input.event) missingReference
  ensure (input.eventType ∈ [.succeeded, .failed, .refunded, .unknown]) missingReference
  ensure (input.eventType = .succeeded → referenceFits input.ref) missingReference

def validateRecordAmounts (input : RecordInput) : Except Error Unit := do
  ensure (0 < input.amount ∧ Check input.amount) (.badRequest "支付金额或手续费不正确")
  ensure (0 ≤ input.fee ∧ Check input.fee ∧ input.fee ≤ input.amount) (.badRequest "支付金额或手续费不正确")

/-! ## Statements -/

/-- The tables of the module, changed. -/
def update (f : Tables → Tables) : Action Unit :=
  write fun s => { s with payment := f s.payment }

/-- A fresh identifier. -/
def newId : Action UUID := do
  let s ← read
  write fun s => { s with nextId := s.nextId + 1 }
  pure s.nextId

/-- The key of an event. -/
def Event.key (e : Event) : UUID × String := (e.providerId, e.providerEventId)

/-- The key of a payment. -/
def Payment.key (p : Payment) : UUID × String := (p.provider.id, p.providerPaymentId)

/-- `InsertEvent`: nothing happens if the key is taken; the answer says so. -/
def insertEvent (e : Event) : Action Bool := do
  let s ← read
  if e.key ∈ s.payment.events.map Event.key then pure false
  else do
    update fun t => { t with events := t.events ++ [e] }
    pure true

/-- `FinishEvent`: a pending event gets its final status. -/
def finishEvent (id : UUID) (status : EventStatus) (note : Option String) : Action Unit :=
  update fun t => { t with
    events := t.events.map fun e =>
      if e.id = id ∧ e.status = .pending then { e with status := status, note := note } else e }

/-- `PaymentByProviderRef`. -/
def Tables.paymentByRef (t : Tables) (providerId : UUID) (ref : String) : Option Payment :=
  t.payments.find? (·.key = (providerId, ref))

def Tables.intentByOutTradeNo (t : Tables) (providerId : UUID) (outTradeNo : String) :
    Option Intent :=
  t.intents.find? fun i => i.providerId = providerId ∧ i.outTradeNo = outTradeNo

/-- The checks of the table `payments`. -/
def Payment.Shaped (p : Payment) : Prop :=
  0 < p.amount ∧ 0 ≤ p.feeAmount ∧ p.feeAmount ≤ p.amount ∧
    0 ≤ p.surchargeAmount ∧ p.surchargeAmount < p.amount

instance (p : Payment) : Decidable p.Shaped := inferInstanceAs (Decidable (_ ∧ _))

/-- `InsertPayment`: the order must exist, and the key be new. -/
def insertPayment (p : Payment) : Action Unit := do
  require (Check p.amount ∧ Check p.feeAmount ∧ Check p.surchargeAmount) (.internal "金额超过 2 位小数")
  let s ← read
  require (p.Shaped ∧ (s.orderById p.orderId).isSome = true) (.payment (.database "payments"))
  require (p.key ∉ s.payment.payments.map Payment.key)
    (.payment (.database "payments_provider_payment_key"))
  update fun t => { t with payments := t.payments ++ [p] }

/-- `InsertLateCase`: a payment has at most one. -/
def insertLateCase (c : LateCase) : Action Unit := do
  require (Check c.amount) (.internal "金额超过 2 位小数")
  let s ← read
  require (0 < c.amount ∧ ∀ x ∈ s.payment.lateCases, x.paymentId ≠ c.paymentId)
    (.payment (.database "late_payment_cases"))
  update fun t => { t with lateCases := t.lateCases ++ [c] }

/-- A row of `late_payment_cases`, if it is the case and in suspense, applied. -/
def LateCase.applyIf (id txnId : UUID) (reason : String) (c : LateCase) : LateCase :=
  if c.id = id ∧ c.status = .suspense then
    { c with status := .applied, appliedTxnId := some txnId, reason := some reason }
  else c

/-- `ApplyLateCase`. -/
def applyCase (id txnId : UUID) (reason : String) : Action Bool := do
  let s ← read
  update fun t => { t with lateCases := t.lateCases.map (LateCase.applyIf id txnId reason) }
  pure (decide (∃ c ∈ s.payment.lateCases, c.id = id ∧ c.status = .suspense))

/-- `markIntentSucceeded`: the intent is a snapshot; if it was closed meanwhile, it stays
closed. -/
def markIntentSucceeded (intent : Option Intent) : Action Unit :=
  match intent with
  | some it =>
    if it.status = .requiresAction then
      update fun t => { t with
        intents := t.intents.map fun i =>
          if i.id = it.id ∧ i.status = .requiresAction then { i with status := .succeeded }
          else i }
    else pure ()
  | none => pure ()

/-! ## Suspense -/

/-- `buildSuspenseLegs`, with the posting they are for: what the channel keeps and what
it hands over, against the case and the surcharge. -/
def suspensePosting (p : Payment) (kind : CaseKind) : Posting where
  kind := .latePaymentSuspense
  sourceType := sourcePayment
  sourceId := p.id
  memo := "迟到支付挂账：" ++ kind.name
  legs :=
    legIfPositive (debit (platformAccount .channelCash p.provider.code) (p.amount - p.feeAmount)) ++
    legIfPositive (debit (platformAccount .platformFeeExpense p.provider.code) p.feeAmount) ++
    [credit (platformAccount .latePaymentSuspense refMain) (p.amount - p.surchargeAmount)] ++
    legIfPositive (credit (platformAccount .platformRevenue refSurcharge) p.surchargeAmount)

/-- The money of a case, given to the user. -/
def appliedPosting (c : LateCase) (reason : String) : Posting where
  kind := .latePaymentApplied
  sourceType := sourcePayment
  sourceId := c.paymentId
  memo := reason
  legs := [debit (platformAccount .latePaymentSuspense refMain) c.amount,
    credit (userAccount .userBalance c.userId) c.amount]

/-- What a payment is for: an order, by an intent or by hand. -/
structure Target where
  orderId : UUID
  userId : UUID
  intent : Option Intent

/-- The surcharge in the payment. -/
def Target.surcharge (t : Target) : ℚ := (t.intent.map (·.surchargeAmount)).getD 0

/-- The row of the payment. -/
def Target.payment (t : Target) (input : RecordInput) (id : UUID) : Payment where
  id := id
  orderId := t.orderId
  userId := t.userId
  intentId := t.intent.map (·.id)
  provider := input.provider
  providerPaymentId := input.ref
  amount := input.amount
  feeAmount := input.fee
  surchargeAmount := t.surcharge

/-- The case of a payment that no order took. -/
def Payment.lateCase (p : Payment) (id evId txnId : UUID) (kind : CaseKind)
    (orderStatus : Orders.Status) : LateCase :=
  ⟨id, p.orderId, orderStatus.name, p.userId, p.id, evId, kind, p.amount - p.surchargeAmount,
    .suspense, txnId, none, none⟩

/-- `quarantine`; the answer is the new case. -/
def quarantine (env : Env) (evId : UUID) (intent : Option Intent) (p : Payment) (kind : CaseKind)
    (orderStatus : Orders.Status) : Action LateCase := do
  let txnId ← Orders.onLedger (postGeneral env.ledger (suspensePosting p kind))
  let id ← newId
  insertLateCase (p.lateCase id evId txnId kind orderStatus)
  markIntentSucceeded intent
  finishEvent evId .processed none
  ofExcept env.audit
  pure (p.lateCase id evId txnId kind orderStatus)

def applyLateCase (env : Env) (c : LateCase) (reason : String) : Action Unit := do
  require (c.status = .suspense) (.payment .caseResolved)
  let txnId ← Orders.onLedger (postGeneral env.ledger (appliedPosting c reason))
  let applied ← applyCase c.id txnId reason
  require (applied = true) (.payment (.internal "payment: 挂账状态更新失败"))
  ofExcept env.audit

/-! ## The first part: the event -/

/-- `targetOf`: the intent must be for this amount, and of this channel's payment. -/
def Tables.targetOf (t : Tables) (input : RecordInput) : Except Error Target :=
  match input.offline with
  | some r => .ok ⟨r.orderId, r.userId, none⟩
  | none =>
    match t.intentByOutTradeNo input.provider.id (trim input.outTradeNo) with
    | none => .error (.notFound "找不到这笔支付")
    | some it => do
      ensure (input.amount = it.amount) .amountMismatch
      ensure ((∀ r ∈ it.providerRef, r = input.ref) ∨ input.provider.coinPayments = true)
        .providerRefMismatch
      pure ⟨it.orderId, it.userId, some it⟩

/-- A notification that nobody signed leaves a row, under a key of its own. -/
def recordUnverified (input : RecordInput) : Action RecordResult := do
  let id ← newId
  let ref := if referenceFits input.ref then some input.ref else none
  let inserted ← insertEvent
    ⟨id, input.provider.id, "unverified:" ++ toString id, ref, false, .pending, none⟩
  if inserted = true then finishEvent id .ignored (some "签名校验失败") else pure ()
  pure ⟨false, false, true, none, none⟩

/-- The row of a signed event. -/
def RecordInput.eventRow (input : RecordInput) (id : UUID) : Event :=
  ⟨id, input.provider.id, input.event, if input.ref = "" then none else some input.ref, true,
    .pending, none⟩

/-- The answer to an event that was seen before. -/
def seenBefore (input : RecordInput) : Action (RecordResult ⊕ (Event × Target)) := do
  let s ← read
  let known := if input.ref = "" then none else s.payment.paymentByRef input.provider.id input.ref
  pure (.inl ⟨false, true, false, known.map (·.id), none⟩)

/-- An event of another type than success is only noted. -/
def noteEvent (id : UUID) : Action (RecordResult ⊕ (Event × Target)) := do
  finishEvent id .ignored none
  pure (.inl ⟨true, false, false, none, none⟩)

/-- What a success is for. -/
def findTarget (input : RecordInput) (id : UUID) : Action (RecordResult ⊕ (Event × Target)) := do
  mapError .payment (ofExcept (validateRecordAmounts input))
  let s ← read
  let target ← mapError .payment (ofExcept (s.payment.targetOf input))
  pure (.inr (input.eventRow id, target))

/-- A signed event: seen before, only noted, or the success of a payment. -/
def receiveSigned (input : RecordInput) : Action (RecordResult ⊕ (Event × Target)) := do
  mapError .payment (ofExcept (validateRecordInput input))
  let id ← newId
  let inserted ← insertEvent (input.eventRow id)
  if inserted = false then seenBefore input
  else if input.eventType ≠ .succeeded then noteEvent id
  else findTarget input id

/-- Up to the target of the payment. -/
def receive (input : RecordInput) : Action (RecordResult ⊕ (Event × Target)) :=
  if input.signatureVerified = false then do
    let r ← recordUnverified input
    pure (.inl r)
  else receiveSigned input

/-! ## The second part: the payment -/

/-- What a caller adds to the transaction after the settlement: an audit row. -/
abbrev Hook : Type := RecordResult → Except Orders.Error Unit

/-- A payment that is already there: it must be the same one. -/
def replay (input : RecordInput) (evId : UUID) (target : Target) (existing : Payment) :
    Action RecordResult := do
  require (existing.orderId = target.orderId) (.payment .paymentReused)
  require (existing.amount = input.amount ∧
      (input.feeUnknown = true ∨ existing.feeAmount = input.fee) ∧
      existing.surchargeAmount = target.surcharge)
    (.payment (.conflict "重放的渠道收款与已记录的金额不一致"))
  finishEvent evId .ignored (some "这笔收款此前已入账")
  pure ⟨false, true, false, some existing.id, none⟩

/-- The settlement that is asked for: the payment without the surcharge. -/
def Payment.settleInput (p : Payment) : SettleInput :=
  ⟨p.orderId, p.id, p.amount - p.surchargeAmount, p.feeAmount, p.surchargeAmount, p.provider.code⟩

/-- `afterSettleSuccess`: the other intents of the order are void. -/
def afterSettleSuccess (env : Env) (evId : UUID) (target : Target) (p : Payment) :
    Action RecordResult := do
  markIntentSucceeded target.intent
  update fun t => t.closeOrderIntents p.orderId (target.intent.map (·.id)) .cancelled
  finishEvent evId .processed none
  ofExcept env.audit
  pure ⟨true, false, false, some p.id, none⟩

/-- `afterSettleQuarantine`: a receipt outside the channels is refused instead. -/
def afterSettleQuarantine (env : Env) (input : RecordInput) (evId : UUID) (target : Target)
    (p : Payment) (kind : CaseKind) (status : Orders.Status) : Action RecordResult := do
  require (input.offline = none) (.payment (.conflict "该订单当前状态不可支付"))
  let _ ← quarantine env evId target.intent p kind status
  pure ⟨true, false, false, some p.id, some kind⟩

/-- What follows from the answer of `SettlePayment`.  A payment for an archived plan is
handed on to the third part. -/
def afterSettle (env : Env) (hook : Hook) (input : RecordInput) (evId : UUID) (target : Target)
    (p : Payment) : Except Orders.Error Unit → Action (RecordResult ⊕ Payment)
  | .ok _ => do
    let r ← afterSettleSuccess env evId target p
    ofExcept (hook r)
    pure (.inl r)
  | .error (.notPayable .archivedPlan _) => do
    require (input.offline = none) (.payment .archivedPlanOffline)
    pure (.inr p)
  | .error (.notPayable kind status) => do
    let r ← afterSettleQuarantine env input evId target p kind status
    ofExcept (hook r)
    pure (.inl r)
  | .error e => fail e

/-- Insert the payment, and try to settle the order behind a savepoint. -/
def settleNew (env : Env) (hook : Hook) (input : RecordInput) (evId : UUID) (target : Target) :
    Action (RecordResult ⊕ Payment) := do
  let id ← newId
  insertPayment (target.payment input id)
  let answer ← attempt (Orders.settlePayment env (target.payment input id).settleInput)
  afterSettle env hook input evId target (target.payment input id) answer

/-- From the lock of the payment reference to the end, or to the archived plan. -/
def collect (env : Env) (hook : Hook) (input : RecordInput) (evId : UUID) (target : Target) :
    Action (RecordResult ⊕ Payment) := do
  require (input.ref ≠ "") (.payment missingReference)
  let s ← read
  match s.payment.paymentByRef input.provider.id input.ref with
  | some existing => do
    let r ← replay input evId target existing
    pure (.inl r)
  | none => settleNew env hook input evId target

/-! ## The third part: the archived plan -/

def archivedApplyReason : String := "套餐已归档，不开通，实付自动转入余额"

/-- What is done while the order is locked: the case records the status it has now. -/
def settleArchived (env : Env) (evId : UUID) (target : Target) (p : Payment)
    (status : Orders.Status) : Action Unit := do
  let c ← quarantine env evId target.intent p .archivedPlan status
  applyLateCase env c archivedApplyReason

/-- `afterSettleArchived`, after the savepoint was rolled back. -/
def closeArchived (env : Env) (hook : Hook) (evId : UUID) (target : Target) (p : Payment) :
    Action RecordResult := do
  Orders.closeArchivedOrder env target.orderId (settleArchived env evId target p)
  ofExcept (hook ⟨true, false, false, some p.id, some .archivedPlan⟩)
  pure ⟨true, false, false, some p.id, some .archivedPlan⟩

/-- `recordPaymentTx`: the three parts in a row. -/
def recordPaymentTx (env : Env) (hook : Hook) (input : RecordInput) : Action RecordResult := do
  match ← receive input with
  | .inl r => pure r
  | .inr (e, target) =>
    match ← collect env hook input e.id target with
    | .inl r => pure r
    | .inr p => closeArchived env hook e.id target p

end Pandora.Payments
