import Pandora.Identifiers
import Pandora.Money

/-!
# The tables of the payment module

One row of `payment_events` for every notification a channel sent, one row of
`payments` for every sum it collected, one row of `late_payment_cases` for every
sum that no order took, and the intents that a user opened to pay.
-/

namespace Pandora.Payments

/-- Why an order does not take a payment. -/
inductive CaseKind
  | releasedOrder | excessCapture | ineligibleSubscription | archivedPlan
  deriving DecidableEq

/-- The name written to the database. -/
def CaseKind.name : CaseKind → String
  | .releasedOrder => "released_order"
  | .excessCapture => "excess_capture"
  | .ineligibleSubscription => "ineligible_subscription"
  | .archivedPlan => "archived_plan"

/-- A payment channel, as far as recording looks at it. -/
structure Provider where
  id : UUID
  code : String
  /-- The adapter is `coinpayments`. -/
  coinPayments : Bool

/-- What became of a notification. -/
inductive EventStatus
  | pending | processed | ignored
  deriving DecidableEq

/-- A row of `payment_events`; a provider's event identifier occurs once. -/
structure Event where
  id : UUID
  providerId : UUID
  providerEventId : String
  paymentRef : Option String
  signatureVerified : Bool
  status : EventStatus
  note : Option String

/-- A row of `payments`, joined with its provider; a provider's payment reference
occurs once. -/
structure Payment where
  id : UUID
  orderId : UUID
  userId : UUID
  intentId : Option UUID
  provider : Provider
  providerPaymentId : String
  amount : ℚ
  feeAmount : ℚ
  surchargeAmount : ℚ

/-- A case starts in suspense; `applied` is money given to the user's balance. -/
inductive LateStatus
  | suspense | applied
  deriving DecidableEq

/-- A row of `late_payment_cases`. -/
structure LateCase where
  id : UUID
  orderId : UUID
  orderStatus : String
  userId : UUID
  paymentId : UUID
  eventId : UUID
  kind : CaseKind
  amount : ℚ
  status : LateStatus
  suspenseTxnId : UUID
  appliedTxnId : Option UUID
  reason : Option String

/-- The states of an intent. -/
inductive IntentStatus
  | requiresAction | succeeded | cancelled | expired
  deriving DecidableEq

/-- A row of `payment_intents`. -/
structure Intent where
  id : UUID
  providerId : UUID
  outTradeNo : String
  orderId : UUID
  userId : UUID
  amount : ℚ
  surchargeAmount : ℚ
  providerRef : Option String
  status : IntentStatus

/-- The tables of the module. -/
structure Tables where
  events : List Event
  payments : List Payment
  lateCases : List LateCase
  intents : List Intent

/-- The errors of the payment module. -/
inductive Error
  | amountMismatch
  | providerRefMismatch
  | paymentReused
  | archivedPlanOffline
  | caseResolved
  | badRequest (text : String)
  | notFound (text : String)
  | conflict (text : String)
  | internal (text : String)
  | database (constraint : String)
  deriving DecidableEq

/-- `CloseOrderIntents`: the open intents of an order, one possibly excepted, get a
final status. -/
def Tables.closeOrderIntents (t : Tables) (orderId : UUID) (except : Option UUID)
    (status : IntentStatus) : Tables :=
  { t with
    intents := t.intents.map fun i =>
      if i.orderId = orderId ∧ some i.id ≠ except ∧ i.status = .requiresAction then
        { i with status := status }
      else i }

end Pandora.Payments
