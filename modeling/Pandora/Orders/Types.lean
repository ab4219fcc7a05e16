import Pandora.Catalog
import Pandora.Ledger.Types
import Pandora.Payments.Tables
import Pandora.Promo.Coupon

/-!
# Orders

The rows of the order module, what a caller hands to it, and the errors it
answers.  `paid` is a state that only a transaction in progress can see: the same
transaction goes on to `fulfilled`.
-/

namespace Pandora.Orders

/-- The kinds of order. -/
inductive Kind
  | new | renewal | topup | upgrade | stack | trafficReset
  deriving DecidableEq

/-- A change of one subscription; only one may be open at a time. -/
def Kind.isChange : Kind → Bool
  | .renewal | .upgrade | .stack => true
  | _ => false

/-- `planOrder`: the kinds that buy a plan. -/
def Kind.isPlan : Kind → Bool
  | .new | .renewal | .stack | .upgrade => true
  | _ => false

/-- The states of an order. -/
inductive Status
  | pending | paid | fulfilled | cancelled | expired
  deriving DecidableEq

/-- The name written to the database. -/
def Status.name : Status → String
  | .pending => "pending_payment"
  | .paid => "paid"
  | .fulfilled => "fulfilled"
  | .cancelled => "cancelled"
  | .expired => "expired"

/-- A row of `orders`. -/
structure Order where
  id : UUID
  orderNo : String
  userId : UUID
  kind : Kind
  status : Status
  subtotalAmount : ℚ
  discountAmount : ℚ
  prorationCreditAmount : ℚ
  waivedAmount : ℚ
  totalAmount : ℚ
  balanceApplied : ℚ
  payableAmount : ℚ
  paidAmount : ℚ
  couponId : Option UUID
  createdBy : Option UUID
  subscriptionId : Option UUID
  stateVersion : ℕ
  expiresAt : Time
  createdAt : Time
  cancelReason : Option String

/-- A row of `order_items`, without the order it belongs to. -/
structure ItemData where
  priceId : Option UUID
  planId : Option UUID
  planVersionId : Option UUID
  snapshotInterval : Option Interval
  snapshotIntervalCount : Option ℕ
  snapshotQuotas : List QuotaDef
  unitAmount : ℚ
  lineAmount : ℚ

/-- A row of `order_items`. -/
structure Item extends ItemData where
  orderId : UUID

/-- The states of a reservation. -/
inductive ReservationState
  | held | captured | released
  deriving DecidableEq

/-- A row of `order_reservations`. -/
structure Reservation where
  id : UUID
  orderId : UUID
  userId : UUID
  state : ReservationState
  expiresAt : Time
  releaseReason : Option String

/-- What the subscription module was asked to do for an order, and the subscription
it did it to. -/
inductive Fulfilment
  | provision (planId planVersionId : UUID) (price : PriceSnapshot)
  | renew (subscriptionId : UUID) (price : PriceSnapshot)
  | changePlan (subscriptionId planId planVersionId : UUID) (price : PriceSnapshot)
  | stack (subscriptionId planVersionId : UUID) (price : PriceSnapshot)
  | resetTraffic (subscriptionId : UUID)

/-- One effect of an order on a subscription, as the subscription's own log has it. -/
structure Effect where
  orderId : UUID
  what : Fulfilment

/-- The audit row of a settled payment. -/
structure Settlement where
  orderId : UUID
  paymentId : UUID
  amount : ℚ
  fee : ℚ
  surcharge : ℚ
  provider : String

/-! ## What a caller asks for -/

/-- The amounts a user confirmed, and the time of the quote. -/
structure Expect where
  total : ℚ
  balanceApplied : ℚ
  payable : ℚ
  asOf : Option Time

/-- The user's part of an order. -/
structure Checkout where
  couponCode : String
  useBalance : ℚ
  expect : Option Expect

/-- An order made by an administrator: a gift, or paid outside the channels, or left
to the user. -/
structure ManualDraft where
  grant : Bool
  offline : Bool
  reason : String
  createdBy : UUID

/-- An order about to be placed.  Only `CreateTopup` makes a draft of a top-up, and
it refuses less than the least amount. -/
structure Draft where
  kind : Kind
  userId : UUID
  subtotal : ℚ
  couponPlanId : Option UUID
  subscriptionId : Option UUID
  item : Option ItemData
  checkout : Checkout
  prorationCredit : ℚ
  allowWaive : Bool
  manual : Option ManualDraft
  audited : Bool
  topup_pos : kind = .topup → 0 < subtotal

/-- How an order is divided between the balance and the channel. -/
structure BalancePlan where
  applied : ℚ
  payable : ℚ
  kept : ℚ
  forced : Bool
  belowMinimum : Bool
  waived : ℚ
  smallDue : Bool

/-- The errors of the order module, with those of the modules it calls. -/
inductive Error
  | ledger (e : Ledger.Error)
  | promo (e : Promo.Error)
  | payment (e : Payments.Error)
  | notPayable (kind : Payments.CaseKind) (status : Status)
  | notFound
  | orderNotFound
  | amountMismatch
  | stateChanged
  | quoteChanged
  | belowMinimum
  | manualBelowMinimum
  | offlineNothingDue
  | offlineChangeNothingDue
  | tooManyUnpaid (n : ℕ)
  | tooManySubscriptions (most have_ pendingNew : ℕ)
  | openChange
  | openReset
  | alreadyPaid
  | orderExpired
  | unauthorized
  | forbidden
  | invalid (field text : String)
  | conflict (text : String)
  | badRequest (text : String)
  | internal (text : String)
  | database (constraint : String)
  deriving DecidableEq

end Pandora.Orders
