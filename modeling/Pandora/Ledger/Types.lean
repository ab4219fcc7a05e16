import Pandora.Identifiers
import Pandora.Money

/-!
# The vocabulary of the ledger

The ledger is double-entry.  An *account* is a type together with an owner: a
user for the four user-owned types, a short text for the platform's own.  A
*posting* is a list of *legs*, each a debit or a credit of a positive amount to
one account, and it moves no money into or out of the books: its debits equal
its credits.

The source spells types, kinds and directions as strings and checks, on every
posting, that they are registered ones.  The constructors `unregistered` stand
for all the strings that are not; they exist so that the check has something to
refuse.
-/

namespace Pandora.Ledger

/-! ## Accounts -/

/-- Account types. -/
inductive AccountType
  | userBalance
  | userBalanceHold
  | userCommissionPending
  | userCommissionAvailable
  | channelCash
  | platformRevenue
  | platformFeeExpense
  | platformPromoExpense
  | suspense
  | latePaymentSuspense
  | unregistered (name : String)
  deriving DecidableEq, Inhabited

namespace AccountType

/-- The spelling in the database. -/
def name : AccountType → String
  | userBalance => "user_balance"
  | userBalanceHold => "user_balance_hold"
  | userCommissionPending => "user_commission_pending"
  | userCommissionAvailable => "user_commission_available"
  | channelCash => "channel_cash"
  | platformRevenue => "platform_revenue"
  | platformFeeExpense => "platform_fee_expense"
  | platformPromoExpense => "platform_promo_expense"
  | suspense => "suspense"
  | latePaymentSuspense => "late_payment_suspense"
  | unregistered s => s

/-- One of the ten registered types. -/
def valid : AccountType → Bool
  | unregistered _ => false
  | _ => true

/-- Accounts that belong to a user. -/
def userOwned : AccountType → Bool
  | userBalance | userBalanceHold | userCommissionPending | userCommissionAvailable => true
  | _ => false

/-- Accounts whose normal side is the debit side: assets and expenses. -/
def debitNormal : AccountType → Bool
  | channelCash | platformFeeExpense | platformPromoExpense | suspense => true
  | _ => false

end AccountType

/-- A reference to an account.  User-owned types give `userId` and leave `ref`
empty; platform types do the opposite. -/
structure AccountRef where
  type : AccountType
  userId : UUID
  ref : String
  deriving DecidableEq, Inhabited

/-- A user's account. -/
def userAccount (t : AccountType) (userId : UUID) : AccountRef := ⟨t, userId, ""⟩

/-- One of the platform's accounts. -/
def platformAccount (t : AccountType) (ref : String) : AccountRef := ⟨t, UUID.nil, ref⟩

/-- `platform_revenue` and `late_payment_suspense`. -/
def refMain : String := "main"

/-- `suspense`: manual adjustments. -/
def refManualAdjust : String := "manual_adjust"

/-- `platform_promo_expense`: gift cards. -/
def refGift : String := "gift"

/-- `platform_revenue`: the payment fee charged to the user. -/
def refSurcharge : String := "payment_surcharge"

@[simp] theorem userAccount_type (t : AccountType) (u : UUID) : (userAccount t u).type = t := rfl

@[simp] theorem platformAccount_type (t : AccountType) (r : String) :
    (platformAccount t r).type = t := rfl

@[simp] theorem userAccount_inj {t t' : AccountType} {u u' : UUID} :
    userAccount t u = userAccount t' u' ↔ t = t' ∧ u = u' := by
  simp [userAccount]

/-! ## Postings -/

/-- Transaction kinds. -/
inductive Kind
  | balanceTopup
  | balanceAdjusted
  | balanceHold
  | balanceRelease
  | orderPaid
  | planChangeRefund
  | latePaymentSuspense
  | latePaymentApplied
  | giftCardBalance
  | commissionAccrued
  | commissionSettled
  | commissionPaid
  | commissionToBalance
  | commissionVoided
  | unregistered (name : String)
  deriving DecidableEq, Inhabited

namespace Kind

/-- The spelling in the database. -/
def name : Kind → String
  | balanceTopup => "balance_topup"
  | balanceAdjusted => "balance_adjusted"
  | balanceHold => "balance_hold"
  | balanceRelease => "balance_release"
  | orderPaid => "order_paid"
  | planChangeRefund => "plan_change_refund"
  | latePaymentSuspense => "late_payment_suspense"
  | latePaymentApplied => "late_payment_applied"
  | giftCardBalance => "gift_card_balance"
  | commissionAccrued => "commission_accrued"
  | commissionSettled => "commission_settled"
  | commissionPaid => "commission_paid"
  | commissionToBalance => "commission_to_balance"
  | commissionVoided => "commission_voided"
  | unregistered s => s

/-- One of the fourteen registered kinds. -/
def valid : Kind → Bool
  | unregistered _ => false
  | _ => true

/-- Kinds that have a method of their own; the general one refuses them. -/
def dedicated : Kind → Bool
  | balanceHold | balanceRelease | orderPaid | balanceAdjusted => true
  | _ => false

/-- Kinds of which one source has at most one transaction. -/
def onePerSource : Kind → Bool
  | balanceTopup | balanceHold | balanceRelease | orderPaid | latePaymentSuspense
  | planChangeRefund | commissionSettled | commissionPaid | giftCardBalance
  | commissionVoided => true
  | _ => false

end Kind

/-- The side of a leg. -/
inductive Direction
  | debit
  | credit
  | unregistered (name : String)
  deriving DecidableEq, Inhabited

/-- One leg of a posting.  The amount is positive; the side is in `direction`. -/
structure Leg where
  account : AccountRef
  direction : Direction
  amount : ℚ
  deriving DecidableEq

/-- A debit. -/
def debit (account : AccountRef) (amount : ℚ) : Leg := ⟨account, .debit, amount⟩

/-- A credit. -/
def credit (account : AccountRef) (amount : ℚ) : Leg := ⟨account, .credit, amount⟩

/-- A posting to be made.  The source is the business object it is about: both
`sourceType` and `sourceId`, or neither. -/
structure Posting where
  kind : Kind
  sourceType : String := ""
  sourceId : UUID := UUID.nil
  memo : String := ""
  legs : List Leg

/-- The usual source types. -/
def sourceOrder : String := "order"

/-- See `sourceOrder`. -/
def sourceUser : String := "user"

/-- See `sourceOrder`. -/
def sourcePayment : String := "payment"

/-- See `sourceOrder`. -/
def sourceGiftCardCode : String := "gift_card_code"

/-! ## Errors -/

/-- What the ledger answers when it refuses.  Sentinels of the source are
constructors; `invalidPosting` carries the text that follows the sentinel's
own. -/
inductive Error
  | invalidPosting (detail : String)
  | insufficientBalance
  | balanceConstraint
  | duplicatePosting
  | holdExists
  | holdCaptured
  | holdReleased
  | userNotFound
  | precision (amount : ℚ)
  | numericOverflow (amount : ℚ)
  | checkViolation (constraint : String)
  | accountsNotLocked (missing : ℤ)
  | accountMissing (id : UUID)
  | noEntries
  | holdStateChanged (message : String)
  | unauthorized
  | forbidden
  | validationFailed (message : String)
  | invalidField (field message : String)
  | conflict (message : String)
  | portMissing (message : String)
  | auditFailed
  deriving DecidableEq

/-- The answer counts as "insufficient balance": the refusal before writing, and
the database's own constraint, which wraps it. -/
def Error.isInsufficientBalance : Error → Bool
  | insufficientBalance | balanceConstraint => true
  | _ => false

end Pandora.Ledger
