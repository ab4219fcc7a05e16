import Pandora.Foundation.Check
import Pandora.Subscriptions.Period

/-!
# One subscription

The row of a subscription with what hangs on it: its quotas and its log.  The methods that
change it are functions of the row they lock; each refuses, or answers the new row.

Of the quotas only those without a period of their own (`total`) are kept: nothing here
reads the others.
-/

namespace Pandora.Subscriptions

open Money

/-- The two kinds of plan. -/
inductive PlanKind
  | subscription | oneTime
  deriving DecidableEq

/-- The column `status`. -/
inductive Status
  | active | expired
  deriving DecidableEq

/-- The types of an event. -/
inductive EventType
  | activated | renewed | extended | planChanged | periodEndSet | expired | renewalClosed

/-- A row of `subscription_events`; the order of the list is that of the identifiers. -/
structure Event where
  type : EventType
  orderId : Option UUID
  restart : Bool

/-- A quota of a subscription, of the period `total`. -/
structure Quota where
  metric : Metric
  limit : Option ℤ
  consumed : ℤ

/-- What its state and its period depend on. -/
structure Row where
  planId : UUID
  /-- The kind of its plan. -/
  kind : PlanKind
  status : Status
  periodStart : Time
  periodEnd : Time
  renewalClosedAt : Option Time

/-- A subscription. -/
structure Subscription extends Row where
  planVersionId : UUID
  quotas : List Quota
  events : List Event

/-- A plan version that a method was handed: of which plan, and with which quotas. -/
structure Version where
  id : UUID
  planId : UUID
  kind : PlanKind
  quotas : List QuotaDef

/-- Why a method refuses. -/
inductive Error
  | renewalWindowClosed
  | renewOneTime
  | stackNotOneTime
  | extendWindowClosed
  | notLive
  | planChangeSamePlan
  | choiceStale
  | openChange
  | notFound
  | notActive
  | unlimited
  | bonusPeriodSwitching
  | noTrafficQuota
  | database (constraint : String)
  | invalid (field : String)
  | internal (text : String)
  deriving DecidableEq

/-! ## State -/

/-- `State`. -/
inductive Condition
  | live | revivable | ended
  deriving DecidableEq

def Row.stateAt (m : Row) (now : Time) : Condition :=
  if m.renewalClosedAt ≠ none then .ended
  else if m.status = .active ∧ now < m.periodEnd then .live
  else .revivable

def Condition.acceptsChange (c : Condition) : Prop := c ≠ .ended

instance (c : Condition) : Decidable c.acceptsChange := inferInstanceAs (Decidable (_ ≠ _))

/-! ## Methods -/

/-- `quotaRows`, those of the period `total`: nothing of them is used. -/
def Version.quotaRows (v : Version) : List Quota :=
  (v.quotas.filter (·.period = .total)).map fun q => ⟨q.metric, q.limit, 0⟩

def validatePrice (p : PriceSnapshot) : Except Error Unit := do
  ensure (∀ days ∈ p.validityDays, p.interval = .oneTime ∧ 1 ≤ days ∧ days ≤ 36500)
    (.internal "subscription: 价格快照有效天数不合法")
  ensure (CheckNonNegative p.amount) (.internal "subscription: 价格快照金额不合法")
  ensure (1 ≤ p.intervalCount ∧ p.intervalCount ≤ 32767) (.internal "subscription: 价格快照周期不合法")

/-- `Provision`: a new subscription, from now on. -/
def provision (now : Time) (v : Version) (price : PriceSnapshot) (orderId : Option UUID) :
    Except Error Subscription := do
  validatePrice price
  pure {
    planId := v.planId
    planVersionId := v.id
    kind := v.kind
    status := .active
    periodStart := now
    periodEnd := periodEndFor now price
    renewalClosedAt := none
    quotas := v.quotaRows
    events := [⟨.activated, orderId, false⟩] }

structure Renewal where
  price : PriceSnapshot
  paidAt : Time
  orderCreatedAt : Option Time
  orderId : Option UUID

/-- `Renew`; `current` is the version that a period which begins anew gets: the current one
of the plan. -/
def Subscription.renew (m : Subscription) (now : Time) (current : Version) (r : Renewal) :
    Except Error Subscription := do
  validatePrice r.price
  ensure (m.stateAt now).acceptsChange .renewalWindowClosed
  ensure (m.kind ≠ .oneTime) .renewOneTime
  let paidAt := Time.truncate r.paidAt
  let (base, restart) := renewalBase m.periodEnd paidAt r.orderCreatedAt
  let renewed := { m with
    status := .active
    periodEnd := periodEndFor base r.price
    events := m.events ++ [⟨.renewed, r.orderId, restart⟩] }
  pure (if restart = true then
      { renewed with
        periodStart := paidAt
        planVersionId := current.id
        quotas := current.quotaRows }
    else renewed)

def saturatedAdd (a b : ℤ) : ℤ :=
  if 0 < b ∧ 2 ^ 63 - 1 - b < a then 2 ^ 63 - 1 else a + b

/-- The traffic of a stack on top of a quota. -/
def Quota.stack (q : Quota) (more : Option ℤ) : Quota :=
  match q.limit, more with
  | some limit, some more => { q with limit := some (saturatedAdd limit more) }
  | some _, none => { q with limit := none }
  | none, _ => q

/-- The traffic quota of a version, if it has one. -/
def Version.traffic (v : Version) : Option Quota := v.quotaRows.find? (·.metric = .traffic)

/-- The quotas after a stack: the first one of traffic grows, or there is one now. -/
def stackQuotas (v : Version) : List Quota → List Quota
  | [] => v.traffic.toList
  | q :: quotas =>
    if q.metric = .traffic then q.stack (v.traffic.bind (·.limit)) :: quotas
    else q :: stackQuotas v quotas

/-- `Stack`; the period goes on from where it began. -/
def Subscription.stack (m : Subscription) (clock now : Time) (v : Version) (price : PriceSnapshot)
    (orderId : Option UUID) : Except Error Subscription := do
  validatePrice price
  ensure (price.interval = .oneTime) .stackNotOneTime
  ensure (m.stateAt now).acceptsChange .renewalWindowClosed
  ensure (m.kind = .oneTime) .stackNotOneTime
  ensure (v.planId = m.planId) .notFound
  pure { m with
    status := .active
    periodEnd := stackEnd clock m.periodEnd now price
    planVersionId := v.id
    quotas := stackQuotas v m.quotas
    events := m.events ++ [⟨.renewed, orderId, false⟩] }

/-- `ChangePlan`: another plan, from now on. -/
def Subscription.changePlan (m : Subscription) (now : Time) (v : Version) (price : PriceSnapshot)
    (orderId : Option UUID) : Except Error Subscription := do
  validatePrice price
  ensure (m.stateAt now).acceptsChange .renewalWindowClosed
  pure { m with
    planId := v.planId
    planVersionId := v.id
    kind := v.kind
    status := .active
    periodStart := now
    periodEnd := periodEndFor now price
    quotas := v.quotaRows
    events := m.events ++ [⟨.planChanged, orderId, false⟩] }

/-- The most days of one extension. -/
def maxExtendDays : ℕ := 3650

/-- The checks of `Extend`. -/
def Row.checkExtension (m : Row) (now : Time) (days : ℕ) : Except Error Unit := do
  ensure (1 ≤ days ∧ days ≤ maxExtendDays) (.invalid "days")
  ensure (m.stateAt now).acceptsChange .extendWindowClosed

/-- The row after `Extend`. -/
def Row.extended (m : Row) (now : Time) (days : ℕ) : Row :=
  let (base, lapsed) := extendBase m.periodEnd now
  { m with
    status := .active
    periodStart := if lapsed = true then now else m.periodStart
    periodEnd := Time.truncate (Calendar.addDate base 0 0 days) }

def Subscription.extend (m : Subscription) (now : Time) (days : ℕ) : Except Error Subscription := do
  m.checkExtension now days
  pure { m with
    toRow := m.extended now days
    events := m.events ++ [⟨.extended, none, (extendBase m.periodEnd now).2⟩] }

/-- `AdminSetPeriodEnd`. -/
def Subscription.setPeriodEnd (m : Subscription) (now end_ : Time) : Except Error Subscription := do
  ensure (m.stateAt now = .live) .notLive
  ensure (now < Time.truncate end_ ∧ m.periodStart < Time.truncate end_ ∧
    Time.truncate end_ ≤ Calendar.addDate now 10 0 0) (.invalid "period_end")
  pure { m with
    periodEnd := Time.truncate end_
    events := m.events ++ [⟨.periodEndSet, none, false⟩] }

/-- One row of `expireBatch`. -/
def Subscription.expire (m : Subscription) (now : Time) : Except Error Subscription := do
  ensure (m.status = .active ∧ m.periodEnd ≤ now) .notFound
  pure { m with status := .expired, events := m.events ++ [⟨.expired, none, false⟩] }

def renewalWindow : ℤ := 30 * Calendar.dayLength

/-- One row of `closeBatch`; a closed window stays closed. -/
def Subscription.close (m : Subscription) (now : Time) : Except Error Subscription := do
  ensure (m.status = .expired ∧ m.renewalClosedAt = none ∧ m.periodEnd ≤ now - renewalWindow)
    .notFound
  pure { m with
    renewalClosedAt := some now, events := m.events ++ [⟨.renewalClosed, none, false⟩] }

end Pandora.Subscriptions
