import Pandora.Identifiers
import Pandora.Money

/-!
# Prices and quotas as orders and subscriptions record them

The billing interval of a price, the snapshot of a price that an order hands to the
subscription it is fulfilled on, and the quotas of a plan version.
-/

namespace Pandora

/-- The billing intervals.  `oneTime` is the price of a one-time plan. -/
inductive Interval
  | day | week | month | quarter | year | oneTime
  deriving DecidableEq

/-- The price a subscription was bought at.  `validityDays` is only read for
one-time prices, where none means permanent. -/
structure PriceSnapshot where
  priceId : Option UUID
  amount : ℚ
  interval : Interval
  intervalCount : ℤ
  validityDays : Option ℕ

/-- What a quota counts. -/
inductive Metric
  | traffic
  | other (name : String)
  deriving DecidableEq

/-- How often a quota begins anew; `total` never does. -/
inductive QuotaPeriod
  | total | cycle | day | month
  deriving DecidableEq

/-- A quota of a plan version; without a limit it is unlimited. -/
structure QuotaDef where
  metric : Metric
  period : QuotaPeriod
  limit : Option ℤ

end Pandora
