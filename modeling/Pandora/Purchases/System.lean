import Pandora.Foundation.Locks
import Pandora.Orders.Runs
import Pandora.Subscriptions.Subscription

/-!
# Purchases of one installation, interleaved

The limit on subscriptions is checked by an order about to be placed, against two tables that
other transactions write meanwhile: the pending orders, and the subscriptions.  So a placement
of the portal is not one step here.  It begins; it takes the advisory lock of its user, which
it keeps to its end; it counts the pending new orders; it counts the subscriptions the user
holds, by a statement of its own; and then it does the rest and commits (`Orders.placeGated`).
Between any two of these other transactions commit.

Everything else is one step: the other calls of the order module, and what happens to a
subscription.  A transaction that settles a new order opens its subscription, so both tables
change at one commit.
-/

namespace Pandora.Purchases

open Function

open Orders (Draft Order Limits Call)
open Subscriptions (Subscription Version Renewal)

/-- The tables of the order module; only tables whose parts agree can be written down. -/
structure Tables where
  state : Orders.State
  consistent : state.Consistent

/-- A row of the table of subscriptions. -/
structure Holding where
  id : UUID
  userId : UUID
  sub : Subscription

/-- The subscription module at the time of a transaction: its clock, and the plan versions it
finds. -/
structure Shop where
  now : Time
  version : (planId versionId : UUID) → Except Subscriptions.Error Version

/-! ## Placements -/

/-- How far a placement has come. -/
inductive Stage
  | begun
  | locked
  | counted (pendingNew : ℕ)
  | allowed
  deriving DecidableEq

/-- A placement of the portal: `draft.Manual` is nil. -/
structure Placement where
  env : Orders.Env
  draft : Draft
  portal : draft.manual = none
  maxUnpaidOrders : ℕ

/-- A transaction that places an order. -/
structure Flight extends Placement where
  stage : Stage

/-- The user whose purchases are locked. -/
def Flight.userId (f : Flight) : UUID := f.draft.userId

/-- The placing transactions that are open, the holders of the advisory locks, and what has
been committed. -/
structure Config where
  tables : Tables
  subs : List Holding
  flights : ℕ → Option Flight
  locks : Locks UUID

/-- No order is being placed. -/
def Config.idle (tables : Tables) (subs : List Holding) : Config :=
  ⟨tables, subs, fun _ => none, fun _ => none⟩

/-- `HeldCountsByUser`: the subscriptions of a user whose renewal window is not closed. -/
def Config.held (c : Config) (userId : UUID) : ℕ :=
  c.subs.countP fun h => h.userId = userId ∧ h.sub.renewalClosedAt = none

/-- `PendingCounts.New`. -/
def Config.pendingNew (c : Config) (userId : UUID) : ℕ := c.tables.state.pendingNew userId

/-! ## Commits -/

/-- The request for a new subscription that was made for an order. -/
def provisioned (s : Orders.State) (orderId : UUID) : Option (UUID × UUID × PriceSnapshot) :=
  s.effects.findSome? fun e =>
    match e.what with
    | .provision planId versionId price =>
      if e.orderId = orderId then some (planId, versionId, price) else none
    | _ => none

/-- The new orders that a transaction has fulfilled. -/
def fulfilledNew (s s' : Orders.State) : List Order :=
  s'.orders.filter fun o =>
    o.kind = .new ∧ o.status = .fulfilled ∧ s.statusOf o.id ≠ some .fulfilled

/-- `Provision`, for each of these orders; an error rolls the transaction back. -/
def openAll (shop : Shop) (s' : Orders.State) :
    List Order → Except Subscriptions.Error (List Holding)
  | [] => .ok []
  | o :: orders => do
    let opened ← openAll shop s' orders
    match provisioned s' o.id with
    | none => .ok opened
    | some (planId, versionId, price) => do
      let v ← shop.version planId versionId
      let sub ← Subscriptions.provision shop.now v price (some o.id)
      .ok (⟨o.subscriptionId.getD UUID.nil, o.userId, sub⟩ :: opened)

/-- The tables after a transaction that leaves the orders as `t`. -/
def Config.commit (shop : Shop) (c : Config) (t : Tables) : Config :=
  match openAll shop t.state (fulfilledNew c.tables.state t.state) with
  | .ok opened => { c with tables := t, subs := c.subs ++ opened }
  | .error _ => c

/-! ## Steps -/

namespace Config

/-- The transaction `t` has come to `stage`. -/
def advance (c : Config) (t : ℕ) (f : Flight) (stage : Stage) : Config :=
  { c with flights := update c.flights t (some { f with stage := stage }) }

/-- The transaction `t` is over, and its lock is free again. -/
def close (c : Config) (t : ℕ) : Config :=
  { c with flights := update c.flights t none, locks := c.locks.release t }

/-- `place` begins.  Without any limit there is no lock to take. -/
def begin (most : ℕ) (c : Config) (t : ℕ) (p : Placement) : Config :=
  match c.flights t with
  | some _ => c
  | none =>
    c.advance t ⟨p, .begun⟩ (if p.maxUnpaidOrders = 0 ∧ most = 0 then .allowed else .begun)

/-- `LockUserPurchases`; a new order has the limit on subscriptions to meet. -/
def lock (most : ℕ) (c : Config) (t : ℕ) (f : Flight) : Config :=
  if c.locks f.userId = none then
    Config.advance { c with locks := c.locks.take t f.userId } t f
      (if f.draft.kind = .new ∧ 0 < most then .locked else .allowed)
  else c

/-- The subscriptions are counted after the pending orders, and the sum is compared. -/
def countHeld (most : ℕ) (c : Config) (t : ℕ) (f : Flight) (pendingNew : ℕ) : Config :=
  if c.held f.userId + pendingNew < most then c.advance t f .allowed else c.close t

/-- The rest of `place`, and the commit. -/
def place (most : ℕ) (shop : Shop) (c : Config) (t : ℕ) (f : Flight) : Config :=
  match h : Orders.placeGated f.env f.draft ⟨f.maxUnpaidOrders, most⟩ c.tables.state with
  | .ok (_, s') =>
    (c.commit shop ⟨s', (Orders.placeGated_step c.tables.consistent h).consistent⟩).close t
  | .error _ => c.close t

/-- The next statement of a placement. -/
def turn (most : ℕ) (shop : Shop) (c : Config) (t : ℕ) (f : Flight) : Config :=
  match f.stage with
  | .begun => c.lock most t f
  | .locked => c.advance t f (.counted (c.pendingNew f.userId))
  | .counted pendingNew => c.countHeld most t f pendingNew
  | .allowed => c.place most shop t f

end Config

/-- A call of the order module that places no new order. -/
structure OtherCall where
  env : Orders.Env
  call : Call
  other : ∀ userId, call.placed ≠ some (userId, .new)

/-- Its transaction. -/
def Config.exec (shop : Shop) (c : Config) (o : OtherCall) : Config :=
  match h : Orders.exec (o.env, o.call) c.tables.state with
  | .ok (_, s') => c.commit shop ⟨s', (Orders.exec_step c.tables.consistent h).consistent⟩
  | .error _ => c

/-- What happens to a subscription that exists. -/
inductive Change
  | renew (now : Time) (current : Version) (r : Renewal)
  | stack (clock now : Time) (v : Version) (price : PriceSnapshot) (orderId : Option UUID)
  | changePlan (now : Time) (v : Version) (price : PriceSnapshot) (orderId : Option UUID)
  | extend (now : Time) (days : ℕ)
  | setPeriodEnd (now end_ : Time)
  | expire (now : Time)
  | close (now : Time)

/-- The method behind it. -/
def Change.apply (m : Subscription) : Change → Except Subscriptions.Error Subscription
  | .renew now current r => m.renew now current r
  | .stack clock now v price orderId => m.stack clock now v price orderId
  | .changePlan now v price orderId => m.changePlan now v price orderId
  | .extend now days => m.extend now days
  | .setPeriodEnd now end_ => m.setPeriodEnd now end_
  | .expire now => m.expire now
  | .close now => m.close now

/-- The row after it; a method that refuses leaves the row. -/
def Holding.change (ch : Change) (h : Holding) : Holding :=
  match ch.apply h.sub with
  | .ok sub => { h with sub := sub }
  | .error _ => h

/-- The steps. -/
inductive Label
  | begin (t : ℕ) (p : Placement)
  | turn (shop : Shop) (t : ℕ)
  | abort (t : ℕ)
  | call (shop : Shop) (o : OtherCall)
  | change (id : UUID) (ch : Change)

/-- One step, with at most `most` subscriptions allowed; a transaction that is not open
takes none. -/
def Config.next (most : ℕ) (c : Config) : Label → Config
  | .begin t p => c.begin most t p
  | .turn shop t =>
    match c.flights t with
    | some f => c.turn most shop t f
    | none => c
  | .abort t =>
    match c.flights t with
    | some _ => c.close t
    | none => c
  | .call shop o => c.exec shop o
  | .change id ch =>
    { c with subs := c.subs.map fun h => if h.id = id then h.change ch else h }

/-- The state after some steps. -/
def Config.run (most : ℕ) (c : Config) (labels : List Label) : Config :=
  labels.foldl (Config.next most) c

end Pandora.Purchases
