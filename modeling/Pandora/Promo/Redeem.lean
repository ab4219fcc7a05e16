import Pandora.Database.Table
import Pandora.Database.Transaction
import Pandora.Promo.Coupon

/-!
# Reserving, capturing and releasing coupons

A coupon is *held* for an order when the order is placed, and then either
*captured*, when the order is paid, or *released*, when it is cancelled or
expires.  Each of these writes a row of `coupon_redemptions` and, in a second
statement, a counter of the coupon.  The counters are what the capacity check of
the next order reads, so everything depends on the two writes saying the same
thing; `Promo.Counters` proves that they do.
-/

namespace Pandora.Promo

open Money Text Database Tx

/-! ## The tables -/

/-- `held` may become `captured` or `released`. -/
inductive RedemptionStatus
  | held | captured | released
  deriving DecidableEq

/-- A row of `coupon_redemptions`. -/
structure Redemption where
  id : UUID
  couponId : UUID
  userId : UUID
  orderId : UUID
  orderNo : String
  discountAmount : ℚ
  status : RedemptionStatus
  releaseReason : Option String

/-- The tables of the module. -/
structure State where
  coupons : List Coupon
  redemptions : List Redemption
  nextId : UUID

/-- A new installation. -/
def State.empty : State := ⟨[], [], 1⟩

/-- What a call depends on besides the tables: the clock, the answers of the user
directory and of the catalogue, and whether the audit row could be written. -/
structure Env where
  now : Time
  userGroupId : UUID → Except Error (Option UUID)
  missingPlans : List UUID → Except Error (List UUID)
  auditWrite : Except Error Unit

/-! ## Statements -/

/-- `CouponByCode`, and `LockCouponByCode`. -/
def State.couponByCode (s : State) (code : String) : Option Coupon :=
  s.coupons.find? (·.code = code)

/-- `CountActiveByUser`: the redemptions of a user that are held or captured. -/
def State.countActiveByUser (s : State) (couponId userId : UUID) : ℕ :=
  s.redemptions.countP fun r =>
    r.couponId = couponId ∧ r.userId = userId ∧ (r.status = .held ∨ r.status = .captured)

/-- A conditional `UPDATE` of one coupon; the answer is whether a row met the
condition. -/
def updateCoupon (id : UUID) (cond : Coupon → Prop) [DecidablePred cond]
    (change : Coupon → Coupon) : Tx State Error Bool := do
  let s ← read
  write fun s => { s with
    coupons := s.coupons.map fun c => if c.id = id ∧ cond c then change c else c }
  pure (decide (∃ c ∈ s.coupons, c.id = id ∧ cond c))

/-- One more held. -/
def Coupon.increment (c : Coupon) : Coupon := { c with reservedCount := c.reservedCount + 1 }

/-- One fewer held. -/
def Coupon.decrement (c : Coupon) : Coupon := { c with reservedCount := c.reservedCount - 1 }

/-- One held becomes one used. -/
def Coupon.moveToRedeemed (c : Coupon) : Coupon :=
  { c with reservedCount := c.reservedCount - 1, redeemedCount := c.redeemedCount + 1 }

/-- Another status. -/
def Coupon.withStatus (status : CouponStatus) (c : Coupon) : Coupon := { c with status := status }

/-- The condition of `IncrementReserved`. -/
def Coupon.HasRoom (c : Coupon) : Prop :=
  c.status = .active ∧ ∀ most ∈ c.maxRedemptions, c.redeemedCount + c.reservedCount < most

instance : DecidablePred Coupon.HasRoom := fun c => by
  unfold Coupon.HasRoom
  infer_instance

def incrementReserved (id : UUID) : Tx State Error Bool :=
  updateCoupon id Coupon.HasRoom Coupon.increment

def decrementReserved (id : UUID) : Tx State Error Bool :=
  updateCoupon id (0 < ·.reservedCount) Coupon.decrement

def moveReservedToRedeemed (id : UUID) : Tx State Error Bool :=
  updateCoupon id (0 < ·.reservedCount) Coupon.moveToRedeemed

/-- `InsertRedemptionIfAbsent`: nothing is inserted, and nothing is wrong, if the
order has a redemption already. -/
def insertRedemptionIfAbsent (couponId userId : UUID) (o : OrderRef) (discount : ℚ) :
    Tx State Error Bool := do
  require (Check discount) (.internal "金额超过 2 位小数")
  let s ← read
  if ∃ r ∈ s.redemptions, r.orderId = o.id then pure false
  else do
    write fun s => { s with
      redemptions := s.redemptions ++ [⟨s.nextId, couponId, userId, o.id,
        String.ofList (trimSpace o.no.toList), discount, .held, none⟩]
      nextId := s.nextId + 1 }
    pure true

/-- The change of one redemption: only the one held for the order. -/
def Redemption.finishFor (orderId : UUID) (change : Redemption → Redemption) (r : Redemption) :
    Redemption :=
  if r.orderId = orderId ∧ r.status = .held then change r else r

/-- `FinishHeld`: the held redemption of an order is finished by `change`; the
answer is its coupon. -/
def finishHeld (orderId : UUID) (change : Redemption → Redemption) :
    Tx State Error (Option UUID) := do
  let s ← read
  write fun s => { s with
    redemptions := s.redemptions.map (Redemption.finishFor orderId change) }
  pure ((s.redemptions.find? fun r => r.orderId = orderId ∧ r.status = .held).map (·.couponId))

/-- What `FinishHeld` writes to a captured redemption. -/
def Redemption.capture (r : Redemption) : Redemption := { r with status := .captured }

/-- What `FinishHeld` writes to a released redemption. -/
def Redemption.release (reason : Option String) (r : Redemption) : Redemption :=
  { r with status := .released, releaseReason := reason }

/-! ## The service -/

/-- The user-group restriction of a coupon. -/
def checkUserGroup (env : Env) (c : Coupon) (userId : UUID) : Except Error Unit :=
  match c.userGroupId with
  | none => .ok ()
  | some g => do
    let gid ← env.userGroupId userId
    ensure (gid = some g) .couponNotForUser

/-- `apply`: all rules for one coupon, and the discount. -/
def apply (env : Env) (s : State) (c : Coupon) (t : Target) : Except Error Applied := do
  checkBasics c t env.now
  checkUserGroup env c t.userId
  checkPlan c.planIds t.planId
  ensure (¬c.maxRedemptionsPerUser ≤ s.countActiveByUser c.id t.userId) .couponUserLimit
  pure ⟨c.id, c.code, c.face, discountFor c.face c.maxDiscount t.subtotal⟩

/-- `Evaluate`: the quote, without a lock and without a write. -/
def evaluate (env : Env) (code : String) (t : Target) : Tx State Error (Option Applied) := do
  let code := normalizeCode code
  if code = "" then pure none
  else do
    ofExcept (checkTarget t)
    require (validCode code = true) .couponNotFound
    let s ← read
    match s.couponByCode code with
    | none => fail .couponNotFound
    | some c => do
      let a ← ofExcept (apply env s c t)
      pure (some a)

/-- `Lock`: the row lock that an order takes before it is inserted.  Only the
refusal is visible. -/
def lock (code : String) : Tx State Error Unit := do
  let code := normalizeCode code
  if code = "" then pure ()
  else do
    require (validCode code = true) .couponNotFound
    let s ← read
    require ((s.couponByCode code).isSome = true) .couponNotFound

/-- `Reserve`: hold a coupon for an order. -/
def reserve (env : Env) (code : String) (t : Target) (o : OrderRef) :
    Tx State Error (Option Applied) := do
  let code := normalizeCode code
  if code = "" then pure none
  else do
    ofExcept (checkTarget t)
    ofExcept (validateOrderRef o)
    require (validCode code = true) .couponNotFound
    let s ← read
    match s.couponByCode code with
    | none => fail .couponNotFound
    | some c => do
      let a ← ofExcept (apply env s c t)
      let inserted ← insertRedemptionIfAbsent c.id t.userId o a.discount
      require (inserted = true) .orderHasCoupon
      let inc ← incrementReserved c.id
      require (inc = true) (.internal "promo: 锁内已查容量，占用计数仍加不上")
      pure (some a)

/-- The common part of `Release` and `Capture`: finish the redemption, then move the
counter. -/
def finish (orderId : UUID) (change : Redemption → Redemption)
    (count : UUID → Tx State Error Bool) : Tx State Error Unit := do
  match ← finishHeld orderId change with
  | none => fail .notHeld
  | some couponId => do
    let moved ← count couponId
    require (moved = true) (.internal "promo: 券的占用计数对不上")

def release (orderId : UUID) (reason : String) : Tx State Error Unit :=
  finish orderId (Redemption.release (normalizeReleaseReason reason)) decrementReserved

def capture (orderId : UUID) : Tx State Error Unit :=
  finish orderId Redemption.capture moveReservedToRedeemed

def checkPlans (env : Env) (ids : List UUID) : Except Error Unit :=
  if ids = [] then .ok ()
  else do
    let missing ← env.missingPlans ids
    ensure (missing = []) (.invalid [("applicable_plan_ids", "有套餐不存在")])

def createCoupon (env : Env) (code : String) (spec : Spec) : Tx State Error UUID := do
  let code := normalizeCode code
  ofExcept (validateCode code)
  let spec ← ofExcept (validateSpec spec)
  ofExcept (checkPlans env spec.planIds)
  let s ← read
  require (∀ c ∈ s.coupons, c.code ≠ code) .codeExists
  write fun s => { s with
    coupons := s.coupons ++ [couponFromSpec s.nextId code spec]
    nextId := s.nextId + 1 }
  ofExcept env.auditWrite
  pure s.nextId

def setStatus (env : Env) (id : UUID) (status : CouponStatus) : Tx State Error Unit := do
  let found ← updateCoupon id (fun _ => True) (Coupon.withStatus status)
  require (found = true) .notFound
  ofExcept env.auditWrite

end Pandora.Promo
