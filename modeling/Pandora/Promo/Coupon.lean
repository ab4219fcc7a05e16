import Pandora.Foundation.Check
import Pandora.Foundation.Clock
import Pandora.Foundation.Text
import Pandora.Identifiers
import Pandora.Money

/-!
# Coupons, and when one can be used

A coupon takes an amount or a percentage off an order.  Whether it may be used is
decided by its own row (status, validity, how often it has been used), by the
order (its subtotal and plan), and by the user (their group, and how often they
used it).  This file has the rules that need no database: the shape of codes, the
checks on a row, and the discount.
-/

namespace Pandora.Promo

open Money Text

/-! ## Types -/

/-- What is printed on a coupon: a percentage in basis points, or an amount. -/
inductive Face
  | percent (bp : ℤ)
  | fixed (amountOff : ℚ)

/-- `active` and `paused`; an administrator switches between the two. -/
inductive CouponStatus
  | active | paused
  deriving DecidableEq

/-- A row of `coupons`, with the plans of `coupon_plans` that it is restricted to. -/
structure Coupon where
  id : UUID
  code : String
  face : Face
  maxDiscount : Option ℚ
  minOrderAmount : ℚ
  maxRedemptions : Option ℕ
  maxRedemptionsPerUser : ℕ
  redeemedCount : ℕ
  reservedCount : ℕ
  userGroupId : Option UUID
  validFrom : Option Time
  validUntil : Option Time
  status : CouponStatus
  planIds : List UUID

/-- Who buys what, for how much. -/
structure Target where
  userId : UUID
  planId : Option UUID
  subtotal : ℚ

/-- The order a redemption is bound to. -/
structure OrderRef where
  id : UUID
  no : String

/-- A coupon applied to an order. -/
structure Applied where
  couponId : UUID
  code : String
  face : Face
  discount : ℚ

/-- The errors of the module. -/
inductive Error
  | couponNotFound
  | couponExpired
  | couponUsedUp
  | couponUserLimit
  | couponMinAmount
  | couponNotForPlan
  | couponNotForReset
  | couponNotForUser
  | codeExists
  | orderHasCoupon
  | notHeld
  | invalid (fields : List (String × String))
  | notFound
  | internal (text : String)
  deriving DecidableEq

/-! ## Codes -/

/-- The characters of a code. -/
def codeChar (c : Char) : Bool :=
  ('A' ≤ c && c ≤ 'Z') || ('0' ≤ c && c ≤ '9') || c == '_' || c == '-'

/-- The pattern `^[A-Z0-9_-]{1,64}$`. -/
def validCode (code : String) : Bool := matchesClass codeChar 1 64 code

def normalizeCode (code : String) : String :=
  String.ofList ((trimSpace code.toList).map upperASCII)

/-! ## The rules -/

/-- `checkBasics`: what the row alone decides, in the order the source asks. -/
def checkBasics (c : Coupon) (t : Target) (now : Time) : Except Error Unit := do
  ensure (c.status = .active) .couponNotFound
  ensure (∀ from_ ∈ c.validFrom, ¬now < from_) .couponNotFound
  ensure (∀ until_ ∈ c.validUntil, ¬until_ < now) .couponExpired
  ensure (∀ most ∈ c.maxRedemptions, ¬most ≤ c.redeemedCount + c.reservedCount) .couponUsedUp
  ensure (¬t.subtotal < c.minOrderAmount) .couponMinAmount

/-- `checkPlan`: no plans means any. -/
def checkPlan (planIds : List UUID) (planId : Option UUID) : Except Error Unit :=
  ensure (planIds = [] ∨ ∃ id ∈ planId, id ∈ planIds) .couponNotForPlan

/-- What the face takes off, before the subtotal caps it. -/
def faceDiscount (f : Face) (maxDiscount : Option ℚ) (subtotal : ℚ) : ℚ :=
  match f with
  | .percent bp =>
    let d := applyBP subtotal bp
    match maxDiscount with
    | some most => if most < d then most else d
    | none => d
  | .fixed amountOff => amountOff

/-- `discountFor`: capped by the coupon and by the subtotal. -/
def discountFor (f : Face) (maxDiscount : Option ℚ) (subtotal : ℚ) : ℚ :=
  let d := faceDiscount f maxDiscount subtotal
  let d := if subtotal < d then subtotal else d
  if d < 0 then 0 else d

def checkTarget (t : Target) : Except Error Unit := do
  ensure (0 ≤ t.subtotal) (.internal "promo target: 金额不能为负")
  ensure (Check t.subtotal) (.internal "promo target: 金额超过 2 位小数")
  ensure (t.userId ≠ UUID.nil) (.internal "promo target: user_id 不能为空")

def validateOrderRef (o : OrderRef) : Except Error Unit := do
  ensure (o.id ≠ UUID.nil) (.internal "promo: order_id 不能为空")
  ensure (trimSpace o.no.toList ≠ []) (.internal "promo: order_no 不能为空")
  ensure ((trimSpace o.no.toList).length ≤ 64) (.internal "promo: order_no 超过 64 字符")

/-- `normalizeReleaseReason`: trimmed, without zero bytes, at most 200 characters. -/
def normalizeReleaseReason (reason : String) : Option String :=
  let r := (trimSpace reason.toList).filter (· ≠ '\x00')
  if r = [] then none else some (String.ofList (r.take 200))

/-! ## Specifications of new coupons -/

/-- What an administrator asks for. -/
structure Spec where
  name : String
  face : Face
  maxDiscount : Option ℚ
  minOrder : ℚ
  maxRedemptions : Option ℤ
  maxPerUser : ℤ
  planIds : List UUID
  userGroupId : Option UUID
  validFrom : Option Time
  validUntil : Option Time

/-- The check of the face. -/
def faceRefused : Face → Prop
  | .percent bp => bp < 1 ∨ 10000 < bp
  | .fixed amountOff => ¬0 < amountOff ∨ ¬Check amountOff

instance (f : Face) : Decidable (faceRefused f) := by
  cases f <;> exact inferInstanceAs (Decidable (_ ∨ _))

/-- The complaint about the cap, if any: only percentages have one. -/
def maxDiscountComplaint (spec : Spec) : List (String × String) :=
  match spec.maxDiscount, spec.face with
  | none, _ => []
  | some _, .fixed _ => [("max_discount", "定额券不设封顶")]
  | some most, .percent _ =>
    if ¬0 < most ∨ ¬Check most then [("max_discount", "封顶金额需大于 0")] else []

/-- A complaint about one field, made when `p` holds. -/
def complaint (p : Prop) [Decidable p] (field text : String) : List (String × String) :=
  if p then [(field, text)] else []

/-- All complaints of `validateSpec`, which reports them together. -/
def specComplaints (spec : Spec) : List (String × String) :=
  let name := trimSpace spec.name.toList
  complaint (name.length < 1 ∨ 100 < name.length ∨ '\x00' ∈ name) "name" "名称 1 到 100 字" ++
  complaint (faceRefused spec.face) "discount_value"
    (match spec.face with
      | .percent _ => "折扣需在 0.01% 到 100% 之间"
      | .fixed _ => "立减金额需大于 0") ++
  maxDiscountComplaint spec ++
  complaint (¬CheckNonNegative spec.minOrder) "min_order_amount" "门槛金额不能为负，最多两位小数" ++
  complaint (∃ n ∈ spec.maxRedemptions, n ≤ 0) "max_redemptions" "填正整数，留空为不限" ++
  complaint (spec.maxPerUser < 1) "max_redemptions_per_user" "每人至少可用 1 次" ++
  complaint (∃ from_ ∈ spec.validFrom, ∃ until_ ∈ spec.validUntil, ¬from_ < until_)
    "valid_until" "结束时间必须晚于开始时间" ++
  complaint (200 < spec.planIds.eraseDups.length) "applicable_plan_ids" "最多 200 个套餐"

/-- `validateSpec`: the plans are kept once each. -/
def validateSpec (spec : Spec) : Except Error Spec := do
  ensure (specComplaints spec = []) (.invalid (specComplaints spec))
  pure { spec with planIds := spec.planIds.eraseDups }

def validateCode (code : String) : Except Error Unit :=
  ensure (validCode code = true) (.invalid [("code", "优惠码 1 到 64 位，只能用字母、数字、下划线和短横线")])

/-- `couponFromSpec`: a new coupon is active and unused. -/
def couponFromSpec (id : UUID) (code : String) (spec : Spec) : Coupon where
  id := id
  code := code
  face := spec.face
  maxDiscount := spec.maxDiscount
  minOrderAmount := spec.minOrder
  maxRedemptions := spec.maxRedemptions.map Int.toNat
  maxRedemptionsPerUser := spec.maxPerUser.toNat
  redeemedCount := 0
  reservedCount := 0
  userGroupId := spec.userGroupId
  validFrom := spec.validFrom
  validUntil := spec.validUntil
  status := .active
  planIds := spec.planIds

end Pandora.Promo
