import Pandora.Orders.View

/-!
# Order, reservation, coupon and frozen balance agree

`View.Agrees` is the agreement, about one view; it says nothing about tables.  An
order that is pending has its reservation, its coupon and its balance held; one
that is fulfilled has them captured, and was fulfilled once; one that was
cancelled or has expired has them released.  A coupon or a balance is there
exactly if the order's row says so.  `paid` agrees with nothing: no transaction
ends in it.

`Step` is what the agreement is for: a transaction leads from consistent tables to
consistent tables, and moves an order only out of `pending`.
-/

namespace Pandora.Orders

open Money Database Ledger Orders.Order View State

/-! ## The agreement -/

/-- What the parts of an order in this status are. -/
def Status.stage : Status → Option ReservationState
  | .pending => some .held
  | .paid => none
  | .fulfilled => some .captured
  | .cancelled => some .released
  | .expired => some .released

/-- The same, of a redemption. -/
def ReservationState.redemption : ReservationState → Promo.RedemptionStatus
  | .held => .held
  | .captured => .captured
  | .released => .released

/-- The same, of a hold. -/
def ReservationState.hold : ReservationState → HoldStatus
  | .held => .held
  | .captured => .captured
  | .released => .released

/-- The coupon of an order is in this state, if it has one. -/
def Order.CouponAgrees (o : Order) (stage : ReservationState) (r : Option Promo.Redemption) :
    Prop :=
  match o.couponId with
  | none => r = none
  | some c => ∃ x, r = some x ∧ x.couponId = c ∧ x.status = stage.redemption

/-- The frozen balance of an order is in this state, if it has one. -/
def Order.HoldAgrees (o : Order) (stage : ReservationState) (h : Option Hold) : Prop :=
  if 0 < o.balanceApplied then
    ∃ x, h = some x ∧ x.amount = o.balanceApplied ∧ x.userId = o.userId ∧ x.status = stage.hold
  else h = none

/-- The parts of an order are what its row says. -/
structure View.AgreesWith (v : View) (o : Order) (st : ReservationState) : Prop where
  status : o.status.stage = some st
  reservation : v.reservation = some st
  coupon : o.CouponAgrees st v.redemption
  hold : o.HoldAgrees st v.hold
  effects : v.effects = if o.status = .fulfilled then 1 else 0
  payable : o.payableAmount = o.totalAmount - o.balanceApplied
  pending : o.status = .pending → 0 < o.payableAmount
  topup : o.kind = .topup → o.balanceApplied = 0

/-- **The agreement.**  Where there is no order there is nothing. -/
def View.Agrees (v : View) : Prop :=
  match v.order with
  | none => v = ⟨none, none, none, none, 0⟩
  | some o => ∃ stage, v.AgreesWith o stage

variable {o o' : Order} {v : View} {st st' : ReservationState} {x : Option Hold} {s s' : State}
  {j i : UUID} {r : Option Promo.Redemption}

theorem View.agrees_some (h : v.order = some o) : v.Agrees ↔ ∃ stage, v.AgreesWith o stage := by
  rw [Agrees, h]

theorem View.agrees_none (h : v.order = none) : v.Agrees ↔ v = ⟨none, none, none, none, 0⟩ := by
  rw [Agrees, h]

/-- What a row keeps when its status changes. -/
structure Order.Continues (o o' : Order) : Prop where
  id : o'.id = o.id
  userId : o'.userId = o.userId
  kind : o'.kind = o.kind
  couponId : o'.couponId = o.couponId
  balanceApplied : o'.balanceApplied = o.balanceApplied
  payableAmount : o'.payableAmount = o.payableAmount
  totalAmount : o'.totalAmount = o.totalAmount

namespace Order.Continues

theorem refl (o : Order) : o.Continues o := ⟨rfl, rfl, rfl, rfl, rfl, rfl, rfl⟩

theorem trans {o'' : Order} (h : o.Continues o') (h' : o'.Continues o'') :
    o.Continues o'' where
  id := h'.id.trans h.id
  userId := h'.userId.trans h.userId
  kind := h'.kind.trans h.kind
  couponId := h'.couponId.trans h.couponId
  balanceApplied := h'.balanceApplied.trans h.balanceApplied
  payableAmount := h'.payableAmount.trans h.payableAmount
  totalAmount := h'.totalAmount.trans h.totalAmount

theorem couponAgrees (h : o.Continues o') : o'.CouponAgrees st r ↔ o.CouponAgrees st r := by
  unfold CouponAgrees
  rw [h.couponId]

theorem holdAgrees (h : o.Continues o') : o'.HoldAgrees st x ↔ o.HoldAgrees st x := by
  unfold HoldAgrees
  rw [h.balanceApplied, h.userId]

end Order.Continues

theorem View.AgreesWith.next {v' : View}
    (h : v.AgreesWith o st) (hc : o.Continues o') (hstatus : o'.status.stage = some st')
    (hpending : o'.status ≠ .pending) (hres : v'.reservation = some st')
    (hcoupon : o.CouponAgrees st' v'.redemption) (hhold : o.HoldAgrees st' v'.hold)
    (heffects : v'.effects = if o'.status = .fulfilled then 1 else 0) : v'.AgreesWith o' st' where
  status := hstatus
  reservation := hres
  coupon := hc.couponAgrees.mpr hcoupon
  hold := hc.holdAgrees.mpr hhold
  effects := heffects
  payable := by rw [hc.payableAmount, hc.totalAmount, hc.balanceApplied]; exact h.payable
  pending hp := absurd hp hpending
  topup hk := by rw [hc.balanceApplied]; exact h.topup (hc.kind ▸ hk)

/-! ## How the parts move together -/

theorem Order.holdAgrees_pos (h : 0 < o.balanceApplied)
    {x : Hold} (hamount : x.amount = o.balanceApplied) (huser : x.userId = o.userId)
    (hst : x.status = st.hold) : o.HoldAgrees st (some x) := by
  rw [HoldAgrees, if_pos h]
  exact ⟨x, rfl, hamount, huser, hst⟩

theorem Order.holdAgrees_none (h : ¬0 < o.balanceApplied) (st : ReservationState)
    : o.HoldAgrees st x ↔ x = none := by
  rw [HoldAgrees, if_neg h]

theorem Order.HoldAgrees.none (h : ¬0 < o.balanceApplied)
    (hx : o.HoldAgrees st x) (st' : ReservationState) : o.HoldAgrees st' x :=
  (holdAgrees_none h st').mpr ((holdAgrees_none h st).mp hx)

theorem Order.HoldAgrees.close {x : Hold}
    {change : Hold → Hold} (hchange : Closes change) (hst : (change x).status = st'.hold)
    (hx : o.HoldAgrees st (some x)) : o.HoldAgrees st' (some (change x)) := by
  unfold HoldAgrees at hx ⊢
  split_ifs at hx ⊢
  obtain ⟨y, hy, hamount, huser, -⟩ := hx
  rw [Option.some.injEq] at hy
  subst hy
  exact ⟨change x, rfl, (hchange.amount x).trans hamount, (hchange.userId x).trans huser, hst⟩

/-- The redemption of an order after its coupon was finished. -/
def Order.couponAfter (o : Order) (change : Promo.Redemption → Promo.Redemption)
    (r : Option Promo.Redemption) : Option Promo.Redemption :=
  if o.couponId ≠ none then r.map change else r

theorem Order.CouponAgrees.finish
    {change : Promo.Redemption → Promo.Redemption} (hcoupon : ∀ x, (change x).couponId = x.couponId)
    (hstatus : ∀ x, (change x).status = st'.redemption) (h : o.CouponAgrees st r) :
    o.CouponAgrees st' (o.couponAfter change r) := by
  unfold CouponAgrees at h ⊢
  unfold couponAfter
  cases hc : o.couponId with
  | none =>
    rw [hc] at h
    rw [if_neg (by simp)]
    exact h
  | some =>
    rw [hc] at h
    obtain ⟨x, rfl, hx, -⟩ := h
    rw [if_pos (by simp)]
    exact ⟨change x, rfl, (hcoupon x).trans hx, hstatus x⟩

/-! ## Transactions -/

/-- How the status of an order may change: it is placed, and it leaves `pending`.
There is no other way. -/
inductive Moves : Option Status → Option Status → Prop
  | stays (st : Option Status) : Moves st st
  | placed (st : Option Status) : Moves none st
  | closed (st : Status) : Moves (some .pending) (some st)

theorem Moves.trans {a b c : Option Status} (h : Moves a b) (h' : Moves b c) : Moves a c := by
  cases h with
  | stays => exact h'
  | placed => exact .placed c
  | closed st =>
    cases h' with
    | stays => exact .closed st
    | closed st' => exact .closed st'

theorem Moves.final {st : Status} (hst : st ≠ .pending) {b : Option Status}
    (h : Moves (some st) b) : b = some st := by
  cases h with
  | stays => rfl
  | closed => exact absurd rfl hst

/-- The status of an order. -/
def State.statusOf (s : State) (i : UUID) : Option Status := (s.orderById i).map (·.status)

/-- The tables are in order, and every order agrees with its parts. -/
structure State.Consistent (s : State) : Prop where
  base : s.Base
  agrees : ∀ i, (s.view i).Agrees

/-- What every transaction does. -/
structure Step (s s' : State) : Prop where
  consistent : s'.Consistent
  moves : ∀ i, Moves (s.statusOf i) (s'.statusOf i)

theorem Step.refl (hs : s.Consistent) : Step s s := ⟨hs, fun _ => .stays _⟩

theorem Step.trans {s₁ s₂ s₃ : State} (h : Step s₁ s₂) (h' : Step s₂ s₃) : Step s₁ s₃ :=
  ⟨h'.consistent, fun i => (h.moves i).trans (h'.moves i)⟩

theorem State.consistent_empty : empty.Consistent :=
  ⟨base_empty, fun _ => rfl⟩

theorem Local.step (h : Local j s s' v) (hs : s.Consistent)
    (hv : v.Agrees) (hmoves : Moves (s.statusOf j) (v.order.map (·.status))) : Step s s' := by
  refine ⟨⟨h.base, fun i => ?_⟩, fun i => ?_⟩
  · by_cases hi : i = j
    · rw [hi, h.self]
      exact hv
    · rw [h.others i hi]
      exact hs.agrees i
  · by_cases hi : i = j
    · have horder : s'.orderById j = v.order := congrArg order h.self
      rw [hi]
      unfold statusOf at hmoves ⊢
      rw [horder]
      exact hmoves
    · have horder : s'.orderById i = s.orderById i := congrArg order (h.others i hi)
      unfold statusOf
      rw [horder]
      exact .stays _

/-- A row of the tables after a transaction goes on from one before it; `placed` is the
user and the kind of the order that the transaction may have placed. -/
def State.RowFrom (s : State) (placed : Option (UUID × Kind)) (i : UUID) (o' : Order) : Prop :=
  (i = s.nextId ∧ placed = some (o'.userId, o'.kind)) ∨ ∃ o, s.orderById i = some o ∧ o.Continues o'

/-- A step, with where the rows come from. -/
structure Progress (placed : Option (UUID × Kind)) (s s' : State) : Prop extends Step s s' where
  rows : ∀ i o', s'.orderById i = some o' → s.RowFrom placed i o'

theorem Progress.refl (hs : s.Consistent) (placed : Option (UUID × Kind)) : Progress placed s s :=
  ⟨Step.refl hs, fun _ o ho => .inr ⟨o, ho, .refl o⟩⟩

theorem Progress.trans {s₁ s₂ s₃ : State} (h : Progress none s₁ s₂) (h' : Progress none s₂ s₃) :
    Progress none s₁ s₃ := by
  refine ⟨h.toStep.trans h'.toStep, fun i o₃ ho₃ => ?_⟩
  obtain ⟨-, hplaced⟩ | ⟨o₂, ho₂, h₂₃⟩ := h'.rows i o₃ ho₃
  · cases hplaced
  obtain ⟨-, hplaced⟩ | ⟨o₁, ho₁, h₁₂⟩ := h.rows i o₂ ho₂
  · cases hplaced
  exact .inr ⟨o₁, ho₁, h₁₂.trans h₂₃⟩

/-- A transaction that changes one view: the row in the new view is the one to account for. -/
theorem Local.progress {placed : Option (UUID × Kind)} (h : Local j s s' v) (hs : s.Consistent)
    (hv : v.Agrees) (hmoves : Moves (s.statusOf j) (v.order.map (·.status)))
    (hrow : ∀ o' ∈ v.order, s.RowFrom placed j o') : Progress placed s s' := by
  refine ⟨h.step hs hv hmoves, fun i o' ho' => ?_⟩
  by_cases hi : i = j
  · subst hi
    have horder : s'.orderById i = v.order := congrArg order h.self
    exact hrow o' (horder ▸ ho')
  · have horder : s'.orderById i = s.orderById i := congrArg order (h.others i hi)
    exact .inr ⟨o', horder ▸ ho', .refl o'⟩

theorem Local.unchanged (h : Local j s s' (s.view j)) (hs : s.Consistent) : Progress none s s' :=
  h.progress hs (hs.agrees j) (.stays _) fun o' ho' => .inr ⟨o', ho', .refl o'⟩

theorem State.Consistent.agreesWith (hs : s.Consistent)
    (ho : s.orderById i = some o) : ∃ st, (s.view i).AgreesWith o st :=
  (agrees_some ho).mp (hs.agrees i)

theorem State.Consistent.held (hs : s.Consistent) (ho : s.orderById i = some o)
    (hpending : o.status = .pending) : (s.view i).AgreesWith o .held := by
  obtain ⟨st, h⟩ := hs.agreesWith ho
  have hst := h.status
  rw [hpending, Status.stage, Option.some.injEq] at hst
  rw [hst]
  exact h

end Pandora.Orders
