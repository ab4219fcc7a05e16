import Pandora.Promo.Redeem

/-!
# The counters of a coupon are exact

A coupon's row carries two counters, and the redemptions carry the same
information row by row.  `State.Counted` says that they agree, that no coupon and
no user is over its limit, and that an order has at most one redemption; it is
kept by every call of the module.

The argument is about single changes.  `Change` lists what a committed call can
do to the tables, with the checks it passed, and each case is a count before and
after the change of one redemption.
-/

namespace Pandora.Promo

open Money Text Database List Tx Nat State Redemption Evolves

/-! ## What a call did -/

/-- The coupons after a conditional update. -/
def State.updated (s : State) (id : UUID) (cond : Coupon → Prop) [DecidablePred cond]
    (change : Coupon → Coupon) : List Coupon :=
  s.coupons.map fun c => if c.id = id ∧ cond c then change c else c

/-- The redemptions after the one held for an order was finished. -/
def State.finished (s : State) (orderId : UUID) (change : Redemption → Redemption) :
    List Redemption :=
  s.redemptions.map (Redemption.finishFor orderId change)

/-- The changes a committed call can make to the tables. -/
inductive Change (s : State) : State → Prop
  | none : Change s s
  | created (code : String) (spec : Spec) : (∀ c ∈ s.coupons, c.code ≠ code) →
      Change s { s with
        coupons := s.coupons ++ [couponFromSpec s.nextId code spec]
        nextId := s.nextId + 1 }
  | switched (id : UUID) (status : CouponStatus) :
      Change s { s with
        coupons := s.updated id (fun _ => True) (Coupon.withStatus status) }
  | held (c : Coupon) (r : Redemption) : c ∈ s.coupons → c.HasRoom →
      s.countActiveByUser c.id r.userId < c.maxRedemptionsPerUser →
      (∀ x ∈ s.redemptions, x.orderId ≠ r.orderId) →
      r.id = s.nextId → r.couponId = c.id → r.status = .held →
      Change s
        { coupons := s.updated c.id Coupon.HasRoom Coupon.increment
          redemptions := s.redemptions ++ [r]
          nextId := s.nextId + 1 }
  | captured (r : Redemption) : r ∈ s.redemptions → r.status = .held →
      Change s { s with
        coupons := s.updated r.couponId (0 < ·.reservedCount) Coupon.moveToRedeemed
        redemptions := s.finished r.orderId Redemption.capture }
  | released (r : Redemption) (reason : Option String) : r ∈ s.redemptions → r.status = .held →
      Change s { s with
        coupons := s.updated r.couponId (0 < ·.reservedCount) Coupon.decrement
        redemptions := s.finished r.orderId (Redemption.release reason) }

variable {s s' : State} {cond : Coupon → Prop} {c : Coupon} {t : Target} {env : Env}
  {a : Option Applied} {orderId id : UUID} {u : Unit} {r : Redemption} {code reason : String}
  {change move : Coupon → Coupon} {o : OrderRef}

theorem updateCoupon_ok [DecidablePred cond] {found : Bool} :
    updateCoupon id cond change s = .ok (found, s') ↔
      found = decide (∃ c ∈ s.coupons, c.id = id ∧ cond c) ∧
        s' = { s with coupons := s.updated id cond change } := by
  simp only [updateCoupon, bind_ok, read_ok, write_ok, pure_ok]
  constructor
  · rintro ⟨_, _, ⟨rfl, rfl⟩, _, _, rfl, rfl, rfl⟩
    exact ⟨rfl, rfl⟩
  · rintro ⟨rfl, rfl⟩
    exact ⟨s, s, ⟨rfl, rfl⟩, (), _, rfl, rfl, rfl⟩

theorem checkBasics_hasRoom {now : Time} (h : checkBasics c t now = .ok ()) : c.HasRoom := by
  simp only [checkBasics, except_bind_eq_ok, ensure_eq_ok, exists_const] at h
  exact ⟨h.1, fun most hmost => not_le.mp (h.2.2.2.1 most hmost)⟩

theorem apply_ok {a : Applied} (h : apply env s c t = .ok a) :
    c.HasRoom ∧ s.countActiveByUser c.id t.userId < c.maxRedemptionsPerUser ∧
      a = ⟨c.id, c.code, c.face, discountFor c.face c.maxDiscount t.subtotal⟩ := by
  simp only [apply, except_bind_eq_ok, ensure_eq_ok, except_pure_eq_ok, exists_const] at h
  obtain ⟨_, hbasics, _, -, _, -, hlimit, rfl⟩ := h
  exact ⟨checkBasics_hasRoom hbasics, not_le.mp hlimit, rfl⟩

/-- **Reserving**: no code, nothing; or the coupon of the code is held for the order,
which had none. -/
theorem reserve_spec (h : reserve env code t o s = .ok (a, s')) :
    (normalizeCode code = "" ∧ a = none ∧ s' = s) ∨
    (normalizeCode code ≠ "" ∧ ∃ c ∈ s.coupons, ∃ r : Redemption, c.HasRoom ∧
      s.countActiveByUser c.id t.userId < c.maxRedemptionsPerUser ∧
      (∀ x ∈ s.redemptions, x.orderId ≠ o.id) ∧
      r = ⟨s.nextId, c.id, t.userId, o.id, String.ofList (trimSpace o.no.toList),
        discountFor c.face c.maxDiscount t.subtotal, .held, none⟩ ∧
      a = some ⟨c.id, c.code, c.face, discountFor c.face c.maxDiscount t.subtotal⟩ ∧
      s' = { coupons := s.updated c.id Coupon.HasRoom Coupon.increment
             redemptions := s.redemptions ++ [r]
             nextId := s.nextId + 1 }) := by
  simp only [reserve, ite_ok, pure_ok, bind_ok, ofExcept_ok, require_ok, read_ok] at h
  rcases h with ⟨hcode, rfl, rfl⟩ | ⟨hcode, _, _, ⟨-, rfl⟩, _, _, ⟨-, rfl⟩, _, _, ⟨-, rfl⟩,
    _, _, ⟨rfl, rfl⟩, h⟩
  · exact Or.inl ⟨hcode, rfl, rfl⟩
  · refine Or.inr ⟨hcode, ?_⟩
    cases hfind : s.couponByCode (normalizeCode code) with
    | none => simp [hfind] at h
    | some c =>
      simp only [hfind, bind_ok, ofExcept_ok, require_ok, pure_ok,
        insertRedemptionIfAbsent, read_ok, ite_ok, write_ok, incrementReserved,
        updateCoupon_ok] at h
      obtain ⟨b, _, ⟨happly, rfl⟩, inserted, s₁, ⟨_, _, ⟨-, rfl⟩, _, _, ⟨rfl, rfl⟩, hins⟩,
        _, _, ⟨rfl, rfl⟩, inc, s₂, ⟨rfl, rfl⟩, _, _, ⟨-, rfl⟩, rfl, rfl⟩ := h
      obtain ⟨hroom, hlimit, rfl⟩ := apply_ok happly
      rcases hins with ⟨-, hfalse, -⟩ | ⟨hnew, _, _, rfl, -, rfl⟩
      · exact absurd hfalse (by simp)
      · exact ⟨c, mem_of_find?_eq_some hfind, _, hroom, hlimit,
          fun x hx heq => hnew ⟨x, hx, heq⟩, rfl, rfl, rfl⟩

/-- **Finishing**: the order has a held redemption, which is finished, and the counter
of its coupon is moved. -/
theorem finish_spec {change : Redemption → Redemption} [DecidablePred cond]
    (h : finish orderId change (fun id => updateCoupon id cond move) s = .ok (u, s')) :
    ∃ r ∈ s.redemptions, r.orderId = orderId ∧ r.status = .held ∧ s' = { s with
        coupons := s.updated r.couponId cond move
        redemptions := s.finished orderId change } := by
  simp only [finish, finishHeld, bind_ok, read_ok, write_ok, pure_ok] at h
  obtain ⟨_, _, ⟨_, _, ⟨rfl, rfl⟩, _, _, rfl, rfl, rfl⟩, h⟩ := h
  cases hfind : s.redemptions.find? fun r => r.orderId = orderId ∧ r.status = .held with
  | none => simp only [hfind, Option.map_none, fail_ok] at h
  | some r =>
    simp only [hfind, Option.map_some, bind_ok, require_ok, updateCoupon_ok] at h
    obtain ⟨_, _, ⟨rfl, rfl⟩, -, rfl⟩ := h
    have hr : r.orderId = orderId ∧ r.status = .held := by simpa using List.find?_some hfind
    exact ⟨r, mem_of_find?_eq_some hfind, hr.1, hr.2, rfl⟩

/-! ## The counters -/

/-- How many redemptions of a coupon are in a state. -/
def State.inStatus (s : State) (couponId : UUID) (status : RedemptionStatus) : ℕ :=
  s.redemptions.countP fun r => r.couponId = couponId ∧ r.status = status

/-- **The invariant**: rows have their keys; every redemption is of a coupon; the
counters count; nothing is over its limit. -/
structure State.Counted (s : State) : Prop where
  couponIds : (s.coupons.map (·.id)).Nodup
  orderIds : (s.redemptions.map (·.orderId)).Nodup
  fresh : ∀ c ∈ s.coupons, c.id < s.nextId
  ofCoupon : ∀ r ∈ s.redemptions, ∃ c ∈ s.coupons, c.id = r.couponId
  reserved : ∀ c ∈ s.coupons, c.reservedCount = s.inStatus c.id .held
  redeemed : ∀ c ∈ s.coupons, c.redeemedCount = s.inStatus c.id .captured
  capacity : ∀ c ∈ s.coupons, ∀ most ∈ c.maxRedemptions, c.reservedCount + c.redeemedCount ≤ most
  perUser : ∀ c ∈ s.coupons, ∀ u, s.countActiveByUser c.id u ≤ c.maxRedemptionsPerUser

theorem State.counted_empty : empty.Counted := by
  constructor <;> simp [empty]

theorem State.updated_ids [DecidablePred cond] (hid : ∀ c, (change c).id = c.id) :
    (s.updated id cond change).map (·.id) = s.coupons.map (·.id) := by
  rw [updated, map_map]
  refine map_congr_left fun c _ => ?_
  show (if c.id = id ∧ cond c then change c else c).id = c.id
  split_ifs
  · exact hid c
  · rfl

/-- The coupons after the update of one that met the condition: it, changed, and
the others. -/
theorem State.mem_updated (hids : (s.coupons.map (·.id)).Nodup) [DecidablePred cond] {c' : Coupon}
    (hc : c ∈ s.coupons) (hcond : cond c) (h : c' ∈ s.updated c.id cond change) :
    c' = change c ∨ (c' ∈ s.coupons ∧ c'.id ≠ c.id) := by
  rw [updated, mem_map] at h
  obtain ⟨x, hx, rfl⟩ := h
  by_cases hid : x.id = c.id
  · have hxc : x = c := eq_of_key hids hx hc hid
    subst hxc
    rw [if_pos ⟨rfl, hcond⟩]
    exact Or.inl rfl
  · rw [if_neg fun h => hid h.1]
    exact Or.inr ⟨hx, hid⟩

section

variable [DecidablePred cond]
  (hid : ∀ c, (change c).id = c.id)
include hid

theorem State.exists_updated {i : UUID}
    (h : ∃ c ∈ s.coupons, c.id = i) : ∃ c ∈ s.updated id cond change, c.id = i := by
  have hmem : i ∈ (s.updated id cond change).map (·.id) := by
    rw [updated_ids hid]
    exact mem_map.mpr h
  exact mem_map.mp hmem

theorem State.lt_nextId_updated (hs : ∀ c ∈ s.coupons, c.id < s.nextId) :
    ∀ c ∈ s.updated id cond change, c.id < s.nextId := by
  intro c hc
  have hmem : c.id ∈ (s.updated id cond change).map (·.id) := mem_map_of_mem hc
  rw [updated_ids hid] at hmem
  obtain ⟨x, hx, hxc⟩ := mem_map.mp hmem
  rw [← hxc]
  exact hs x hx

end

theorem Redemption.finishFor_self (hheld : r.status = .held)
    (change : Redemption → Redemption) : r.finishFor r.orderId change = change r :=
  if_pos ⟨rfl, hheld⟩

theorem Redemption.finishFor_local (l : List Redemption) (r : Redemption)
    (change : Redemption → Redemption) :
    LocalTo (·.orderId) l r (finishFor r.orderId change) :=
  fun _ _ hne => if_neg fun h => hne h.1

theorem State.Counted.countP_finished (hs : s.Counted)
    (hr : r ∈ s.redemptions) (hheld : r.status = .held) (change : Redemption → Redemption)
    (p : Redemption → Prop) [DecidablePred p] : ((s.finished r.orderId change).countP p : ℤ) =
      s.redemptions.countP p - (if p r then 1 else 0) + (if p (change r) then 1 else 0) := by
  rw [finished, countP_map_update hs.orderIds hr (finishFor_local _ r change),
    finishFor_self hheld]

theorem State.Counted.reserved_pos (hs : s.Counted) (hr : r ∈ s.redemptions)
    (hheld : r.status = .held) : ∃ c ∈ s.coupons, c.id = r.couponId ∧ 0 < c.reservedCount := by
  obtain ⟨c, hc, hid⟩ := hs.ofCoupon r hr
  refine ⟨c, hc, hid, ?_⟩
  rw [hs.reserved c hc, inStatus, countP_pos_iff]
  exact ⟨r, hr, by simp [hid, hheld]⟩

theorem State.Counted.countP_fresh (hs : s.Counted) (p : Redemption → Prop)
    [DecidablePred p] (hp : ∀ r, p r → r.couponId = s.nextId) : s.redemptions.countP p = 0 := by
  rw [countP_eq_zero]
  intro r hr hpr
  obtain ⟨c, hc, hid⟩ := hs.ofCoupon r hr
  have hlt := hs.fresh c hc
  rw [hid, hp r (by simpa using hpr)] at hlt
  exact absurd hlt (lt_irrefl _)

/-! ## One change -/

theorem State.Counted.created (hs : s.Counted) (code : String) (spec : Spec) :
    Counted { s with
      coupons := s.coupons ++ [couponFromSpec s.nextId code spec]
      nextId := s.nextId + 1 } where
  couponIds := nodup_map_append hs.couponIds fun c hc => (hs.fresh c hc).ne
  orderIds := hs.orderIds
  fresh := forall_mem_append.mpr ⟨fun c hc => lt_succ_of_lt (hs.fresh c hc),
    forall_mem_singleton.mpr (lt_succ_self s.nextId)⟩
  ofCoupon r hr := by
    obtain ⟨c, hc, hid⟩ := hs.ofCoupon r hr
    exact ⟨c, mem_append_left _ hc, hid⟩
  reserved := forall_mem_append.mpr ⟨hs.reserved,
    forall_mem_singleton.mpr (hs.countP_fresh _ fun r h => h.1).symm⟩
  redeemed := forall_mem_append.mpr ⟨hs.redeemed,
    forall_mem_singleton.mpr (hs.countP_fresh _ fun r h => h.1).symm⟩
  capacity := forall_mem_append.mpr ⟨hs.capacity, forall_mem_singleton.mpr
    fun most _ => zero_le most⟩
  perUser := forall_mem_append.mpr ⟨hs.perUser, forall_mem_singleton.mpr fun u =>
    (hs.countP_fresh _ fun r h => h.1).trans_le (zero_le _)⟩

theorem State.Counted.switched (hs : s.Counted) (id : UUID) (status : CouponStatus) :
    Counted { s with
      coupons := s.updated id (fun _ => True) (Coupon.withStatus status) } := by
  -- a switched coupon differs from its old row in the status only
  have hrow : ∀ c' ∈ s.updated id (fun _ => True) (Coupon.withStatus status),
      ∃ c ∈ s.coupons, c'.id = c.id ∧ c'.reservedCount = c.reservedCount ∧
        c'.redeemedCount = c.redeemedCount ∧ c'.maxRedemptions = c.maxRedemptions ∧
        c'.maxRedemptionsPerUser = c.maxRedemptionsPerUser := by
    intro c' hc'
    obtain ⟨c, hc, rfl⟩ := mem_map.mp hc'
    refine ⟨c, hc, ?_⟩
    split_ifs <;> exact ⟨rfl, rfl, rfl, rfl, rfl⟩
  have hid : ∀ c : Coupon, (c.withStatus status).id = c.id := fun _ => rfl
  refine ⟨?_, hs.orderIds, lt_nextId_updated hid hs.fresh, fun r hr =>
    exists_updated hid (hs.ofCoupon r hr), fun c' hc' => ?_, fun c' hc' => ?_,
    fun c' hc' => ?_, fun c' hc' => ?_⟩
  · rw [updated_ids hid]
    exact hs.couponIds
  all_goals obtain ⟨c, hc, hid, hres, hred, hmax, huser⟩ := hrow c' hc'
  · rw [hres, hid]
    exact hs.reserved c hc
  · rw [hred, hid]
    exact hs.redeemed c hc
  · rw [hres, hred, hmax]
    exact hs.capacity c hc
  · rw [hid, huser]
    exact hs.perUser c hc

theorem State.Counted.held (hs : s.Counted) (hc : c ∈ s.coupons) (hroom : c.HasRoom)
    (huser : s.countActiveByUser c.id r.userId < c.maxRedemptionsPerUser)
    (hnew : ∀ x ∈ s.redemptions, x.orderId ≠ r.orderId) (hcoupon : r.couponId = c.id)
    (hheld : r.status = .held) : Counted
      { coupons := s.updated c.id Coupon.HasRoom Coupon.increment
        redemptions := s.redemptions ++ [r]
        nextId := s.nextId + 1 } := by
  have hid : ∀ c : Coupon, c.increment.id = c.id := fun _ => rfl
  refine ⟨?_, nodup_map_append hs.orderIds hnew, fun c' hc' => lt_succ_of_lt
    (lt_nextId_updated hid hs.fresh c' hc'), fun x hx => exists_updated hid
      (forall_mem_append.mpr ⟨hs.ofCoupon, forall_mem_singleton.mpr ⟨c, hc, hcoupon.symm⟩⟩ x hx),
        fun c' hc' => ?_,
    fun c' hc' => ?_, fun c' hc' most hmost => ?_, fun c' hc' u => ?_⟩
  · rw [updated_ids hid]
    exact hs.couponIds
  all_goals
    -- the coupon that was held, with its counter one higher, or another one
    rcases mem_updated hs.couponIds hc hroom hc' with rfl | ⟨hc', hne⟩
  · rw [inStatus, countP_append_one, if_pos ⟨hcoupon, hheld⟩]
    exact congrArg (· + 1) (hs.reserved c hc)
  · rw [inStatus, countP_append_one, if_neg fun h => hne (h.1.symm.trans hcoupon)]
    exact hs.reserved c' hc'
  · rw [inStatus, countP_append_one, if_neg fun h => by simp [hheld] at h]
    exact hs.redeemed c hc
  · rw [inStatus, countP_append_one, if_neg fun h => hne (h.1.symm.trans hcoupon)]
    exact hs.redeemed c' hc'
  · have h : c.redeemedCount + c.reservedCount < most := hroom.2 most hmost
    show c.reservedCount + 1 + c.redeemedCount ≤ most
    omega
  · exact hs.capacity c' hc' most hmost
  · rw [countActiveByUser, countP_append_one]
    by_cases hu : r.userId = u
    · subst hu
      rw [if_pos ⟨hcoupon, rfl, Or.inl hheld⟩]
      exact huser
    · rw [if_neg fun h => hu h.2.1]
      exact hs.perUser c hc u
  · rw [countActiveByUser, countP_append_one, if_neg fun h => hne (h.1.symm.trans hcoupon)]
    exact hs.perUser c' hc' u

/-- A way of finishing: what it does to the redemption and to its coupon, and how much
it adds to the second counter. -/
structure Finishing (change : Redemption → Redemption) (move : Coupon → Coupon)
    (captured : ℕ) : Prop where
  id : ∀ x, (change x).id = x.id
  orderId : ∀ x, (change x).orderId = x.orderId
  couponId : ∀ x, (change x).couponId = x.couponId
  userId : ∀ x, (change x).userId = x.userId
  discountAmount : ∀ x, (change x).discountAmount = x.discountAmount
  notHeld : ∀ x, (change x).status ≠ .held
  outcome : ∀ x, captured = if (change x).status = .captured then 1 else 0
  moved : ∀ c, move c = { c with
    reservedCount := c.reservedCount - 1, redeemedCount := c.redeemedCount + captured }

theorem finishing_capture : Finishing Redemption.capture Coupon.moveToRedeemed 1 := by
  constructor <;> intro x <;> simp [Redemption.capture, Coupon.moveToRedeemed]

theorem finishing_release {reason : Option String} :
    Finishing (Redemption.release reason) Coupon.decrement 0 := by
  constructor <;> intro x <;> simp [Redemption.release, Coupon.decrement]

section Finishing

variable {change : Redemption → Redemption}
  {captured : ℕ}

section

variable (hf : Finishing change move captured) (hs : s.Counted) (hr : r ∈ s.redemptions)
  (hheld : r.status = .held)
include hf hs hr hheld

theorem Finishing.count_held (id : UUID) :
    (s.finished r.orderId change).countP (fun x => x.couponId = id ∧ x.status = .held) +
      (if r.couponId = id then 1 else 0) = s.inStatus id .held := by
  have h := hs.countP_finished hr hheld change fun x => x.couponId = id ∧ x.status = .held
  simp only [hheld, hf.notHeld, and_true, and_false, if_false] at h
  unfold inStatus
  split_ifs at h ⊢ <;> omega

theorem Finishing.count_captured (id : UUID) :
    (s.finished r.orderId change).countP (fun x => x.couponId = id ∧ x.status = .captured) =
      s.inStatus id .captured + (if r.couponId = id then captured else 0) := by
  have h := hs.countP_finished hr hheld change fun x => x.couponId = id ∧ x.status = .captured
  simp only [hheld, hf.couponId, reduceCtorEq, and_false, if_false, ite_and] at h
  rw [hf.outcome r, inStatus]
  split_ifs at h ⊢ <;> omega

theorem Finishing.count_active (id userId : UUID) :
    (s.finished r.orderId change).countP (fun x => x.couponId = id ∧ x.userId = userId ∧
      (x.status = .held ∨ x.status = .captured)) ≤ s.countActiveByUser id userId := by
  have h := hs.countP_finished hr hheld change fun x => x.couponId = id ∧ x.userId = userId ∧
    (x.status = .held ∨ x.status = .captured)
  simp only [hheld, hf.couponId, hf.userId, true_or, and_true, ite_and] at h
  unfold countActiveByUser
  split_ifs at h <;> omega

theorem Finishing.counted :
    Counted { s with
      coupons := s.updated r.couponId (0 < ·.reservedCount) move
      redemptions := s.finished r.orderId change } := by
  have hid : ∀ c, (move c).id = c.id := fun c => by rw [hf.moved]
  have hrow : ∀ x : Redemption, (x.finishFor r.orderId change).orderId = x.orderId ∧
      (x.finishFor r.orderId change).couponId = x.couponId := by
    intro x
    unfold finishFor
    split_ifs
    · exact ⟨hf.orderId x, hf.couponId x⟩
    · exact ⟨rfl, rfl⟩
  obtain ⟨c, hc, hcoupon, hpos⟩ := hs.reserved_pos hr hheld
  have hcountHeld := hf.count_held hs hr hheld
  have hcountCaptured := hf.count_captured hs hr hheld
  refine ⟨?_, ?_, lt_nextId_updated hid hs.fresh, fun x hx => ?_, fun c' hc' => ?_,
    fun c' hc' => ?_, fun c' hc' most hmost => ?_, fun c' hc' u => ?_⟩
  · rw [updated_ids hid]
    exact hs.couponIds
  · exact nodup_map_update hs.orderIds fun x => (hrow x).1
  · obtain ⟨y, hy, rfl⟩ := mem_map.mp hx
    rw [(hrow y).2]
    exact exists_updated hid (hs.ofCoupon y hy)
  all_goals
    rw [← hcoupon] at hc'
    rcases mem_updated hs.couponIds hc hpos hc' with rfl | ⟨hc', hne⟩
  · have h := hcountHeld c.id
    rw [if_pos hcoupon.symm, ← hs.reserved c hc] at h
    rw [hf.moved]
    exact (Nat.eq_sub_of_add_eq h).symm
  · have h := hcountHeld c'.id
    rw [if_neg fun h => hne (h.symm.trans hcoupon.symm), ← hs.reserved c' hc'] at h
    exact h.symm
  · have h := hcountCaptured c.id
    rw [if_pos hcoupon.symm, ← hs.redeemed c hc] at h
    rw [hf.moved]
    exact h.symm
  · have h := hcountCaptured c'.id
    rw [if_neg fun h => hne (h.symm.trans hcoupon.symm), ← hs.redeemed c' hc'] at h
    exact h.symm
  · have hle : captured ≤ 1 := by
      rw [hf.outcome r]
      split_ifs <;> omega
    rw [hf.moved] at hmost ⊢
    have h := hs.capacity c hc most hmost
    show c.reservedCount - 1 + (c.redeemedCount + captured) ≤ most
    omega
  · exact hs.capacity c' hc' most hmost
  · rw [hf.moved]
    exact (hf.count_active hs hr hheld c.id u).trans (hs.perUser c hc u)
  · exact (hf.count_active hs hr hheld c'.id u).trans (hs.perUser c' hc' u)

end

end Finishing

theorem Change.counted (h : Change s s') (hs : s.Counted) : s'.Counted := by
  cases h with
  | none => exact hs
  | created code spec => exact hs.created code spec
  | switched id status => exact hs.switched id status
  | held c r hc hroom huser hnew _ hcoupon hheld =>
    exact hs.held hc hroom huser hnew hcoupon hheld
  | captured r hr hheld => exact finishing_capture.counted hs hr hheld
  | released r reason hr hheld => exact finishing_release.counted hs hr hheld

/-! ## What becomes of a redemption -/

/-- What a redemption may have become: the same one, and if it was no longer held,
unchanged. -/
structure Redemption.Becomes (x y : Redemption) : Prop where
  id : y.id = x.id
  couponId : y.couponId = x.couponId
  userId : y.userId = x.userId
  orderId : y.orderId = x.orderId
  discountAmount : y.discountAmount = x.discountAmount
  final : x.status ≠ .held → y = x

theorem Redemption.Becomes.refl (x : Redemption) : x.Becomes x :=
  ⟨rfl, rfl, rfl, rfl, rfl, fun _ => rfl⟩

theorem Redemption.Becomes.trans {x y z : Redemption} (h : x.Becomes y) (h' : y.Becomes z) :
    x.Becomes z where
  id := h'.id.trans h.id
  couponId := h'.couponId.trans h.couponId
  userId := h'.userId.trans h.userId
  orderId := h'.orderId.trans h.orderId
  discountAmount := h'.discountAmount.trans h.discountAmount
  final hx := by
    have hy := h.final hx
    rw [h'.final (by rwa [hy]), hy]

theorem Finishing.becomes {change : Redemption → Redemption}
    {captured : ℕ} (hf : Finishing change move captured) (orderId : UUID) (x : Redemption) :
    x.Becomes (x.finishFor orderId change) := by
  unfold finishFor
  split_ifs with hcond
  · exact ⟨hf.id x, hf.couponId x, hf.userId x, hf.orderId x, hf.discountAmount x,
      fun hne => absurd hcond.2 hne⟩
  · exact .refl x

theorem Change.evolves (h : Change s s') :
    Evolves Becomes s.redemptions s'.redemptions := by
  cases h with
  | none | created | switched => exact refl .refl _
  | held _ _ _ _ _ _ _ _ _ => exact of_subset .refl fun x hx => mem_append_left _ hx
  | captured r _ _ =>
    exact map fun x _ => finishing_capture.becomes _ x
  | released r reason _ _ =>
    exact map fun x _ => finishing_release.becomes _ x

/-! ## Runs -/

/-- A call of the module.  Coupons come from `create`, and an administrator may pause
them at any time. -/
inductive Call
  | create (code : String) (spec : Spec)
  | setStatus (id : UUID) (status : CouponStatus)
  | lock (code : String)
  | evaluate (code : String) (t : Target)
  | reserve (code : String) (t : Target) (o : OrderRef)
  | capture (orderId : UUID)
  | release (orderId : UUID) (reason : String)

/-- The method behind a call; answers are not looked at. -/
def exec (c : Env × Call) : Tx State Error Unit :=
  match c.2 with
  | .create code spec => do let _ ← createCoupon c.1 code spec
  | .setStatus id status => Promo.setStatus c.1 id status
  | .lock code => Promo.lock code
  | .evaluate code t => do let _ ← Promo.evaluate c.1 code t
  | .reserve code t o => do let _ ← Promo.reserve c.1 code t o
  | .capture orderId => Promo.capture orderId
  | .release orderId reason => Promo.release orderId reason

/-- The tables after the calls, from a new installation. -/
def runCalls (calls : List (Env × Call)) : State := Tx.run exec State.empty calls

theorem lock_ok (h : lock code s = .ok (u, s')) : s' = s := by
  simp only [lock, ite_ok, pure_ok, bind_ok, require_ok, read_ok] at h
  rcases h with ⟨-, -, rfl⟩ | ⟨-, _, _, ⟨-, rfl⟩, _, _, ⟨rfl, rfl⟩, -, rfl⟩ <;> rfl

theorem evaluate_ok (h : evaluate env code t s = .ok (a, s')) :
    s' = s ∧ (normalizeCode code ≠ "" → ∃ applied, a = some applied) := by
  simp only [evaluate, ite_ok, pure_ok, bind_ok, ofExcept_ok, require_ok, read_ok] at h
  rcases h with ⟨hempty, -, rfl⟩ | ⟨-, _, _, ⟨-, rfl⟩, _, _, ⟨-, rfl⟩, _, _, ⟨rfl, rfl⟩, h⟩
  · exact ⟨rfl, fun hcode => absurd hempty hcode⟩
  · cases hfind : s.couponByCode (normalizeCode code) with
    | none => simp only [hfind, fail_ok] at h
    | some =>
      simp only [hfind, bind_ok, ofExcept_ok, pure_ok] at h
      obtain ⟨applied, _, ⟨-, rfl⟩, rfl, rfl⟩ := h
      exact ⟨rfl, fun _ => ⟨applied, rfl⟩⟩

theorem reserve_change (h : reserve env code t o s = .ok (a, s')) : Change s s' := by
  rcases reserve_spec h with ⟨-, -, rfl⟩ | ⟨-, c, hc, r, hroom, huser, hnew, rfl, -, rfl⟩
  · exact .none
  · exact .held c _ hc hroom huser hnew rfl rfl rfl

theorem capture_change (h : capture orderId s = .ok (u, s')) : Change s s' := by
  obtain ⟨r, hr, rfl, hheld, rfl⟩ := finish_spec h
  exact .captured r hr hheld

theorem release_change (h : release orderId reason s = .ok (u, s')) : Change s s' := by
  obtain ⟨r, hr, rfl, hheld, rfl⟩ := finish_spec h
  exact .released r _ hr hheld

theorem createCoupon_change {spec : Spec} {c : UUID}
    (h : createCoupon env code spec s = .ok (c, s')) :
    Change s s' ∧ s'.redemptions = s.redemptions := by
  simp only [createCoupon, bind_ok, ofExcept_ok, read_ok, require_ok, write_ok, pure_ok] at h
  obtain ⟨_, _, ⟨-, rfl⟩, spec, _, ⟨-, rfl⟩, _, _, ⟨-, rfl⟩, _, _, ⟨rfl, rfl⟩, h⟩ := h
  obtain ⟨_, _, ⟨hnew, rfl⟩, _, _, rfl, _, _, ⟨-, rfl⟩, -, rfl⟩ := h
  exact ⟨.created _ spec hnew, rfl⟩

theorem setStatus_change {status : CouponStatus} (h : setStatus env id status s = .ok (u, s')) :
    Change s s' ∧ s'.redemptions = s.redemptions := by
  simp only [setStatus, bind_ok, updateCoupon_ok, require_ok, ofExcept_ok] at h
  obtain ⟨_, _, ⟨-, rfl⟩, _, _, ⟨-, rfl⟩, -, rfl⟩ := h
  exact ⟨.switched id status, rfl⟩

theorem exec_change {c : Env × Call} (h : exec c s = .ok (u, s')) : Change s s' := by
  obtain ⟨env, call⟩ := c
  unfold exec at h
  cases call with
  | create =>
    obtain ⟨_, h⟩ := of_bind_pure h
    exact (createCoupon_change h).1
  | setStatus => exact (setStatus_change h).1
  | lock =>
    obtain rfl := lock_ok h
    exact .none
  | evaluate =>
    obtain ⟨_, h⟩ := of_bind_pure h
    obtain ⟨rfl, -⟩ := evaluate_ok h
    exact .none
  | reserve =>
    obtain ⟨_, h⟩ := of_bind_pure h
    exact reserve_change h
  | capture => exact capture_change h
  | release => exact release_change h

theorem runCalls_counted (calls : List (Env × Call)) : (runCalls calls).Counted :=
  run_invariant counted_empty fun _ _ _ _ _ hs h => (exec_change h).counted hs

/-- **The counters of a coupon are exact, and its limits hold.**  After any calls, a
coupon has as many reserved and redeemed as it has redemptions held and captured;
together they are within its capacity, and each user is within the limit per user;
an order has at most one redemption; and whatever is called afterwards, each
redemption is still there, and unchanged if it was no longer held. -/
theorem coupon_counters_exact (calls : List (Env × Call)) : (∀ c ∈ (runCalls calls).coupons,
      c.reservedCount = (runCalls calls).inStatus c.id .held ∧
      c.redeemedCount = (runCalls calls).inStatus c.id .captured ∧
      (∀ most ∈ c.maxRedemptions, c.reservedCount + c.redeemedCount ≤ most) ∧
      ∀ u, (runCalls calls).countActiveByUser c.id u ≤ c.maxRedemptionsPerUser) ∧
    ((runCalls calls).redemptions.map (·.orderId)).Nodup ∧
    ∀ more, Evolves Redemption.Becomes (runCalls calls).redemptions
      (runCalls (calls ++ more)).redemptions := by
  have hs := runCalls_counted calls
  refine ⟨fun c hc => ⟨hs.reserved c hc, hs.redeemed c hc, hs.capacity c hc, hs.perUser c hc⟩,
    hs.orderIds, fun more => ?_⟩
  rw [runCalls, runCalls, run_append]
  exact run_relation (I := fun _ : State => True)
    (R := fun s s' : State => Evolves Redemption.Becomes s.redemptions s'.redemptions) trivial
    (fun s => Evolves.refl .refl s.redemptions) (fun _ _ _ h h' => h.trans (fun _ _ _ => .trans) h')
    (fun _ _ _ _ _ _ => trivial) fun _ _ _ _ _ h => (exec_change h).evolves

end Pandora.Promo
