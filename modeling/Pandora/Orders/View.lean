import Pandora.Ledger.OrderView
import Pandora.Orders.Settle
import Pandora.Promo.OrderView

/-!
# One order, seen across the modules

`State.view s i` gathers everything the tables say about the order `i`: its row,
the state of its reservation, its redemption, its hold, and how often it was
fulfilled.  Every statement of the module changes the view of one order, and
leaves those of all other orders as they are; `Local` says that, and composes.
So a transaction is followed by following one view through its statements.

What makes this work is that the tables keep their keys (`State.Base`); the
invariants of the ledger and of the coupons are part of it.
-/

namespace Pandora.Orders

open Money Database Ledger List Tx Nat Option State Reservation

/-- What the tables say about one order. -/
structure View where
  order : Option Order
  reservation : Option ReservationState
  redemption : Option Promo.Redemption
  hold : Option Hold
  effects : ℕ

/-- The top-ups of an order in a list of postings. -/
def topups (journal : List Record) (orderId : UUID) : ℕ :=
  journal.countP fun r => r.About .balanceTopup orderId

/-- How often an order was fulfilled: on a subscription, or on the balance. -/
def State.effectsOf (s : State) (orderId : UUID) : ℕ :=
  s.effects.countP (·.orderId = orderId) + topups s.ledger.journal orderId

/-- The view of an order. -/
def State.view (s : State) (i : UUID) : View where
  order := s.orderById i
  reservation := (s.reservationByOrder i).map (·.state)
  redemption := s.promo.redemptionByOrder i
  hold := s.ledger.holdByOrder i
  effects := s.effectsOf i

theorem State.view_eq (s : State) (i : UUID) : s.view i =
    ⟨s.orders.find? (·.id = i), (s.reservations.find? (·.orderId = i)).map (·.state),
      s.promo.redemptionByOrder i, s.ledger.holdByOrder i,
      s.effects.countP (·.orderId = i) + topups s.ledger.journal i⟩ := rfl

/-- The tables keep their keys, and the modules their invariants. -/
structure State.Base (s : State) : Prop where
  ledger : s.ledger.Kept
  promo : s.promo.Counted
  orderIds : (s.orders.map (·.id)).Nodup
  orderFresh : ∀ o ∈ s.orders, o.id < s.nextId
  reservationIds : (s.reservations.map (·.id)).Nodup
  reservationFresh : ∀ r ∈ s.reservations, r.id < s.nextId
  nextId_pos : 0 < s.nextId

theorem State.base_empty : empty.Base where
  ledger := kept_empty
  promo := Promo.State.counted_empty
  orderIds := nodup_nil
  orderFresh o ho := absurd ho (by simp [empty])
  reservationIds := nodup_nil
  reservationFresh r hr := absurd hr (by simp [empty])
  nextId_pos := zero_lt_one

/-- Only the view of the order `j` changed, to `v`. -/
structure Local (j : UUID) (s s' : State) (v : View) : Prop where
  base : s'.Base
  self : s'.view j = v
  others : ∀ i, i ≠ j → s'.view i = s.view i

variable {s s' : State} {j i : UUID} {o : Order} {u : Unit} {l : Ledger.State} {new : List Record}
  {hold : Option Hold}

theorem Local.refl (hs : s.Base) (j : UUID) : Local j s s (s.view j) :=
  ⟨hs, rfl, fun _ _ => rfl⟩

theorem Local.trans {s₁ s₂ s₃ : State} {v v' : View} (h : Local j s₁ s₂ v)
    (h' : Local j s₂ s₃ v') : Local j s₁ s₃ v' :=
  ⟨h'.base, h'.self, fun i hi => (h'.others i hi).trans (h.others i hi)⟩

theorem local_of_view (hb : s'.Base) (hv : ∀ i, s'.view i = s.view i) (j : UUID) :
    Local j s s' (s.view j) := ⟨hb, hv j, fun i _ => hv i⟩

/-! ## Rows of the order module -/

theorem State.orderById_mem (h : s.orderById i = some o) : o ∈ s.orders ∧ o.id = i :=
  ⟨mem_of_find?_eq_some h, by simpa using List.find?_some h⟩

theorem State.Base.orderById (hs : s.Base) (ho : o ∈ s.orders) : s.orderById o.id = some o :=
  find?_key hs.orderIds ho

theorem State.reservationByOrder_mem {r : Reservation}
    (h : s.reservationByOrder i = some r) : r ∈ s.reservations ∧ r.orderId = i :=
  ⟨mem_of_find?_eq_some h, by simpa using List.find?_some h⟩

section

variable (hs : s.Base)
include hs

theorem updateReservation_local {res : Reservation}
    (hres : s.reservationByOrder j = some res) {to_ : ReservationState} {reason : Option String}
    (h : updateReservation res.id to_ reason s = .ok (true, s')) :
    (s.view j).reservation = some .held ∧
      Local j s s' { s.view j with reservation := some to_ } := by
  simp only [updateReservation, bind_ok, read_ok, write_ok, pure_ok] at h
  obtain ⟨_, _, ⟨rfl, rfl⟩, _, _, rfl, hfound, rfl⟩ := h
  obtain ⟨hmem, rfl⟩ := reservationByOrder_mem hres
  have hheld : res.state = .held := by
    obtain ⟨r, hr, hid, hst⟩ := of_decide_eq_true hfound
    rwa [eq_of_key hs.reservationIds hr hmem hid] at hst
  have hkeys : ∀ r : Reservation, (r.updateIf res.id to_ reason).orderId = r.orderId ∧
      (r.updateIf res.id to_ reason).id = r.id := by
    intro r
    unfold updateIf
    split_ifs <;> exact ⟨rfl, rfl⟩
  have hlocal : LocalTo (·.id) s.reservations res (updateIf res.id to_ reason) :=
    fun r _ hne => if_neg fun h => hne h.1
  refine ⟨?_, { hs with
    reservationIds := nodup_map_update hs.reservationIds fun r => (hkeys r).2
    reservationFresh := forall_mem_map.mpr fun r hr =>
      (hkeys r).2.trans_lt (hs.reservationFresh r hr) }, ?_, fun i hi => ?_⟩
  · show (s.reservationByOrder res.orderId).map (·.state) = some .held
    rw [hres, map_some, hheld]
  · rw [view_eq, view_eq]
    unfold reservationByOrder at hres
    rw [find?_map_update fun r => (hkeys r).1, hres, map_some, map_some]
    rw [updateIf, if_pos ⟨rfl, hheld⟩]
  · rw [view_eq, view_eq]
    rw [find?_map_local hs.reservationIds hmem (fun r => (hkeys r).1) hlocal hi]

theorem updateOrder_local (ho : s.orderById j = some o) {fromStatus : Status}
    {change : Order → Order}
    (h : updateOrder j fromStatus change s = .ok (true, s')) (hchange : ∀ x, (change x).id = x.id) :
    o.status = fromStatus ∧ Local j s s' { s.view j with
        order := some { change o with stateVersion := o.stateVersion + 1 } } := by
  simp only [updateOrder, bind_ok, read_ok, write_ok, pure_ok] at h
  obtain ⟨_, _, ⟨rfl, rfl⟩, _, _, rfl, hfound, rfl⟩ := h
  obtain ⟨hmem, rfl⟩ := orderById_mem ho
  have hstatus : o.status = fromStatus := by
    obtain ⟨x, hx, hid, hst⟩ := of_decide_eq_true hfound
    rwa [eq_of_key hs.orderIds hx hmem hid] at hst
  have hkey : ∀ x : Order, (x.updateIf o.id fromStatus fun x =>
      { change x with stateVersion := x.stateVersion + 1 }).id = x.id := by
    intro x
    unfold Order.updateIf
    split_ifs
    · exact hchange x
    · rfl
  have hlocal : LocalTo (·.id) s.orders o (Order.updateIf o.id fromStatus fun x =>
      { change x with stateVersion := x.stateVersion + 1 }) := fun x _ hne => if_neg
        fun h => hne h.1
  refine ⟨hstatus, { hs with
    orderIds := nodup_map_update hs.orderIds hkey
    orderFresh := forall_mem_map.mpr fun x hx => (hkey x).trans_lt (hs.orderFresh x hx) },
    ?_, fun i hi => ?_⟩
  · rw [view_eq, view_eq]
    unfold orderById at ho
    rw [find?_map_update hkey, ho, map_some]
    rw [Order.updateIf, if_pos ⟨rfl, hstatus⟩]
  · rw [view_eq, view_eq]
    rw [find?_map_local hs.orderIds hmem hkey hlocal hi]

theorem createOrder_local (hfresh : o.id < s.nextId)
    (hnone : s.orderById o.id = none) (h : createOrder o s = .ok (u, s')) :
    o.Shaped ∧ s'.nextId = s.nextId ∧ Local o.id s s' { s.view o.id with order := some o } := by
  simp only [createOrder, bind_ok, require_ok, read_ok, write_ok] at h
  obtain ⟨_, _, ⟨-, rfl⟩, _, _, ⟨hshaped, rfl⟩, _, _, ⟨rfl, rfl⟩, _, _, ⟨-, rfl⟩, rfl⟩ := h
  have hnew : ∀ x ∈ s.orders, x.id ≠ o.id := by simpa [orderById] using hnone
  refine ⟨hshaped, rfl, { hs with
    orderIds := nodup_map_append hs.orderIds hnew
    orderFresh := forall_mem_append.mpr ⟨hs.orderFresh, forall_mem_singleton.mpr hfresh⟩ }, ?_,
    fun i hi => ?_⟩
  · rw [view_eq, view_eq]
    rw [find?_append_key hnone, if_pos rfl]
  · rw [view_eq, view_eq]
    rw [find?_append_key hnone, if_neg hi]

theorem createReservation_local (hnone : s.reservationByOrder o.id = none)
    (h : createReservation o s = .ok (u, s')) :
    Local o.id s s' { s.view o.id with reservation := some .held } := by
  simp only [createReservation, write_ok] at h
  subst h
  have hnew : ∀ x ∈ s.reservations, x.id ≠ s.nextId := fun x hx => (hs.reservationFresh x hx).ne
  have hfind := @find?_append_key _ _ orderId s.reservations
    ⟨s.nextId, o.id, o.userId, .held, o.expiresAt, none⟩ _ hnone
  refine ⟨⟨hs.ledger, hs.promo, hs.orderIds, fun x hx => lt_succ_of_lt (hs.orderFresh x hx),
    nodup_map_append hs.reservationIds hnew, forall_mem_append.mpr
      ⟨fun x hx => lt_succ_of_lt (hs.reservationFresh x hx),
        forall_mem_singleton.mpr (lt_succ_self _)⟩,
    succ_pos _⟩, ?_, fun i hi => ?_⟩
  · rw [view_eq, view_eq]
    rw [hfind, if_pos rfl]
    rfl
  · rw [view_eq, view_eq]
    rw [hfind, if_neg hi]

theorem State.Base.unseen (hl : s'.ledger = s.ledger)
    (hp : s'.promo = s.promo) (ho : s'.orders = s.orders) (hr : s'.reservations = s.reservations)
    (he : s'.effects = s.effects) (hn : s.nextId ≤ s'.nextId) (j : UUID) :
    Local j s s' (s.view j) := by
  refine local_of_view ⟨hl ▸ hs.ledger, hp ▸ hs.promo, ho ▸ hs.orderIds,
    fun o h => (hs.orderFresh o (ho ▸ h)).trans_le hn, hr ▸ hs.reservationIds,
    fun r h => (hs.reservationFresh r (hr ▸ h)).trans_le hn,
    hs.nextId_pos.trans_le hn⟩ (fun i => ?_) j
  rw [view_eq, view_eq, hl, hp, ho, hr, he]

theorem recordEffect_local {e : Effect} (h : recordEffect e s = .ok (u, s')) :
    Local e.orderId s s' { s.view e.orderId with effects := (s.view e.orderId).effects + 1 } := by
  simp only [recordEffect, write_ok] at h
  subst h
  refine ⟨{ hs with }, ?_, fun i hi => ?_⟩
  · rw [view_eq, view_eq]
    rw [countP_append_one (fun x : Effect => x.orderId = e.orderId), if_pos rfl, add_right_comm]
  · rw [view_eq, view_eq]
    rw [countP_append_one (fun x : Effect => x.orderId = i), if_neg (Ne.symm hi), add_zero]

end

/-! ## The other modules -/

theorem promo_local (hs : s.Base) {p : Promo.State}
    {redemption : Option Promo.Redemption} (h : Promo.OrderStep s.promo p j redemption) :
    Local j s { s with promo := p } { s.view j with redemption := redemption } := by
  refine ⟨{ hs with promo := h.counted }, ?_, fun i hi => ?_⟩
  · rw [view_eq, view_eq]
    rw [h.redemptions, if_pos rfl]
  · rw [view_eq, view_eq]
    rw [h.redemptions, if_neg hi]

theorem topups_append (journal new : List Record) (orderId : UUID) :
    topups (journal ++ new) orderId = topups journal orderId + topups new orderId :=
  countP_append

theorem ledger_local (hs : s.Base) (h : OrderStep s.ledger l j hold new)
    (hnew : ∀ i, i ≠ j → topups new i = 0) : Local j s { s with ledger := l } { s.view j with
      hold := hold, effects := (s.view j).effects + topups new j } := by
  refine ⟨{ hs with ledger := h.kept }, ?_, fun i hi => ?_⟩
  · rw [view_eq, view_eq]
    rw [h.holds, if_pos rfl, h.journal, topups_append, add_assoc]
  · rw [view_eq, view_eq]
    rw [h.holds, if_neg hi, h.journal, topups_append, hnew i hi, add_zero]

theorem topups_of_kind (h : ∀ r ∈ new, r.posting.kind ≠ .balanceTopup)
    (i : UUID) : topups new i = 0 := by
  rw [topups, countP_eq_zero]
  intro r hr habout
  exact h r hr (of_decide_eq_true habout).1

theorem ledger_hold (hs : s.Base) (h : OrderStep s.ledger l j hold new)
    (hnew : ∀ r ∈ new, r.posting.kind ≠ .balanceTopup) :
    Local j s { s with ledger := l } { s.view j with hold := hold } := by
  have hlocal := ledger_local hs h fun i _ => topups_of_kind hnew i
  rw [topups_of_kind hnew j] at hlocal
  exact hlocal

theorem ledger_neutral (hs : s.Base)
    (h : OrderStep s.ledger l j (s.ledger.holdByOrder j) new)
    (hnew : ∀ r ∈ new, r.posting.kind ≠ .balanceTopup) :
    Local j s { s with ledger := l } (s.view j) :=
  ledger_hold hs h hnew

end Pandora.Orders
