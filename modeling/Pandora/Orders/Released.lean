import Pandora.Orders.Settled

/-!
# A released order

Three methods release a pending order, all through `releaseOrderWith`.  What the
payment module does with the money of an archived order happens inside that
transaction; the order is released whatever it does, as long as no view sees it.
-/

namespace Pandora.Orders

open Money Database Ledger List Tx State

/-- No order sees a difference. -/
def SameViews (s s' : State) : Prop := ∀ i, s'.view i = s.view i

instance : Std.Refl SameViews := ⟨fun _ _ => rfl⟩

instance : IsTrans State SameViews := ⟨fun _ _ _ h h' i => (h' i).trans (h i)⟩

/-- A transaction that no order sees. -/
abbrev Neutral {α : Type} (m : Action α) : Prop := Tx.Relates State.Base SameViews m

theorem neutral_write {f : State → State} (hledger : ∀ s, (f s).ledger = s.ledger)
    (hpromo : ∀ s, (f s).promo = s.promo) (horders : ∀ s, (f s).orders = s.orders)
    (hreservations : ∀ s, (f s).reservations = s.reservations)
    (heffects : ∀ s, (f s).effects = s.effects) (hid : ∀ s, s.nextId ≤ (f s).nextId) :
    Neutral (Tx.write f) := by
  refine .write fun s hs => ?_
  have hlocal := hs.unseen (hledger s) (hpromo s) (horders s) (hreservations s) (heffects s) (hid s)
  exact ⟨(hlocal UUID.nil).base, fun i => (hlocal i).self⟩

theorem neutral_post {env : Ledger.Env} {p : Posting} (hp : p.Unfrozen)
    (hkind : p.kind ≠ .balanceTopup) : Neutral (onLedger (postGeneral env p)) := by
  intro s id s' hs h
  obtain ⟨l, hpost, rfl⟩ := onLedger_ok.mp h
  have hlocal : ∀ i, Local i s { s with ledger := l } (s.view i) := fun i =>
    ledger_neutral hs (postGeneral_step hs.ledger hp hpost i) (by simpa using hkind)
  exact ⟨(hlocal UUID.nil).base, fun i => (hlocal i).self⟩

variable {s s' : State} {o r : Order} {u : Unit} {env : Env} {to_ : Status} {reason : String}
  {orderId : UUID}

theorem Neutral.local {α : Type} {m : Action α} (hm : Neutral m) {a : α}
    (hs : s.Base) (h : m s = .ok (a, s')) (j : UUID) : Local j s s' (s.view j) :=
  local_of_view (hm hs h).1 (hm hs h).2 j

theorem releaseCoupon_local (hs : s.Base) (h : releaseCoupon o reason s = .ok (u, s')) :
    Local o.id s s' { s.view o.id with
      redemption := o.couponAfter (Promo.Redemption.release (Promo.normalizeReleaseReason reason))
        (s.view o.id).redemption } := by
  simp only [releaseCoupon, ite_ok, onPromo_ok, pure_ok] at h
  unfold Order.couponAfter
  rcases h with ⟨hcoupon, p, hrelease, rfl⟩ | ⟨hcoupon, -, rfl⟩
  · obtain ⟨r, hr, hstep⟩ := Promo.finish_step Promo.finishing_release hs.promo hrelease
    have hred : (s.view o.id).redemption = some r := hr
    rw [if_pos hcoupon, hred]
    exact promo_local hs hstep
  · rw [if_neg hcoupon]
    exact Local.refl hs o.id

theorem releaseBalance_local (hs : s.Base) (hhold : o.HoldAgrees .held (s.view o.id).hold)
    (h : releaseBalance env o reason s = .ok (u, s')) :
    ∃ hold, o.HoldAgrees .released hold ∧ Local o.id s s' { s.view o.id with hold := hold } := by
  simp only [releaseBalance, ite_ok, bind_ok, onLedger_ok, require_ok, pure_ok] at h
  rcases h with ⟨hpos, released, _, ⟨l, hrelease, rfl⟩, rfl, rfl⟩ | ⟨hpos, -, rfl⟩
  · obtain ⟨x, id, hfind, -, hstep⟩ := releaseOrderHold_step hs.ledger hrelease
    have hview : (s.view o.id).hold = some x := hfind
    rw [hview] at hhold
    exact ⟨some (x.release id), hhold.close (closes_release id) rfl,
      ledger_hold hs hstep (by simp [releasePosting])⟩
  · exact ⟨(s.view o.id).hold, hhold.none hpos _, Local.refl hs o.id⟩

theorem closeOrderIntents_local (hs : s.Base)
    {status : Payments.IntentStatus} (h : closeOrderIntents orderId status s = .ok (u, s'))
    (j : UUID) : Local j s s' (s.view j) := by
  simp only [closeOrderIntents, write_ok] at h
  subst h
  refine hs.unseen ?_ ?_ ?_ ?_ ?_ ?_ j <;> rfl

theorem Order.continues_released (o : Order) (to_ : Status) (reason : String) (version : ℕ) :
    o.Continues { Order.releaseTo to_ reason o with stateVersion := version } :=
  ⟨rfl, rfl, rfl, rfl, rfl, rfl, rfl⟩

/-- The statuses of a released order. -/
def Status.Released (st : Status) : Prop := st = .cancelled ∨ st = .expired

theorem releaseOrderWith_step (hs : s.Consistent) (ho : s.orderById o.id = some o)
    (hto : to_.Released) {beforeHold : Action Unit} (hneutral : Neutral beforeHold)
    (h : releaseOrderWith env o to_ reason beforeHold s = .ok (r, s')) :
    Progress none s s' ∧ ∀ i, i ≠ o.id → s'.view i = s.view i := by
  simp only [releaseOrderWith, bind_ok, require_ok, read_ok, ofOption_ok, ofExcept_ok] at h
  obtain ⟨_, _, ⟨hpending, rfl⟩, _, _, ⟨rfl, rfl⟩, res, _, ⟨hres, rfl⟩, _, _, ⟨-, rfl⟩, h⟩ := h
  obtain ⟨_, s₁, hupdate, _, _, ⟨rfl, rfl⟩, _, s₂, hcoupon, _, s₃, hbefore, h⟩ := h
  obtain ⟨_, s₄, hbalance, _, s₅, hintents, _, s₆, horder, _, _, ⟨rfl, rfl⟩, h⟩ := h
  obtain ⟨_, _, ⟨-, rfl⟩, _, _, ⟨-, rfl⟩, hreload⟩ := h
  have hheld := hs.held ho hpending
  obtain ⟨-, h₁⟩ := updateReservation_local hs.base hres hupdate
  have h₂ := releaseCoupon_local h₁.base hcoupon
  rw [h₁.self] at h₂
  have h₃ := hneutral.local h₂.base hbefore o.id
  rw [h₂.self] at h₃
  have hhold₃ : o.HoldAgrees .held (s₃.view o.id).hold := by
    rw [h₃.self]
    exact hheld.hold
  obtain ⟨hold, hhold, h₄⟩ := releaseBalance_local h₃.base hhold₃ hbalance
  rw [h₃.self] at h₄
  have h₅ := closeOrderIntents_local h₄.base hintents o.id
  rw [h₄.self] at h₅
  have ho₅ : s₅.orderById o.id = some o := (congrArg View.order h₅.self).trans ho
  obtain ⟨-, h₆⟩ := updateOrder_local h₅.base ho₅ horder fun _ => rfl
  rw [h₅.self] at h₆
  obtain ⟨rfl, -⟩ := reload_ok hreload
  have hall := h₁.trans (h₂.trans (h₃.trans (h₄.trans (h₅.trans h₆))))
  refine ⟨hall.progress hs ((View.agrees_some rfl).mpr ⟨.released, ?_⟩) ?_ fun r hr => ?_,
    hall.others⟩
  · have hstage : to_.stage = some .released := by
      rcases hto with rfl | rfl <;> rfl
    have hopen : to_ ≠ .pending := by
      rcases hto with rfl | rfl <;> simp
    have hdone : to_ ≠ .fulfilled := by
      rcases hto with rfl | rfl <;> simp
    refine hheld.next (o.continues_released to_ reason _) hstage hopen rfl
      (hheld.coupon.finish (fun _ => rfl) fun _ => rfl) hhold ?_
    show (s.view o.id).effects = if to_ = .fulfilled then 1 else 0
    rw [hheld.effects, hpending, if_neg hdone, if_neg (by simp)]
  · rw [statusOf, ho, Option.map_some, hpending]
    exact .closed _
  · cases hr
    exact .inr ⟨o, ho, o.continues_released to_ reason _⟩

/-! ## The methods -/

theorem State.orderById_self {i : UUID} (h : s.orderById i = some o) :
    s.orderById o.id = some o := by
  rw [(orderById_mem h).2]
  exact h

theorem releaseOrder_step (hs : s.Consistent) (ho : s.orderById o.id = some o) (hto : to_.Released)
    (h : releaseOrder env o to_ reason s = .ok (r, s')) :
    Progress none s s' ∧ ∀ i, i ≠ o.id → s'.view i = s.view i :=
  releaseOrderWith_step hs ho hto .pure h

theorem cancel_step {caller : Principal} {input : CancelInput} (hs : s.Consistent)
    {r : Order × Bool} (h : cancel env caller input s = .ok (r, s')) : Progress none s s' := by
  simp only [cancel, bind_ok, require_ok, ofExcept_ok, read_ok, ofOption_ok] at h
  obtain ⟨_, _, ⟨-, rfl⟩, reason, _, ⟨-, rfl⟩, _, _, ⟨rfl, rfl⟩, o, _, ⟨ho, rfl⟩, _, _, ⟨-, rfl⟩,
    h⟩ := h
  cases hst : o.status with
  | cancelled =>
    simp only [hst, pure_ok] at h
    rw [← h.2]
    exact .refl hs none
  | expired | paid | fulfilled => simp only [hst, fail_ok] at h
  | pending =>
    simp only [hst, bind_ok, require_ok, pure_ok] at h
    obtain ⟨_, _, ⟨-, rfl⟩, released, _, hrelease, -, rfl⟩ := h
    exact (releaseOrder_step hs (orderById_self ho) (Or.inl rfl) hrelease).1

theorem expireOne_step {id : UUID} (hs : s.Consistent) {b : Bool}
    (h : expireOne env id s = .ok (b, s')) : Progress none s s' := by
  simp only [expireOne, bind_ok, read_ok] at h
  obtain ⟨_, _, ⟨rfl, rfl⟩, h⟩ := h
  cases ho : s.orderById id with
  | none =>
    simp only [ho, pure_ok] at h
    rw [← h.2]
    exact .refl hs none
  | some =>
    simp only [ho, ite_ok, bind_ok, pure_ok] at h
    rcases h with ⟨-, -, rfl⟩ | ⟨-, _, _, hrelease, -, rfl⟩
    · exact .refl hs none
    · exact (releaseOrder_step hs (orderById_self ho) (Or.inr rfl) hrelease).1

theorem forEach_releaseOrder_step (hto : to_.Released) {l : List Order}
    (hids : (l.map (·.id)).Nodup) (hs : s.Consistent) (hl : ∀ o ∈ l, s.orderById o.id = some o)
    (h : Tx.forEach (fun o => do let _ ← releaseOrder env o to_ reason) l s = .ok (u, s')) :
    Progress none s s' := by
  induction l generalizing s with
  | nil =>
    rw [forEach_nil] at h
    subst h
    exact .refl hs none
  | cons o l ih =>
    simp only [forEach_cons, bind_ok, pure_ok] at h
    obtain ⟨_, ⟨r, s₁, hrelease, -, rfl⟩, h⟩ := h
    rw [map_cons, nodup_cons] at hids
    obtain ⟨hstep, hothers⟩ := releaseOrder_step hs (hl o mem_cons_self) hto hrelease
    refine hstep.trans (ih hids.2 hstep.consistent (fun x hx => ?_) h)
    have hne : x.id ≠ o.id := fun heq => hids.1 (heq ▸ mem_map_of_mem hx)
    have hsame : s₁.orderById x.id = s.orderById x.id := congrArg View.order (hothers x.id hne)
    rw [hsame]
    exact hl x (mem_cons_of_mem o hx)

theorem cancelUserPending_step {userId : UUID} (hs : s.Consistent)
    (h : cancelUserPending env userId s = .ok (u, s')) : Progress none s s' := by
  simp only [cancelUserPending, bind_ok, read_ok] at h
  obtain ⟨_, _, ⟨rfl, rfl⟩, h⟩ := h
  refine forEach_releaseOrder_step (Or.inl rfl) ?_ hs (fun o ho => ?_) h
  · exact hs.base.orderIds.sublist (filter_sublist.map _)
  · exact hs.base.orderById (mem_of_mem_filter ho)

theorem closeArchivedOrder_step {settle : Status → Action Unit}
    (hsettle : ∀ st, Neutral (settle st)) (hs : s.Consistent)
    (h : closeArchivedOrder env orderId settle s = .ok (u, s')) : Progress none s s' := by
  simp only [closeArchivedOrder, bind_ok, read_ok, ofOption_ok, ite_ok, pure_ok] at h
  obtain ⟨_, _, ⟨rfl, rfl⟩, o, _, ⟨ho, rfl⟩, ⟨-, h⟩ | ⟨-, _, _, hrelease, -, rfl⟩⟩ := h
  · obtain ⟨hbase, hviews⟩ := hsettle o.status hs.base h
    have hlocal := local_of_view hbase hviews orderId
    exact hlocal.unchanged hs
  · exact (releaseOrderWith_step hs (orderById_self ho) (Or.inl rfl) (hsettle _) hrelease).1

end Pandora.Orders
