import Pandora.Purchases.System

/-!
# The limit on subscriptions holds

Call the pending new orders of a user and the subscriptions the user holds the *units* of the
user.  A transaction that places no new order adds no unit: what it opens was pending, and it
makes no order pending (`pendingNew_add_fulfilled_le`).  A placement adds at most one, and it holds
the lock of its user while it does.

So the two counts of a placement can be read apart.  From the moment it has the lock nobody
adds a unit, so the pending orders it counted bound those at any later time; when the
subscriptions are counted, their number and the earlier count bound the units at that time,
and the bound still holds at the commit.  Had the subscriptions been counted first, a
settlement in between would have moved a unit from the second count to the first unseen.
-/

namespace Pandora.Purchases

open List Function Config Orders Change Flight

open Orders (Order Progress)
open Subscriptions (Subscription)

/-! ## What a transaction does to the units of a user -/

/-- The new order that is placed is a unit of its user. -/
def unitPlaced (placed : Option (UUID × Orders.Kind)) (userId : UUID) : ℕ :=
  if placed = some (userId, .new) then 1 else 0

/-- The identifiers of the new orders of a user that are pending. -/
def pendingIds (s : Orders.State) (userId : UUID) : List UUID :=
  (s.orders.filter fun o => o.userId = userId ∧ o.status = .pending ∧ o.kind = .new).map (·.id)

theorem length_pendingIds {s : State} {userId : UUID} :
    (pendingIds s userId).length = s.pendingNew userId := by
  rw [pendingIds, length_map, ← countP_eq_length_filter]
  rfl

/-- The identifiers of the new orders of a user that a transaction has fulfilled. -/
def fulfilledIds (s s' : Orders.State) (userId : UUID) : List UUID :=
  ((fulfilledNew s s').filter fun o => o.userId = userId).map (·.id)

theorem length_fulfilledIds {s s' : State} {userId : UUID} :
    (fulfilledIds s s' userId).length = (fulfilledNew s s').countP fun o => o.userId = userId := by
  rw [fulfilledIds, length_map, ← countP_eq_length_filter]

variable {s s' : Orders.State} {f : Flight} {c' c : Config} {t t' : ℕ}
  {placed : Option (UUID × Orders.Kind)} {shop : Shop}

theorem mem_pendingIds {userId i : UUID} : i ∈ pendingIds s userId ↔
      ∃ o ∈ s.orders, (o.userId = userId ∧ o.status = .pending ∧ o.kind = .new) ∧ o.id = i := by
  simp [pendingIds, and_assoc]

theorem mem_fulfilledIds {userId i : UUID} :
    i ∈ fulfilledIds s s' userId ↔ ∃ o ∈ s'.orders, (o.userId = userId ∧ o.kind = .new ∧
      o.status = .fulfilled ∧ s.statusOf o.id ≠ some .fulfilled) ∧ o.id = i := by
  simp only [fulfilledIds, fulfilledNew, mem_map, mem_filter, decide_eq_true_eq]
  constructor
  · rintro ⟨o, ⟨⟨ho, hnew⟩, huser⟩, hid⟩
    exact ⟨o, ho, ⟨huser, hnew⟩, hid⟩
  · rintro ⟨o, ho, ⟨huser, hnew⟩, hid⟩
    exact ⟨o, ⟨⟨ho, hnew⟩, huser⟩, hid⟩

/-- A new order that is pending, or was fulfilled just now, was pending before; or it is the
one that was placed. -/
theorem unit_from (h : Progress placed s s') {o' : Order} (ho' : o' ∈ s'.orders)
    (hnew : o'.kind = .new) (hunit : o'.status = .pending ∨ s.statusOf o'.id ≠ some o'.status) :
    (o'.id = s.nextId ∧ placed = some (o'.userId, .new)) ∨ o'.id ∈ pendingIds s o'.userId := by
  have hfound := h.consistent.base.orderById ho'
  rcases h.rows o'.id o' hfound with ⟨hid, hplaced⟩ | ⟨o, ho, hcontinues⟩
  · exact .inl ⟨hid, hnew ▸ hplaced⟩
  right
  have hbefore : s.statusOf o'.id = some o.status := by rw [State.statusOf, ho, Option.map_some]
  have hafter : s'.statusOf o'.id = some o'.status := by
    rw [State.statusOf, hfound, Option.map_some]
  -- a status that is not the old one can only come from `pending`
  have hpending : o.status = .pending := by
    have hmoves := h.moves o'.id
    rw [hbefore, hafter] at hmoves
    rw [hbefore] at hunit
    generalize hold : some o.status = before at hmoves hunit
    generalize hnow : some o'.status = after at hmoves hunit
    cases hmoves with
    | stays =>
      rcases hunit with hp | hne
      · rw [hp, ← hold, Option.some_inj] at hnow
        exact hnow.symm
      · exact absurd rfl hne
    | placed => cases hold
    | closed => exact Option.some_inj.mp hold
  obtain ⟨hmem, hid⟩ := State.orderById_mem ho
  rw [mem_pendingIds]
  exact ⟨o, hmem, ⟨hcontinues.userId.symm, hpending, hcontinues.kind.symm.trans hnew⟩, hid⟩

theorem nodup_ids (hs : s.Consistent) (p : Order → Bool) : ((s.orders.filter p).map (·.id)).Nodup :=
  hs.base.orderIds.sublist (filter_sublist.map _)

/-- What became a subscription was pending, and nothing becomes pending but the order that
was placed. -/
theorem pendingNew_add_fulfilled_le (h : Progress placed s s') (userId : UUID) :
    s'.pendingNew userId + ((fulfilledNew s s').countP fun o => o.userId = userId) ≤
      s.pendingNew userId + unitPlaced placed userId := by
  have hnodup : (pendingIds s' userId ++ fulfilledIds s s' userId).Nodup := by
    refine nodup_append.mpr ⟨nodup_ids h.consistent _, ?_, ?_⟩
    · rw [fulfilledIds, fulfilledNew, filter_filter]
      exact nodup_ids h.consistent _
    · rintro i hi j hj rfl
      obtain ⟨o, ho, ⟨-, hpending, -⟩, rfl⟩ := mem_pendingIds.mp hi
      obtain ⟨x, hx, ⟨-, -, hfulfilled, -⟩, hid⟩ := mem_fulfilledIds.mp hj
      rw [Database.eq_of_key h.consistent.base.orderIds hx ho hid, hpending] at hfulfilled
      cases hfulfilled
  have hsubset : pendingIds s' userId ++ fulfilledIds s s' userId ⊆ pendingIds s userId ++
        if placed = some (userId, .new) then [s.nextId] else [] := by
    intro i hi
    have hfrom : ∃ o' ∈ s'.orders, o'.userId = userId ∧ o'.kind = .new ∧
        (o'.status = .pending ∨ s.statusOf o'.id ≠ some o'.status) ∧ o'.id = i := by
      rcases mem_append.mp hi with hi | hi
      · obtain ⟨o, ho, ⟨huser, hpending, hnew⟩, hid⟩ := mem_pendingIds.mp hi
        exact ⟨o, ho, huser, hnew, .inl hpending, hid⟩
      · obtain ⟨o, ho, ⟨huser, hnew, hfulfilled, hnot⟩, hid⟩ := mem_fulfilledIds.mp hi
        exact ⟨o, ho, huser, hnew, .inr (hfulfilled ▸ hnot), hid⟩
    obtain ⟨o', ho', rfl, hnew, hunit, rfl⟩ := hfrom
    rcases unit_from h ho' hnew hunit with ⟨hid, hplaced⟩ | hold
    · rw [if_pos hplaced, hid]
      exact mem_append_right _ (mem_singleton_self _)
    · exact mem_append_left _ hold
  have hle := (hnodup.subperm hsubset).length_le
  rw [length_append, length_append, length_pendingIds, length_fulfilledIds,
    length_pendingIds] at hle
  unfold unitPlaced
  split_ifs at hle ⊢ <;> simpa using hle

theorem openAll_count {orders : List Order} {opened : List Holding}
    (h : openAll shop s' orders = .ok opened) (userId : UUID) :
    (opened.countP fun x => x.userId = userId ∧ x.sub.renewalClosedAt = none) ≤
      orders.countP fun o => o.userId = userId := by
  induction orders generalizing opened with
  | nil =>
    cases h
    exact le_rfl
  | cons o orders ih =>
    rw [openAll] at h
    cases hrest : openAll shop s' orders with
    | error => rw [hrest] at h; cases h
    | ok =>
      rw [hrest] at h
      simp only [Bind.bind, Except.bind] at h
      have hmore := ih hrest
      rw [countP_cons]
      cases hasked : provisioned s' o.id with
      | none =>
        rw [hasked] at h
        cases h
        omega
      | some =>
        rw [hasked] at h
        simp only at h
        split at h
        · cases h
        split at h
        · cases h
        cases h
        rw [countP_cons]
        split_ifs <;> simp_all
        omega

/-- The units of a user. -/
def Config.units (c : Config) (userId : UUID) : ℕ := c.held userId + c.pendingNew userId

/-- At most `extra` more units for a user, pending or not. -/
structure Config.Adds (extra : ℕ) (userId : UUID) (c c' : Config) : Prop where
  pendingNew : c'.pendingNew userId ≤ c.pendingNew userId + extra
  units : c'.units userId ≤ c.units userId + extra

theorem Config.commit_adds {t : Tables} (h : Progress placed c.tables.state t.state)
    (userId : UUID) : c.Adds (unitPlaced placed userId) userId (c.commit shop t) := by
  have hcount := pendingNew_add_fulfilled_le h userId
  cases hopen : openAll shop t.state (fulfilledNew c.tables.state t.state) with
  | error =>
    have hcommit : c.commit shop t = c := by rw [commit, hopen]
    rw [hcommit]
    exact ⟨Nat.le_add_right _ _, Nat.le_add_right _ _⟩
  | ok opened =>
    have hcommit : c.commit shop t = { c with tables := t, subs := c.subs ++ opened } := by
      rw [commit, hopen]
    have hopened := openAll_count hopen userId
    have hheld : (c.commit shop t).held userId = c.held userId +
        opened.countP fun x => x.userId = userId ∧ x.sub.renewalClosedAt = none := by
      rw [hcommit]
      exact countP_append
    have hpending : (c.commit shop t).pendingNew userId = t.state.pendingNew userId := by
      rw [hcommit]
      rfl
    have hbefore : c.pendingNew userId = c.tables.state.pendingNew userId := rfl
    constructor
    · omega
    · unfold units
      omega

theorem Config.commit_kept (shop : Shop) (c : Config) (t : Tables) :
    (c.commit shop t).flights = c.flights ∧ (c.commit shop t).locks = c.locks := by
  unfold commit
  cases openAll shop t.state (fulfilledNew c.tables.state t.state) <;> exact ⟨rfl, rfl⟩

variable {ch : Change} {subs : List Holding} {stage : Stage} {f' : Flight}

theorem Change.apply_open {m m' : Subscription} (h : ch.apply m = .ok m')
    (hopen : m'.renewalClosedAt = none) : m.renewalClosedAt = none := by
  cases ch with
  | renew =>
    simp only [apply, Subscription.renew, except_bind_eq_ok, except_pure_eq_ok] at h
    obtain ⟨_, -, _, -, _, -, rfl⟩ := h
    rw [← hopen]
    split_ifs <;> rfl
  | stack =>
    simp only [apply, Subscription.stack, except_bind_eq_ok, except_pure_eq_ok] at h
    obtain ⟨_, -, _, -, _, -, _, -, _, -, rfl⟩ := h
    exact hopen
  | changePlan | setPeriodEnd =>
    simp only [apply, Subscription.changePlan, Subscription.setPeriodEnd, except_bind_eq_ok,
      except_pure_eq_ok] at h
    obtain ⟨_, -, _, -, rfl⟩ := h
    exact hopen
  | extend | expire =>
    simp only [apply, Subscription.extend, Subscription.expire, except_bind_eq_ok,
      except_pure_eq_ok] at h
    obtain ⟨_, -, rfl⟩ := h
    exact hopen
  | close =>
    simp only [apply, Subscription.close, except_bind_eq_ok, except_pure_eq_ok] at h
    obtain ⟨_, -, rfl⟩ := h
    cases hopen

theorem Holding.change_counted {h : Holding} {userId : UUID}
    (hcounted : (h.change ch).userId = userId ∧ (h.change ch).sub.renewalClosedAt = none) :
    h.userId = userId ∧ h.sub.renewalClosedAt = none := by
  unfold Holding.change at hcounted
  cases happly : ch.apply h.sub with
  | error =>
    rw [happly] at hcounted
    exact hcounted
  | ok =>
    rw [happly] at hcounted
    exact ⟨hcounted.1, apply_open happly hcounted.2⟩

theorem held_change_le {id : UUID} {userId : UUID} :
    ((subs.map fun h => if h.id = id then h.change ch else h).countP
        fun h => h.userId = userId ∧ h.sub.renewalClosedAt = none) ≤
      subs.countP fun h => h.userId = userId ∧ h.sub.renewalClosedAt = none := by
  rw [countP_map]
  refine countP_mono_left fun h _ hcounted => ?_
  simp only [comp_apply, decide_eq_true_eq] at hcounted ⊢
  split_ifs at hcounted
  · exact Holding.change_counted hcounted
  · exact hcounted

/-! ## The invariant -/

/-- What a placement has read bounds the tables as they are now. -/
def Flight.Good (most : ℕ) (c : Config) (f : Flight) : Prop :=
  match f.stage with
  | .counted pendingNew => c.pendingNew f.userId ≤ pendingNew
  | .allowed => f.draft.kind = .new → c.units f.userId < most
  | _ => True

/-- A placement past its first statement holds the lock of its user; the placements of the
user have read what bounds the tables; and the limit holds. -/
structure Config.Inv (most : ℕ) (userId : UUID) (c : Config) : Prop where
  locked : ∀ t f, c.flights t = some f → f.stage ≠ .begun → c.locks f.userId = some t
  good : ∀ t f, c.flights t = some f → f.userId = userId → f.Good most c
  within : c.units userId ≤ most

theorem Flight.Good.mono {most : ℕ} (h : f.Good most c)
    (hadds : c.Adds 0 f.userId c') : f.Good most c' := by
  unfold Good at h ⊢
  cases hstage : f.stage with
  | begun | locked => trivial
  | counted =>
    simp only [hstage] at h ⊢
    exact hadds.pendingNew.trans h
  | allowed =>
    simp only [hstage] at h ⊢
    exact fun hnew => hadds.units.trans_lt (h hnew)

section Steps

variable {most : ℕ} {userId : UUID}

theorem Config.advance_cases (h : (c.advance t f stage).flights t' = some f') :
    (t' = t ∧ f' = { f with stage := stage }) ∨ c.flights t' = some f' := by
  simp only [advance, update_apply] at h
  split_ifs at h with ht
  · exact .inl ⟨ht, (Option.some_inj.mp h).symm⟩
  · exact .inr h

theorem Config.close_cases (h : (c.close t).flights t' = some f') :
    t' ≠ t ∧ c.flights t' = some f' := by
  simp only [close, update_apply] at h
  split_ifs at h with ht
  exact ⟨ht, h⟩

section

variable (hc : c.Inv most userId)
include hc

theorem Config.Inv.keep (hflights : c'.flights = c.flights)
    (hlocks : c'.locks = c.locks) (hadds : c.Adds 0 userId c') : c'.Inv most userId where
  locked t f hf hstage := by
    rw [hlocks]
    exact hc.locked t f (hflights ▸ hf) hstage
  good t f hf huser := by
    refine (hc.good t f (hflights ▸ hf) huser).mono ?_
    rw [huser]
    exact hadds
  within := hadds.units.trans hc.within

theorem Config.Inv.advance (hlock : stage ≠ .begun → c.locks f.userId = some t)
    (hgood : f.userId = userId → Good most c { f with stage := stage }) :
    (c.advance t f stage).Inv most userId where
  locked t' f' hf' hstage := by
    rcases advance_cases hf' with ⟨rfl, rfl⟩ | hf'
    · exact hlock hstage
    · exact hc.locked t' f' hf' hstage
  good t' f' hf' huser := by
    rcases advance_cases hf' with ⟨rfl, rfl⟩ | hf'
    · exact hgood huser
    · exact hc.good t' f' hf' huser
  within := hc.within

theorem Config.Inv.close (hflights : c'.flights = c.flights) (hlocks : c'.locks = c.locks)
    (hgood : ∀ t' f', t' ≠ t → c.flights t' = some f' → f'.userId = userId → f'.Good most c')
    (hwithin : c'.units userId ≤ most) : (c'.close t).Inv most userId where
  locked t' f' hf' hstage := by
    obtain ⟨ht, hf'⟩ := close_cases hf'
    refine Locks.release_of_ne ht ?_
    rw [hlocks]
    exact hc.locked t' f' (hflights ▸ hf') hstage
  good t' f' hf' huser := by
    obtain ⟨ht, hf'⟩ := close_cases hf'
    exact hgood t' f' ht (hflights ▸ hf') huser
  within := hwithin

theorem Config.Inv.abort (t : ℕ) : (c.close t).Inv most userId :=
  hc.close rfl rfl (fun t' f' _ hf' huser => hc.good t' f' hf' huser) hc.within

end

namespace Config.Inv

theorem begin (hmost : 0 < most) (hc : c.Inv most userId) (t : ℕ) (p : Placement) :
    (c.begin most t p).Inv most userId := by
  unfold Config.begin
  cases c.flights t with
  | some => exact hc
  | none =>
    have hlimited : ¬(p.maxUnpaidOrders = 0 ∧ most = 0) := fun h => hmost.ne' h.2
    rw [if_neg hlimited]
    exact hc.advance (fun hstage => absurd rfl hstage) fun _ => trivial

theorem lock (hmost : 0 < most) (hc : c.Inv most userId) (t : ℕ) (f : Flight) :
    (c.lock most t f).Inv most userId := by
  unfold Config.lock
  by_cases hfree : c.locks f.userId = none
  · have hlocked : Inv most userId
        { c with locks := c.locks.take t f.userId } :=
      ⟨fun t' f' hf' hstage => Locks.take_of_held (.inl hfree) (hc.locked t' f' hf' hstage),
        hc.good, hc.within⟩
    rw [if_pos hfree]
    refine hlocked.advance (fun _ => update_self ..) fun _ => ?_
    -- an order that is not new has no count to take
    split_ifs with hnew
    · trivial
    · exact fun hkind => absurd ⟨hkind, hmost⟩ hnew
  · rw [if_neg hfree]
    exact hc

/-- The second count: the units are fewer than allowed, since the pending orders have not
become more since the first. -/
theorem countHeld (hc : c.Inv most userId)
    (hf : c.flights t = some f) {pendingNew : ℕ} (hstage : f.stage = .counted pendingNew) :
    (c.countHeld most t f pendingNew).Inv most userId := by
  unfold Config.countHeld
  split_ifs with hroom
  · refine hc.advance (fun _ => hc.locked t f hf (by simp [hstage])) fun huser _ => ?_
    have hpending := hc.good t f hf huser
    simp only [Good, hstage] at hpending
    show c.held f.userId + c.pendingNew f.userId < most
    omega
  · exact hc.abort t

/-- The commit of a placement: no other placement of the user is past its first statement. -/
theorem place (hc : c.Inv most userId) (shop : Shop) (hf : c.flights t = some f)
    (hstage : f.stage = .allowed) : (c.place most shop t f).Inv most userId := by
  unfold Config.place
  split
  next o s' hplace =>
    have hstep := placeGated_step c.tables.consistent hplace
    have hadds : c.Adds _ userId (c.commit shop ⟨s', hstep.consistent⟩) :=
      commit_adds (t := ⟨s', hstep.consistent⟩) hstep userId
    refine hc.close (commit_kept ..).1 (commit_kept ..).2 (fun t' f' ht hf' huser => ?_) ?_
    · by_cases hown : f.userId = userId
      · -- the lock belongs to `t`, so `t'` has read nothing yet
        have hbegun : f'.stage = .begun := by
          by_contra hpast
          have hlock' := hc.locked t' f' hf' hpast
          have hlock := hc.locked t f hf (by simp [hstage])
          rw [huser, ← hown, hlock] at hlock'
          exact ht (Option.some_inj.mp hlock').symm
        rw [Good, hbegun]
        trivial
      · have hnone : unitPlaced (some (f.draft.userId, f.draft.kind)) userId = 0 :=
          if_neg fun h => hown (congrArg Prod.fst (Option.some_inj.mp h))
        rw [hnone] at hadds
        exact (hc.good t' f' hf' huser).mono (huser ▸ hadds)
    · by_cases hunit : some (f.draft.userId, f.draft.kind) = some (userId, Kind.new)
      · have hone : unitPlaced (some (f.draft.userId, f.draft.kind)) userId = 1 := if_pos hunit
        have hown : f.userId = userId := congrArg Prod.fst (Option.some_inj.mp hunit)
        have hgood := hc.good t f hf hown
        simp only [Good, hstage] at hgood
        have hroom := hgood (congrArg Prod.snd (Option.some_inj.mp hunit))
        rw [hown] at hroom
        rw [hone] at hadds
        exact hadds.units.trans hroom
      · have hnone : unitPlaced (some (f.draft.userId, f.draft.kind)) userId = 0 := if_neg hunit
        rw [hnone] at hadds
        exact hadds.units.trans hc.within
  next => exact hc.abort t

theorem turn (hmost : 0 < most) (hc : c.Inv most userId) (shop : Shop)
    (hf : c.flights t = some f) : (c.turn most shop t f).Inv most userId := by
  unfold Config.turn
  cases hstage : f.stage with
  | begun => exact hc.lock hmost t f
  | locked =>
    exact hc.advance (fun _ => hc.locked t f hf (by simp [hstage])) fun _ => le_rfl
  | counted => exact hc.countHeld hf hstage
  | allowed => exact hc.place shop hf hstage

theorem exec (hc : c.Inv most userId) (shop : Shop) (o : OtherCall) :
    (c.exec shop o).Inv most userId := by
  unfold Config.exec
  split
  next u s' hexec =>
    have hstep := exec_progress c.tables.consistent hexec
    have hnone : unitPlaced o.call.placed userId = 0 := if_neg (o.other userId)
    refine hc.keep (commit_kept ..).1 (commit_kept ..).2 ?_
    rw [← hnone]
    exact commit_adds hstep userId
  next => exact hc

theorem next (hmost : 0 < most) (hc : c.Inv most userId) (l : Label) :
    (c.next most l).Inv most userId := by
  cases l with
  | begin t p => exact hc.begin hmost t p
  | turn shop t =>
    cases hf : c.flights t with
    | none => simpa only [Config.next, hf] using hc
    | some => simpa only [Config.next, hf] using hc.turn hmost shop hf
  | abort t =>
    cases hf : c.flights t with
    | none => simpa only [Config.next, hf] using hc
    | some f => simpa only [Config.next, hf] using hc.abort t
  | call shop o => exact hc.exec shop o
  | change id ch =>
    refine hc.keep rfl rfl ⟨le_rfl, ?_⟩
    exact Nat.add_le_add_right held_change_le _

end Config.Inv

end Steps

theorem Config.inv_idle {most : ℕ} {userId : UUID} {tables : Tables}
    (h : (idle tables subs).units userId ≤ most) :
    (idle tables subs).Inv most userId where
  locked _ _ hf := by cases hf
  good _ _ hf := by cases hf
  within := h

/-- The subscriptions that are live or can be revived are those with an open window. -/
theorem held_eq {userId : UUID} {now : Time} :
    (subs.countP fun h => h.userId = userId ∧ h.sub.stateAt now ≠ .ended) =
      subs.countP fun h => h.userId = userId ∧ h.sub.renewalClosedAt = none := by
  refine countP_congr fun h _ => ?_
  have hstate : h.sub.stateAt now ≠ .ended ↔ h.sub.renewalClosedAt = none := by
    unfold Subscriptions.Row.stateAt
    split_ifs <;> simp_all
  simp only [decide_eq_true_eq, hstate]

/-- **Purchases stay within the limit.**  Where no order is being placed, let a user hold
subscriptions and have pending new orders, `most` at most in all.  Then this is so after any
steps: however placements of the portal, settlements, cancellations, expiries and changes of
subscriptions interleave, the subscriptions of the user that are live or revivable and the
pending new orders of the user are `most` at most. -/
theorem purchases_within_limit (most : ℕ) (hmost : 0 < most) (userId : UUID) (tables : Tables)
    (subs : List Holding) (hstart : (Config.idle tables subs).held userId +
      (Config.idle tables subs).pendingNew userId ≤ most) (labels : List Label) (now : Time) :
    (((Config.idle tables subs).run most labels).subs.countP fun h =>
        h.userId = userId ∧ h.sub.stateAt now ≠ .ended) +
      ((Config.idle tables subs).run most labels).pendingNew userId ≤ most := by
  rw [held_eq]
  exact (Runs.run_invariant (I := Config.Inv most userId) (fun _ l hc => hc.next hmost l) labels
    (Config.inv_idle hstart)).within

/-- A new order of ten yuan by the user 7. -/
def Placement.sample : Placement where
  env := { Orders.Env.sample with limits := .ok ⟨0, 1⟩ }
  draft := {
    kind := .new
    userId := 7
    subtotal := 10
    couponPlanId := none
    subscriptionId := none
    item := none
    checkout := ⟨"", 0, none⟩
    prorationCredit := 0
    allowWaive := false
    manual := none
    audited := false
    topup_pos := nofun }
  portal := rfl
  maxUnpaidOrders := 0

/-- The subscription module answers nothing. -/
def Shop.sample : Shop := ⟨0, fun _ _ => .error .notFound⟩

/-- Two placements at once. -/
def raceLabels : List Label :=
  [.begin 0 .sample, .begin 1 .sample] ++ [0, 1, 0, 1, 0, 1, 0, 1, 1, 1, 1].map (Label.turn .sample)

theorem second_placement_refused :
    ((Config.idle ⟨.empty, Orders.State.consistent_empty⟩ []).run 1 raceLabels).pendingNew 7 = 1 ∧
      (((Config.idle ⟨.empty, Orders.State.consistent_empty⟩ []).run 1 raceLabels).subs.countP
        fun h => h.userId = 7 ∧ h.sub.stateAt 0 ≠ .ended) +
      ((Config.idle ⟨.empty, Orders.State.consistent_empty⟩ []).run 1 raceLabels).pendingNew 7
        ≤ 1 :=
  ⟨by decide +kernel, purchases_within_limit 1 Nat.one_pos 7 _ [] (by decide +kernel) _ 0⟩

end Pandora.Purchases
