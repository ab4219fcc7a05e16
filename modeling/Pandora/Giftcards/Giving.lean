import Pandora.Giftcards.Redeem
import Pandora.Subscriptions.Grants

/-!
# What giving a prize needs

Everything that is checked before the draw of a mystery card is checked for its whole pool.
What is left to fail is found here prize by prize (`Ticket.Gives`): the balance that the ledger
cannot book, the days or the traffic that a row of a quota cannot hold, and the traffic that
meets a quota between two periods.  The parts of a prize are taken one after another, each with
the condition under which it succeeds and with what it leaves for the next: days that were given
do not change whether traffic can be.
-/

namespace Pandora.Giftcards

open Money Database Ledger Tx Option Nat List Except Subscriptions Entitlement State Ticket
open Subscriptions (Entitlement)

/-! ## The subscription that a card lands on -/

/-- The subscription that was chosen. -/
def Ticket.target (k : Ticket) (s : State) : Option Entitlement :=
  (k.landing.bind (·.subscriptionId)).bind (s.sub k.userId)

variable {s s' s₁ : State} {m : Entitlement} {user id : UUID} {g : Granted} {balance : ℚ}

theorem State.sub_of_mem (hm : m ∈ s.subs) : s.sub m.userId m.id = some m := by
  unfold sub
  cases hfind : s.subs.find? fun x => x.id = m.id ∧ x.userId = m.userId with
  | none =>
    have hnone := find?_eq_none.mp hfind m hm
    simp at hnone
  | some x =>
    have hx : x.id = m.id ∧ x.userId = m.userId := by simpa using find?_some hfind
    rw [eq_of_key s.subIds (mem_of_find?_eq_some hfind) hm hx.1]

theorem State.sub_some (h : s.sub user id = some m) : m ∈ s.subs ∧ m.id = id ∧ m.userId = user :=
  ⟨mem_of_find?_eq_some h, by simpa using find?_some h⟩

theorem State.sub_putSub {m' : Entitlement} (h : s.sub user id = some m) (hid : m'.id = m.id)
    (huser : m'.userId = m.userId) : (s.putSub id m').sub user id = some m' := by
  obtain ⟨hm, rfl, rfl⟩ := sub_some h
  have hmem : m' ∈ (s.putSub m.id m').subs := by
    refine mem_map.mpr ⟨m, hm, ?_⟩
    rw [if_pos rfl, ← hid, ← huser]
  rw [← hid, ← huser]
  rw [← hid] at hmem
  exact sub_of_mem hmem

theorem onSub_eq (h : s.sub user id = some m)
    (f : Entitlement → Except Subscriptions.Error Entitlement) :
    onSub user id f s =
      match f m with
      | .ok m' => .ok (m', s.putSub id m')
      | .error e => .error (.subscription e) := by
  show (Tx.ofOption (s.sub user id) _ >>= _) s = _
  rw [h]
  show (Tx.ofExcept ((f m).mapError Error.subscription) >>= _) s = _
  cases f m <;> rfl

/-- **A mystery card lands where every prize of its pool can be given**: on a subscription that
has not ended, and on a live one if a prize gives traffic. -/
theorem landing_mystery {env : Env} {t : Template} {pool : List Prize}
    (ht : t.rewards = .mystery pool) {planKind : Option PlanKind}
    {choice : Option Choice} {place : Option Choosable × Bool}
    (h : landing env s user (offerOf t planKind) choice = .ok place) {p : Prize} (hp : p ∈ pool)
    (hneeds : p.NeedsSub false) :
    ∃ m, (place.1.bind (·.subscriptionId)).bind (s.sub user) = some m ∧ m.stateAt env.now ≠ .ended ∧
      ((∃ p ∈ pool, 0 < p.trafficBytes) → m.stateAt env.now = .live) := by
  have hkind : (offerOf t planKind).kind ≠ .none := by
    rcases offerOf_mystery ht planKind with ⟨-, hnothing⟩ | ⟨days, traffic, hoffer, -⟩
    · obtain ⟨hdays, hbytes⟩ := hnothing p hp
      rcases hneeds with hneeds | hneeds | hneeds
      · omega
      · cases hneeds
      · omega
    · rw [hoffer]
      simp
  rw [landing, if_neg hkind] at h
  dsimp only at h
  cases hresolve : resolveChoice choice (placementOptions (offerOf t planKind)
      (candidatesOf env.clock env.now user s.subs) env.valuer.isSome) with
  | error e => rw [hresolve] at h; cases h
  | ok chosen =>
    cases chosen with
    | none => rw [hresolve] at h; cases h
    | some opt =>
      rw [hresolve] at h
      cases h
      obtain ⟨c, hc, hid, hstate, hlive⟩ := mem_mystery_options ht (resolveChoice_mem hresolve)
      obtain ⟨m, hm, rfl⟩ := mem_map.mp hc
      obtain ⟨hm, huser⟩ := mem_filter.mp hm
      have huser : m.userId = user := by simpa using huser
      refine ⟨m, ?_, hstate, hlive⟩
      show opt.subscriptionId.bind (s.sub user) = some m
      rw [hid, ← huser]
      exact sub_of_mem hm

/-! ## One part of a prize at a time -/

section Parts

variable {env : Env} {k : Ticket} {bytes days : ℕ}

/-- The ledger books the balance of a prize. -/
def Ticket.Booked (env : Env) (s : State) (k : Ticket) (balance : ℚ) : Prop :=
  (postGeneral env.ledger (giftPosting k balance)).Succeeds s.ledger

theorem grantBalance_ok {txn : Option UUID} (h : grantBalance env k balance s = .ok (txn, s')) :
    s'.subs = s.subs ∧ s'.redemptions = s.redemptions ∧ (0 < balance ↔ txn ≠ none) := by
  rw [grantBalance, ite_ok] at h
  rcases h with ⟨hpos, h⟩ | ⟨hzero, h⟩
  · obtain ⟨id, hpost, rfl⟩ := map_ok.mp h
    obtain ⟨l, -, rfl⟩ := zoom_ok.mp hpost
    exact ⟨rfl, rfl, iff_of_true hpos (some_ne_none id)⟩
  · obtain ⟨rfl, rfl⟩ := pure_ok.mp h
    exact ⟨rfl, rfl, iff_of_false hzero (by simp)⟩

theorem grantBalance_succeeds :
    (grantBalance env k balance).Succeeds s ↔ (0 < balance → k.Booked env s balance) := by
  unfold grantBalance Booked
  split_ifs with hpos
  · constructor
    · rintro ⟨txn, s₁, h⟩ -
      obtain ⟨id, hpost, -⟩ := map_ok.mp h
      obtain ⟨l, hl, -⟩ := zoom_ok.mp hpost
      exact ⟨id, l, mapError_ok.mp hl⟩
    · intro h
      obtain ⟨id, l, hl⟩ := h hpos
      exact ⟨some id, _, map_ok.mpr ⟨id, zoom_ok.mpr ⟨l, mapError_ok.mpr hl, rfl⟩, rfl⟩⟩
  · exact iff_of_true succeeds_pure fun h => absurd h hpos

theorem grantDays_succeeds (hsub : s.sub k.userId id = some m) (hstate : m.stateAt env.now ≠ .ended)
    (hdays : days ≤ maxExpireDays) : (grantDays env k id days).Succeeds s ↔
      (0 < days → k.permanent = false → ¬m.Overflows env.now days) := by
  unfold grantDays
  by_cases hzero : days = 0
  · rw [if_pos hzero]
    exact iff_of_true succeeds_pure fun h => absurd hzero h.ne'
  rw [if_neg hzero]
  by_cases hperm : k.permanent = true
  · rw [if_pos hperm]
    exact iff_of_true succeeds_pure fun _ h => absurd h (by simp [hperm])
  rw [if_neg hperm, succeeds_bind]
  have hpos : 0 < days := pos_of_ne_zero hzero
  have hrange : 1 ≤ days ∧ days ≤ maxExtendDays := ⟨hpos, hdays⟩
  rw [← exists_extend hrange hstate, onSub_eq hsub]
  constructor
  · rintro ⟨m', s₁, h, -⟩ - -
    cases hextend : m.extend env.now days with
    | ok m' => exact ⟨m', rfl⟩
    | error => rw [hextend] at h; cases h
  · intro h
    obtain ⟨m', hextend⟩ := h hpos (Bool.eq_false_iff.mpr hperm)
    rw [hextend]
    exact ⟨m', _, rfl, succeeds_pure⟩

/-- What days leave behind: the subscription takes a bonus as it would have before. -/
theorem grantDays_ok (hsub : s.sub k.userId id = some m) {given : DaysGiven}
    (h : grantDays env k id days s = .ok (given, s')) :
    s'.redemptions = s.redemptions ∧ given.count ≤ days ∧
      ∃ m', s'.sub k.userId id = some m' ∧ (m.stateAt env.now = .live → m'.stateAt env.now = .live ∧
          ∀ bytes, m'.TakesBonus env.now bytes ↔ m.TakesBonus env.now bytes) := by
  rw [grantDays, ite_ok, ite_ok] at h
  rcases h with ⟨-, h⟩ | ⟨-, ⟨-, h⟩ | ⟨-, h⟩⟩
  · obtain ⟨rfl, rfl⟩ := pure_ok.mp h
    exact ⟨rfl, zero_le _, m, hsub, fun hlive => ⟨hlive, fun _ => Iff.rfl⟩⟩
  · obtain ⟨rfl, rfl⟩ := pure_ok.mp h
    exact ⟨rfl, zero_le _, m, hsub, fun hlive => ⟨hlive, fun _ => Iff.rfl⟩⟩
  · obtain ⟨m', s₁, hon, h⟩ := bind_ok.mp h
    obtain ⟨rfl, rfl⟩ := pure_ok.mp h
    rw [onSub_eq hsub] at hon
    cases hextend : m.extend env.now days with
    | error => rw [hextend] at hon; cases hon
    | ok x =>
      rw [hextend] at hon
      obtain ⟨rfl, rfl⟩ := Prod.mk.inj (ok.inj hon)
      obtain ⟨hid, huser, -⟩ := extend_ok hextend
      exact ⟨rfl, le_rfl, x, sub_putSub hsub hid huser, fun hlive =>
        ⟨live_extend hlive hextend, takesBonus_extend hlive hextend⟩⟩

theorem Template.cleanNote_name (t : Template) : cleanNote t.name = .ok () := by
  have hnamed := t.named
  simp only [validateText] at hnamed
  split_ifs at hnamed with h
  rw [cleanNote, ensure_eq_ok]
  exact .inr ⟨h.1, h.2.1.trans (by decide), h.2.2⟩

theorem maxTrafficBytes_le : maxTrafficBytes ≤ maxInt64 := by decide

theorem grantTraffic_succeeds (hsub : s.sub k.userId id = some m)
    (hlive : 0 < bytes → m.stateAt env.now = .live) (hbytes : bytes ≤ maxTrafficBytes) :
    (grantTraffic env k true id bytes).Succeeds s ↔ (0 < bytes → m.TakesBonus env.now bytes) := by
  unfold grantTraffic
  by_cases hzero : bytes = 0
  · rw [if_pos hzero]
    exact iff_of_true succeeds_pure fun h => absurd hzero h.ne'
  have hpos : 0 < bytes := pos_of_ne_zero hzero
  rw [if_neg hzero, succeeds_bind, ← grantBonus_accepted hpos
    (hbytes.trans maxTrafficBytes_le) k.template.cleanNote_name (hlive hpos)]
  have hon := onSub_eq hsub fun m => m.grantBonus env.now bytes k.template.name
  cases hgrant : m.grantBonus env.now bytes k.template.name with
  | ok m' =>
    simp only [hgrant] at hon
    exact iff_of_true ⟨_, _, attempt_ok.mpr (.inl ⟨m', rfl, hon⟩), succeeds_pure⟩
      fun _ => .inl ⟨m', rfl⟩
  | error e =>
    simp only [hgrant] at hon
    have hattempt := attempt_ok.mpr (.inr ⟨_, rfl, hon, rfl⟩)
    by_cases he : e = .unlimited
    · refine iff_of_true ⟨_, _, hattempt, ?_⟩ fun _ => .inr (by rw [he])
      dsimp only
      rw [if_pos ⟨by rw [he], rfl⟩]
      exact succeeds_pure
    · refine iff_of_false ?_ ?_
      · rintro ⟨x, s₁, hx, hrest⟩
        obtain ⟨rfl, rfl⟩ := Prod.mk.inj (ok.inj (hattempt.symm.trans hx))
        dsimp only at hrest
        rw [if_neg fun h => he (Error.subscription.inj h.1)] at hrest
        exact succeeds_fail hrest
      · intro h
        rcases h hpos with ⟨m', h⟩ | h
        · cases h
        · exact he (error.inj h)

theorem grantTraffic_ok (hsub : s.sub k.userId id = some m) {mystery : Bool}
    {given : TrafficGiven} (h : grantTraffic env k mystery id bytes s = .ok (given, s')) :
    s'.redemptions = s.redemptions ∧ given.count ≤ bytes := by
  rw [grantTraffic, ite_ok] at h
  rcases h with ⟨-, h⟩ | ⟨-, h⟩
  · obtain ⟨rfl, rfl⟩ := pure_ok.mp h
    exact ⟨rfl, zero_le _⟩
  · obtain ⟨x, s₁, hattempt, h⟩ := bind_ok.mp h
    rcases attempt_ok.mp hattempt with ⟨m', rfl, hon⟩ | ⟨e, rfl, -, rfl⟩
    · obtain ⟨rfl, rfl⟩ := pure_ok.mp h
      rw [onSub_eq hsub] at hon
      cases hgrant : m.grantBonus env.now bytes k.template.name with
      | error => rw [hgrant] at hon; cases hon
      | ok =>
        rw [hgrant] at hon
        obtain ⟨rfl, rfl⟩ := Prod.mk.inj (ok.inj hon)
        exact ⟨rfl, le_rfl⟩
    · rw [ite_ok] at h
      rcases h with ⟨-, h⟩ | ⟨-, h⟩
      · obtain ⟨rfl, rfl⟩ := pure_ok.mp h
        exact ⟨rfl, zero_le _⟩
      · exact absurd h fail_ok.mp

end Parts

/-! ## A whole prize -/

/-- What the giving of a prize needs beyond what was checked. -/
structure Ticket.Gives (env : Env) (s : State) (k : Ticket) (p : Prize) : Prop where
  balance : 0 < p.balance → k.Booked env s p.balance
  days : 0 < p.expireDays → k.permanent = false →
    ∀ m, k.target s = some m → ¬m.Overflows env.now p.expireDays
  traffic : 0 < p.trafficBytes → ∀ m, k.target s = some m → m.TakesBonus env.now p.trafficBytes

/-- A prize can be given and written down. -/
structure Ticket.Grants (env : Env) (s : State) (k : Ticket) (p : Prize) : Prop
    extends k.Gives env s p where
  label : p.label.toList.length ≤ 100
  cents : p.balance * 100 ≤ 2 ^ 63 - 1

/-- Nothing that has to do with no prize is in the way. -/
structure Ticket.Ready (env : Env) (s : State) (k : Ticket) : Prop where
  first : ∀ r ∈ s.redemptions, r.codeId ≠ k.codeId
  audit : env.audit = .ok ()
  emit : env.emit = .ok ()
  complete : env.complete = .ok ()

/-- The checks of the card suffice for a prize: where it needs a subscription, one that has not
ended is chosen, and a live one for traffic. -/
def Ticket.Suits (env : Env) (s : State) (k : Ticket) (p : Prize) : Prop :=
  p.NeedsSub false → ∃ m, k.target s = some m ∧ m.stateAt env.now ≠ .ended ∧
    (0 < p.trafficBytes → m.stateAt env.now = .live)

section Prize

variable {env : Env} {k : Ticket} {p : Prize}

theorem grantOn_eq (env : Env) (k : Ticket) (p : Prize) (id : UUID) :
    grantOn env k true p false id = (do
      let days ← grantDays env k id p.expireDays
      let traffic ← grantTraffic env k true id p.trafficBytes
      pure (days, traffic)) := rfl

theorem grantOn_succeeds (hp : p.Valid) (hsub : s.sub k.userId id = some m)
    (hstate : m.stateAt env.now ≠ .ended) (hlive : 0 < p.trafficBytes → m.stateAt env.now = .live) :
    (grantOn env k true p false id).Succeeds s ↔
      (0 < p.expireDays → k.permanent = false → ¬m.Overflows env.now p.expireDays) ∧
      (0 < p.trafficBytes → m.TakesBonus env.now p.trafficBytes) := by
  rw [grantOn_eq, succeeds_bind, ← grantDays_succeeds hsub hstate hp.days]
  constructor
  · rintro ⟨days, s₁, hdays, hrest⟩
    refine ⟨⟨days, s₁, hdays⟩, fun hpos => ?_⟩
    obtain ⟨-, -, m₁, hsub₁, hkeeps⟩ := grantDays_ok hsub hdays
    obtain ⟨hlive₁, hbonus⟩ := hkeeps (hlive hpos)
    obtain ⟨traffic, s₂, htraffic, -⟩ := succeeds_bind.mp hrest
    exact (hbonus _).mp ((grantTraffic_succeeds hsub₁ (fun _ => hlive₁) hp.traffic).mp
      ⟨traffic, s₂, htraffic⟩ hpos)
  · rintro ⟨⟨days, s₁, hdays⟩, htakes⟩
    refine ⟨days, s₁, hdays, ?_⟩
    obtain ⟨-, -, m₁, hsub₁, hkeeps⟩ := grantDays_ok hsub hdays
    have hlive₁ : 0 < p.trafficBytes → m₁.stateAt env.now = .live :=
      fun hpos => (hkeeps (hlive hpos)).1
    obtain ⟨traffic, s₂, htraffic⟩ :=
      (grantTraffic_succeeds (k := k) hsub₁ hlive₁ hp.traffic).mpr fun hpos =>
        ((hkeeps (hlive hpos)).2 _).mpr (htakes hpos)
    exact succeeds_bind.mpr ⟨traffic, s₂, htraffic, succeeds_pure⟩

theorem grantOn_ok (hsub : s.sub k.userId id = some m)
    {given : DaysGiven × TrafficGiven} (h : grantOn env k true p false id s = .ok (given, s')) :
    s'.redemptions = s.redemptions ∧ given.1.count ≤ p.expireDays ∧
      given.2.count ≤ p.trafficBytes := by
  rw [grantOn_eq] at h
  obtain ⟨days, s₁, hdays, h⟩ := bind_ok.mp h
  obtain ⟨traffic, s₂, htraffic, h⟩ := bind_ok.mp h
  obtain ⟨rfl, rfl⟩ := pure_ok.mp h
  obtain ⟨hsame, hcount, m₁, hsub₁, -⟩ := grantDays_ok hsub hdays
  obtain ⟨hsame', hcount'⟩ := grantTraffic_ok hsub₁ htraffic
  exact ⟨hsame'.trans hsame, hcount, hcount'⟩

theorem Ticket.Suits.exists_target (hsuits : k.Suits env s p) (hneeds : p.NeedsSub false) :
    ∃ id m, k.landing.bind (·.subscriptionId) = some id ∧ s.sub k.userId id = some m ∧
      k.target s = some m ∧ m.stateAt env.now ≠ .ended ∧
      (0 < p.trafficBytes → m.stateAt env.now = .live) := by
  obtain ⟨m, htarget, hstate, hlive⟩ := hsuits hneeds
  obtain ⟨id, hid, hsub⟩ := bind_eq_some_iff.mp htarget
  exact ⟨id, m, hid, hsub, htarget, hstate, hlive⟩

theorem grantRest_succeeds (hp : p.Valid) (hsuits : k.Suits env s p) (given : Granted) :
    (grantRest env k true p false given).Succeeds s ↔ (0 < p.expireDays → k.permanent = false →
        ∀ m, k.target s = some m → ¬m.Overflows env.now p.expireDays) ∧
      (0 < p.trafficBytes → ∀ m, k.target s = some m → m.TakesBonus env.now p.trafficBytes) := by
  unfold grantRest
  by_cases hneeds : p.NeedsSub false
  · obtain ⟨id, m, hid, hsub, htarget, hstate, hlive⟩ := hsuits.exists_target hneeds
    rw [hid]
    dsimp only
    rw [if_pos hneeds, succeeds_bind]
    have hgiven := grantOn_succeeds hp hsub hstate hlive
    simp only [htarget, some.injEq, forall_eq']
    rw [← hgiven]
    exact ⟨fun ⟨given, s₁, h, _⟩ => ⟨given, s₁, h⟩,
      fun ⟨given, s₁, h⟩ => ⟨given, s₁, h, succeeds_pure⟩⟩
  · have hnothing : ¬0 < p.expireDays ∧ ¬0 < p.trafficBytes :=
      ⟨fun h => hneeds (.inl h), fun h => hneeds (.inr (.inr h))⟩
    refine iff_of_true ?_ ⟨fun h => absurd h hnothing.1, fun h => absurd h hnothing.2⟩
    cases k.landing.bind (·.subscriptionId) with
    | none => exact succeeds_pure
    | some =>
      dsimp only
      rw [if_neg hneeds]
      exact succeeds_pure

theorem grantRest_ok (hsuits : k.Suits env s p) {given : Granted}
    (hnone : given.days.count = 0 ∧ given.traffic.count = 0)
    (h : grantRest env k true p false given s = .ok (g, s')) :
    s'.redemptions = s.redemptions ∧ g.prizeLabel = given.prizeLabel ∧
      g.balance = given.balance ∧ g.ledgerTxn = given.ledgerTxn ∧
      g.days.count ≤ p.expireDays ∧ g.traffic.count ≤ p.trafficBytes ∧ g.refund = given.refund := by
  unfold grantRest at h
  by_cases hneeds : p.NeedsSub false
  · obtain ⟨id, m, hid, hsub, -⟩ := hsuits.exists_target hneeds
    rw [hid] at h
    dsimp only at h
    rw [if_pos hneeds] at h
    obtain ⟨x, s₁, hon, h⟩ := bind_ok.mp h
    obtain ⟨rfl, rfl⟩ := pure_ok.mp h
    obtain ⟨hsame, hdays, htraffic⟩ := grantOn_ok hsub hon
    exact ⟨hsame, rfl, rfl, rfl, hdays, htraffic, rfl⟩
  · have hpure : (pure given : Action Granted) s = .ok (g, s') := by
      cases hid : k.landing.bind (·.subscriptionId) with
      | none => rwa [hid] at h
      | some =>
        rw [hid] at h
        dsimp only at h
        rwa [if_neg hneeds] at h
    obtain ⟨rfl, rfl⟩ := pure_ok.mp hpure
    exact ⟨rfl, rfl, rfl, rfl, by omega, by omega, rfl⟩

theorem Ticket.target_congr (k : Ticket) (h : s₁.subs = s.subs) : k.target s₁ = k.target s := by
  unfold target sub
  rw [h]

theorem Ticket.Suits.congr (hsuits : k.Suits env s p) (h : s₁.subs = s.subs) :
    k.Suits env s₁ p := by
  rw [Suits, k.target_congr h]
  exact hsuits

theorem grantReward_succeeds (hp : p.Valid) (hsuits : k.Suits env s p) :
    (grantReward env k true p false).Succeeds s ↔ k.Gives env s p := by
  have hplaced : p.NeedsSub false → k.landing.bind (·.subscriptionId) ≠ none := by
    intro hneeds
    obtain ⟨id, m, hid, -⟩ := hsuits.exists_target hneeds
    rw [hid]
    exact some_ne_none id
  rw [grantReward, succeeds_require_bind, succeeds_bind]
  constructor
  · rintro ⟨-, txn, s₁, hbalance, hrest⟩
    obtain ⟨hsubs, -, -⟩ := grantBalance_ok hbalance
    obtain ⟨hdays, htraffic⟩ := (grantRest_succeeds hp (hsuits.congr hsubs) _).mp hrest
    rw [k.target_congr hsubs] at hdays htraffic
    exact ⟨grantBalance_succeeds.mp ⟨txn, s₁, hbalance⟩, hdays, htraffic⟩
  · intro hgives
    obtain ⟨txn, s₁, hbalance⟩ := grantBalance_succeeds.mpr hgives.balance
    obtain ⟨hsubs, -, -⟩ := grantBalance_ok hbalance
    refine ⟨hplaced, txn, s₁, hbalance, (grantRest_succeeds hp (hsuits.congr hsubs) _).mpr ?_⟩
    rw [k.target_congr hsubs]
    exact ⟨hgives.days, hgives.traffic⟩

/-- What is written down of a prize. -/
structure Granted.Of (g : Granted) (p : Prize) : Prop where
  label : g.prizeLabel = p.label
  balance : g.balance = p.balance
  ledger : 0 < p.balance ↔ g.ledgerTxn ≠ none
  days : g.days.count ≤ p.expireDays
  traffic : g.traffic.count ≤ p.trafficBytes
  refund : g.refund = 0

theorem grantReward_ok (hp : p.Valid) (hsuits : k.Suits env s p)
    (h : grantReward env k true p false s = .ok (g, s')) :
    s'.redemptions = s.redemptions ∧ g.Of p := by
  unfold grantReward at h
  obtain ⟨_, s₀, hplaced, h⟩ := bind_ok.mp h
  obtain ⟨-, rfl⟩ := require_ok.mp hplaced
  obtain ⟨txn, s₁, hbalance, h⟩ := bind_ok.mp h
  obtain ⟨hsubs, hsame, htxn⟩ := grantBalance_ok hbalance
  obtain ⟨hsame', hlabel, hamount, hledger, hdays, htraffic, hrefund⟩ :=
    grantRest_ok (hsuits.congr hsubs) ⟨rfl, rfl⟩ h
  have hzero : (if 0 < p.balance then p.balance else 0) = p.balance := by
    split_ifs with hpos
    · rfl
    · exact le_antisymm hp.balance (not_lt.mp hpos)
  exact ⟨hsame'.trans hsame, hlabel, hamount.trans hzero, by rw [hledger]; exact htxn, hdays,
    htraffic, hrefund⟩

theorem Granted.Of.recorded (hp : p.Valid) (hg : g.Of p) : g.Recorded ∧ pluginGranted g = .ok () ↔
      p.label.toList.length ≤ 100 ∧ p.balance * 100 ≤ 2 ^ 63 - 1 := by
  have hbalance := hp.balance
  rw [pluginGranted, ensure_eq_ok, hg.balance, hg.refund]
  constructor
  · rintro ⟨hrecorded, hcents, -⟩
    refine ⟨hg.label ▸ hrecorded.label, ?_⟩
    rcases hbalance.lt_or_eq with hpos | hzero
    · exact (hcents hpos).2.2
    · rw [← hzero]
      norm_num
  · rintro ⟨hlabel, hcents⟩
    have hfits : Fits p.balance := by
      rw [Fits, abs_of_nonneg hbalance]
      linarith
    refine ⟨⟨hg.label ▸ hlabel, ?_, ?_, hg.days.trans hp.days,
      hg.traffic.trans (hp.traffic.trans maxTrafficBytes_le), ?_⟩, fun _ => ?_, by simp⟩
    · rw [hg.balance]
      exact ⟨hbalance, hp.places, hfits⟩
    · rw [hg.balance]
      exact hg.ledger
    · rw [hg.refund]
      exact ⟨le_rfl, check_zero, by norm_num [Fits]⟩
    · exact ⟨hp.places, by linarith, hcents⟩

end Prize

end Pandora.Giftcards
