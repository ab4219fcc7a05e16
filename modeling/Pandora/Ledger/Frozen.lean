import Pandora.Database.Table
import Pandora.Ledger.Runs

/-!
# Frozen money is conserved

A hold is a promise about money: while it is held, its amount sits in the user's
`user_balance_hold` account, put there by exactly one posting; when it is closed,
exactly one posting has taken it out again, back to the balance or into revenue
according to how it was closed.  `State.Frozen` says this about the whole table
and the whole journal, and every change of the ledger keeps it, provided that
general postings leave the `user_balance_hold` accounts alone.

Two points carry the argument.

* A posting is *about* an order through its source.  Freezing, releasing and
  settling are one-per-source kinds, so an order has at most one of each; what
  has to be shown is that it has one exactly when its hold says so.
* An order can be settled without using its balance, before it has a hold or
  after its hold was released.  Such a settlement takes nothing out of the frozen
  account, so it is not the one that closes a hold: the amount of a hold is
  positive.  This is why `Captures` looks at the amount.
-/

namespace Pandora.Ledger

open Money Database List Hold State Evolves Changes AccountType

/-! ## Which postings open and close a hold -/

/-- A posting of this kind whose source is the order. -/
def Record.About (r : Record) (kind : Kind) (orderId : UUID) : Prop :=
  r.posting.kind = kind ∧ r.posting.sourceType = sourceOrder ∧ r.posting.sourceId = orderId

instance (r : Record) (kind : Kind) (orderId : UUID) : Decidable (r.About kind orderId) :=
  inferInstanceAs (Decidable (_ ∧ _ ∧ _))

/-- What the legs take out of the user's frozen account. -/
def frozenDebit (userId : UUID) (legs : List Leg) : ℚ :=
  (legs.map fun leg =>
    if leg.account = userAccount .userBalanceHold userId ∧ leg.direction = .debit
    then leg.amount else 0).sum

/-- The posting that froze the hold's amount. -/
def Hold.Opens (h : Hold) (r : Record) : Prop :=
  r.About .balanceHold h.orderId ∧ r.posting.legs =
    (holdPosting ⟨h.orderId, h.userId, h.amount⟩).legs

/-- A posting that gave the hold's amount back. -/
def Hold.Releases (h : Hold) (r : Record) : Prop :=
  r.About .balanceRelease h.orderId ∧ frozenDebit h.userId r.posting.legs = h.amount

/-- A posting that took the hold's amount for the order. -/
def Hold.Captures (h : Hold) (r : Record) : Prop :=
  r.About .orderPaid h.orderId ∧ frozenDebit h.userId r.posting.legs = h.amount

instance (h : Hold) : DecidablePred h.Opens := fun _ => inferInstanceAs (Decidable (_ ∧ _))

instance (h : Hold) : DecidablePred h.Releases := fun _ => inferInstanceAs (Decidable (_ ∧ _))

instance (h : Hold) : DecidablePred h.Captures := fun _ => inferInstanceAs (Decidable (_ ∧ _))

/-- The amounts a user has frozen. -/
def heldTotal (holds : List Hold) (userId : UUID) : ℚ :=
  (holds.map fun h => if h.userId = userId ∧ h.status = .held then h.amount else 0).sum

/-- The journal agrees with a hold: one posting opened it, and one closed it in
the way it was closed, if it was. -/
structure Hold.Booked (h : Hold) (journal : List Record) : Prop where
  opens : journal.countP h.Opens = 1
  releases : journal.countP h.Releases = if h.status = .released then 1 else 0
  captures : journal.countP h.Captures = if h.status = .captured then 1 else 0

/-- The posting concerns money that is or was frozen. -/
def Record.Freezes (r : Record) : Prop :=
  r.posting.kind = .balanceHold ∨ r.posting.kind = .balanceRelease ∨
    ∃ userId, frozenDebit userId r.posting.legs ≠ 0

/-- **Frozen money.** -/
structure State.Frozen (s : State) : Prop where
  ids : (s.holds.map Hold.id).Nodup
  orders : (s.holds.map orderId).Nodup
  fresh : ∀ h ∈ s.holds, h.id < s.nextId
  pos : ∀ h ∈ s.holds, 0 < h.amount
  balance : ∀ userId, s.balance (userAccount .userBalanceHold userId) = heldTotal s.holds userId
  booked : ∀ h ∈ s.holds, h.Booked s.journal
  known : ∀ r ∈ s.journal, r.posting.sourceType = sourceOrder → r.Freezes →
    ∃ h ∈ s.holds, h.orderId = r.posting.sourceId

/-- A posting that leaves the frozen accounts alone. -/
def Posting.Unfrozen (p : Posting) : Prop :=
  ∀ leg ∈ p.legs, leg.account.type ≠ .userBalanceHold

instance (p : Posting) : Decidable p.Unfrozen := inferInstanceAs (Decidable (∀ _ ∈ _, _))

theorem State.frozen_empty : empty.Frozen := by
  constructor <;> simp [empty, journal, balance, account, heldTotal]

/-! ## Reading legs -/

theorem Posting.Unfrozen.frozenDebit {p : Posting} (hp : p.Unfrozen) (userId : UUID) :
    frozenDebit userId p.legs = 0 := by
  refine sum_eq_zero fun x hx => ?_
  obtain ⟨leg, hleg, rfl⟩ := mem_map.mp hx
  rw [if_neg]
  rintro ⟨hacc, -⟩
  exact hp leg hleg (by rw [hacc, userAccount_type])

theorem Posting.Unfrozen.legDelta {p : Posting} (hp : p.Unfrozen) (userId : UUID) :
    legDelta p.legs (userAccount .userBalanceHold userId) = 0 :=
  legDelta_eq_zero fun leg hleg hacc => hp leg hleg (by rw [hacc, userAccount_type])

theorem mem_legIfPositive {leg leg' : Leg} :
    leg ∈ legIfPositive leg' ↔ leg = leg' ∧ 0 < leg'.amount := by
  unfold legIfPositive
  split_ifs with h <;> simp [h]

variable {p : OrderPaid} {r : Record} {s s' : State} {id : UUID} {change : Hold → Hold}
  {journal : List Record} {hold : Hold}

theorem unfrozen_orderPaidPosting {applied : ℚ} (h : ¬0 < applied) :
    (orderPaidPosting p applied).Unfrozen := by
  intro leg hleg
  simp only [orderPaidPosting, orderPaidLegs, mem_append, mem_legIfPositive, mem_singleton] at hleg
  rcases hleg with (((⟨rfl, -⟩ | ⟨rfl, -⟩) | ⟨-, hpos⟩) | rfl) | ⟨rfl, -⟩
  · simp [debit]
  · simp [debit]
  · exact absurd hpos h
  · simp [credit]
  · simp [credit]

section

variable {applied : ℚ} (h : 0 < applied)
include h

theorem orderPaidPosting_legs : ∃ before after : Posting, before.Unfrozen ∧ after.Unfrozen ∧
      (orderPaidPosting p applied).legs =
        before.legs ++ debit (userAccount .userBalanceHold p.userId) applied :: after.legs := by
  have hleg : legIfPositive (debit (userAccount .userBalanceHold p.userId) applied) =
      [debit (userAccount .userBalanceHold p.userId) applied] := if_pos h
  refine ⟨{ orderPaidPosting p applied with
      legs := legIfPositive (debit (platformAccount .channelCash p.provider)
          (p.paid + p.surcharge - p.fee)) ++
        legIfPositive (debit (platformAccount .platformFeeExpense p.provider) p.fee) },
    { orderPaidPosting p applied with
      legs := credit (platformAccount .platformRevenue refMain) p.total ::
        legIfPositive (credit (platformAccount .platformRevenue refSurcharge) p.surcharge) },
    fun leg hmem => ?_, fun leg hmem => ?_, ?_⟩
  · simp only [mem_append, mem_legIfPositive] at hmem
    rcases hmem with ⟨rfl, -⟩ | ⟨rfl, -⟩ <;> simp [debit]
  · simp only [mem_cons, mem_legIfPositive] at hmem
    rcases hmem with rfl | ⟨rfl, -⟩ <;> simp [credit]
  · simp [orderPaidPosting, orderPaidLegs, hleg]

theorem legDelta_orderPaidPosting (userId : UUID) :
    legDelta (orderPaidPosting p applied).legs (userAccount .userBalanceHold userId) =
      if p.userId = userId then -applied else 0 := by
  obtain ⟨before, after, hbefore, hafter, hlegs⟩ := orderPaidPosting_legs (p := p) h
  rw [hlegs, legDelta_append, legDelta_cons, hbefore.legDelta, hafter.legDelta]
  simp [debit, signedDelta, debitNormal]

theorem frozenDebit_orderPaidPosting :
    frozenDebit p.userId (orderPaidPosting p applied).legs = applied := by
  obtain ⟨before, after, hbefore, hafter, hlegs⟩ := orderPaidPosting_legs (p := p) h
  have hsum : frozenDebit p.userId (orderPaidPosting p applied).legs =
      frozenDebit p.userId before.legs + (applied + frozenDebit p.userId after.legs) := by
    rw [hlegs]
    simp [frozenDebit, debit]
  rw [hsum, hbefore.frozenDebit, hafter.frozenDebit]
  ring

end

/-! ## One change -/

variable {h : Hold}

theorem countP_concat {P : Record → Prop} [DecidablePred P] (h : ∀ r ∈ journal, ¬P r) :
    (journal ++ [r]).countP P = if P r then 1 else 0 := by
  rw [countP_append_one, countP_eq_zero.mpr (by simpa using h), zero_add]

theorem Hold.Booked.append (hb : h.Booked journal) (hopens : ¬h.Opens r) (hreleases : ¬h.Releases r)
    (hcaptures : ¬h.Captures r) : h.Booked (journal ++ [r]) := by
  refine ⟨?_, ?_, ?_⟩
  · simp [countP_append, hopens, hb.opens]
  · simp [countP_append, hreleases, hb.releases]
  · simp [countP_append, hcaptures, hb.captures]

theorem Hold.Booked.other (hb : h.Booked journal) {p : Posting}
    (hne : p.sourceId ≠ h.orderId) (id : UUID) : h.Booked (journal ++ [⟨id, p⟩]) :=
  hb.append (fun ho => hne ho.1.2.2) (fun hr => hne hr.1.2.2) fun hc => hne hc.1.2.2

section

variable (hf : s.Frozen)
include hf

/-- **One posting.**  Each hold afterwards is an old one whose books are kept, or is booked with
the posting. -/
theorem State.Frozen.post {p : Posting} {holds : List Hold}
    (hspec : PostSpec p s id holds s') (hids : (holds.map Hold.id).Nodup)
    (horders : (holds.map orderId).Nodup) (hbalance : ∀ userId, heldTotal s.holds userId +
      legDelta p.legs (userAccount .userBalanceHold userId) = heldTotal holds userId)
    (hholds : ∀ h ∈ holds, h ∈ s.holds ∧ (h.Booked s.journal → h.Booked (s.journal ++ [⟨id, p⟩])) ∨
      h.id < s'.nextId ∧ 0 < h.amount ∧ h.Booked (s.journal ++ [⟨id, p⟩]))
    (hkept : ∀ h ∈ s.holds, ∃ h' ∈ holds, h'.orderId = h.orderId)
    (hknown : Record.Freezes ⟨id, p⟩ → ∃ h ∈ holds, h.orderId = p.sourceId) : s'.Frozen := by
  obtain rfl := hspec.holds
  refine ⟨hids, horders, fun h hh => ?_, fun h hh => ?_, fun userId => ?_, fun h hh => ?_,
    fun r hr hsource hfreezes => ?_⟩
  · rcases hholds h hh with ⟨hold, -⟩ | ⟨hlt, -⟩
    · exact (hf.fresh h hold).trans hspec.nextId
    · exact hlt
  · rcases hholds h hh with ⟨hold, -⟩ | ⟨-, hpos, -⟩
    · exact hf.pos h hold
    · exact hpos
  · rw [hspec.balance, hf.balance, hbalance]
  · rw [hspec.journal]
    rcases hholds h hh with ⟨hold, hb⟩ | ⟨-, -, hb⟩
    · exact hb (hf.booked h hold)
    · exact hb
  · rw [hspec.journal] at hr
    rcases mem_append.mp hr with hr | hr
    · obtain ⟨h, hh, ho⟩ := hf.known r hr hsource hfreezes
      obtain ⟨h', hh', ho'⟩ := hkept h hh
      exact ⟨h', hh', ho'.trans ho⟩
    · rw [mem_singleton.mp hr] at hfreezes ⊢
      exact hknown hfreezes

theorem State.Frozen.neutral {p : Posting}
    (hspec : PostSpec p s id s.holds s') (hunfrozen : p.Unfrozen)
    (hhold : p.kind ≠ .balanceHold) (hrelease : p.kind ≠ .balanceRelease) : s'.Frozen := by
  refine hf.post hspec hf.ids hf.orders (fun userId => ?_) (fun h hh => .inl ⟨hh, fun hb => ?_⟩)
    (fun h hh => ⟨h, hh, rfl⟩) ?_
  · rw [hunfrozen.legDelta, add_zero]
  · refine hb.append (fun ho => hhold ho.1.1) (fun hr => hrelease hr.1.1) ?_
    rintro ⟨-, hdebit⟩
    rw [hunfrozen.frozenDebit] at hdebit
    exact absurd hdebit (hf.pos h hh).ne
  · rintro (hk | hk | ⟨userId, hd⟩)
    · exact absurd hk hhold
    · exact absurd hk hrelease
    · exact absurd (hunfrozen.frozenDebit userId) hd

theorem State.Frozen.opened (hs : s.Sound) (h : Opened s s') : s'.Frozen := by
  refine ⟨?_, ?_, ?_, ?_, ?_, ?_, ?_⟩
  · rw [h.holds]
    exact hf.ids
  · rw [h.holds]
    exact hf.orders
  · intro x hx
    rw [h.holds] at hx
    exact (hf.fresh x hx).trans_le h.nextId
  · rw [h.holds]
    exact hf.pos
  · intro userId
    rw [h.balance hs.toKeyed, h.holds]
    exact hf.balance userId
  · rw [h.holds, h.journal hs]
    exact hf.booked
  · rw [h.holds, h.journal hs]
    exact hf.known

theorem State.Frozen.not_freezes {orderId : UUID}
    (hnone : s.holdByOrder orderId = none) (hr : r ∈ s.journal) {kind : Kind}
    (habout : r.About kind orderId) : ¬r.Freezes := by
  intro hfreezes
  obtain ⟨h, hh, horder⟩ := hf.known r hr habout.2.1 hfreezes
  exact holdByOrder_eq_none.mp hnone h hh (horder.trans habout.2.2)

theorem State.Frozen.held {input : HoldInput}
    (hvalid : validateHoldInput input = .ok ()) (hnone : s.holdByOrder input.orderId = none)
    (hge : s.nextId ≤ hold.id) (hlt : hold.id < s'.nextId)
    (hhold : hold = ⟨hold.id, input.orderId, input.userId, input.amount, .held, hold.holdTxnId,
      none, none⟩) (hspec : PostSpec (holdPosting input) s hold.holdTxnId (s.holds ++ [hold]) s') :
    s'.Frozen := by
  obtain ⟨horder, -, hpos⟩ := validateHoldInput_ok hvalid
  have horderId : hold.orderId = input.orderId := by rw [hhold]
  have huserId : hold.userId = input.userId := by rw [hhold]
  have hamount : hold.amount = input.amount := by rw [hhold]
  have hstatus : hold.status = .held := by rw [hhold]
  have hother : ∀ h ∈ s.holds, h.orderId ≠ input.orderId := holdByOrder_eq_none.mp hnone
  have honce := hspec.once rfl horder
  refine hf.post hspec ?_ ?_ (fun userId => ?_) (fun h hh => ?_)
    (fun h hh => ⟨h, mem_append_left _ hh, rfl⟩)
    fun _ => ⟨hold, mem_append_right _ mem_cons_self, horderId⟩
  · exact nodup_map_append hf.ids fun h hh => Nat.ne_of_lt ((hf.fresh h hh).trans_le hge)
  · exact nodup_map_append hf.orders fun h hh => by
      rw [horderId]
      exact hother h hh
  · simp [heldTotal, huserId, hamount, hstatus, holdPosting, legDelta, debit, credit, signedDelta,
      debitNormal]
  · rcases mem_append.mp hh with hh | hh
    · exact .inl ⟨hh, fun hb => hb.other (hother h hh).symm _⟩
    · rw [mem_singleton.mp hh]
      refine .inr ⟨hlt, hamount ▸ hpos, ?_, ?_, ?_⟩
      · rw [countP_concat fun r hr ho => honce r hr ⟨ho.1.1, ho.1.2.1, ho.1.2.2.trans horderId⟩,
          if_pos]
        refine ⟨⟨rfl, rfl, horderId.symm⟩, ?_⟩
        rw [horderId, huserId, hamount]
      · rw [countP_concat, hstatus, if_neg fun hr => absurd hr.1.1 (by simp [holdPosting])]
        · rfl
        · intro r hr hrel
          exact hf.not_freezes hnone hr (horderId ▸ hrel.1) (.inr (.inl hrel.1.1))
      · rw [countP_concat, hstatus, if_neg fun hr => absurd hr.1.1 (by simp [holdPosting])]
        · rfl
        · intro r hr hcap
          refine hf.not_freezes hnone hr (horderId ▸ hcap.1) (.inr (.inr ⟨hold.userId, ?_⟩))
          rw [hcap.2, hamount]
          exact hpos.ne'

end

theorem localTo_updateHold (holds : List Hold) (hold : Hold) (change : Hold → Hold) :
    LocalTo Hold.id holds hold (updateHold hold.id change) := by
  intro x _ hne
  rw [updateHold, if_neg fun h => hne h.1]

/-- What `MarkHoldCaptured` and `MarkHoldReleased` have in common: the hold leaves
the state `held` and is otherwise what it was. -/
structure Closes (change : Hold → Hold) : Prop where
  id : ∀ h, (change h).id = h.id
  orderId : ∀ h, (change h).orderId = h.orderId
  userId : ∀ h, (change h).userId = h.userId
  amount : ∀ h, (change h).amount = h.amount
  status : ∀ h, (change h).status ≠ .held

theorem closes_release (id : UUID) : Closes (release id) := by
  constructor <;> simp [release]

theorem closes_capture : Closes (capture id) := by
  constructor <;> simp [capture]

/-- A hold and what it is later: the same hold, and unchanged from the moment it
is no longer held. -/
structure Hold.Becomes (h h' : Hold) : Prop where
  id : h'.id = h.id
  orderId : h'.orderId = h.orderId
  userId : h'.userId = h.userId
  amount : h'.amount = h.amount
  final : h.status ≠ .held → h' = h

theorem Hold.Becomes.refl (h : Hold) : h.Becomes h := ⟨rfl, rfl, rfl, rfl, fun _ => rfl⟩

theorem becomes_updateHold (hchange : Closes change)
    (x : Hold) : x.Becomes (updateHold id change x) := by
  unfold updateHold
  split_ifs with hcond
  · exact ⟨hchange.id x, hchange.orderId x, hchange.userId x, hchange.amount x,
      fun hne => absurd hcond.2 hne⟩
  · exact .refl x

/-- The posting that closes a hold is about it in one way only, and the hold
records which. -/
theorem Hold.Booked.close (hb : h.Booked journal)
    (hheld : h.status = .held) (hchange : Closes change)
    (hopens : ¬h.Opens r) (hreleases : h.Releases r ↔ (change h).status = .released)
    (hcaptures : h.Captures r ↔ (change h).status = .captured) :
    (change h).Booked (journal ++ [r]) := by
  obtain ⟨ho, hr, hc⟩ : (change h).Opens = h.Opens ∧ (change h).Releases = h.Releases ∧
      (change h).Captures = h.Captures := by
    unfold Opens Releases Captures
    rw [hchange.orderId, hchange.userId, hchange.amount]
    exact ⟨rfl, rfl, rfl⟩
  have hr₀ : journal.countP h.Releases = 0 := by rw [hb.releases, hheld]; rfl
  have hc₀ : journal.countP h.Captures = 0 := by rw [hb.captures, hheld]; rfl
  refine ⟨?_, ?_, ?_⟩
  · simp only [ho, countP_append, hb.opens]
    simp [hopens]
  · simp only [hr, countP_append, hr₀, countP_singleton, decide_eq_true_eq, hreleases, zero_add]
  · simp only [hc, countP_append, hc₀, countP_singleton, decide_eq_true_eq, hcaptures, zero_add]

/-- **Closing.**  One held hold is closed by a posting about its order that takes
its amount out of the frozen account. -/
theorem State.Frozen.closed (hf : s.Frozen) (hmem : hold ∈ s.holds)
    (hheld : hold.status = .held) (hchange : Closes change) {p : Posting}
    (hspec : PostSpec p s id (s.holds.map (updateHold hold.id change)) s')
    (hsource : p.sourceId = hold.orderId)
    (hdelta : ∀ userId, legDelta p.legs (userAccount .userBalanceHold userId) =
      if hold.userId = userId then -hold.amount else 0)
    (hbooked : (change hold).Booked (s.journal ++ [⟨id, p⟩])) : s'.Frozen := by
  have hself : updateHold hold.id change hold = change hold := if_pos ⟨rfl, hheld⟩
  have hlater : ∀ h : Hold, h.Becomes (updateHold hold.id change h) := becomes_updateHold hchange
  refine hf.post hspec (nodup_map_update hf.ids fun h => (hlater h).id)
    (nodup_map_update hf.orders fun h => (hlater h).orderId) (fun userId => ?_) (fun h hh => ?_)
    (fun h hh => ⟨_, mem_map_of_mem hh, (hlater h).orderId⟩)
    fun _ => ⟨_, mem_map_of_mem hmem, (hlater hold).orderId.trans hsource.symm⟩
  · rw [hdelta]
    unfold heldTotal
    rw [map_map]
    refine Eq.trans ?_ (sum_map_update hf.ids hmem (localTo_updateHold s.holds hold change)
      fun h => if h.userId = userId ∧ h.status = .held then h.amount else 0).symm
    simp only [hself, hchange.status, hheld, and_false, and_true, if_false]
    split_ifs <;> ring
  · -- it is the closed one, or an old one about another order
    obtain ⟨x, hx, rfl⟩ := mem_map.mp hh
    by_cases hxid : x.id = hold.id
    · rw [eq_of_key hf.ids hx hmem hxid, hself]
      refine .inr ⟨?_, ?_, hbooked⟩
      · rw [hchange.id]
        exact (hf.fresh hold hmem).trans hspec.nextId
      · rw [hchange.amount]
        exact hf.pos hold hmem
    · rw [localTo_updateHold s.holds hold change x hx hxid]
      refine .inl ⟨hx, fun hb => hb.other (fun ho => hxid ?_) id⟩
      rw [eq_of_key hf.orders hx hmem (ho.symm.trans hsource)]

theorem State.Frozen.released (hf : s.Frozen) {orderId : UUID} {memo : String}
    (hfind : s.holdByOrder orderId = some hold)
    (hheld : hold.status = .held) (hspec : PostSpec (releasePosting orderId hold memo) s id
      (s.holds.map (updateHold hold.id (release id))) s') : s'.Frozen := by
  obtain ⟨hmem, horder⟩ := holdByOrder_eq_some hfind
  refine hf.closed hmem hheld (closes_release id) hspec horder.symm
    (fun _ => by simp [releasePosting, legDelta, debit, credit, signedDelta, debitNormal])
    ((hf.booked hold hmem).close hheld (closes_release id) ?_ ?_ ?_)
  · exact fun h => absurd h.1.1 (by simp [releasePosting])
  · exact iff_of_true ⟨⟨rfl, rfl, horder.symm⟩,
      by simp [releasePosting, frozenDebit, debit, credit]⟩ rfl
  · exact iff_of_false (fun h => absurd h.1.1 (by simp [releasePosting])) (by simp [release])

theorem State.Frozen.captured (hf : s.Frozen)
    (hfind : s.holdByOrder p.orderId = some hold) (hheld : hold.status = .held)
    (hpos : 0 < p.total - p.paid) (hamount : hold.amount = p.total - p.paid)
    (huser : hold.userId = p.userId) (hspec : PostSpec (orderPaidPosting p (p.total - p.paid)) s id
      (s.holds.map (updateHold hold.id (capture id))) s') : s'.Frozen := by
  obtain ⟨hmem, horder⟩ := holdByOrder_eq_some hfind
  have hdelta : ∀ userId, legDelta (orderPaidPosting p (p.total - p.paid)).legs
      (userAccount .userBalanceHold userId) =
        if hold.userId = userId then -hold.amount else 0 := fun userId => by
    rw [legDelta_orderPaidPosting hpos, huser, hamount]
  refine hf.closed hmem hheld closes_capture hspec horder.symm hdelta
    ((hf.booked hold hmem).close hheld closes_capture ?_ ?_ ?_)
  · exact fun h => absurd h.1.1 (by simp [orderPaidPosting])
  · exact iff_of_false (fun h => absurd h.1.1 (by simp [orderPaidPosting])) (by simp [capture])
  · refine iff_of_true ⟨⟨rfl, rfl, horder.symm⟩, ?_⟩ rfl
    rw [huser, hamount, frozenDebit_orderPaidPosting hpos]

theorem unfrozen_adjustPosting {a : Adjustment} {reason : String} :
    (adjustPosting a reason).Unfrozen := by
  intro leg hleg
  unfold adjustPosting at hleg
  split_ifs at hleg <;>
    · simp only [mem_cons, not_mem_nil, or_false] at hleg
      rcases hleg with rfl | rfl <;> simp [debit, credit]

/-- **Every change keeps frozen money frozen.** -/
theorem Change.frozen (h : Change Posting.Unfrozen s s') (hs : s.Sound)
    (hf : s.Frozen) : s'.Frozen := by
  cases h with
  | opened h => exact hf.opened hs h
  | posted hp hded hspec =>
    refine hf.neutral hspec hp ?_ ?_
    · intro hk
      simp [hk, Kind.dedicated] at hded
    · intro hk
      simp [hk, Kind.dedicated] at hded
  | adjusted hspec =>
    exact hf.neutral hspec unfrozen_adjustPosting (by simp [adjustPosting])
      (by simp [adjustPosting])
  | held hvalid hnone hge hlt hhold hspec => exact hf.held hvalid hnone hge hlt hhold hspec
  | released hfind hheld hspec => exact hf.released hfind hheld hspec
  | settled hpos hspec =>
    exact hf.neutral hspec (unfrozen_orderPaidPosting hpos) (by simp [orderPaidPosting])
      (by simp [orderPaidPosting])
  | captured hfind hheld hpos hamount huser hspec =>
    exact hf.captured hfind hheld hpos hamount huser hspec

/-! ## The life of a hold -/

theorem Hold.Becomes.trans {h₁ h₂ h₃ : Hold} (h : h₁.Becomes h₂) (h' : h₂.Becomes h₃) :
    h₁.Becomes h₃ := by
  refine ⟨h'.id.trans h.id, h'.orderId.trans h.orderId, h'.userId.trans h.userId,
    h'.amount.trans h.amount, fun hne => ?_⟩
  have heq := h.final hne
  rw [heq] at h'
  exact h'.final hne

variable {P : Posting → Prop} {calls : List (Env × Call)}

theorem Change.evolves (h : Change P s s') : Evolves Becomes s.holds s'.holds := by
  have same : s'.holds = s.holds → Evolves Becomes s.holds s'.holds := fun he => by
    rw [he]
    exact refl .refl _
  cases h with
  | opened h => exact same h.holds
  | posted _ _ hspec | adjusted hspec | settled _ hspec => exact same hspec.holds
  | held _ _ _ _ _ hspec =>
    rw [hspec.holds]
    exact of_subset .refl fun x hx => mem_append_left _ hx
  | released _ _ hspec =>
    rw [hspec.holds]
    exact map fun x _ => becomes_updateHold (closes_release _) x
  | captured _ _ _ _ _ hspec =>
    rw [hspec.holds]
    exact map fun x _ => becomes_updateHold closes_capture x

theorem Changes.evolves (h : Changes P s s') : Evolves Becomes s.holds s'.holds := by
  induction h with
  | refl => exact refl .refl _
  | tail _ hstep ih => exact ih.trans (fun _ _ _ => .trans) hstep.evolves

/-! ## Runs -/

/-- The calls make no general posting to a frozen account. -/
def LeavesFrozen (calls : List (Env × Call)) : Prop :=
  ∀ c ∈ calls, ∀ p, c.2 = .post p → p.Unfrozen

theorem Changes.frozen (h : Changes Posting.Unfrozen s s') (hs : s.Sound)
    (hf : s.Frozen) : s'.Frozen := by
  induction h with
  | refl => exact hf
  | tail hsteps hstep ih => exact hstep.frozen (sound hsteps hs) ih

theorem runCalls_frozen (hcalls : LeavesFrozen calls) : (runCalls calls).Frozen := by
  have hinv : (runCalls calls).Sound ∧ (runCalls calls).Frozen := by
    refine Tx.run_invariant (I := fun s : State => s.Sound ∧ s.Frozen)
      ⟨sound_empty, frozen_empty⟩ fun c hc s r s' hI h => ?_
    have hchanges := exec_changes hI.1 (hcalls c hc) h
    exact ⟨sound hchanges hI.1, frozen hchanges hI.1 hI.2⟩
  exact hinv.2

theorem runCalls_evolves {more : List (Env × Call)} :
    Evolves Becomes (runCalls calls).holds (runCalls (calls ++ more)).holds := by
  rw [runCalls, runCalls, Tx.run_append]
  refine Tx.run_relation (I := Sound)
    (R := fun s s' : State => Evolves Becomes s.holds s'.holds) (runCalls_sound calls)
    (fun s => refl .refl s.holds) (fun _ _ _ h h' => h.trans (fun _ _ _ => .trans) h')
    preserves_sound fun c s r s' hs h => ?_
  exact evolves (P := fun _ => True) (exec_changes hs (fun _ _ => trivial) h)

/-- **Frozen money is conserved.**  After any sequence of calls whose general
postings do not name a frozen account: each user's frozen account holds exactly
the amounts of the user's held holds; an order has at most one hold; each hold
was opened by exactly one posting of its amount, and closed by exactly one
posting of its amount, of the kind that matches its state, if it is closed and by
none if it is not; and a hold that was closed earlier in the run is still what it
was then. -/
theorem frozen_money_conserved (calls : List (Env × Call)) (hcalls : LeavesFrozen calls) :
    (∀ userId, (runCalls calls).balance (userAccount .userBalanceHold userId) =
      heldTotal (runCalls calls).holds userId) ∧ ((runCalls calls).holds.map orderId).Nodup ∧
    (∀ h ∈ (runCalls calls).holds, (runCalls calls).journal.countP h.Opens = 1 ∧
      (runCalls calls).journal.countP h.Releases = (if h.status = .released then 1 else 0) ∧
      (runCalls calls).journal.countP h.Captures = (if h.status = .captured then 1 else 0)) ∧
    ∀ earlier later, calls = earlier ++ later →
      ∀ h ∈ (runCalls earlier).holds, ∃ h' ∈ (runCalls calls).holds, h.Becomes h' := by
  have hf := runCalls_frozen hcalls
  refine ⟨hf.balance, hf.orders, fun h hh => ?_, ?_⟩
  · have hb := hf.booked h hh
    exact ⟨hb.opens, hb.releases, hb.captures⟩
  · rintro earlier later rfl
    exact runCalls_evolves

/-- A user who exists, an audit table that accepts rows. -/
def openEnv : Env := ⟨fun _ => true, fun _ => false, true, true⟩

/-- A top-up of ten, of which three are frozen for an order and released again. -/
def sampleCalls : List (Env × Call) :=
  [(openEnv, .post
      { kind := .balanceTopup, sourceType := sourceOrder, sourceId := 7,
        legs := [debit (platformAccount .channelCash "epay") 10,
          credit (userAccount .userBalance 1) 10] }),
    (openEnv, .holdForOrder ⟨8, 1, 3⟩),
    (openEnv, .releaseOrderHold 8 "")]

theorem leavesFrozen_sampleCalls : LeavesFrozen sampleCalls := by
  intro c hc p hp
  simp only [sampleCalls, mem_cons, not_mem_nil, or_false] at hc
  rcases hc with rfl | rfl | rfl
  · cases hp
    decide
  · cases hp
  · cases hp

theorem frozen_money_conserved_sample : (runCalls sampleCalls).holds.map status = [.released] ∧
      ∀ h ∈ (runCalls sampleCalls).holds,
        (runCalls sampleCalls).journal.countP h.Releases = if h.status = .released then 1 else 0 :=
  ⟨by decide +kernel,
    fun h hh => ((frozen_money_conserved sampleCalls leavesFrozen_sampleCalls).2.2.1 h hh).2.1⟩

end Pandora.Ledger
