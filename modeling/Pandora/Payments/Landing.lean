import Pandora.Payments.Frame

/-!
# Where the money of a payment lands

A payment is either the settlement of its order, or a case in suspense, or, for an
archived plan, a case that went on to the user's balance.  `State.Lands` says that it is
one of these and nothing else, by what the settlements, the cases and the journal have
about it.  `Landed` is the change of the tables that brings it about, and this file
finds it in each part of `recordPaymentTx`.
-/

namespace Pandora.Payments

open Money Database List Tx IsTrans Intent
open Ledger hiding Env State Error
open Orders hiding Error Call exec runCalls

/-! ## What the ledger records of a payment -/

/-- The posting records a gross sum: without the fee to the channel's cash, the fee as an
expense, and the surcharge as revenue. -/
def Receives (p : Posting) (code : String) (gross fee surcharge : ℚ) : Prop :=
  legDelta p.legs (platformAccount .channelCash code) = gross - fee ∧
  legDelta p.legs (platformAccount .platformFeeExpense code) = fee ∧
  legDelta p.legs (platformAccount .platformRevenue refSurcharge) = surcharge

theorem legDelta_legIfPositive {leg : Leg} (h : 0 ≤ leg.amount) (ref : AccountRef) :
    legDelta (legIfPositive leg) ref =
      if leg.account = ref then signedDelta ref.type leg.direction leg.amount else 0 := by
  unfold legIfPositive
  by_cases hpos : 0 < leg.amount
  · rw [if_pos hpos, legDelta_cons, legDelta_nil, add_zero]
  · have hzero : leg.amount = 0 := le_antisymm (not_lt.mp hpos) h
    rw [if_neg hpos, legDelta_nil, hzero]
    simp [signedDelta]

/-- All bookings of a payment have one shape: two debits and the surcharge, around legs
that touch other accounts. -/
theorem receives_of_legs {p : Posting} {code : String} {gross fee surcharge : ℚ} {others : List Leg}
    (hfee : 0 ≤ fee) (hle : fee ≤ gross) (hsurcharge : 0 ≤ surcharge)
    (hlegs : p.legs = legIfPositive (debit (platformAccount .channelCash code) (gross - fee)) ++
      legIfPositive (debit (platformAccount .platformFeeExpense code) fee) ++ others ++
      legIfPositive (credit (platformAccount .platformRevenue refSurcharge) surcharge))
    (hothers : ∀ leg ∈ others, leg.account ≠ platformAccount .channelCash code ∧
      leg.account ≠ platformAccount .platformFeeExpense code ∧
      leg.account ≠ platformAccount .platformRevenue refSurcharge) :
    Receives p code gross fee surcharge := by
  have hdelta : ∀ ref, legDelta others ref = 0 → legDelta p.legs ref =
      (if platformAccount .channelCash code = ref then signedDelta ref.type .debit (gross - fee)
        else 0) +
      (if platformAccount .platformFeeExpense code = ref then signedDelta ref.type .debit fee
        else 0) +
      (if platformAccount .platformRevenue refSurcharge = ref then
        signedDelta ref.type .credit surcharge else 0) := by
    intro ref hzero
    have hcash := @legDelta_legIfPositive (debit (platformAccount .channelCash code) (gross - fee))
      (sub_nonneg.mpr hle) ref
    have hexpense := @legDelta_legIfPositive
      (debit (platformAccount .platformFeeExpense code) fee) hfee ref
    have hrevenue := @legDelta_legIfPositive
      (credit (platformAccount .platformRevenue refSurcharge) surcharge) hsurcharge ref
    rw [hlegs, legDelta_append, legDelta_append, legDelta_append, hzero, add_zero, hcash, hexpense,
      hrevenue]
    rfl
  refine ⟨?_, ?_, ?_⟩
  · rw [hdelta _ (legDelta_eq_zero fun leg hleg => (hothers leg hleg).1)]
    simp [platformAccount, signedDelta, AccountType.debitNormal]
  · rw [hdelta _ (legDelta_eq_zero fun leg hleg => (hothers leg hleg).2.1)]
    simp [platformAccount, signedDelta, AccountType.debitNormal]
  · rw [hdelta _ (legDelta_eq_zero fun leg hleg => (hothers leg hleg).2.2)]
    simp [platformAccount, signedDelta, AccountType.debitNormal]

variable {p : Payment} {o : Order} {j j' : List Record} {s s' s₁ : State} {env : Env} {u : Unit}
  {evId : UUID} {intent : Option Intent}

theorem receives_suspensePosting (hp : p.Shaped) (kind : CaseKind) :
    Receives (suspensePosting p kind) p.provider.code p.amount p.feeAmount p.surchargeAmount := by
  obtain ⟨-, hfee, hle, hsurcharge, -⟩ := hp
  refine receives_of_legs hfee hle hsurcharge rfl fun leg hleg => ?_
  rw [mem_singleton.mp hleg]
  simp [credit, platformAccount]

theorem receives_topupPosting {p : SettleInput} (hfee : 0 ≤ p.fee)
    (hle : p.fee ≤ p.amount + p.surcharge) (hsurcharge : 0 ≤ p.surcharge) :
    Receives (topupPosting o p) p.providerCode (p.amount + p.surcharge) p.fee p.surcharge := by
  refine receives_of_legs hfee hle hsurcharge rfl fun leg hleg => ?_
  rw [mem_singleton.mp hleg]
  simp [credit, platformAccount, userAccount]

theorem receives_orderPaidPosting {p : SettleInput} {applied : ℚ} (hfee : 0 ≤ p.fee)
    (hle : p.fee ≤ p.amount + p.surcharge) (hsurcharge : 0 ≤ p.surcharge) :
    Receives (orderPaidPosting (orderPaidInput o p) applied) p.providerCode (p.amount + p.surcharge)
      p.fee p.surcharge := by
  refine @receives_of_legs _ _ _ _ _ (legIfPositive (debit (userAccount .userBalanceHold o.userId)
    applied) ++ [credit (platformAccount .platformRevenue refMain) o.totalAmount])
    hfee hle hsurcharge ?_ fun leg hleg => ?_
  · simp only [orderPaidPosting, orderPaidLegs, orderPaidInput, append_assoc]
  · simp only [mem_append, mem_legIfPositive, mem_singleton] at hleg
    rcases hleg with ⟨rfl, -⟩ | rfl <;>
      simp [debit, credit, platformAccount, userAccount, refMain, refSurcharge]

/-! ## The change that lands a payment -/

/-- The postings of this module. -/
def lateRecords (journal : List Record) : List Record :=
  journal.filter fun r => r.posting.kind ∈ lateKinds

theorem lateRecords_append {j j' : List Record} :
    lateRecords (j ++ j') = lateRecords j ++ lateRecords j' := filter_append j j'

theorem Quietly.lateRecords (h : Quietly j j') :
    lateRecords j' = lateRecords j := by
  obtain ⟨new, rfl, hnew⟩ := h
  have hnil : lateRecords new = [] :=
    filter_eq_nil_iff.mpr fun r hr hlate => hnew r hr (of_decide_eq_true hlate)
  rw [lateRecords_append, hnil, append_nil]

/-- The audit row of the settlement of a payment. -/
def Payment.settlement (p : Payment) : Settlement :=
  ⟨p.orderId, p.id, p.amount - p.surchargeAmount, p.feeAmount, p.surchargeAmount, p.provider.code⟩

/-- The posting books the order with this payment. -/
structure Payment.BookedBy (p : Payment) (kind : Ledger.Kind) (r : Record) : Prop where
  own : kind = .orderPaid ∨ kind = .balanceTopup
  source : r.Sourced kind sourceOrder p.orderId
  receives : Receives r.posting p.provider.code p.amount p.feeAmount p.surchargeAmount

/-- The case is about all of the payment but the surcharge. -/
structure Payment.Case (p : Payment) (c : LateCase) : Prop where
  paymentId : c.paymentId = p.id
  orderId : c.orderId = p.orderId
  userId : c.userId = p.userId
  amount : c.amount = p.amount - p.surchargeAmount

/-- A case that was given to the user's balance. -/
def LateCase.applied (c : LateCase) (txnId : UUID) (reason : String) : LateCase :=
  { c with status := .applied, appliedTxnId := some txnId, reason := some reason }

/-- The three ways. -/
inductive Landing (s s' : State) (p : Payment) : Prop
  | settled (kind : Ledger.Kind) (r : Record) (hr : r ∈ s'.ledger.journal)
      (booked : p.BookedBy kind r)
      (settlements : s'.settlements = s.settlements ++ [p.settlement])
      (lateCases : s'.payment.lateCases = s.payment.lateCases)
      (late : lateRecords s'.ledger.journal = lateRecords s.ledger.journal)
  | suspended (c : LateCase) (about : p.Case c) (status : c.status = .suspense)
      (fresh : s.nextId ≤ c.id) (given : c.id < s'.nextId)
      (settlements : s'.settlements = s.settlements)
      (lateCases : s'.payment.lateCases = s.payment.lateCases ++ [c])
      (late : lateRecords s'.ledger.journal =
        lateRecords s.ledger.journal ++ [⟨c.suspenseTxnId, suspensePosting p c.kind⟩])
  | moved (c : LateCase) (txnId : UUID) (about : p.Case c) (kind : c.kind = .archivedPlan)
      (fresh : s.nextId ≤ c.id) (given : c.id < s'.nextId)
      (settlements : s'.settlements = s.settlements)
      (lateCases : s'.payment.lateCases =
        s.payment.lateCases ++ [c.applied txnId archivedApplyReason])
      (late : lateRecords s'.ledger.journal = lateRecords s.ledger.journal ++
        [⟨c.suspenseTxnId, suspensePosting p .archivedPlan⟩,
          ⟨txnId, appliedPosting c archivedApplyReason⟩])

/-- A payment landed; everything else only grew. -/
structure Landed (s s' : State) (p : Payment) : Prop where
  intents : Evolves Intent.Keeps s.payment.intents s'.payment.intents
  journal : s.ledger.journal <+: s'.ledger.journal
  nextId : s.nextId ≤ s'.nextId
  landing : Landing s s' p

theorem Quietly.grows (h : Quietly j j') : j <+: j' := by
  obtain ⟨new, rfl, -⟩ := h
  exact prefix_append j new

theorem Landed.within {s₀ : State} (h : Landed s s₁ p) (hc : Calm s₀ s) (hc' : Calm s₁ s') :
    Landed s₀ s' p := by
  refine ⟨hc.intents.trans Keeps.trans (h.intents.trans Keeps.trans hc'.intents),
    hc.journal.grows.trans (h.journal.trans hc'.journal.grows),
    hc.nextId.trans (h.nextId.trans hc'.nextId), ?_⟩
  have hlate := hc.journal.lateRecords
  have hlate' := hc'.journal.lateRecords
  cases h.landing with
  | settled kind r hr booked settlements lateCases late =>
    refine .settled kind r (hc'.journal.grows.subset hr) booked ?_ ?_ ?_
    · rw [hc'.settlements, settlements, hc.settlements]
    · rw [hc'.lateCases, lateCases, hc.lateCases]
    · rw [hlate', late, hlate]
  | suspended c about status fresh given settlements lateCases late =>
    refine .suspended c about status (hc.nextId.trans fresh) (given.trans_le hc'.nextId) ?_ ?_ ?_
    · rw [hc'.settlements, settlements, hc.settlements]
    · rw [hc'.lateCases, lateCases, hc.lateCases]
    · rw [hlate', late, hlate]
  | moved c txnId about kind fresh given settlements lateCases late =>
    refine .moved c txnId about kind (hc.nextId.trans fresh) (given.trans_le hc'.nextId) ?_ ?_ ?_
    · rw [hc'.settlements, settlements, hc.settlements]
    · rw [hc'.lateCases, lateCases, hc.lateCases]
    · rw [hlate', late, hlate]

/-! ## The order takes the money -/

theorem postSettlement_books (hs : s.ledger.Kept) (hp : p.Shaped) (horder : o.id = p.orderId)
    (h : postSettlement env o p.settleInput s = .ok (u, s')) :
    s'.ledger.Kept ∧ Frame s s' ∧ ∃ kind, ∃ r ∈ s'.ledger.journal, p.BookedBy kind r := by
  obtain ⟨-, hfee, hle, hsurcharge, hlt⟩ := hp
  have hgross : p.settleInput.amount + p.settleInput.surcharge = p.amount := sub_add_cancel _ _
  have hle' : p.settleInput.fee ≤ p.settleInput.amount + p.settleInput.surcharge := by
    rw [hgross]
    exact hle
  have hframe : Framed (postSettlement env o p.settleInput) :=
    .ite (.bind (framed_post ⟨unfrozen_topupPosting, by simp [topupPosting, lateKinds]⟩)
      fun _ => .pure)
      (.bind (.mapError (framed_onLedger fun _ _ _ => postOrderPaid_changes)) fun _ => .pure)
  obtain ⟨hs', hframe'⟩ := hframe hs h
  refine ⟨hs', hframe', ?_⟩
  simp only [postSettlement, ite_ok, bind_ok, mapError_ok, onLedger_ok, pure_ok] at h
  rcases h with ⟨-, id, _, ⟨l, hpost, rfl⟩, -, rfl⟩ | ⟨-, id, _, ⟨l, hpost, rfl⟩, -, rfl⟩
  · have hstep := postGeneral_step hs unfrozen_topupPosting hpost o.id
    have hreceives := receives_topupPosting (o := o) hfee hle' hsurcharge
    rw [hgross] at hreceives
    refine ⟨.balanceTopup, ⟨id, topupPosting o p.settleInput⟩, ?_, Or.inr rfl, ⟨rfl, rfl, horder⟩,
      hreceives⟩
    show _ ∈ l.journal
    rw [hstep.journal]
    exact mem_append_right _ (mem_singleton_self _)
  · have hpaid : 0 < (orderPaidInput o p.settleInput).paid := sub_pos.mpr hlt
    have hjournal : l.journal = s.ledger.journal ++ [⟨id, orderPaidPosting
        (orderPaidInput o p.settleInput) (o.totalAmount - p.settleInput.amount)⟩] := by
      obtain ⟨-, ⟨-, -, hstep⟩ | ⟨-, _, -, -, -, -, hstep⟩⟩ := postOrderPaid_step hs hpaid hpost
      · exact hstep.journal
      · exact hstep.journal
    have hreceives := @receives_orderPaidPosting o p.settleInput
      (o.totalAmount - p.settleInput.amount) hfee hle' hsurcharge
    rw [hgross] at hreceives
    refine ⟨.orderPaid, ⟨id, orderPaidPosting (orderPaidInput o p.settleInput)
      (o.totalAmount - p.settleInput.amount)⟩, ?_, Or.inl rfl, ⟨rfl, rfl, horder⟩, hreceives⟩
    show _ ∈ l.journal
    rw [hjournal]
    exact mem_append_right _ (mem_singleton_self _)

theorem settlePayment_landed (hs : s.ledger.Kept)
    (hp : p.Shaped) (h : settlePayment env p.settleInput s = .ok (u, s')) :
    s'.ledger.Kept ∧ s'.payment.payments = s.payment.payments ∧ Landed s s' p := by
  simp only [settlePayment, bind_ok, read_ok, ofOption_ok, require_ok,
    ofExcept_ok] at h
  obtain ⟨_, _, ⟨rfl, rfl⟩, o, _, ⟨ho, rfl⟩, _, _, ⟨-, rfl⟩, _, _, ⟨-, rfl⟩, h⟩ := h
  obtain ⟨_, _, ⟨-, rfl⟩, item, _, hitem, _, s₀, hsub, _, s₁, hcapture, h⟩ := h
  obtain ⟨_, s₂, hpost, paid, s₃, hmark, _, s₄, hhook, done, s₅, hfulfil, h⟩ := h
  obtain ⟨_, _, ⟨-, rfl⟩, haudit⟩ := h
  rw [settleItem_ok hitem] at hsub
  rw [settleSubscription_ok hsub] at hcapture
  -- only the audit row is not framed
  obtain ⟨hs₁, h₁⟩ := framed_captureReservation hs hcapture
  obtain ⟨hs₂, h₂, kind, r, hr, hbooked⟩ :=
    postSettlement_books hs₁ hp (State.orderById_mem ho).2 hpost
  obtain ⟨hs₃, h₃⟩ := framed_markPaid hs₂ hmark
  obtain ⟨hs₄, h₄⟩ := framed_paidHook hs₃ hhook
  obtain ⟨hs₅, h₅⟩ := framed_fulfil hs₄ hfulfil
  have hrest : Frame s₂ s₅ := trans _ _ _ h₃ (trans _ _ _ h₄ h₅)
  have hall : Frame s s₅ := trans _ _ _ h₁ (trans _ _ _ h₂ hrest)
  simp only [auditSettlement, bind_ok, ofExcept_ok, write_ok] at haudit
  obtain ⟨_, _, ⟨-, rfl⟩, rfl⟩ := haudit
  refine ⟨hs₅, hall.payments, hall.intents, hall.journal.grows, hall.nextId, ?_⟩
  exact .settled kind r (hrest.journal.grows.subset hr) hbooked
    (congrArg (· ++ [p.settlement]) hall.settlements) hall.lateCases hall.journal.lateRecords

/-! ## The money goes to suspense -/

theorem framed_newId : Framed newId :=
  .bind .read fun _ => .bind (framed_write fun _ => ⟨rfl, rfl, rfl, Nat.le_succ _⟩) fun _ => .pure

theorem framed_update {f : Tables → Tables} (hpayments : ∀ t, (f t).payments = t.payments)
    (hcases : ∀ t, (f t).lateCases = t.lateCases)
    (hintents : ∀ t : Tables, Evolves Keeps t.intents (f t).intents) : Framed (update f) :=
  .write fun s hs => ⟨hs, ⟨⟨hcases s.payment, hintents s.payment, rfl, .refl _, le_rfl⟩,
    hpayments s.payment⟩⟩

theorem framed_finishEvent {id : UUID} {status : EventStatus} {note : Option String} :
    Framed (finishEvent id status note) :=
  framed_update (fun _ => rfl) (fun _ => rfl) fun _ => .refl .refl _

theorem framed_markIntentSucceeded : Framed (markIntentSucceeded intent) := by
  cases intent with
  | none => exact .pure
  | some =>
    refine .ite (framed_update (fun _ => rfl) (fun _ => rfl) fun t => .map fun i _ => ?_) .pure
    split_ifs
    · exact ⟨rfl, rfl, rfl, rfl⟩
    · exact .refl i

variable {kind : CaseKind} {c : LateCase} {target : Target} {out : RecordResult ⊕ Payment}
  {input : RecordInput} {status : Status} {hook : Hook}

theorem unfrozen_suspensePosting : (suspensePosting p kind).Unfrozen := by
  intro leg hleg
  simp only [suspensePosting, mem_append, mem_legIfPositive, mem_singleton] at hleg
  rcases hleg with ((⟨rfl, -⟩ | ⟨rfl, -⟩) | rfl) | ⟨rfl, -⟩ <;> simp [debit, credit]

theorem unfrozen_appliedPosting {reason : String} : (appliedPosting c reason).Unfrozen := by
  intro leg hleg
  simp only [appliedPosting, mem_cons, not_mem_nil, or_false] at hleg
  rcases hleg with rfl | rfl <;> simp [debit, credit]

/-- What `quarantine` does to the tables, the cases and the journal apart. -/
structure Suspends (s s' : State) (p : Payment) (c : LateCase) : Prop where
  kept : s'.ledger.Kept
  payments : s'.payment.payments = s.payment.payments
  intents : Evolves Intent.Keeps s.payment.intents s'.payment.intents
  settlements : s'.settlements = s.settlements
  journal : s.ledger.journal <+: s'.ledger.journal
  nextId : s.nextId ≤ s'.nextId
  about : p.Case c
  fresh : s.nextId ≤ c.id
  given : c.id < s'.nextId

theorem lateRecords_post {r : Record} (h : j' = j ++ [r])
    (hkind : r.posting.kind ∈ lateKinds) : lateRecords j' = lateRecords j ++ [r] := by
  rw [h, lateRecords_append]
  exact congrArg (lateRecords j ++ ·) (filter_cons_of_pos (decide_eq_true hkind))

theorem quarantine_spec (hs : s.ledger.Kept)
    (h : quarantine env evId intent p kind status s = .ok (c, s')) :
    Suspends s s' p c ∧ c.kind = kind ∧ c.status = .suspense ∧
      s'.payment.lateCases = s.payment.lateCases ++ [c] ∧ lateRecords s'.ledger.journal =
        lateRecords s.ledger.journal ++ [⟨c.suspenseTxnId, suspensePosting p kind⟩] := by
  simp only [quarantine, newId, insertLateCase, update, bind_ok, onLedger_ok, read_ok,
    write_ok, require_ok, ofExcept_ok, pure_ok] at h
  obtain ⟨txnId, _, ⟨l, hpost, rfl⟩, id, _, ⟨_, _, ⟨rfl, rfl⟩, _, _, rfl, rfl, rfl⟩, h⟩ := h
  obtain ⟨_, s₁, ⟨_, _, ⟨-, rfl⟩, _, _, ⟨rfl, rfl⟩, _, _, ⟨-, rfl⟩, rfl⟩, h⟩ := h
  obtain ⟨_, s₂, hmark, _, s₃, hfinish, _, _, ⟨-, rfl⟩, rfl, rfl⟩ := h
  have hstep := postGeneral_step hs unfrozen_suspensePosting hpost UUID.nil
  obtain ⟨hs₂, h₂⟩ := framed_markIntentSucceeded hstep.kept hmark
  obtain ⟨hs₃, h₃⟩ := framed_finishEvent hs₂ hfinish
  have hrest := trans (r := Frame) _ _ _ h₂ h₃
  refine ⟨⟨hs₃, hrest.payments, hrest.intents, hrest.settlements, ?_,
    (Nat.le_succ s.nextId).trans hrest.nextId, ⟨rfl, rfl, rfl, rfl⟩, le_rfl,
    hrest.nextId⟩, rfl, rfl,
    hrest.lateCases, ?_⟩
  · refine List.IsPrefix.trans ?_ hrest.journal.grows
    show s.ledger.journal <+: l.journal
    rw [hstep.journal]
    exact prefix_append _ _
  · rw [hrest.journal.lateRecords]
    exact lateRecords_post hstep.journal (by simp [suspensePosting, lateKinds])

/-! ## The money goes on to the balance -/

theorem map_applyIf {cases : List LateCase} (hnew : ∀ x ∈ cases, x.id ≠ c.id)
    (hstatus : c.status = .suspense) (txnId : UUID) (reason : String) :
    (cases ++ [c]).map (LateCase.applyIf c.id txnId reason) =
      cases ++ [c.applied txnId reason] := by
  rw [map_append, map_singleton]
  congr 1
  · refine (map_congr_left fun x hx => ?_).trans (map_id cases)
    exact if_neg fun h => hnew x hx h.1
  · exact congrArg ([·]) (if_pos ⟨rfl, hstatus⟩)

theorem settleArchived_landed (hs : s.ledger.Kept)
    (h : settleArchived env evId target p status s = .ok (u, s')) :
    s'.ledger.Kept ∧ s'.payment.payments = s.payment.payments ∧
      ((∀ c ∈ s.payment.lateCases, c.id < s.nextId) → Landed s s' p) := by
  simp only [settleArchived, applyLateCase, applyCase, update, bind_ok, require_ok,
    onLedger_ok, read_ok, write_ok, ofExcept_ok, pure_ok] at h
  obtain ⟨c, s₁, hquarantine, _, _, ⟨-, rfl⟩, txnId, _, ⟨l, hpost, rfl⟩, h⟩ := h
  obtain ⟨_, _, ⟨_, _, ⟨rfl, rfl⟩, _, _, rfl, -, rfl⟩, _, _, ⟨-, rfl⟩, -, rfl⟩ := h
  obtain ⟨hsus, hkind, hstatus, hcases, hlate⟩ := quarantine_spec hs hquarantine
  have hstep := postGeneral_step hsus.kept unfrozen_appliedPosting hpost
    UUID.nil
  refine ⟨hstep.kept, hsus.payments, fun hfresh => ⟨hsus.intents, ?_, hsus.nextId, ?_⟩⟩
  · refine hsus.journal.trans ?_
    show s₁.ledger.journal <+: l.journal
    rw [hstep.journal]
    exact prefix_append _ _
  · refine .moved c txnId hsus.about hkind hsus.fresh hsus.given hsus.settlements ?_ ?_
    · have hnew : ∀ x ∈ s.payment.lateCases, x.id ≠ c.id :=
        fun x hx => ((hfresh x hx).trans_le hsus.fresh).ne
      show s₁.payment.lateCases.map _ = _
      rw [hcases]
      exact map_applyIf hnew hstatus txnId archivedApplyReason
    · have hpost' := lateRecords_post hstep.journal (by simp [appliedPosting, lateKinds])
      show lateRecords l.journal = _
      rw [hpost', hlate, append_assoc]
      rfl

/-- `CloseArchivedOrder` is the callback, framed on both sides. -/
theorem closeArchivedOrder_around {orderId : UUID} {settle : Status → Action Unit}
    (hs : s.ledger.Kept)
    (hsettle : ∀ st ⦃s s' u⦄, s.ledger.Kept → settle st s = .ok (u, s') → s'.ledger.Kept)
    (h : closeArchivedOrder env orderId settle s = .ok (u, s')) :
    s'.ledger.Kept ∧ ∃ st s₁ s₂, s₁.ledger.Kept ∧ Frame s s₁ ∧ settle st s₁ = .ok ((), s₂) ∧
      Frame s₂ s' := by
  simp only [closeArchivedOrder, bind_ok, read_ok, ofOption_ok, ite_ok, pure_ok] at h
  obtain ⟨_, _, ⟨rfl, rfl⟩, o, _, ⟨-, rfl⟩, ⟨-, h⟩ | ⟨-, _, _, h, -, rfl⟩⟩ := h
  · exact ⟨hsettle o.status hs h, o.status, s, s', hs, Std.Refl.refl s, h, Std.Refl.refl s'⟩
  · simp only [releaseOrderWith, bind_ok, require_ok, read_ok, ofOption_ok,
      ofExcept_ok] at h
    obtain ⟨_, _, ⟨-, rfl⟩, _, _, ⟨rfl, rfl⟩, res, _, ⟨-, rfl⟩, _, _, ⟨-, rfl⟩, h⟩ := h
    obtain ⟨_, s₁, hupdate, _, _, ⟨-, rfl⟩, _, s₂, hcoupon, _, s₃, hcallback, h⟩ := h
    obtain ⟨_, s₄, hbalance, _, s₅, hintents, _, s₆, horder, _, _, ⟨-, rfl⟩, h⟩ := h
    obtain ⟨_, _, ⟨-, rfl⟩, _, _, ⟨-, rfl⟩, hreload⟩ := h
    obtain ⟨hs₁, h₁⟩ := framed_updateReservation hs hupdate
    have hframe : Framed (releaseCoupon o "plan_archived") := .ite framed_onPromo .pure
    obtain ⟨hs₂, h₂⟩ := hframe hs₁ hcoupon
    have hs₃ := hsettle o.status hs₂ hcallback
    obtain ⟨hs₄, h₄⟩ := framed_releaseBalance hs₃ hbalance
    obtain ⟨hs₅, h₅⟩ := framed_closeOrderIntents hs₄ hintents
    obtain ⟨hs₆, h₆⟩ := framed_updateOrder hs₅ horder
    obtain ⟨hs₇, h₇⟩ := framed_reload hs₆ hreload
    exact ⟨hs₇, o.status, s₂, s₃, hs₂, trans _ _ _ h₁ h₂, hcallback,
      trans _ _ _ h₄ (trans _ _ _ h₅ (trans _ _ _ h₆ h₇))⟩

/-- **The third part**: the money went through suspense to the balance. -/
theorem closeArchived_landed
    (hs : s.ledger.Kept) (hfresh : ∀ c ∈ s.payment.lateCases, c.id < s.nextId)
    {r : RecordResult} (h : closeArchived env hook evId target p s = .ok (r, s')) :
    s'.ledger.Kept ∧ s'.payment.payments = s.payment.payments ∧ Landed s s' p := by
  simp only [closeArchived, bind_ok, ofExcept_ok, pure_ok] at h
  obtain ⟨_, s₀, hclose, _, _, ⟨-, rfl⟩, -, rfl⟩ := h
  obtain ⟨hs', st, s₁, s₂, hs₁, h₁, hsettle, h₂⟩ :=
    closeArchivedOrder_around hs (fun _ _ _ _ hs h => (settleArchived_landed hs h).1) hclose
  have hfresh₁ : ∀ c ∈ s₁.payment.lateCases, c.id < s₁.nextId := by
    rw [h₁.lateCases]
    exact fun c hc => (hfresh c hc).trans_le h₁.nextId
  obtain ⟨-, hpayments, hlanded⟩ := settleArchived_landed hs₁ hsettle
  refine ⟨hs', h₂.payments.trans (hpayments.trans h₁.payments), ?_⟩
  exact (hlanded hfresh₁).within h₁.toCalm h₂.toCalm

/-! ## The second part -/

/-- A payment was recorded under a fresh identifier: it is new, and it landed. -/
structure Recorded (s s' : State) (p : Payment) : Prop where
  shaped : p.Shaped
  new : p.key ∉ s.payment.payments.map Payment.key
  payments : s'.payment.payments = s.payment.payments ++ [p]
  landed : Landed { s with nextId := s.nextId + 1 } s' p

theorem framed_afterSettleSuccess {env : Env} : Framed (afterSettleSuccess env evId target p) :=
  .bind framed_markIntentSucceeded fun _ =>
    .bind (framed_update (fun _ => rfl) (fun _ => rfl) fun _ => evolves_closeOrderIntents)
      fun _ => .bind framed_finishEvent fun _ => .bind .ofExcept fun _ => .pure

theorem framed_replay {existing : Payment} : Framed (replay input evId target existing) :=
  .bind .require fun _ => .bind .require fun _ => .bind framed_finishEvent
    fun _ => .pure

section AfterSettle

theorem afterSettle_error {e : Orders.Error} (he : ∀ kind st, e ≠ .notPayable kind st) :
    afterSettle env hook input evId target p (.error e) = Tx.fail e := by
  cases e with
  | notPayable kind st => exact absurd rfl (he kind st)
  | _ => rfl

theorem afterSettle_notPayable (hkind : kind ≠ .archivedPlan) (st : Status) :
    afterSettle env hook input evId target p (.error (.notPayable kind st)) = (do
      let r ← afterSettleQuarantine env input evId target p kind st
      Tx.ofExcept (hook r)
      pure (.inl r)) := by
  cases kind with
  | archivedPlan => exact absurd rfl hkind
  | _ => rfl

/-- What the answer of `SettlePayment` leads to: the payment landed, or the plan was
archived and nothing has happened yet. -/
theorem afterSettle_landed (hp : p.Shaped) {answer : Except Orders.Error Unit}
    (hattempt : Tx.attempt (settlePayment env p.settleInput) s = .ok (answer, s₁))
    (hs : s.ledger.Kept) (h : afterSettle env hook input evId target p answer s₁ = .ok (out, s')) :
    s'.ledger.Kept ∧
      ((∃ r, out = .inl r ∧ s'.payment.payments = s.payment.payments ∧ Landed s s' p) ∨
      (out = .inr p ∧ s' = s)) := by
  rcases attempt_ok.mp hattempt with ⟨u, rfl, hsettle⟩ | ⟨e, rfl, -, rfl⟩
  · obtain ⟨hs₁, hpayments, hlanded⟩ := settlePayment_landed hs hp hsettle
    simp only [afterSettle, bind_ok, ofExcept_ok, pure_ok] at h
    obtain ⟨r, _, hafter, _, _, ⟨-, rfl⟩, rfl, rfl⟩ := h
    obtain ⟨hs', hframe⟩ := framed_afterSettleSuccess hs₁ hafter
    exact ⟨hs', Or.inl ⟨r, rfl, hframe.payments.trans hpayments,
      hlanded.within (.refl s) hframe.toCalm⟩⟩
  · by_cases hnp : ∃ kind st, e = .notPayable kind st
    · obtain ⟨kind, st, rfl⟩ := hnp
      by_cases hkind : kind = .archivedPlan
      · subst hkind
        simp only [afterSettle, bind_ok, require_ok, pure_ok] at h
        obtain ⟨_, _, ⟨-, rfl⟩, rfl, rfl⟩ := h
        exact ⟨hs, Or.inr ⟨rfl, rfl⟩⟩
      · rw [afterSettle_notPayable hkind] at h
        simp only [afterSettleQuarantine, bind_ok, require_ok, ofExcept_ok,
          pure_ok] at h
        obtain ⟨r, _, ⟨_, _, ⟨-, rfl⟩, c, _, hquarantine, rfl, rfl⟩, _, _, ⟨-, rfl⟩, rfl, rfl⟩ := h
        obtain ⟨hsus, rfl, hstatus, hcases, hlate⟩ := quarantine_spec hs hquarantine
        exact ⟨hsus.kept, Or.inl ⟨_, rfl, hsus.payments, hsus.intents, hsus.journal, hsus.nextId,
          .suspended c hsus.about hstatus hsus.fresh hsus.given hsus.settlements hcases hlate⟩⟩
    · rw [afterSettle_error fun kind st heq => hnp ⟨kind, st, heq⟩, fail_ok] at h
      exact h.elim

end AfterSettle

/-- **The second part**: a payment that was there before, or a new one that landed, or
one that waits for the third part. -/
theorem collect_cases (hs : s.ledger.Kept)
    (h : collect env hook input evId target s = .ok (out, s')) : s'.ledger.Kept ∧
      ((∃ r, out = .inl r ∧ Frame s s') ∨
      (∃ r, out = .inl r ∧ Recorded s s' (target.payment input s.nextId)) ∨
      (out = .inr (target.payment input s.nextId) ∧ (target.payment input s.nextId).Shaped ∧
        (target.payment input s.nextId).key ∉ s.payment.payments.map Payment.key ∧ s' = { s with
          payment := { s.payment with
            payments := s.payment.payments ++ [target.payment input s.nextId] }
          nextId := s.nextId + 1 })) := by
  simp only [collect, bind_ok, require_ok, read_ok] at h
  obtain ⟨_, _, ⟨-, rfl⟩, _, _, ⟨rfl, rfl⟩, h⟩ := h
  cases hfind : s.payment.paymentByRef input.provider.id input.ref with
  | some existing =>
    simp only [hfind, bind_ok, pure_ok] at h
    obtain ⟨r, _, hreplay, rfl, rfl⟩ := h
    obtain ⟨hs', hframe⟩ := framed_replay hs hreplay
    exact ⟨hs', Or.inl ⟨r, rfl, hframe⟩⟩
  | none =>
    simp only [hfind, settleNew, newId, insertPayment, update, bind_ok, read_ok, write_ok,
      require_ok, pure_ok] at h
    obtain ⟨_, _, ⟨_, _, ⟨rfl, rfl⟩, _, _, rfl, rfl, rfl⟩, _, s₁, hinsert, h⟩ := h
    obtain ⟨_, _, ⟨-, rfl⟩, _, _, ⟨rfl, rfl⟩, _, _, ⟨⟨hshaped, -⟩, rfl⟩, _, _, ⟨hnew, rfl⟩,
      rfl⟩ := hinsert
    obtain ⟨answer, s₂, hattempt, h⟩ := h
    have hcalm : Calm { s with nextId := s.nextId + 1 } { s with
        payment := { s.payment with
          payments := s.payment.payments ++ [target.payment input s.nextId] }
        nextId := s.nextId + 1 } :=
      ⟨rfl, .refl .refl _, rfl, .refl _, le_rfl⟩
    obtain ⟨hs', ⟨r, hr, hpayments, hlanded⟩ | ⟨hr, rfl⟩⟩ :=
      afterSettle_landed hshaped hattempt hs h
    · exact ⟨hs', Or.inr (Or.inl ⟨r, hr, hshaped, hnew, hpayments,
        hlanded.within hcalm (.refl s')⟩)⟩
    · exact ⟨hs', Or.inr (Or.inr ⟨hr, hshaped, hnew, rfl⟩)⟩

end Pandora.Payments
