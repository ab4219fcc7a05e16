import Pandora.Payments.Landing

/-!
# Every payment is filed

`Lands` is the state that `Landed` brings about: of every payment in the table, the
settlements, the cases and the journal together say one of three things.  `Filed` is the
invariant: it holds of all payments, and nothing in those tables is about a payment that
is not there.
-/

namespace Pandora.Payments

open Money Database List
open Ledger hiding Env State Error
open Orders hiding Error Call exec runCalls

/-- The settlements of a payment. -/
def settlementsOf (s : State) (id : UUID) : List Settlement :=
  s.settlements.filter (·.paymentId = id)

/-- The cases of a payment. -/
def casesOf (s : State) (id : UUID) : List LateCase :=
  s.payment.lateCases.filter (·.paymentId = id)

/-- The postings of this module about a payment. -/
def lateRecordsOf (s : State) (id : UUID) : List Record :=
  (lateRecords s.ledger.journal).filter (·.posting.sourceId = id)

/-- **Where a payment is**, and that it is nowhere else. -/
inductive Lands (s : State) (p : Payment) : Prop
  /-- One settlement of its order, booked once. -/
  | settled (kind : Ledger.Kind) (r : Record) (booked : p.BookedBy kind r)
      (once : sourced s.ledger.journal kind sourceOrder p.orderId = [r])
      (settlements : settlementsOf s p.id = [p.settlement])
      (cases : casesOf s p.id = []) (late : lateRecordsOf s p.id = [])
  /-- One case in suspense, booked once. -/
  | suspended (c : LateCase) (about : p.Case c) (status : c.status = .suspense)
      (receives : Receives (suspensePosting p c.kind) p.provider.code p.amount p.feeAmount
        p.surchargeAmount)
      (settlements : settlementsOf s p.id = []) (cases : casesOf s p.id = [c])
      (late : lateRecordsOf s p.id = [⟨c.suspenseTxnId, suspensePosting p c.kind⟩])
  /-- One case for an archived plan, booked once and once given to the balance. -/
  | moved (c : LateCase) (txnId : UUID) (about : p.Case c) (kind : c.kind = .archivedPlan)
      (receives : Receives (suspensePosting p .archivedPlan) p.provider.code p.amount p.feeAmount
        p.surchargeAmount)
      (settlements : settlementsOf s p.id = [])
      (cases : casesOf s p.id = [c.applied txnId archivedApplyReason])
      (late : lateRecordsOf s p.id = [⟨c.suspenseTxnId, suspensePosting p .archivedPlan⟩,
        ⟨txnId, appliedPosting c archivedApplyReason⟩])

/-- The surcharge of a payment is that of its intent; without an intent there is none. -/
def Tables.Charges (t : Tables) (p : Payment) : Prop :=
  match p.intentId with
  | none => p.surchargeAmount = 0
  | some id => ∃ i ∈ t.intents, i.id = id ∧ i.orderId = p.orderId ∧
      i.surchargeAmount = p.surchargeAmount

/-- The invariant. -/
structure Filed (s : State) : Prop where
  caseFresh : ∀ c ∈ s.payment.lateCases, c.id < s.nextId
  settlementsKnown : ∀ x ∈ s.settlements, ∃ p ∈ s.payment.payments, p.id = x.paymentId
  casesKnown : ∀ c ∈ s.payment.lateCases, ∃ p ∈ s.payment.payments, p.id = c.paymentId
  recordsKnown : ∀ r ∈ lateRecords s.ledger.journal,
    ∃ p ∈ s.payment.payments, p.id = r.posting.sourceId
  shaped : ∀ p ∈ s.payment.payments, p.Shaped
  lands : ∀ p ∈ s.payment.payments, Lands s p
  charges : ∀ p ∈ s.payment.payments, s.payment.Charges p

theorem filed_empty : Filed Orders.State.empty := by
  constructor <;> exact fun _ h => absurd h not_mem_nil

/-! ## Payments that are there already -/

/-- What is on record about one payment is as it was. -/
structure Untouched (s s' : State) (id : UUID) : Prop where
  settlements : settlementsOf s' id = settlementsOf s id
  cases : casesOf s' id = casesOf s id
  late : lateRecordsOf s' id = lateRecordsOf s id

variable {kind : Ledger.Kind} {r : Record}

theorem sourced_once {j j' : List Record} (hgrows : j <+: j')
    {sourceType : String} {sourceId : UUID} (hr : sourced j kind sourceType sourceId = [r])
    (hlen : (sourced j' kind sourceType sourceId).length ≤ 1) :
    sourced j' kind sourceType sourceId = [r] := by
  obtain ⟨new, rfl⟩ := hgrows
  rw [sourced_append, hr] at hlen ⊢
  have hnil : sourced new kind sourceType sourceId = [] := by
    rw [length_append, length_singleton] at hlen
    exact eq_nil_of_length_eq_zero (by omega)
  rw [hnil, append_nil]

variable {p : Payment} {s s' : State} {id : UUID} {α : Type}

theorem Payment.BookedBy.once (h : p.BookedBy kind r) {l : Ledger.State} (hl : l.OncePerSource) :
    (sourced l.journal kind sourceOrder p.orderId).length ≤ 1 := by
  refine hl kind sourceOrder p.orderId ?_ (by simp [sourceOrder])
  rcases h.own with rfl | rfl <;> rfl

theorem Lands.untouched (h : Lands s p) (hu : Untouched s s' p.id)
    (hgrows : s.ledger.journal <+: s'.ledger.journal) (hs' : s'.ledger.OncePerSource) :
    Lands s' p := by
  cases h with
  | settled kind r booked once settlements cases late =>
    exact .settled kind r booked (sourced_once hgrows once (booked.once hs'))
      (hu.settlements.trans settlements) (hu.cases.trans cases) (hu.late.trans late)
  | suspended c about status receives settlements cases late =>
    exact .suspended c about status receives (hu.settlements.trans settlements)
      (hu.cases.trans cases) (hu.late.trans late)
  | moved c txnId about kind receives settlements cases late =>
    exact .moved c txnId about kind receives (hu.settlements.trans settlements)
      (hu.cases.trans cases) (hu.late.trans late)

theorem Tables.Charges.evolve {t t' : Tables}
    (h : Evolves Intent.Keeps t.intents t'.intents) (hp : t.Charges p) : t'.Charges p := by
  unfold Tables.Charges at hp ⊢
  cases hid : p.intentId with
  | none =>
    rw [hid] at hp
    exact hp
  | some =>
    rw [hid] at hp
    obtain ⟨i, hi, rfl, horder, hsurcharge⟩ := hp
    obtain ⟨i', hi', hkeeps⟩ := h i hi
    exact ⟨i', hi', hkeeps.id, hkeeps.orderId.trans horder, hkeeps.surchargeAmount.trans hsurcharge⟩

theorem Calm.untouched (h : Calm s s') (id : UUID) : Untouched s s' id := by
  refine ⟨?_, ?_, ?_⟩
  · unfold settlementsOf
    rw [h.settlements]
  · unfold casesOf
    rw [h.lateCases]
  · unfold lateRecordsOf
    rw [h.journal.lateRecords]

theorem Filed.frame (h : Filed s) (hf : Frame s s') (hs' : s'.ledger.Kept) : Filed s' where
  caseFresh := by
    rw [hf.lateCases]
    exact fun c hc => (h.caseFresh c hc).trans_le hf.nextId
  settlementsKnown := by
    rw [hf.settlements, hf.payments]
    exact h.settlementsKnown
  casesKnown := by
    rw [hf.lateCases, hf.payments]
    exact h.casesKnown
  recordsKnown := by
    rw [hf.journal.lateRecords, hf.payments]
    exact h.recordsKnown
  shaped := by
    rw [hf.payments]
    exact h.shaped
  lands := by
    rw [hf.payments]
    exact fun p hp => (h.lands p hp).untouched (hf.untouched p.id) hf.journal.grows hs'.once
  charges := by
    rw [hf.payments]
    exact fun p hp => (h.charges p hp).evolve hf.intents

/-! ## A new payment -/

variable {f : α → UUID}

section New

theorem filter_append_self {l l' : List α} {a : α}
    (h : l' = l ++ [a]) (ha : f a = id) (hl : ∀ x ∈ l, f x ≠ id) : l'.filter (f · = id) = [a] := by
  have hnil : l.filter (f · = id) = [] :=
    filter_eq_nil_iff.mpr fun x hx hid => hl x hx (of_decide_eq_true hid)
  rw [h, filter_append, hnil, nil_append]
  exact filter_cons_of_pos (decide_eq_true ha)

theorem filter_append_other {l l' new : List α} (h : l' = l ++ new) (hnew : ∀ x ∈ new, f x ≠ id) :
    l'.filter (f · = id) = l.filter (f · = id) := by
  have hnil : new.filter (f · = id) = [] :=
    filter_eq_nil_iff.mpr fun x hx hid => hnew x hx (of_decide_eq_true hid)
  rw [h, filter_append, hnil, append_nil]

theorem Landed.untouched (h : Landed s s' p) (hid : p.id ≠ id) : Untouched s s' id := by
  have hcase : ∀ {c : LateCase}, p.Case c → c.paymentId ≠ id := fun about hc =>
    hid (about.paymentId.symm.trans hc)
  cases h.landing with
  | settled kind r hr booked settlements lateCases late =>
    refine ⟨filter_append_other settlements (forall_mem_singleton.mpr hid), ?_, ?_⟩
    · unfold casesOf
      rw [lateCases]
    · unfold lateRecordsOf
      rw [late]
  | suspended c about status fresh given settlements lateCases late =>
    refine ⟨?_, filter_append_other lateCases (forall_mem_singleton.mpr (hcase about)),
      filter_append_other late (forall_mem_singleton.mpr hid)⟩
    unfold settlementsOf
    rw [settlements]
  | moved c txnId about kind fresh given settlements lateCases late =>
    refine ⟨?_, filter_append_other lateCases (forall_mem_singleton.mpr fun hc => hcase about hc),
      filter_append_other late (forall_mem_cons.mpr ⟨hid, forall_mem_singleton.mpr (hcase about)⟩)⟩
    unfold settlementsOf
    rw [settlements]

theorem Landed.known (h : Landed s s' p) :
    (∀ x ∈ s'.settlements, x ∈ s.settlements ∨ x.paymentId = p.id) ∧
    (∀ c ∈ s'.payment.lateCases, (c ∈ s.payment.lateCases ∨ c.paymentId = p.id ∧
      c.id < s'.nextId)) ∧
    (∀ r ∈ lateRecords s'.ledger.journal,
      r ∈ lateRecords s.ledger.journal ∨ r.posting.sourceId = p.id) := by
  -- what a list has been extended by is about the payment
  have hmore : ∀ {α : Type} {P : α → Prop} (l more : List α), (∀ x ∈ more, P x) →
      ∀ x ∈ l ++ more, x ∈ l ∨ P x := fun l more hP x hx => (mem_append.mp hx).imp_right (hP x)
  cases h.landing with
  | settled kind r hr booked settlements lateCases late =>
    rw [settlements, lateCases, late]
    exact ⟨hmore _ _ (forall_mem_singleton.mpr rfl), fun c => Or.inl, fun r => Or.inl⟩
  | suspended c about status fresh given settlements lateCases late =>
    rw [settlements, lateCases, late]
    exact ⟨fun x => Or.inl, hmore _ _ (forall_mem_singleton.mpr ⟨about.paymentId, given⟩),
      hmore _ _ (forall_mem_singleton.mpr rfl)⟩
  | moved c txnId about kind fresh given settlements lateCases late =>
    rw [settlements, lateCases, late]
    exact ⟨fun x => Or.inl, hmore _ _ (forall_mem_singleton.mpr ⟨about.paymentId, given⟩),
      hmore _ _ (forall_mem_cons.mpr ⟨rfl, forall_mem_singleton.mpr about.paymentId⟩)⟩

theorem Landed.lands (h : Landed s s' p) (hshaped : p.Shaped) (hs' : s'.ledger.OncePerSource)
    (hsettlements : ∀ x ∈ s.settlements, x.paymentId ≠ p.id)
    (hcases : ∀ c ∈ s.payment.lateCases, c.paymentId ≠ p.id)
    (hrecords : ∀ r ∈ lateRecords s.ledger.journal, r.posting.sourceId ≠ p.id) : Lands s' p := by
  have hno : ∀ {α : Type} {f : α → UUID} {l : List α}, (∀ x ∈ l, f x ≠ p.id) →
      l.filter (f · = p.id) = [] :=
    fun hl => filter_eq_nil_iff.mpr fun x hx hid => hl x hx (of_decide_eq_true hid)
  cases h.landing with
  | settled kind r hr booked settlements lateCases late =>
    refine .settled kind r booked ?_ (filter_append_self settlements rfl hsettlements) ?_ ?_
    · have hmem : r ∈ sourced s'.ledger.journal kind sourceOrder p.orderId :=
        mem_filter.mpr ⟨hr, decide_eq_true booked.source⟩
      have hlen := booked.once hs'
      obtain ⟨a, ha⟩ := length_eq_one_iff.mp (le_antisymm hlen (length_pos_of_mem hmem))
      rw [ha, mem_singleton] at hmem
      rw [ha, hmem]
    · rw [casesOf, lateCases]
      exact hno hcases
    · rw [lateRecordsOf, late]
      exact hno hrecords
  | suspended c about status fresh given settlements lateCases late =>
    refine .suspended c about status (receives_suspensePosting hshaped c.kind) ?_
      (filter_append_self lateCases about.paymentId hcases)
      (filter_append_self late rfl hrecords)
    rw [settlementsOf, settlements]
    exact hno hsettlements
  | moved c txnId about kind fresh given settlements lateCases late =>
    refine .moved c txnId about kind (receives_suspensePosting hshaped .archivedPlan) ?_
      (filter_append_self lateCases about.paymentId hcases) ?_
    · rw [settlementsOf, settlements]
      exact hno hsettlements
    · rw [lateRecordsOf, late, filter_append, hno hrecords, nil_append]
      refine filter_eq_self.mpr fun r hr => decide_eq_true ?_
      rcases mem_cons.mp hr with rfl | hr
      · rfl
      · rw [mem_singleton.mp hr]
        exact about.paymentId

/-- **A new payment is filed, and the others stay filed.** -/
theorem Filed.landed (h : Filed s) (hnew : ∀ x ∈ s.payment.payments, x.id ≠ p.id)
    (hpayments : s'.payment.payments = s.payment.payments ++ [p]) (hl : Landed s s' p)
    (hs' : s'.ledger.Kept) (hshaped : p.Shaped) (hcharges : s.payment.Charges p) : Filed s' := by
  have hmem : ∀ x ∈ s.payment.payments, x ∈ s'.payment.payments := by
    rw [hpayments]
    exact fun x => mem_append_left [p]
  have hself : p ∈ s'.payment.payments := by
    rw [hpayments]
    exact mem_append_right _ (mem_singleton_self p)
  have hcases : ∀ x ∈ s'.payment.payments, x ∈ s.payment.payments ∨ x = p := by
    rw [hpayments]
    exact forall_mem_append.mpr ⟨fun x hx => Or.inl hx, fun x hx => Or.inr (mem_singleton.mp hx)⟩
  obtain ⟨hsettlements, hlate, hrecords⟩ := hl.known
  refine ⟨fun c hc => ?_, fun x hx => ?_, fun c hc => ?_, fun r hr => ?_, fun x hx => ?_,
    fun x hx => ?_, fun x hx => ?_⟩
  · rcases hlate c hc with hc | ⟨-, hlt⟩
    · exact (h.caseFresh c hc).trans_le hl.nextId
    · exact hlt
  · rcases hsettlements x hx with hx | hx
    · obtain ⟨q, hq, hid⟩ := h.settlementsKnown x hx
      exact ⟨q, hmem q hq, hid⟩
    · exact ⟨p, hself, hx.symm⟩
  · rcases hlate c hc with hc | ⟨hc, -⟩
    · obtain ⟨q, hq, hid⟩ := h.casesKnown c hc
      exact ⟨q, hmem q hq, hid⟩
    · exact ⟨p, hself, hc.symm⟩
  · rcases hrecords r hr with hr | hr
    · obtain ⟨q, hq, hid⟩ := h.recordsKnown r hr
      exact ⟨q, hmem q hq, hid⟩
    · exact ⟨p, hself, hr.symm⟩
  · rcases hcases x hx with hx | rfl
    · exact h.shaped x hx
    · exact hshaped
  · rcases hcases x hx with hx | rfl
    · exact (h.lands x hx).untouched (hl.untouched (hnew x hx).symm) hl.journal hs'.once
    · -- nothing was about the payment before
      have hno : ∀ {α : Type} {f : α → UUID} {l : List α},
          (∀ y ∈ l, ∃ q ∈ s.payment.payments, q.id = f y) → ∀ y ∈ l, f y ≠ x.id := by
        intro α f l hknown y hy hid
        obtain ⟨q, hq, hq'⟩ := hknown y hy
        exact hnew q hq (hq'.trans hid)
      exact hl.lands hshaped hs'.once (hno h.settlementsKnown) (hno h.casesKnown)
        (hno h.recordsKnown)
  · rcases hcases x hx with hx | rfl
    · exact (h.charges x hx).evolve hl.intents
    · exact hcharges.evolve hl.intents

end New

end Pandora.Payments
