import Pandora.Ledger.Books

/-!
# The journal

Entries name their account by identifier.  `State.journal` undoes that: it is
the list of postings that were made, in order, each with the identifier it got,
and a successful posting appends exactly itself (`Posted.journal`).

`Posted.spec` is the summary of a successful posting that the rest of the
development uses.  It speaks of three things only --- the journal, the holds, and
the balance of an account as a function of its reference --- and no longer of
rows and identifiers of accounts.
-/

namespace Pandora.Ledger

open Money Database List State

/-- A posting that was made, with its transaction identifier. -/
structure Record where
  id : UUID
  posting : Posting

/-- The reference of the account with this identifier. -/
def State.refById (s : State) (id : UUID) : Option AccountRef :=
  (s.accounts.find? fun a => a.id = id).map Account.ref

/-- The leg that an entry stands for, if it belongs to this transaction. -/
def State.entryLeg (s : State) (txnId : UUID) (e : Entry) : Option Leg :=
  if e.transactionId = txnId then
    (s.refById e.accountId).map fun ref => ⟨ref, e.direction, e.amount⟩
  else none

/-- The legs of a transaction. -/
def State.legsOf (s : State) (txnId : UUID) : List Leg := s.entries.filterMap (s.entryLeg txnId)

/-- The posting behind a transaction row. -/
def State.recordOf (s : State) (t : Transaction) : Record :=
  ⟨t.id, ⟨t.kind, t.sourceType.getD "", t.sourceId.getD UUID.nil, t.memo, s.legsOf t.id⟩⟩

/-- All postings, in order. -/
def State.journal (s : State) : List Record := s.transactions.map s.recordOf

/-! ## Reading identifiers back -/

variable {s s' : State} {p : Posting} {id n : UUID} {env : Env}

theorem State.Keyed.refById_of_mem (hs : s.Keyed) {a : Account}
    (ha : a ∈ s.accounts) : s.refById a.id = some a.ref := by
  unfold refById
  cases h : s.accounts.find? fun b => b.id = a.id with
  | none =>
    have := find?_eq_none.mp h a ha
    simp at this
  | some b =>
    have hid : b.id = a.id := by simpa using find?_some h
    rw [hs.eq_of_id (mem_of_find?_eq_some h) ha hid]
    rfl

theorem State.record_refById (s : State) (p : Posting) (id : UUID) :
    (s.record p).refById id = s.refById id := by
  rw [refById, record, find?_map, Option.map_map]
  rfl

theorem State.record_entryLeg (s : State) (p : Posting) (txnId : UUID) :
    (s.record p).entryLeg txnId = s.entryLeg txnId := by
  funext e
  unfold entryLeg
  rw [record_refById]

theorem State.record_entries (s : State) (p : Posting) :
    (s.record p).entries = s.entries ++ p.legs.map fun leg =>
      ⟨s.nextId, s.accountId leg.account, leg.direction, leg.amount⟩ := rfl

theorem Opened.refById (h : Opened s s') (hs : s.Sound) {e : Entry}
    (he : e ∈ s.entries) : s'.refById e.accountId = s.refById e.accountId := by
  obtain ⟨a, ha, hid⟩ := hs.entryAccount e he
  rw [← hid, (h.keyed hs.toKeyed).refById_of_mem (h.mem ha), hs.refById_of_mem ha]

/-! ## What opening and recording do to the journal -/

theorem Opened.journal (h : Opened s s') (hs : s.Sound) : s'.journal = s.journal := by
  rw [State.journal, h.transactions]
  refine map_congr_left fun t _ => ?_
  unfold State.recordOf State.legsOf
  rw [h.entries]
  have : s.entries.filterMap (s'.entryLeg t.id) = s.entries.filterMap (s.entryLeg t.id) := by
    refine filterMap_congr fun e he => ?_
    unfold State.entryLeg
    rw [h.refById hs he]
  rw [this]

theorem State.record_legsOf_old (hs : s.Sound) {t : Transaction}
    (ht : t ∈ s.transactions) : (s.record p).legsOf t.id = s.legsOf t.id := by
  have hne : s.nextId ≠ t.id := (Nat.ne_of_lt (hs.txnFresh t ht)).symm
  have hnew : (p.legs.map fun leg => (⟨s.nextId, s.accountId leg.account, leg.direction,
      leg.amount⟩ : Entry)).filterMap (s.entryLeg t.id) = [] := by
    rw [filterMap_eq_nil_iff]
    intro e he
    obtain ⟨leg, -, rfl⟩ := mem_map.mp he
    simp [entryLeg, hne]
  unfold legsOf
  rw [record_entryLeg, record_entries, filterMap_append, hnew, append_nil]

theorem State.record_legsOf_new (hs : s.Sound)
    (hpres : ∀ leg ∈ p.legs, ∃ a ∈ s.accounts, a.ref = leg.account) :
    (s.record p).legsOf s.nextId = p.legs := by
  have hold : s.entries.filterMap (s.entryLeg s.nextId) = [] := by
    rw [filterMap_eq_nil_iff]
    intro e he
    simp [entryLeg, hs.entry_ne he]
  have hnew : ∀ leg ∈ p.legs, s.entryLeg s.nextId
      ⟨s.nextId, s.accountId leg.account, leg.direction, leg.amount⟩ = some leg := by
    intro leg hmem
    obtain ⟨a, ha, href⟩ := hpres leg hmem
    have hid : s.accountId leg.account = a.id := by rw [← href, hs.accountId_of_mem ha]
    simp [entryLeg, hid, hs.refById_of_mem ha, href]
  unfold legsOf
  rw [record_entryLeg, record_entries, filterMap_append, hold, nil_append,
    filterMap_map]
  calc p.legs.filterMap (s.entryLeg s.nextId ∘ fun leg =>
        (⟨s.nextId, s.accountId leg.account, leg.direction, leg.amount⟩ : Entry))
      = p.legs.filterMap some := filterMap_congr fun leg hmem => hnew leg hmem
    _ = p.legs := filterMap_some

/-- **A posting appends itself to the journal.** -/
theorem State.record_journal (hs : s.Sound) (hp : p.WellFormed)
    (hpres : ∀ leg ∈ p.legs, ∃ a ∈ s.accounts, a.ref = leg.account) :
    (s.record p).journal = s.journal ++ [⟨s.nextId, p⟩] := by
  have htxns : (s.record p).transactions = s.transactions ++ [⟨s.nextId, p.kind,
      if p.sourceType = "" then none else some p.sourceType,
      if p.sourceType = "" ∨ p.sourceId = UUID.nil then none else some p.sourceId,
      p.memo⟩] := rfl
  rw [journal, htxns, map_append]
  congr 1
  · refine map_congr_left fun t ht => ?_
    unfold recordOf
    rw [record_legsOf_old hs ht]
  · have hnew := record_legsOf_new hs hpres
    simp only [map_cons, map_nil, recordOf, hnew, cons.injEq, and_true,
      Record.mk.injEq, true_and]
    -- the source survives being stored as two nullable columns
    obtain ⟨kind, sourceType, sourceId, memo, legs⟩ := p
    by_cases hsrc : sourceType = ""
    · have : sourceId = UUID.nil := hp.source.mp hsrc
      simp [hsrc, this]
    · have : sourceId ≠ UUID.nil := fun h => hsrc (hp.source.mpr h)
      simp [hsrc, this]

/-! ## Balances by reference -/

theorem Opened.balance (h : Opened s s') (hs : s.Keyed) (ref : AccountRef) :
    s'.balance ref = s.balance ref := by
  have hs' := h.keyed hs
  cases hacc : s.account ref with
  | some =>
    obtain ⟨ha, href⟩ := account_eq_some hacc
    rw [← href, hs'.balance_of_mem (h.mem ha), hs.balance_of_mem ha]
  | none =>
    have hzero : s.balance ref = 0 := by simp [State.balance, hacc]
    rw [hzero]
    cases hacc' : s'.account ref with
    | none => simp [State.balance, hacc']
    | some a =>
      obtain ⟨ha, href⟩ := account_eq_some hacc'
      obtain ⟨new, happ, hnew⟩ := h.accounts
      rw [happ] at ha
      rcases mem_append.mp ha with ha | ha
      · have := hs.account_of_mem ha
        rw [href, hacc] at this
        exact absurd this (by simp)
      · simp [State.balance, hacc', (hnew a ha).1]

theorem State.record_balance (hpres : ∀ leg ∈ p.legs, ∃ a ∈ s.accounts, a.ref = leg.account)
    (ref : AccountRef) : (s.record p).balance ref = s.balance ref + legDelta p.legs ref := by
  have hfind : (s.record p).account ref =
      (s.account ref).map fun a => a.withBalance (a.balance + legDelta p.legs a.ref) := by
    rw [account, record, find?_map]
    rfl
  unfold balance
  rw [hfind]
  cases hacc : s.account ref with
  | some =>
    obtain ⟨-, href⟩ := account_eq_some hacc
    simp [href]
  | none =>
    have hnone : ∀ leg ∈ p.legs, leg.account ≠ ref := by
      intro leg hleg hr
      obtain ⟨a, ha, href⟩ := hpres leg hleg
      have := find?_eq_none.mp hacc a ha
      simp [href, hr] at this
    simp [legDelta_eq_zero hnone]

/-! ## A successful posting, at the level of the journal -/

/-- A journal has no posting of this kind and source. -/
def NotPosted (journal : List Record) (kind : Kind) (sourceType : String) (sourceId : UUID) :
    Prop :=
  ∀ r ∈ journal, ¬(r.posting.kind = kind ∧ r.posting.sourceType = sourceType ∧
    r.posting.sourceId = sourceId)

/-- What the rest of the development knows about a state in which one posting was
made, and the holds of `s` were replaced by `holds`. -/
structure PostSpec (p : Posting) (s : State) (id : UUID) (holds : List Hold) (s' : State) :
    Prop where
  wellFormed : p.WellFormed
  sound : s'.Sound
  journal : s'.journal = s.journal ++ [⟨id, p⟩]
  holds : s'.holds = holds
  nextId : s.nextId < s'.nextId
  balance : ∀ ref, s'.balance ref = s.balance ref + legDelta p.legs ref
  once : p.kind.onePerSource = true → p.sourceId ≠ UUID.nil →
    NotPosted s.journal p.kind p.sourceType p.sourceId

/-- The holds are a table of their own: changing it, or giving out identifiers,
does not touch the books. -/
theorem State.Sound.setHolds (hs : s.Sound) (holds : List Hold)
    (hn : s.nextId ≤ n) : ({ s with holds := holds, nextId := n } : State).Sound :=
  { hs with
    fresh := fun a ha => (hs.fresh a ha).trans_le hn
    txnFresh := fun t ht => (hs.txnFresh t ht).trans_le hn }

theorem PostSpec.setHolds {holds : List Hold} (h : PostSpec p s id holds s') (holds' : List Hold)
    (hn : s'.nextId ≤ n) : PostSpec p s id holds' { s' with holds := holds', nextId := n } :=
  { h with sound := h.sound.setHolds holds' hn, holds := rfl, nextId := h.nextId.trans_le hn }

theorem notPosted_of_transactionExists {kind : Kind} {sourceType : String}
    {sourceId : UUID} (hne : sourceType ≠ "") (hid : sourceId ≠ UUID.nil)
    (h : s.transactionExists kind sourceType sourceId = false) :
    NotPosted s.journal kind sourceType sourceId := by
  intro r hr
  obtain ⟨t, ht, rfl⟩ := mem_map.mp hr
  rintro ⟨hkind, htype, hsid⟩
  have hfalse := any_eq_false.mp h t ht
  simp only [recordOf] at hkind htype hsid
  have htype' : t.sourceType = some sourceType := by
    cases hst : t.sourceType with
    | none => simp [hst, hne.symm] at htype
    | some => simpa [hst] using htype
  have hsid' : t.sourceId = some sourceId := by
    cases hst : t.sourceId with
    | none => simp [hst, hid.symm] at hsid
    | some => simpa [hst] using hsid
  simp [hkind, htype', hsid'] at hfalse

theorem Posted.spec (h : Posted p s id s')
    (hs : s.Sound) (hp : p.WellFormed) : PostSpec p s id s.holds s' := by
  have hopened := hs.opened h.opens
  refine ⟨hp, ?_, ?_, ?_, ?_, ?_, ?_⟩
  · rw [h.record]
    exact hopened.record hp h.present h.nonneg
  · rw [h.record, record_journal hopened hp h.present, h.opens.journal hs, ← h.id_eq]
  · rw [h.record]
    exact h.opens.holds
  · rw [h.record]
    exact Nat.lt_succ_of_le h.opens.nextId
  · intro ref
    rw [h.record, record_balance h.present, h.opens.balance hs.toKeyed]
  · intro hone hne
    have htype : p.sourceType ≠ "" := fun he => hne (hp.source.mp he)
    exact notPosted_of_transactionExists htype hne (h.once hone hne)

theorem postChecked_spec (hs : s.Sound)
    (h : postChecked env p s = .ok (id, s')) : PostSpec p s id s.holds s' := by
  simp only [postChecked, Tx.bind_ok, Tx.ofExcept_ok] at h
  obtain ⟨_, _, ⟨hvalid, rfl⟩, h⟩ := h
  have hp := validatePosting_ok hvalid
  obtain ⟨hposted⟩ := post_ok hs.toKeyed hp h
  exact hposted.spec hs hp

theorem postGeneral_spec (hs : s.Sound) (h : postGeneral env p s = .ok (id, s')) :
    p.kind.dedicated = false ∧ PostSpec p s id s.holds s' := by
  simp only [postGeneral, Tx.bind_ok, Tx.require_ok] at h
  obtain ⟨_, _, ⟨hded, rfl⟩, h⟩ := h
  exact ⟨hded, postChecked_spec hs h⟩

end Pandora.Ledger
