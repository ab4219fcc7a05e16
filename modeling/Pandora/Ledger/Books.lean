import Pandora.Ledger.Post

/-!
# The books

What a correct set of books is, said about the rows themselves, and that one
posting keeps it.

`State.Sound` is the conjunction of what an auditor checks: the cached balance of
every account is the signed total of its entries; every transaction has equal
debits and credits, and so have the books as a whole; no user's account is
overdrawn; every amount is in cents.  The remaining fields are about identifiers
--- they are unique, entries point at rows that exist --- and are what makes the
first ones provable.
-/

namespace Pandora.Ledger

open Money Database List State

/-! ## Totals over the entries -/

/-- The signed total of an account's entries, positive on its normal side. -/
def State.accountTotal (s : State) (a : Account) : ℚ :=
  (s.entries.map fun e =>
    if e.accountId = a.id then signedDelta a.key.type e.direction e.amount else 0).sum

/-- One side of one transaction. -/
def State.txnSide (s : State) (txnId : UUID) (d : Direction) : ℚ :=
  (s.entries.map fun e =>
    if e.transactionId = txnId ∧ e.direction = d then e.amount else 0).sum

/-- One side of the whole ledger. -/
def State.ledgerSide (s : State) (d : Direction) : ℚ :=
  (s.entries.map fun e => if e.direction = d then e.amount else 0).sum

/-- **Correct books.** -/
structure State.Sound (s : State) : Prop extends s.Keyed where
  txnIds : (s.transactions.map Transaction.id).Nodup
  txnFresh : ∀ t ∈ s.transactions, t.id < s.nextId
  entryTxn : ∀ e ∈ s.entries, ∃ t ∈ s.transactions, t.id = e.transactionId
  entryAccount : ∀ e ∈ s.entries, ∃ a ∈ s.accounts, a.id = e.accountId
  booked : ∀ a ∈ s.accounts, a.balance = s.accountTotal a
  balanced : ∀ t ∈ s.transactions, s.txnSide t.id .debit = s.txnSide t.id .credit
  ledgerBalanced : s.ledgerSide .debit = s.ledgerSide .credit
  nonneg : ∀ a ∈ s.accounts, a.key.type.userOwned = true → 0 ≤ a.balance
  entryCents : ∀ e ∈ s.entries, 0 < e.amount ∧ Check e.amount
  balanceCents : ∀ a ∈ s.accounts, Check a.balance

theorem State.sound_empty : empty.Sound := by
  constructor <;> simp [empty, ledgerSide]
  constructor <;> simp

/-! ## Opening accounts keeps the books -/

theorem State.Sound.opened {s s' : State} (hs : s.Sound) (h : Opened s s') : s'.Sound := by
  obtain ⟨new, hacc, hnew⟩ := h.accounts
  have htotal : ∀ a, s'.accountTotal a = s.accountTotal a := fun a => by
    simp [accountTotal, h.entries]
  -- a new account has no entries: its identifier is larger than any in use
  have hzero : ∀ a ∈ new, s.accountTotal a = 0 := by
    intro a ha
    refine sum_eq_zero fun x hx => ?_
    obtain ⟨e, he, rfl⟩ := mem_map.mp hx
    obtain ⟨b, hb, hbid⟩ := hs.entryAccount e he
    have hlt := hs.fresh b hb
    have hge := (hnew a ha).2
    rw [if_neg]
    intro heq
    rw [hbid, heq] at hlt
    exact absurd hlt (Nat.not_lt.mpr hge)
  have hmem : ∀ a, a ∈ s'.accounts ↔ a ∈ s.accounts ∨ a ∈ new := fun a => by
    rw [hacc, mem_append]
  refine ⟨h.keyed hs.toKeyed, ?_, ?_, ?_, ?_, ?_, ?_, ?_, ?_, ?_, ?_⟩
  · rw [h.transactions]
    exact hs.txnIds
  · intro t ht
    rw [h.transactions] at ht
    exact (hs.txnFresh t ht).trans_le h.nextId
  · intro e he
    rw [h.entries] at he
    rw [h.transactions]
    exact hs.entryTxn e he
  · intro e he
    rw [h.entries] at he
    obtain ⟨a, ha, hid⟩ := hs.entryAccount e he
    exact ⟨a, h.mem ha, hid⟩
  · intro a ha
    rw [htotal]
    rcases (hmem a).mp ha with ha | ha
    · exact hs.booked a ha
    · rw [(hnew a ha).1, hzero a ha]
  · intro t ht
    rw [h.transactions] at ht
    simpa [txnSide, h.entries] using hs.balanced t ht
  · simpa [ledgerSide, h.entries] using hs.ledgerBalanced
  · intro a ha ho
    rcases (hmem a).mp ha with ha | ha
    · exact hs.nonneg a ha ho
    · rw [(hnew a ha).1]
  · intro e he
    rw [h.entries] at he
    exact hs.entryCents e he
  · intro a ha
    rcases (hmem a).mp ha with ha | ha
    · exact hs.balanceCents a ha
    · rw [(hnew a ha).1]
      exact check_zero

/-! ## Recording a posting keeps the books -/

variable {a : Account}

section Record

variable {s : State} {p : Posting}

theorem State.Keyed.accountId_of_mem (hs : s.Keyed) (ha : a ∈ s.accounts) :
    s.accountId a.ref = a.id := by
  simp [accountId, hs.account_of_mem ha]

theorem State.Keyed.balance_of_mem (hs : s.Keyed) (ha : a ∈ s.accounts) :
    s.balance a.ref = a.balance := by
  simp [balance, hs.account_of_mem ha]

section

variable (hs : s.Keyed) (hpres : ∀ leg ∈ p.legs, ∃ a ∈ s.accounts, a.ref = leg.account)
include hs hpres

/-- The entries of a posting hit the account of a row exactly where its legs name
the row's reference. -/
theorem State.Keyed.accountId_eq_iff {leg : Leg} (hleg : leg ∈ p.legs) (ha : a ∈ s.accounts) :
    s.accountId leg.account = a.id ↔ leg.account = a.ref := by
  obtain ⟨b, hb, hbref⟩ := hpres leg hleg
  rw [← hbref, hs.accountId_of_mem hb]
  constructor
  · intro h
    rw [hs.eq_of_id hb ha h]
  · intro h
    rw [hs.eq_of_ref hb ha h]

theorem State.record_accountTotal (ha : a ∈ s.accounts) :
    (s.record p).accountTotal a = s.accountTotal a + legDelta p.legs a.ref := by
  simp only [accountTotal, record, map_append, sum_append, map_map, add_right_inj]
  unfold legDelta
  congr 1
  refine map_congr_left fun leg hleg => ?_
  simp [hs.accountId_eq_iff hpres hleg ha]

end

theorem State.record_txnSide (hs : s.Sound) {t : Transaction} (ht : t ∈ s.transactions)
    (d : Direction) : (s.record p).txnSide t.id d = s.txnSide t.id d := by
  have hne : s.nextId ≠ t.id := (Nat.ne_of_lt (hs.txnFresh t ht)).symm
  simp only [txnSide, record, map_append, sum_append, map_map, add_eq_left]
  refine sum_eq_zero fun x hx => ?_
  obtain ⟨leg, -, rfl⟩ := mem_map.mp hx
  simp [hne]

theorem State.Sound.entry_ne (hs : s.Sound) {e : Entry} (he : e ∈ s.entries) :
    e.transactionId ≠ s.nextId := by
  obtain ⟨t, ht, htid⟩ := hs.entryTxn e he
  rw [← htid]
  exact Nat.ne_of_lt (hs.txnFresh t ht)

theorem State.record_txnSide_new (hs : s.Sound) (d : Direction) :
    (s.record p).txnSide s.nextId d = sideTotal d p.legs := by
  have hold : (s.entries.map fun e =>
      if e.transactionId = s.nextId ∧ e.direction = d then e.amount else 0).sum = 0 := by
    refine sum_eq_zero fun x hx => ?_
    obtain ⟨e, he, rfl⟩ := mem_map.mp hx
    simp [hs.entry_ne he]
  simp only [txnSide, record, map_append, sum_append, map_map, hold,
    zero_add, sideTotal]
  congr 1
  refine map_congr_left fun leg _ => ?_
  simp

theorem State.record_ledgerSide (d : Direction) :
    (s.record p).ledgerSide d = s.ledgerSide d + sideTotal d p.legs := by
  simp [ledgerSide, record, sideTotal, Function.comp_def]

/-- **One posting keeps the books correct.** -/
theorem State.Sound.record (hs : s.Sound) (hp : p.WellFormed)
    (hpres : ∀ leg ∈ p.legs, ∃ a ∈ s.accounts, a.ref = leg.account)
    (hnonneg : ∀ leg ∈ p.legs, leg.account.type.userOwned = true →
      0 ≤ s.balance leg.account + legDelta p.legs leg.account) : (s.record p).Sound := by
  have hcents : ∀ leg ∈ p.legs, Check leg.amount := fun leg hleg => (hp.legs leg hleg).cents
  have haccounts : (s.record p).accounts =
      s.accounts.map fun a => a.withBalance (a.balance + legDelta p.legs a.ref) := rfl
  refine ⟨⟨?_, ?_, ?_⟩, ?_, ?_, ?_, ?_, ?_, ?_, ?_, ?_, ?_, ?_⟩
  · rw [haccounts, map_map]
    exact hs.ids
  · rw [haccounts, map_map]
    exact hs.keys
  · exact forall_mem_map.mpr fun b hb => Nat.lt_succ_of_lt (hs.fresh b hb)
  · exact Database.nodup_map_append hs.txnIds fun t ht => Nat.ne_of_lt (hs.txnFresh t ht)
  · exact forall_mem_append.mpr ⟨fun t ht => Nat.lt_succ_of_lt (hs.txnFresh t ht),
      forall_mem_singleton.mpr (Nat.lt_succ_self _)⟩
  · intro e he
    rcases mem_append.mp he with he | he
    · obtain ⟨t, ht, hid⟩ := hs.entryTxn e he
      exact ⟨t, mem_append_left _ ht, hid⟩
    · obtain ⟨leg, -, rfl⟩ := mem_map.mp he
      exact ⟨_, mem_append_right _ mem_cons_self, rfl⟩
  · intro e he
    have hkeep : ∀ a ∈ s.accounts, ∃ b ∈ (s.record p).accounts, b.id = a.id := fun a ha =>
      ⟨_, mem_map_of_mem ha, rfl⟩
    rcases mem_append.mp he with he | he
    · obtain ⟨a, ha, hid⟩ := hs.entryAccount e he
      obtain ⟨b, hb, hbid⟩ := hkeep a ha
      exact ⟨b, hb, hbid.trans hid⟩
    · obtain ⟨leg, hleg, rfl⟩ := mem_map.mp he
      obtain ⟨a, ha, href⟩ := hpres leg hleg
      obtain ⟨b, hb, hbid⟩ := hkeep a ha
      refine ⟨b, hb, ?_⟩
      change b.id = s.accountId leg.account
      rw [hbid, ← href, hs.accountId_of_mem ha]
  · intro a ha
    obtain ⟨b, hb, rfl⟩ := mem_map.mp ha
    have htotal := record_accountTotal hs.toKeyed hpres hb
    change b.balance + legDelta p.legs b.ref = (s.record p).accountTotal b
    rw [htotal, hs.booked b hb]
  · intro t ht
    rcases mem_append.mp ht with ht | ht
    · rw [record_txnSide hs ht, record_txnSide hs ht]
      exact hs.balanced t ht
    · rw [mem_singleton.mp ht]
      change (s.record p).txnSide s.nextId .debit = (s.record p).txnSide s.nextId .credit
      rw [record_txnSide_new hs, record_txnSide_new hs]
      exact hp.balanced
  · rw [record_ledgerSide, record_ledgerSide, hs.ledgerBalanced, hp.balanced]
  · intro a ha ho
    obtain ⟨b, hb, rfl⟩ := mem_map.mp ha
    change 0 ≤ b.balance + legDelta p.legs b.ref
    by_cases htouched : ∃ leg ∈ p.legs, leg.account = b.ref
    · obtain ⟨leg, hleg, href⟩ := htouched
      have := hnonneg leg hleg (by rw [href, Account.ref_type]; exact ho)
      rwa [href, hs.balance_of_mem hb] at this
    · push Not at htouched
      rw [legDelta_eq_zero htouched, add_zero]
      exact hs.nonneg b hb ho
  · exact forall_mem_append.mpr ⟨hs.entryCents,
      forall_mem_map.mpr fun leg hleg => ⟨(hp.legs leg hleg).pos, hcents leg hleg⟩⟩
  · exact forall_mem_map.mpr fun b hb => (hs.balanceCents b hb).add (check_legDelta hcents)

end Record

end Pandora.Ledger
