import Pandora.Database.Table
import Pandora.Ledger.Store
import Mathlib.Data.List.Find

/-!
# Posting

`post` is the one function that moves money.  It refuses a second posting of a
one-per-source kind, locks the accounts (creating those that are missing),
computes the new balances, writes them, and appends the transaction with its
entries.

The rest of the file says what that amounts to.  `State.record s p` is the state
after the posting `p` has been written to a state in which all its accounts
exist, in one step and without any lookup by identifier; `post_ok` says that a
successful `post` is `ensureAccounts` followed by `record`, with the list of
checks that were passed on the way.  Nothing after this file looks inside `post`.
-/

namespace Pandora.Ledger

open Money Database List Tx State

/-! ## The code -/

/-- The map that the locked rows make. -/
def lockedMap (rows : List Account) : Locked := fun ref =>
  (rows.find? fun a => a.ref = ref).map fun a => ⟨a.id, a.key.type, a.balance⟩

/-- Make sure the accounts exist and lock them. -/
def lockAccounts (env : Env) (refs : List AccountRef) : Tx State Error Locked := do
  let keys := (sortedRefs refs).map keyOf
  ensureAccounts env keys
  let s ← read
  let rows := lockRows keys s
  require (rows.length = keys.length) (.accountsNotLocked (keys.length - rows.length))
  pure (lockedMap rows)

/-- Make a posting, inside the caller's transaction. -/
def post (env : Env) (p : Posting) : Tx State Error UUID := do
  let s ← read
  require (p.kind.onePerSource = true → p.sourceId ≠ UUID.nil →
    s.transactionExists p.kind p.sourceType p.sourceId = false) .duplicatePosting
  let accounts ← lockAccounts env (accountKeys p.legs)
  let newBal ← ofExcept (nextBalances accounts p.legs)
  setBalances newBal
  insertTransaction p.kind (if p.sourceType = "" then none else some p.sourceType)
    (if p.sourceType = "" ∨ p.sourceId = UUID.nil then none else some p.sourceId)
    p.memo
    (p.legs.map fun leg =>
      (((accounts leg.account).getD default).id, leg.direction, leg.amount))

/-- Check a posting, then make it. -/
def postChecked (env : Env) (p : Posting) : Tx State Error UUID := do
  ofExcept (validatePosting p)
  post env p

/-- `Post`, the general entry point.  It refuses the kinds that have a method of
their own. -/
def postGeneral (env : Env) (p : Posting) : Tx State Error UUID := do
  require (p.kind.dedicated = false) (.invalidPosting (p.kind.name ++ " 只能走专门的方法"))
  postChecked env p

/-! ## Accounts by reference -/

/-- The row of an account. -/
def State.account (s : State) (ref : AccountRef) : Option Account :=
  s.accounts.find? fun a => a.ref = ref

/-- The balance of an account; an account that has never been used has none. -/
def State.balance (s : State) (ref : AccountRef) : ℚ :=
  ((s.account ref).map Account.balance).getD 0

/-- The identifier of an account. -/
def State.accountId (s : State) (ref : AccountRef) : UUID :=
  ((s.account ref).map Account.id).getD UUID.nil

/-- The state after a posting whose accounts all exist. -/
def State.record (s : State) (p : Posting) : State where
  accounts := s.accounts.map fun a => a.withBalance (a.balance + legDelta p.legs a.ref)
  transactions := s.transactions ++ [⟨s.nextId, p.kind,
    if p.sourceType = "" then none else some p.sourceType,
    if p.sourceType = "" ∨ p.sourceId = UUID.nil then none else some p.sourceId, p.memo⟩]
  entries := s.entries ++ p.legs.map fun leg =>
    ⟨s.nextId, s.accountId leg.account, leg.direction, leg.amount⟩
  holds := s.holds
  nextId := s.nextId + 1

/-- What has to be unique for lookups to mean what they say. -/
structure State.Keyed (s : State) : Prop where
  ids : (s.accounts.map Account.id).Nodup
  keys : (s.accounts.map Account.key).Nodup
  fresh : ∀ a ∈ s.accounts, a.id < s.nextId

variable {s s' : State} {a : Account} {u : Unit} {env : Env} {id : UUID}

theorem State.account_eq_some {ref : AccountRef}
    (h : s.account ref = some a) : a ∈ s.accounts ∧ a.ref = ref :=
  ⟨mem_of_find?_eq_some h, by simpa using find?_some h⟩

section

variable (hs : s.Keyed) {b : Account} (ha : a ∈ s.accounts) (hb : b ∈ s.accounts)
include hs ha hb

theorem State.Keyed.eq_of_id (h : a.id = b.id) : a = b :=
  inj_on_of_nodup_map hs.ids ha hb h

theorem State.Keyed.eq_of_ref (h : a.ref = b.ref) : a = b :=
  inj_on_of_nodup_map hs.keys ha hb (Account.ref_eq_iff.mp h)

end

theorem State.Keyed.account_of_mem (hs : s.Keyed)
    (ha : a ∈ s.accounts) : s.account a.ref = some a := by
  cases h : s.account a.ref with
  | none =>
    have := find?_eq_none.mp h a ha
    simp at this
  | some =>
    obtain ⟨hb, href⟩ := account_eq_some h
    rw [hs.eq_of_ref hb ha href]

/-! ## Opening accounts

The only thing `ensureAccounts` can do is append accounts with balance zero and
identifiers that have not been used. -/

/-- `s'` is `s` with some new, empty accounts. -/
structure Opened (s s' : State) : Prop where
  accounts : ∃ new, s'.accounts = s.accounts ++ new ∧ ∀ a ∈ new, a.balance = 0 ∧ s.nextId ≤ a.id
  transactions : s'.transactions = s.transactions
  entries : s'.entries = s.entries
  holds : s'.holds = s.holds
  nextId : s.nextId ≤ s'.nextId
  keyed : s.Keyed → s'.Keyed

theorem Opened.refl (s : State) : Opened s s :=
  ⟨⟨[], by simp, by simp⟩, rfl, rfl, rfl, le_rfl, id⟩

theorem Opened.trans {s₁ s₂ s₃ : State} (h : Opened s₁ s₂) (h' : Opened s₂ s₃) : Opened s₁ s₃ := by
  obtain ⟨new, hacc, hnew⟩ := h.accounts
  obtain ⟨new', hacc', hnew'⟩ := h'.accounts
  refine ⟨⟨new ++ new', by rw [hacc', hacc, append_assoc], ?_⟩,
    h'.transactions.trans h.transactions, h'.entries.trans h.entries,
    h'.holds.trans h.holds, h.nextId.trans h'.nextId, h'.keyed ∘ h.keyed⟩
  exact forall_mem_append.mpr ⟨hnew, fun a ha => ⟨(hnew' a ha).1, h.nextId.trans (hnew' a ha).2⟩⟩

theorem Opened.mem (h : Opened s s') (ha : a ∈ s.accounts) : a ∈ s'.accounts := by
  obtain ⟨new, hacc, -⟩ := h.accounts
  rw [hacc]
  exact mem_append_left _ ha

theorem ensureAccount_ok {k : AccountKey} (h : ensureAccount env k s = .ok (u, s')) :
    Opened s s' ∧ ∃ a ∈ s'.accounts, a.key = k := by
  simp only [ensureAccount, bind_ok, read_ok, ite_ok] at h
  obtain ⟨_, _, ⟨rfl, rfl⟩, ⟨hany, h⟩ | ⟨hany, h⟩⟩ := h
  · rw [pure_ok] at h
    rw [← h.2]
    simp only [any_eq_true, decide_eq_true_eq] at hany
    exact ⟨Opened.refl _, hany⟩
  · split_ifs at h with shape
    · simp only [bind_ok, require_ok, write_ok] at h
      obtain ⟨_, _, ⟨-, rfl⟩, rfl⟩ := h
      refine ⟨⟨⟨_, rfl, by simp⟩, rfl, rfl, rfl, Nat.le_succ _, fun hs => ?_⟩,
        ⟨_, mem_append_right _ mem_cons_self, rfl⟩⟩
      have hnew : ∀ a ∈ s.accounts, a.key ≠ k := by
        intro a ha hk
        exact hany (any_eq_true.mpr ⟨a, ha, by simpa using hk⟩)
      exact ⟨nodup_map_append hs.ids fun a ha => Nat.ne_of_lt (hs.fresh a ha),
        nodup_map_append hs.keys hnew, forall_mem_append.mpr
          ⟨fun a ha => Nat.lt_succ_of_lt (hs.fresh a ha),
            forall_mem_singleton.mpr (Nat.lt_succ_self _)⟩⟩
    · simp at h

theorem ensureAccounts_ok {keys : List AccountKey} (h : ensureAccounts env keys s = .ok (u, s')) :
    Opened s s' ∧ ∀ k ∈ keys, ∃ a ∈ s'.accounts, a.key = k := by
  unfold ensureAccounts at h
  induction keys generalizing s with
  | nil =>
    rw [forEach_nil] at h
    rw [← h]
    exact ⟨Opened.refl s, by simp⟩
  | cons k keys ih =>
    obtain ⟨s₁, h₁, h₂⟩ := forEach_cons.mp h
    obtain ⟨hopen, a, ha, hk⟩ := ensureAccount_ok h₁
    obtain ⟨hopen', hkeys⟩ := ih h₂
    refine ⟨hopen.trans hopen', fun k' hk' => ?_⟩
    rcases mem_cons.mp hk' with rfl | hk'
    · exact ⟨a, hopen'.mem ha, hk⟩
    · exact hkeys k' hk'

/-- What locking gives: all the accounts exist, and the map shows them as they
are. -/
theorem lockAccounts_ok {refs : List AccountRef} {accounts : Locked}
    (h : lockAccounts env refs s = .ok (accounts, s')) : Opened s s' ∧ accounts.Typed ∧
      (∀ ref ∈ refs, accounts ref = (s'.account ref).map fun a => ⟨a.id, a.key.type, a.balance⟩) ∧
      ∀ ref ∈ refs, ref.WellFormed → ∃ a ∈ s'.accounts, a.ref = ref := by
  simp only [lockAccounts, bind_ok, read_ok, require_ok, pure_ok] at h
  obtain ⟨_, s₁, hens, _, _, ⟨rfl, rfl⟩, _, _, ⟨-, rfl⟩, rfl, rfl⟩ := h
  obtain ⟨hopen, hkeys⟩ := ensureAccounts_ok hens
  refine ⟨hopen, ?_, ?_, ?_⟩
  · intro ref acc hacc
    obtain ⟨a, hfind, rfl⟩ := Option.map_eq_some_iff.mp hacc
    have href : a.ref = ref := by simpa using find?_some hfind
    rw [← href, Account.ref_type]
  · intro ref href
    rw [lockedMap, lockRows, account, find?_filter]
    congr 1
    refine find?_congr fun a _ => ?_
    -- a row with the right reference has one of the locked keys
    by_cases ha : a.ref = ref
    · have : a.key ∈ (sortedRefs refs).map keyOf := by
        rw [← keyOf_ref a, ha]
        exact mem_map_of_mem (mem_sortedRefs.mpr href)
      simp [ha, this]
    · simp [ha]
  · intro ref href hwf
    obtain ⟨a, ha, hk⟩ := hkeys (keyOf ref) (mem_map_of_mem (mem_sortedRefs.mpr href))
    exact ⟨a, ha, hwf.ref_eq hk⟩

/-! ## Writing the balances -/

theorem setBalance_ok {b : ℚ} (h : setBalance id b s = .ok (u, s')) : Check b ∧ Fits b ∧ s' =
      { s with accounts := s.accounts.map fun a => if a.id = id then a.withBalance b else a } := by
  simp only [setBalance, bind_ok, read_ok, require_ok, write_ok] at h
  obtain ⟨_, _, ⟨hcheck, rfl⟩, _, _, ⟨hfits, rfl⟩, _, _, ⟨rfl, rfl⟩, _, _, ⟨-, rfl⟩, _, _,
    ⟨-, rfl⟩, rfl⟩ := h
  exact ⟨hcheck, hfits, rfl⟩

/-- Writing balances one identifier at a time is writing them all at once, if
the identifiers are those of the given accounts. -/
theorem setBalances_ok {idOf : AccountRef → UUID} {f : AccountRef → ℚ} {refs : List AccountRef}
    (hnodup : refs.Nodup) (hid : ∀ ref ∈ refs, ∀ a ∈ s.accounts, a.id = idOf ref ↔ a.ref = ref)
    (h : setBalances (refs.map fun ref => (idOf ref, f ref)) s = .ok (u, s')) :
    (∀ ref ∈ refs, Check (f ref)) ∧ s' =
      { s with
        accounts := s.accounts.map fun a =>
          if a.ref ∈ refs then a.withBalance (f a.ref) else a } := by
  unfold setBalances at h
  induction refs generalizing s with
  | nil =>
    rw [map_nil, forEach_nil] at h
    simp [← h]
  | cons ref refs ih =>
    rw [map_cons] at h
    obtain ⟨s₁, h₁, h₂⟩ := forEach_cons.mp h
    obtain ⟨hcheck, -, rfl⟩ := setBalance_ok h₁
    have hfst : (s.accounts.map fun a => if a.id = idOf ref then a.withBalance (f ref) else a) =
        s.accounts.map fun a => if a.ref = ref then a.withBalance (f ref) else a := by
      refine map_congr_left fun a ha => ?_
      simp only [hid ref mem_cons_self a ha]
    simp only [hfst] at h₂
    obtain ⟨hchecks, rfl⟩ := ih (nodup_cons.mp hnodup).2 (by
      intro r hr a ha
      obtain ⟨a₀, ha₀, rfl⟩ := mem_map.mp ha
      have := hid r (mem_cons_of_mem _ hr) a₀ ha₀
      split_ifs <;> simpa using this) h₂
    refine ⟨?_, ?_⟩
    · exact forall_mem_cons.mpr ⟨hcheck, hchecks⟩
    · simp only [map_map]
      congr 1
      refine map_congr_left fun a _ => ?_
      have hnot : ref ∉ refs := (nodup_cons.mp hnodup).1
      by_cases har : a.ref = ref
      · simp [har, hnot]
      · simp [har]

/-! ## A successful posting -/

/-- **What a successful `post` did.**  It opened the missing accounts, giving
`s₁`, and recorded the posting there. -/
structure Posted (p : Posting) (s : State) (id : UUID) (s' : State) where
  /-- The state with all the accounts of the posting. -/
  opened : State
  opens : Opened s opened
  present : ∀ leg ∈ p.legs, ∃ a ∈ opened.accounts, a.ref = leg.account
  record : s' = opened.record p
  id_eq : id = opened.nextId
  nonneg : ∀ leg ∈ p.legs, leg.account.type.userOwned = true →
    0 ≤ opened.balance leg.account + legDelta p.legs leg.account
  once : p.kind.onePerSource = true → p.sourceId ≠ UUID.nil →
    s.transactionExists p.kind p.sourceType p.sourceId = false

theorem insertTransaction_ok {kind : Kind} {sourceType : Option String} {sourceId : Option UUID}
    {memo : String} {entries : List (UUID × Direction × ℚ)}
    (h : insertTransaction kind sourceType sourceId memo entries s = .ok (id, s')) :
    id = s.nextId ∧ s' = { s with
        transactions := s.transactions ++ [⟨s.nextId, kind, sourceType, sourceId, memo⟩]
        entries := s.entries ++ entries.map fun e => ⟨s.nextId, e.1, e.2.1, e.2.2⟩
        nextId := s.nextId + 1 } := by
  simp only [insertTransaction, bind_ok, read_ok, require_ok, write_ok, pure_ok] at h
  obtain ⟨_, _, ⟨-, rfl⟩, _, _, ⟨-, rfl⟩, _, _, ⟨rfl, rfl⟩, _, _, ⟨-, rfl⟩, _, _, ⟨-, rfl⟩, _, _,
    ⟨-, rfl⟩, _, _, rfl, rfl, rfl⟩ := h
  exact ⟨rfl, rfl⟩

theorem post_ok {p : Posting} (hs : s.Keyed)
    (hp : p.WellFormed) (h : post env p s = .ok (id, s')) : Nonempty (Posted p s id s') := by
  simp only [post, bind_ok, read_ok, require_ok, ofExcept_ok] at h
  obtain ⟨_, _, ⟨rfl, rfl⟩, _, _, ⟨honce, rfl⟩, accounts, s₁, hlock, out, _, ⟨hnext, rfl⟩, _, s₂,
    hset, hins⟩ := h
  obtain ⟨hopen, htyped, hshow, hpresent⟩ := lockAccounts_ok hlock
  have hkeyed := hopen.keyed hs
  obtain ⟨-, rfl, hnonneg⟩ := nextBalances_ok htyped hnext
  have hshow' : ∀ leg ∈ p.legs, accounts leg.account =
      (s₁.account leg.account).map fun a => ⟨a.id, a.key.type, a.balance⟩ := fun leg hleg =>
    hshow _ (mem_accountKeys.mpr ⟨leg, hleg, rfl⟩)
  have hpres : ∀ leg ∈ p.legs, ∃ a ∈ s₁.accounts, a.ref = leg.account := fun leg hleg =>
    hpresent _ (mem_accountKeys.mpr ⟨leg, hleg, rfl⟩) (hp.legs leg hleg).account
  -- on the accounts of the legs, the locked map is the table itself
  have hmap : ∀ leg ∈ p.legs, ((accounts leg.account).getD default).id = s₁.accountId leg.account ∧
      accounts.balance leg.account = s₁.balance leg.account := by
    intro leg hleg
    obtain ⟨a, ha, href⟩ := hpres leg hleg
    have hfind := hkeyed.account_of_mem ha
    rw [href] at hfind
    simp [Locked.balance, accountId, balance, hshow' leg hleg, hfind]
  have hout : ((p.legs.map Leg.account).dedup.map fun ref =>
      (((accounts ref).getD default).id, accounts.balance ref + legDelta p.legs ref)) =
      (p.legs.map Leg.account).dedup.map fun ref =>
        (s₁.accountId ref, s₁.balance ref + legDelta p.legs ref) := by
    refine map_congr_left fun ref href => ?_
    obtain ⟨leg, hleg, rfl⟩ := mem_map.mp (mem_dedup.mp href)
    rw [(hmap leg hleg).1, (hmap leg hleg).2]
  rw [hout] at hset
  obtain ⟨-, rfl⟩ := setBalances_ok (nodup_dedup _) (by
    intro ref href a ha
    obtain ⟨leg, hleg, rfl⟩ := mem_map.mp (mem_dedup.mp href)
    obtain ⟨b, hb, hbref⟩ := hpres leg hleg
    have hfind := hkeyed.account_of_mem hb
    rw [hbref] at hfind
    simp only [accountId, hfind, Option.map_some, Option.getD_some]
    constructor
    · intro hid
      rw [hkeyed.eq_of_id ha hb hid, hbref]
    · intro hr
      rw [hkeyed.eq_of_ref ha hb (hr.trans hbref.symm)]) hset
  obtain ⟨rfl, rfl⟩ := insertTransaction_ok hins
  refine ⟨⟨s₁, hopen, hpres, ?_, rfl, ?_, honce⟩⟩
  · unfold record
    congr 1
    · refine map_congr_left fun a ha => ?_
      split_ifs with hmem
      · simp [balance, hkeyed.account_of_mem ha]
      · have : legDelta p.legs a.ref = 0 := by
          refine legDelta_eq_zero fun leg hleg href => hmem ?_
          exact mem_dedup.mpr (mem_map.mpr ⟨leg, hleg, href⟩)
        rw [this, add_zero]
        rfl
    · congr 1
      rw [map_map]
      refine map_congr_left fun leg hleg => ?_
      simp [(hmap leg hleg).1]
  · intro leg hleg ho
    rw [← (hmap leg hleg).2]
    exact hnonneg leg hleg ho

end Pandora.Ledger
