import Pandora.Database.Transaction
import Pandora.Ledger.Posting

/-!
# The tables of the ledger

Four tables: accounts with their cached balances, transactions, entries, and the
balances frozen for orders.  Transactions and entries are append-only.  Nothing
in a row is derived from another table: an entry names its transaction and its
account by identifier, and the balance of an account is a cache that the program
itself keeps.

Constraints that the database checks are of two sorts here.  What a single row
must satisfy whoever writes it (the shape of an account's owner) is a field of
the row's type, so that a row of the wrong shape does not exist.  What a
statement can be refused for (a duplicate, a missing user, an overdraft, a value
that does not fit its column) is a check in the function that issues it.

Row locks do not appear: each call runs as one transaction that holds the rows it
reads until it commits, so calls take effect one after another.
-/

namespace Pandora.Ledger

open Money Database Tx

/-! ## Rows -/

/-- The business key of an account. -/
structure AccountKey where
  type : AccountType
  ownerUserId : Option UUID
  ownerRef : String
  deriving DecidableEq

/-- The constraint `ledger_accounts_owner_shape`, with the list of registered
types: a user-owned account has a user and no text, a platform account a text
and no user. -/
def AccountKey.OwnerShape (k : AccountKey) : Prop :=
  k.type.valid = true ∧ (k.type.userOwned = true ↔ k.ownerUserId.isSome = true) ∧
    (k.ownerUserId = none ↔ k.ownerRef ≠ "")

instance (k : AccountKey) : Decidable k.OwnerShape := inferInstanceAs (Decidable (_ ∧ _ ∧ _))

/-- A row of `ledger_accounts`. -/
structure Account where
  id : UUID
  key : AccountKey
  shape : key.OwnerShape
  balance : ℚ

/-- The key under which a reference is stored. -/
def keyOf (ref : AccountRef) : AccountKey :=
  if ref.type.userOwned then ⟨ref.type, some ref.userId, ""⟩ else ⟨ref.type, none, ref.ref⟩

/-- The reference of a row: `refOf`. -/
def Account.ref (a : Account) : AccountRef :=
  match a.key.ownerUserId with
  | some u => userAccount a.key.type u
  | none => platformAccount a.key.type a.key.ownerRef

/-! A row's key and its reference determine each other, and a well-formed
reference is the reference of whatever row is stored under its key. -/

theorem keyOf_ref (a : Account) : keyOf a.ref = a.key := by
  obtain ⟨id, ⟨t, owner, ref⟩, ⟨-, howner, href⟩, balance⟩ := a
  cases owner with
  | none =>
    have ht : t.userOwned = false := by simpa using howner
    simp [Account.ref, keyOf, platformAccount, ht]
  | some =>
    have ht : t.userOwned = true := by simpa using howner
    have hr : ref = "" := by simpa using href
    simp [Account.ref, keyOf, userAccount, ht, hr]

theorem Account.ref_eq_iff {a b : Account} : a.ref = b.ref ↔ a.key = b.key := by
  constructor
  · intro h
    rw [← keyOf_ref a, ← keyOf_ref b, h]
  · intro h
    unfold Account.ref
    rw [h]

@[simp] theorem Account.ref_type (a : Account) : a.ref.type = a.key.type := by
  unfold Account.ref
  split <;> rfl

theorem AccountRef.WellFormed.ref_eq {ref : AccountRef} (hr : ref.WellFormed) {a : Account}
    (h : a.key = keyOf ref) : a.ref = ref := by
  obtain ⟨t, u, r⟩ := ref
  rw [Account.ref, h]
  by_cases ht : t.userOwned = true
  · have := (hr.owner ht).2
    simp_all [keyOf, userAccount]
  · have := (hr.platform (by simpa using ht)).1
    simp_all [keyOf, platformAccount]

/-- Balances are read and written through this record update; nothing else of an
account ever changes. -/
def Account.withBalance (a : Account) (balance : ℚ) : Account := { a with balance := balance }

section

variable (a : Account) (b : ℚ)
include a b

@[simp] theorem Account.withBalance_id : (a.withBalance b).id = a.id := rfl

@[simp] theorem Account.withBalance_ref : (a.withBalance b).ref = a.ref := rfl

@[simp] theorem Account.withBalance_balance : (a.withBalance b).balance = b := rfl

end

/-- A row of `ledger_transactions`. -/
structure Transaction where
  id : UUID
  kind : Kind
  sourceType : Option String
  sourceId : Option UUID
  memo : String

/-- A row of `ledger_entries`. -/
structure Entry where
  transactionId : UUID
  accountId : UUID
  direction : Direction
  amount : ℚ

/-- The states of a frozen balance. -/
inductive HoldStatus
  | held
  | captured
  | released
  deriving DecidableEq

/-- A row of `balance_holds`: part of a user's balance frozen for one order. -/
structure Hold where
  id : UUID
  orderId : UUID
  userId : UUID
  amount : ℚ
  status : HoldStatus
  holdTxnId : UUID
  captureTxnId : Option UUID
  releaseTxnId : Option UUID

/-- The ledger's tables, and the next unused identifier. -/
structure State where
  accounts : List Account
  transactions : List Transaction
  entries : List Entry
  holds : List Hold
  nextId : UUID

/-- A new installation. -/
def State.empty : State := ⟨[], [], [], [], 1⟩

/-- What the ledger learns from other modules during one call: which users
exist, which of them have deleted their account, and whether the audit row could
be written. -/
structure Env where
  userExists : UUID → Bool
  isDeleted : UUID → Bool
  accountStates : Bool
  auditOk : Bool

/-! ## Statements -/

/-- One row of `EnsureAccounts`: insert the account with balance zero unless its
key is there. -/
def ensureAccount (env : Env) (k : AccountKey) : Tx State Error Unit := do
  let s ← read
  if s.accounts.any (fun a => a.key = k) then pure ()
  else if shape : k.OwnerShape then do
    require (∀ u ∈ k.ownerUserId, env.userExists u = true) .userNotFound
    write fun s =>
      { s with
        accounts := s.accounts ++ [⟨s.nextId, k, shape, 0⟩]
        nextId := s.nextId + 1 }
  else fail (.checkViolation "ledger_accounts_owner_shape")

def ensureAccounts (env : Env) (keys : List AccountKey) : Tx State Error Unit :=
  forEach (ensureAccount env) keys

/-- `LockAccounts`: the rows with one of these keys. -/
def lockRows (keys : List AccountKey) (s : State) : List Account :=
  s.accounts.filter fun a => a.key ∈ keys

/-- One statement of `SetBalances`. -/
def setBalance (id : UUID) (balance : ℚ) : Tx State Error Unit := do
  require (Check balance) (.precision balance)
  require (Fits balance) (.numericOverflow balance)
  let s ← read
  require (∀ a ∈ s.accounts, a.id = id → a.key.ownerUserId ≠ none → 0 ≤ balance)
    .balanceConstraint
  require (s.accounts.countP (fun a => a.id = id) = 1) (.accountMissing id)
  write fun s =>
    { s with
      accounts := s.accounts.map fun a => if a.id = id then a.withBalance balance else a }

def setBalances (balances : List (UUID × ℚ)) : Tx State Error Unit :=
  forEach (fun b => setBalance b.1 b.2) balances

def State.transactionExists (s : State) (kind : Kind) (sourceType : String) (sourceId : UUID) :
    Bool :=
  s.transactions.any fun t =>
    t.kind = kind ∧ t.sourceType = some sourceType ∧ t.sourceId = some sourceId

/-- `InsertTransaction`.  The unique index `ledger_transactions_source_once_key`
refuses a second transaction of a one-per-source kind. -/
def insertTransaction (kind : Kind) (sourceType : Option String) (sourceId : Option UUID)
    (memo : String) (entries : List (UUID × Direction × ℚ)) : Tx State Error UUID := do
  require (entries ≠ []) .noEntries
  require (∀ e ∈ entries, Check e.2.2) (.precision 0)
  let s ← read
  require (kind.onePerSource = true → sourceId ≠ none →
      ∀ t ∈ s.transactions, ¬(t.kind = kind ∧ t.sourceType = sourceType ∧ t.sourceId = sourceId))
    .duplicatePosting
  require (∀ e ∈ entries, 0 < e.2.2) (.checkViolation "ledger_entries_amount_check")
  require (∀ e ∈ entries, Fits e.2.2) (.numericOverflow 0)
  write fun s =>
    { s with
      transactions := s.transactions ++ [⟨s.nextId, kind, sourceType, sourceId, memo⟩]
      entries := s.entries ++ entries.map fun e => ⟨s.nextId, e.1, e.2.1, e.2.2⟩
      nextId := s.nextId + 1 }
  pure s.nextId

/-- `HoldByOrder` and `LockHoldByOrder`. -/
def State.holdByOrder (s : State) (orderId : UUID) : Option Hold :=
  s.holds.find? fun h => h.orderId = orderId

/-- `InsertHold`: one hold for each order. -/
def insertHold (orderId userId : UUID) (amount : ℚ) (holdTxnId : UUID) :
    Tx State Error Hold := do
  require (Check amount) (.precision amount)
  let s ← read
  require (∀ h ∈ s.holds, h.orderId ≠ orderId) .holdExists
  let h : Hold := ⟨s.nextId, orderId, userId, amount, .held, holdTxnId, none, none⟩
  write fun s => { s with holds := s.holds ++ [h], nextId := s.nextId + 1 }
  pure h

/-- The common form of `MarkHoldCaptured` and `MarkHoldReleased`: change the hold
with this identifier if it is still held, and report whether one row changed. -/
def markHold (id : UUID) (change : Hold → Hold) : Tx State Error Bool := do
  let s ← read
  write fun s =>
    { s with
      holds := s.holds.map fun h => if h.id = id ∧ h.status = .held then change h else h }
  pure (s.holds.countP (fun h => h.id = id ∧ h.status = .held) = 1)

def markHoldCaptured (id txnId : UUID) : Tx State Error Bool :=
  markHold id fun h => { h with status := .captured, captureTxnId := some txnId }

def markHoldReleased (id txnId : UUID) : Tx State Error Bool :=
  markHold id fun h => { h with status := .released, releaseTxnId := some txnId }

end Pandora.Ledger
