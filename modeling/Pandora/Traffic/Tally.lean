import Pandora.Foundation.Decimal
import Pandora.Foundation.Text
import Pandora.Identifiers
import Pandora.Traffic.Buffer
import Mathlib.Data.Prod.Lex

/-!
# What a report is charged for

The panel sorts the entries of a report, so that the digest does not depend on their order
(`canonicalTraffic_perm`), and goes through them once.  An entry is invalid if its node is not one
of the server's, its user has no number, or one of its directions is larger than a link can carry
in two periods.  It is unlisted if its user is not on the roster of the node.  What is left is
charged to the user, at the rate of the node.
-/

namespace Pandora.Traffic

/-! ## Reports -/

/-- `TrafficReport`. -/
structure Report where
  reportId : String
  entries : List (Entry UUID)

def maxTrafficEntryBytes : ℕ := 30000000000

def maxTrafficReportEntries : ℕ := 5000

def reportIDByte (c : Char) : Bool :=
  'a' ≤ c && c ≤ 'z' || 'A' ≤ c && c ≤ 'Z' || '0' ≤ c && c ≤ '9' || c ∈ ['.', '_', ':', '-']

def validReportID (id : String) : Bool := Text.matchesClass reportIDByte 1 64 id

/-- What an entry is sorted by. -/
def Entry.tuple (e : Entry UUID) : ℕ ×ₗ ℤ ×ₗ ℕ ×ₗ ℕ :=
  toLex (e.node, toLex (e.uid, toLex (e.upload, e.download)))

/-- `compareEntry` does not put the second before the first. -/
def Entry.Le (a b : Entry UUID) : Prop := a.tuple ≤ b.tuple

instance (a b : Entry UUID) : Decidable (a.Le b) := inferInstanceAs (Decidable (_ ≤ _))

instance : Std.Total Entry.Le := ⟨fun a b => le_total a.tuple b.tuple⟩

instance : IsTrans (Entry UUID) Entry.Le := ⟨fun _ _ _ hab hbc => le_trans hab hbc⟩

theorem Entry.Le.antisymm {a b : Entry UUID} (hab : a.Le b) (hba : b.Le a) : a = b := by
  have h : a.tuple = b.tuple := le_antisymm hab hba
  obtain ⟨node, uid, upload, download⟩ := a
  cases b
  cases h
  rfl

/-- `canonicalTraffic`; `sha` is the digest of the entries in the order they are given. -/
def canonicalTraffic (sha : List (Entry UUID) → String) (entries : List (Entry UUID)) :
    List (Entry UUID) × String :=
  (entries.insertionSort Entry.Le, sha (entries.insertionSort Entry.Le))

/-- **The order in which the entries come does not matter.** -/
theorem canonicalTraffic_perm (sha : List (Entry UUID) → String) {l l' : List (Entry UUID)}
    (h : l.Perm l') : canonicalTraffic sha l = canonicalTraffic sha l' := by
  have hsorted : l.insertionSort Entry.Le = l'.insertionSort Entry.Le := by
    refine List.Perm.eq_of_pairwise (fun a b _ _ hab hba => Entry.Le.antisymm hab hba)
      (List.pairwise_insertionSort _ l) (List.pairwise_insertionSort _ l') ?_
    exact (List.perm_insertionSort _ l).trans (h.trans (List.perm_insertionSort _ l').symm)
  unfold canonicalTraffic
  rw [hsorted]

/-! ## Sums -/

def maxInt64 : ℕ := 2 ^ 63 - 1

def satAdd (a b : ℕ) : ℕ := if maxInt64 - b < a then maxInt64 else a + b

def billedBytes (bytes : ℕ) (rate : ℚ) : ℕ :=
  if bytes = 0 ∨ rate ≤ 0 then 0
  else if (maxInt64 : ℤ) < Decimal.trunc (bytes * rate) then maxInt64
  else (Decimal.trunc (bytes * rate)).toNat

/-- The bytes of one node. -/
structure NodeUsage where
  node : UUID
  upload : ℕ := 0
  download : ℕ := 0

/-- The bytes of one user of one node. -/
structure UserUsage where
  node : UUID
  uid : ℤ
  upload : ℕ := 0
  download : ℕ := 0

def UserUsage.key (u : UserUsage) : UUID × ℤ := (u.node, u.uid)

/-- What the panel knows when a report comes: the rates of the nodes of the server, and who is on
their rosters. -/
structure Terms where
  rates : UUID → Option ℚ
  member : UUID → ℤ → Bool

/-- `trafficTally`. -/
structure Tally where
  upload : ℕ := 0
  download : ℕ := 0
  invalid : ℕ := 0
  unlisted : ℕ := 0
  nodes : Keyed NodeUsage.node := ∅
  users : Keyed UserUsage.key := ∅

/-- An entry that no node sends. -/
def Entry.Invalid (terms : Terms) (e : Entry UUID) : Prop :=
  terms.rates e.node = none ∨ e.uid ≤ 0 ∨ maxTrafficEntryBytes < e.upload ∨
    maxTrafficEntryBytes < e.download

instance (terms : Terms) (e : Entry UUID) : Decidable (e.Invalid terms) :=
  inferInstanceAs (Decidable (_ ∨ _ ∨ _ ∨ _))

/-- An entry is counted for its node. -/
def Tally.countNode (t : Tally) (e : Entry UUID) : Tally :=
  let n := (t.nodes.get e.node).getD { node := e.node }
  { t with
    upload := satAdd t.upload e.upload
    download := satAdd t.download e.download
    nodes := t.nodes.put
      { n with upload := satAdd n.upload e.upload, download := satAdd n.download e.download } }

/-- An entry is counted for its user. -/
def Tally.countUser (t : Tally) (e : Entry UUID) : Tally :=
  let u := (t.users.get e.key).getD { node := e.node, uid := e.uid }
  { t with
    users := t.users.put
      { u with upload := satAdd u.upload e.upload, download := satAdd u.download e.download } }

/-- One entry of `tallyTraffic`. -/
def Tally.count (terms : Terms) (t : Tally) (e : Entry UUID) : Tally :=
  if e.Invalid terms then { t with invalid := t.invalid + 1 }
  else
    let t := t.countNode e
    if terms.member e.node e.uid = false then { t with unlisted := t.unlisted + 1 }
    else if e.upload = 0 ∧ e.download = 0 then t
    else t.countUser e

/-- The entries of one user are too large together. -/
def UserUsage.TooLarge (u : UserUsage) : Prop :=
  maxTrafficEntryBytes < u.upload ∨ maxTrafficEntryBytes < u.download

instance (u : UserUsage) : Decidable u.TooLarge := inferInstanceAs (Decidable (_ ∨ _))

def tallyTraffic (terms : Terms) (entries : List (Entry UUID)) : Tally :=
  let t := entries.foldl (Tally.count terms) {}
  let large := t.users.values.filter fun u => u.TooLarge
  { t with
    invalid := t.invalid + large.length
    users := t.users.eraseAll (large.map UserUsage.key) }

/-- `Billed`, of a user. -/
def UserUsage.billed (terms : Terms) (u : UserUsage) : ℕ :=
  billedBytes (satAdd u.upload u.download) ((terms.rates u.node).getD 0)

/-! ## What is written down -/

structure TrafficCharge where
  uid : ℤ
  bytes : ℕ

structure NodeHourAdd where
  node : UUID
  upload : ℕ
  download : ℕ
  billed : ℕ

structure UserHourAdd where
  node : UUID
  subscription : UUID
  upload : ℕ
  download : ℕ
  billed : ℕ

structure NodeUsageAdd where
  node : UUID
  bytes : ℕ

/-- `sortedUserKeys`. -/
def Tally.sortedUsers (t : Tally) : List UserUsage :=
  t.users.values.insertionSort fun a b => a.uid < b.uid ∨ a.uid = b.uid ∧ a.node ≤ b.node

def Tally.charges (terms : Terms) (t : Tally) : List TrafficCharge :=
  t.sortedUsers.map fun u => ⟨u.uid, u.billed terms⟩

/-- The rows of `hourlyRows` for the users, of those that have a subscription. -/
def Tally.userRows (terms : Terms) (subs : ℤ → Option UUID) (t : Tally) : List UserHourAdd :=
  (t.sortedUsers.filterMap fun u => (subs u.uid).map fun sub =>
      (⟨u.node, sub, u.upload, u.download, u.billed terms⟩ : UserHourAdd)).insertionSort
    fun a b => a.node < b.node ∨ a.node = b.node ∧ a.subscription ≤ b.subscription

/-- The rows of `hourlyRows` for the nodes. -/
def Tally.nodeRows (terms : Terms) (subs : ℤ → Option UUID) (t : Tally) : List NodeHourAdd :=
  ((t.nodes.values.map fun n =>
      (⟨n.node, n.upload, n.download,
        ((t.userRows terms subs).filter fun r => r.node = n.node).foldl
          (fun sum r => satAdd sum r.billed) 0⟩ : NodeHourAdd)).filter fun r =>
        r.upload ≠ 0 ∨ r.download ≠ 0 ∨ r.billed ≠ 0).insertionSort fun a b => a.node ≤ b.node

/-- What is added to the usage of the nodes. -/
def Tally.usageAdds (t : Tally) : List NodeUsageAdd :=
  ((t.nodes.values.map fun n => (⟨n.node, satAdd n.upload n.download⟩ : NodeUsageAdd)).filter
    fun a => 0 < a.bytes).insertionSort fun a b => a.node ≤ b.node

end Pandora.Traffic
