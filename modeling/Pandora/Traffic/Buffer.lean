import Pandora.Foundation.Keyed
import Mathlib.Algebra.Order.Ring.Int
import Mathlib.Data.List.Sort

/-!
# Traffic on its way to the panel

What a node has counted is taken out of its kernel and kept in a buffer until the panel has
acknowledged it.  `pending` is what has not been sent, one entry for each user of each node;
`inflight` is the report that has been sent, and is sent again as it is until its acknowledgement
comes.  If there is no room for another entry the report is given up, or the entry if there is no
report, and the bytes are counted as dropped.

The bytes of an entry are numbers of 64 bits, and the counter of what was dropped has a sign.
-/

namespace Pandora.Traffic

/-- `TrafficEntry`: the bytes of one user of one node. -/
structure Entry (ν : Type) where
  node : ν
  uid : ℤ
  upload : ℕ
  download : ℕ
  deriving DecidableEq

variable {ν : Type}

/-- `trafficKey`. -/
def Entry.key (e : Entry ν) : ν × ℤ := (e.node, e.uid)

/-- An unsigned number of 64 bits. -/
def u64 (n : ℕ) : ℕ := n % 2 ^ 64

/-- A signed number of 64 bits. -/
def i64 (z : ℤ) : ℤ := z.bmod (2 ^ 64)

structure UserTraffic where
  id : ℤ
  upload : ℤ
  download : ℤ

def nonNegative (v : ℤ) : ℕ := v.toNat

/-- What the kernel gives, as an entry. -/
def UserTraffic.entry (node : String) (t : UserTraffic) : Entry String :=
  ⟨node, t.id, nonNegative t.upload, nonNegative t.download⟩

structure SealedReport where
  id : String
  entries : List (Entry String)
  deriving DecidableEq

def maxBufferedTrafficUsers : ℕ := 2 ^ 17

def maxTrafficEntriesPerReport : ℕ := 5000

/-- `trafficBuffer`. -/
structure Buffer where
  inflight : Option SealedReport := none
  pending : Keyed (Entry.key (ν := String)) := ∅
  droppedReports : ℕ := 0
  droppedBytes : ℤ := 0

/-- The entries that have been sent. -/
def Buffer.sent (b : Buffer) : List (Entry String) := (b.inflight.map (·.entries)).getD []

def Buffer.size (b : Buffer) : ℕ := b.pending.values.length + b.sent.length

def entriesBytes (entries : List (Entry ν)) : ℤ :=
  entries.foldl (fun n e => i64 (n + i64 (u64 (e.upload + e.download)))) 0

/-- `dropInflight`; the bytes that are given up are the second part. -/
def Buffer.dropInflight (b : Buffer) : Buffer × ℤ :=
  match b.inflight with
  | none => (b, 0)
  | some r =>
    ({ b with
        inflight := none
        droppedReports := b.droppedReports + 1
        droppedBytes := i64 (b.droppedBytes + entriesBytes r.entries) }, entriesBytes r.entries)

/-- An entry of the kernel is added to what is pending for its user. -/
def Entry.merge (cur new : Entry ν) : Entry ν :=
  { cur with
    upload := u64 (cur.upload + new.upload), download := u64 (cur.download + new.download) }

/-- One round of `add`. -/
def Buffer.addEntry (b : Buffer) (e : Entry String) : Buffer × ℤ :=
  if e.upload = 0 ∧ e.download = 0 then (b, 0)
  else
    match b.pending.get e.key with
    | some cur => ({ b with pending := b.pending.put (cur.merge e) }, 0)
    | none =>
      if b.size < maxBufferedTrafficUsers then ({ b with pending := b.pending.put e }, 0)
      else if b.inflight.isSome then
        let (b, dropped) := b.dropInflight
        ({ b with pending := b.pending.put e }, dropped)
      else
        let bytes := i64 (u64 (e.upload + e.download))
        ({ b with droppedBytes := i64 (b.droppedBytes + bytes) }, bytes)

/-- `add`; the bytes that were dropped are the second part. -/
def Buffer.add (b : Buffer) (node : String) (traffic : List UserTraffic) : Buffer × ℤ :=
  traffic.foldl
    (fun p t =>
      let (b, dropped) := p.1.addEntry (t.entry node)
      (b, i64 (p.2 + dropped)))
    (b, 0)

/-- The order of the entries of a report. -/
def Entry.Before (a b : Entry String) : Prop := a.node < b.node ∨ a.node = b.node ∧ a.uid ≤ b.uid

instance (a b : Entry String) : Decidable (a.Before b) := inferInstanceAs (Decidable (_ ∨ _ ∧ _))

/-- The entries that go into the next report. -/
def Buffer.batch (b : Buffer) : List (Entry String) :=
  (b.pending.values.insertionSort Entry.Before).take maxTrafficEntriesPerReport

/-- `seal`, with the identifier that the new report is given. -/
def Buffer.seal (b : Buffer) (id : String) : Buffer :=
  if b.inflight.isSome ∨ b.pending.values = [] then b
  else
    { b with
      inflight := some ⟨id, b.batch⟩
      pending := b.pending.eraseAll (b.batch.map Entry.key) }

/-- The part of `onTrafficAck` before anything is sent. -/
def Buffer.acknowledge (b : Buffer) (id : String) : Buffer :=
  match b.inflight with
  | none => b
  | some r => if r.id = id then { b with inflight := none } else b

end Pandora.Traffic
