import Mathlib.Algebra.BigOperators.Group.List.Basic
import Mathlib.Algebra.Order.Ring.Int
import Pandora.Foundation.Keyed

/-!
# Packets in order

A queue takes packets with numbers in any order and gives them out in the order of the numbers.  It
holds a bounded number of packets, and as long as its session is not authenticated their bytes
count against a budget that the queues of an inbound share.

Numbers have 64 bits, so the number after the last one is zero (`after`).  What a call does under
the lock of the queue is one function of the queue and the budget; a call that waits for room has
done nothing and asks again.
-/

namespace Pandora.Dataplane

/-- `XHTTPPacket`. -/
structure Packet where
  seq : ℕ
  payload : List UInt8
  deriving DecidableEq

/-- `len`, of the payload. -/
def Packet.size (p : Packet) : ℤ := p.payload.length

/-- The bytes of some packets. -/
def totalSize (l : List Packet) : ℤ := (l.map Packet.size).sum

/-- The next number of 64 bits. -/
def after (seq : ℕ) : ℕ := (seq + 1) % 2 ^ 64

theorem after_of_lt {seq : ℕ} (h : seq + 1 < 2 ^ 64) : after seq = seq + 1 := Nat.mod_eq_of_lt h

/-- `xhttpByteBudget`. -/
structure Budget where
  used : ℤ := 0
  limit : ℤ

def Budget.take (b : Budget) (n : ℤ) : Option Budget :=
  if b.limit < b.used + n then none else some { b with used := b.used + n }

def Budget.give (b : Budget) (n : ℤ) : Budget := { b with used := b.used - n }

/-- `XHTTPPacketQueue`; `budgeted` is that there is a budget. -/
structure PacketQueue where
  maxPending : ℕ
  next : ℕ := 0
  pending : Keyed Packet.seq := ∅
  closed : Bool := false
  closeErr : Option String := none
  tail : ℕ := 0
  bytes : ℤ := 0
  budgeted : Bool := false
  byteLimit : ℤ := 0

/-- The errors of a queue. -/
inductive QueueError
  /-- What the queue was closed with, or `xhttp packet queue closed`. -/
  | closed (err : Option String)
  /-- `xhttp packet sequence %d payload conflict`. -/
  | conflict (seq : ℕ)
  /-- `xhttp packet queue is full`. -/
  | full
  /-- `xhttp unauthenticated session over budget`. -/
  | overBudget
  /-- `xhttp packet sequence %d already queued`. -/
  | alreadyQueued (seq : ℕ)
  /-- `xhttp resume sequence %d is behind %d`. -/
  | behind (seq next : ℕ)

/-- What a call that puts a packet in returns.  There is no error where the packet is stored, has
been read before, or is there already. -/
inductive Pushed
  | stored (seq : ℕ)
  | stale
  | repeated
  | error (e : QueueError)
  | wait

namespace PacketQueue

variable (q : PacketQueue) (b : Budget)

def chargeLocked (n : ℤ) : Option (Budget × PacketQueue) :=
  if q.budgeted then
    if q.byteLimit < q.bytes + n then none
    else (b.take n).map fun b => (b, { q with bytes := q.bytes + n })
  else some (b, { q with bytes := q.bytes + n })

def releaseLocked (n : ℤ) : Budget × PacketQueue :=
  (if q.budgeted then b.give n else b, { q with bytes := q.bytes - n })

def storeLocked (p : Packet) : PacketQueue :=
  { q with
    pending := q.pending.put p
    tail := if q.tail ≤ p.seq then after p.seq else q.tail }

/-- A packet that has been taken in is stored, if there is room and the budget allows. -/
def fitLocked (p : Packet) : Option (Budget × PacketQueue) :=
  if q.pending.values.length < q.maxPending then
    (q.chargeLocked b p.size).map fun r => (r.1, r.2.storeLocked p)
  else none

def push (p : Packet) : Budget × PacketQueue × Pushed :=
  if q.closed then (b, q, .error (.closed q.closeErr))
  else if p.seq < q.next then (b, q, .stale)
  else
    match q.pending.get p.seq with
    | some existing =>
      (b, q, if existing.payload = p.payload then .repeated else .error (.conflict p.seq))
    | none =>
      if q.maxPending ≤ q.pending.values.length then (b, q, .error .full)
      else
        match q.fitLocked b p with
        | none => (b, q, .error .overBudget)
        | some (b, q) => (b, q, .stored p.seq)

/-- One round of `waitStore`, with the number from the wire: `PushWait`. -/
def pushWait (p : Packet) : Budget × PacketQueue × Pushed :=
  if q.closed then (b, q, .error (.closed q.closeErr))
  else if p.seq < q.next then (b, q, .stale)
  else if (q.pending.get p.seq).isSome then (b, q, .error (.alreadyQueued p.seq))
  else
    match q.fitLocked b p with
    | none => (b, q, .wait)
    | some (b, q) => (b, q, .stored p.seq)

/-- The number that `AppendWait` gives to the next packet. -/
def appendSeq : ℕ := if q.tail < q.next then q.next else q.tail

/-- One round of `waitStore`, with the next number: `AppendWait`. -/
def appendWait (payload : List UInt8) : Budget × PacketQueue × Pushed :=
  if q.closed then (b, q, .error (.closed q.closeErr))
  else
    match q.fitLocked b ⟨q.appendSeq, payload⟩ with
    | none => (b, q, .wait)
    | some (b, r) => (b, r, .stored q.appendSeq)

/-- A packet that is there is given out: the part of `Read` that does not wait. -/
def read : Option (Budget × PacketQueue × Packet) :=
  (q.pending.get q.next).map fun p =>
    let r := q.releaseLocked b p.size
    (r.1, { r.2 with pending := q.pending.erase q.next, next := after q.next }, p)

/-- The packets that `ResumeFrom` drops. -/
def behind (seq : ℕ) : List Packet := q.pending.values.filter fun p => p.seq < seq

def resumeFrom (seq : ℕ) : Budget × PacketQueue × Except QueueError Unit :=
  if q.closed then (b, q, .error (.closed q.closeErr))
  else if seq < q.next then (b, q, .error (.behind seq q.next))
  else
    let r := q.releaseLocked b (totalSize (q.behind seq))
    (r.1, { r.2 with pending := q.pending.eraseAll ((q.behind seq).map (·.seq)), next := seq },
      .ok ())

def useBudget (byteLimit : ℤ) : PacketQueue := { q with budgeted := true, byteLimit := byteLimit }

def leaveBudget : Budget × PacketQueue :=
  (if q.budgeted then b.give q.bytes else b, { q with budgeted := false })

def discard : Budget × PacketQueue :=
  let r := q.releaseLocked b (totalSize q.pending.values)
  (r.1, { r.2 with pending := ∅, budgeted := false })

def close (err : Option String) : PacketQueue :=
  if q.closed then q else { q with closed := true, closeErr := err }

/-! ## What the calls do -/

variable {q b} {q' : PacketQueue} {b' : Budget} {p : Packet} {payload : List UInt8} {r r' : Pushed}

/-- A packet has been stored. -/
structure Stored (q : PacketQueue) (b : Budget) (p : Packet) (q' : PacketQueue) (b' : Budget) :
    Prop where
  queue : q' = { q with
    pending := q.pending.put p
    tail := if q.tail ≤ p.seq then after p.seq else q.tail
    bytes := q.bytes + p.size }
  budget : b' = if q.budgeted then { b with used := b.used + p.size } else b
  fits : q.budgeted = true → q'.bytes ≤ q.byteLimit ∧ b'.used ≤ b.limit

theorem stored_of_fitLocked (h : q.fitLocked b p = some (b', q')) : Stored q b p q' b' := by
  unfold fitLocked at h
  split_ifs at h with hroom
  obtain ⟨⟨b₁, q₁⟩, hcharge, heq⟩ := Option.map_eq_some_iff.mp h
  cases heq
  unfold chargeLocked Budget.take at hcharge
  by_cases hbudget : q.budgeted = true
  · rw [if_pos hbudget] at hcharge
    split_ifs at hcharge with hlimit hused
    · cases hcharge
    · cases hcharge
      exact ⟨rfl, (if_pos hbudget).symm, fun _ => ⟨Int.not_lt.mp hlimit, Int.not_lt.mp hused⟩⟩
  · rw [if_neg hbudget] at hcharge
    cases hcharge
    exact ⟨rfl, (if_neg hbudget).symm, fun h => absurd h hbudget⟩

theorem idle_of_eq (h : (b, q, r') = (b', q', r)) (hr' : ∀ seq, r' ≠ .stored seq) :
    b' = b ∧ q' = q ∧ ∀ seq, r ≠ .stored seq := by
  cases h
  exact ⟨rfl, rfl, hr'⟩

theorem checked {P Q : Prop} [Decidable P] {rest : Budget × PacketQueue × Pushed}
    (h : (if P then (b, q, r') else rest) = (b', q', r)) (hr' : ∀ seq, r' ≠ .stored seq)
    (hrest : ¬P → rest = (b', q', r) → (b' = b ∧ q' = q ∧ ∀ seq, r ≠ .stored seq) ∨ Q) :
    (b' = b ∧ q' = q ∧ ∀ seq, r ≠ .stored seq) ∨ Q := by
  split_ifs at h with hP
  · exact .inl (idle_of_eq h hr')
  · exact hrest hP h

theorem fitted (h : (match q.fitLocked b p with
      | none => (b, q, r')
      | some (b, q) => (b, q, .stored p.seq)) = (b', q', r)) (hr' : ∀ seq, r' ≠ .stored seq) :
    (b' = b ∧ q' = q ∧ ∀ seq, r ≠ .stored seq) ∨ (r = .stored p.seq ∧ Stored q b p q' b') := by
  cases hfit : q.fitLocked b p with
  | none =>
    rw [hfit] at h
    exact .inl (idle_of_eq h hr')
  | some =>
    rw [hfit] at h
    cases h
    exact .inr ⟨rfl, stored_of_fitLocked hfit⟩

/-- `Push` stores a packet that is new, or does nothing. -/
theorem push_cases (h : q.push b p = (b', q', r)) : (b' = b ∧ q' = q ∧ ∀ seq, r ≠ .stored seq) ∨
      (r = .stored p.seq ∧ Stored q b p q' b' ∧ q.closed = false ∧ q.next ≤ p.seq ∧
        q.pending.get p.seq = none) := by
  refine checked h nofun fun hclosed h => checked h nofun fun hstale h => ?_
  cases hget : q.pending.get p.seq with
  | some =>
    rw [hget] at h
    refine .inl (idle_of_eq h ?_)
    split_ifs <;> exact nofun
  | none =>
    rw [hget] at h
    refine checked h nofun fun _ h => (fitted h nofun).imp_right fun ⟨hr, hstored⟩ => ?_
    exact ⟨hr, hstored, Bool.eq_false_of_not_eq_true hclosed, Nat.le_of_not_lt hstale, rfl⟩

theorem pushWait_cases (h : q.pushWait b p = (b', q', r)) :
    (b' = b ∧ q' = q ∧ ∀ seq, r ≠ .stored seq) ∨
      (r = .stored p.seq ∧ Stored q b p q' b' ∧ q.closed = false ∧ q.next ≤ p.seq ∧
        q.pending.get p.seq = none) := by
  refine checked h nofun fun hclosed h => checked h nofun fun hstale h =>
    checked h nofun fun hqueued h => (fitted h nofun).imp_right fun ⟨hr, hstored⟩ => ?_
  exact ⟨hr, hstored, Bool.eq_false_of_not_eq_true hclosed, Nat.le_of_not_lt hstale,
    Option.not_isSome_iff_eq_none.mp hqueued⟩

/-- A round of `AppendWait` stores the packet with a number of its own, or does nothing. -/
theorem appendWait_cases (h : q.appendWait b payload = (b', q', r)) :
    (b' = b ∧ q' = q ∧ ∀ seq, r ≠ .stored seq) ∨
      (r = .stored q.appendSeq ∧ Stored q b ⟨q.appendSeq, payload⟩ q' b' ∧ q.closed = false) :=
  checked h nofun fun hclosed h => (fitted h nofun).imp_right fun ⟨hr, hstored⟩ =>
    ⟨hr, hstored, Bool.eq_false_of_not_eq_true hclosed⟩

theorem read_eq_some (h : q.read b = some (b', q', p)) : q.pending.get q.next = some p ∧
      q' = { q with
        pending := q.pending.erase q.next
        next := after q.next
        bytes := q.bytes - p.size } ∧
      b' = if q.budgeted then { b with used := b.used - p.size } else b := by
  unfold read at h
  obtain ⟨p', hp', heq⟩ := Option.map_eq_some_iff.mp h
  cases heq
  exact ⟨hp', rfl, rfl⟩

end PacketQueue

end Pandora.Dataplane
