import Mathlib.Data.List.Perm.Subperm
import Pandora.Dataplane.PacketQueue

/-!
# One uplink and the budget it shares

An uplink is a queue with what has happened to it: the packets that were read, the checkpoints it
was moved to, and for every number the payload that was stored first.

`Uplink.Sound` is what holds of one uplink.  `Moves` says that a call changes what the budget has
given out by as much as it changes the bytes that the uplink holds under the budget, so that the
sum over all uplinks stays what it is.
-/

namespace Pandora.Dataplane

open List Keyed Function PacketQueue

/-! ## Histories -/

inductive Event
  | read (p : Packet)
  | resumed (seq : ℕ)
  deriving DecidableEq

/-- The packets of a history, the latest first, have consecutive numbers, from zero or from the
last checkpoint on; the next is `n`. -/
inductive Follows : List Event → ℕ → Prop
  | nil : Follows [] 0
  | read {log : List Event} {p : Packet} : Follows log p.seq → Follows (.read p :: log) (p.seq + 1)
  | resumed {log : List Event} {n seq : ℕ} :
      Follows log n → n ≤ seq → Follows (.resumed seq :: log) seq

structure Uplink where
  queue : PacketQueue
  log : List Event := []
  /-- For a number, the payload of the packet that was stored first. -/
  first : ℕ → Option (List UInt8) := fun _ => none

namespace Uplink

/-- What an uplink counts for in the budget. -/
def weight (u : Uplink) : ℤ := if u.queue.budgeted then u.queue.bytes else 0

/-- The packet is written down, if it was stored and none was before with its number. -/
def note (u : Uplink) (payload : List UInt8) : Pushed → ℕ → Option (List UInt8)
  | .stored seq => update u.first seq ((u.first seq).or (some payload))
  | _ => u.first

def push (u : Uplink) (b : Budget) (p : Packet) : Budget × Uplink :=
  match u.queue.push b p with
  | (b, queue, r) => (b, { u with queue := queue, first := u.note p.payload r })

def append (u : Uplink) (b : Budget) (payload : List UInt8) : Budget × Uplink :=
  match u.queue.appendWait b payload with
  | (b, queue, r) => (b, { u with queue := queue, first := u.note payload r })

def read (u : Uplink) (b : Budget) : Budget × Uplink :=
  match u.queue.read b with
  | none => (b, u)
  | some (b, queue, p) => (b, { u with queue := queue, log := .read p :: u.log })

def resume (u : Uplink) (b : Budget) (seq : ℕ) : Budget × Uplink :=
  match u.queue.resumeFrom b seq with
  | (b, queue, .ok ()) => (b, { u with queue := queue, log := .resumed seq :: u.log })
  | (b, queue, .error _) => (b, { u with queue := queue })

def leave (u : Uplink) (b : Budget) : Budget × Uplink :=
  match u.queue.leaveBudget b with
  | (b, queue) => (b, { u with queue := queue })

def discard (u : Uplink) (b : Budget) : Budget × Uplink :=
  match u.queue.discard b with
  | (b, queue) => (b, { u with queue := queue })

def close (u : Uplink) (err : Option String) : Uplink := { u with queue := u.queue.close err }

/-! ## What holds -/

/-- What holds of an uplink that may hold `cap` bytes under the budget. -/
structure Sound (cap : ℤ) (u : Uplink) : Prop where
  ahead : ∀ p ∈ u.queue.pending, u.queue.next ≤ p.seq
  below : ∀ n, (u.first n).isSome → n < u.queue.tail
  small : u.queue.tail < 2 ^ 64
  kept : ∀ p ∈ u.queue.pending, u.first p.seq = some p.payload
  bytes : u.queue.bytes = totalSize u.queue.pending.values
  limit : u.queue.byteLimit = cap
  cap : u.queue.budgeted = true → u.queue.bytes ≤ cap
  log : Follows u.log u.queue.next
  reads : ∀ p, .read p ∈ u.log → u.first p.seq = some p.payload
  seen : u.queue.closed = false → ∀ n, (u.first n).isSome →
    n < u.queue.next ∨ (u.queue.pending.get n).isSome

/-- What a call does to the budget. -/
structure Moves (u : Uplink) (b : Budget) (u' : Uplink) (b' : Budget) : Prop where
  used : b'.used - u'.weight = b.used - u.weight
  limit : b'.limit = b.limit
  within : b.used ≤ b.limit → b'.used ≤ b.limit
  budgeted : u'.queue.budgeted = true → u.queue.budgeted = true
  closed : u.queue.closed = true → u'.queue.closed = true

theorem Moves.refl (u : Uplink) (b : Budget) : Moves u b u b := ⟨rfl, rfl, id, id, id⟩

variable {u u' : Uplink} {b b' : Budget} {cap : ℤ}

/-- Bytes are given back. -/
theorem Moves.give {n : ℤ} (hn : 0 ≤ n)
    (hweight : u'.weight = if u.queue.budgeted then u.queue.bytes - n else 0)
    (hbudgeted : u'.queue.budgeted = true → u.queue.budgeted = true)
    (hclosed : u.queue.closed = true → u'.queue.closed = true) :
    Moves u b u' (if u.queue.budgeted then b.give n else b) := by
  refine ⟨?_, ?_, fun hused => ?_, hbudgeted, hclosed⟩
  · rw [hweight, weight]
    split_ifs
    · show b.used - n - (u.queue.bytes - n) = _
      omega
    · rfl
  · split_ifs <;> rfl
  · split_ifs
    · show b.used - n ≤ b.limit
      omega
    · exact hused

/-! ## Sizes -/

theorem size_nonneg (p : Packet) : 0 ≤ p.size := Int.natCast_nonneg _

theorem totalSize_nonneg (l : List Packet) : 0 ≤ totalSize l := by
  induction l with
  | nil => exact le_rfl
  | cons p l ih =>
    exact add_nonneg (size_nonneg p) ih

theorem totalSize_perm {l l' : List Packet} (h : l.Perm l') : totalSize l = totalSize l' :=
  (h.map Packet.size).sum_eq

variable {p : Packet} {payload : List UInt8} {m : Keyed Packet.seq}

theorem totalSize_put (h : m.get p.seq = none) :
    totalSize (m.put p).values = totalSize m.values + p.size := by
  have hperm : (m.put p).values.Perm (p :: m.values) :=
    (m.values_put p).trans ((values_erase_of_none h).cons p)
  rw [totalSize_perm hperm]
  exact add_comm _ _

theorem totalSize_erase {n : ℕ} (h : m.get n = some p) :
    totalSize (m.erase n).values = totalSize m.values - p.size := by
  have hseq : p.seq = n := key_of_get h
  have hperm := values_of_mem (mem_of_get h)
  rw [totalSize_perm hperm, hseq]
  show _ = p.size + totalSize (m.erase n).values - p.size
  omega

theorem totalSize_behind (q : PacketQueue) (seq : ℕ) :
    totalSize (q.pending.eraseAll ((q.behind seq).map (·.seq))).values =
      totalSize q.pending.values - totalSize (q.behind seq) := by
  have hsplit := (filter_append_perm (fun p : Packet => decide (p.seq < seq)) q.pending.values).symm
  have hperm := values_eraseAll hsplit
  rw [totalSize_perm hsplit]
  rw [show (q.behind seq) = q.pending.values.filter fun p => decide (p.seq < seq) from rfl,
    totalSize_perm hperm]
  show _ = ((q.pending.values.filter _ ++ _).map Packet.size).sum - _
  rw [map_append, sum_append]
  show totalSize _ = totalSize _ + totalSize _ - totalSize _
  omega

/-! ## Calls -/

section

variable (h : u.Sound cap)
include h

namespace Sound

theorem store {q' : PacketQueue} (hstored : u.queue.Stored b p q' b') (hnext : u.queue.next ≤ p.seq)
    (hget : u.queue.pending.get p.seq = none) (hfirst : u.first p.seq = none)
    (hlast : p.seq + 1 < 2 ^ 64) :
    let u' := { u with queue := q', first := u.note p.payload (.stored p.seq) }
    Sound cap u' ∧ Moves u b u' b' := by
  obtain ⟨rfl, hbudget, hfits⟩ := hstored
  have hnote : ∀ n, u.note p.payload (.stored p.seq) n =
      if n = p.seq then some p.payload else u.first n := by
    intro n
    show update u.first p.seq ((u.first p.seq).or (some p.payload)) n = _
    rw [update_apply, hfirst]
    rfl
  have hold : ∀ {n : ℕ} {payload : List UInt8}, u.first n = some payload →
      u.note p.payload (.stored p.seq) n = some payload := by
    intro n payload hn
    rw [hnote, if_neg, hn]
    rintro rfl
    rw [hfirst] at hn
    cases hn
  have htail : u.queue.tail ≤ (if u.queue.tail ≤ p.seq then after p.seq else u.queue.tail) ∧
      p.seq < (if u.queue.tail ≤ p.seq then after p.seq else u.queue.tail) ∧
      (if u.queue.tail ≤ p.seq then after p.seq else u.queue.tail) < 2 ^ 64 := by
    have hsmall := h.small
    split_ifs with hle
    · rw [after_of_lt hlast]
      omega
    · omega
  refine ⟨⟨?_, ?_, htail.2.2, ?_, ?_, h.limit, ?_, h.log, ?_, ?_⟩, ⟨?_, ?_, ?_, id, id⟩⟩
  · exact forall_mem_put hnext h.ahead
  · intro n (hn : (u.note p.payload (.stored p.seq) n).isSome)
    rw [hnote] at hn
    split_ifs at hn with heq
    · exact heq ▸ htail.2.1
    · exact (h.below n hn).trans_le htail.1
  · intro x hx
    rcases mem_put.mp hx with rfl | ⟨-, hx⟩
    · exact (hnote x.seq).trans (if_pos rfl)
    · exact hold (h.kept x hx)
  · rw [totalSize_put hget, h.bytes]
  · exact fun hin => h.limit ▸ (hfits hin).1
  · exact fun x hx => hold (h.reads x hx)
  · intro hopen n (hn : (u.note p.payload (.stored p.seq) n).isSome)
    show n < u.queue.next ∨ ((u.queue.pending.put p).get n).isSome
    rw [hnote] at hn
    rw [get_put]
    split_ifs at hn with heq
    · rw [if_pos heq.symm]
      exact .inr rfl
    · rw [if_neg fun h => heq h.symm]
      exact h.seen hopen n hn
  · show b'.used - (if u.queue.budgeted then u.queue.bytes + p.size else 0) =
      b.used - if u.queue.budgeted then u.queue.bytes else 0
    rw [hbudget]
    split_ifs
    · show b.used + p.size - (u.queue.bytes + p.size) = _
      omega
    · rfl
  · rw [hbudget]
    split_ifs <;> rfl
  · intro hused
    by_cases hin : u.queue.budgeted = true
    · exact (hfits hin).2
    · rw [hbudget, if_neg hin]
      exact hused

theorem refused {r : Pushed} (hr : ∀ seq, r ≠ .stored seq) :
    Sound cap { u with first := u.note payload r } ∧
      Moves u b { u with first := u.note payload r } b := by
  have hsame : u.note payload r = u.first := by
    cases r with
    | stored seq => exact absurd rfl (hr seq)
    | stale | repeated | error | wait => rfl
  rw [hsame]
  exact ⟨h, .refl u b⟩

theorem push (hclear : p.seq + 1 < 2 ^ 64) :
    (u.push b p).2.Sound cap ∧ Moves u b (u.push b p).2 (u.push b p).1 := by
  unfold Uplink.push
  cases hpush : u.queue.push b p with
  | mk b' rest =>
    obtain ⟨q', r⟩ := rest
    rcases push_cases hpush with ⟨rfl, rfl, hr⟩ | ⟨rfl, hstored, hopen, hnext, hget⟩
    · exact h.refused hr
    · refine h.store hstored hnext hget ?_ hclear
      -- A number that was stored before has been read or is there.
      by_contra hfirst
      rcases h.seen hopen p.seq (Option.isSome_iff_ne_none.mpr hfirst) with hlt | hin
      · omega
      · rw [hget] at hin
        cases hin

theorem append (hclear : u.queue.appendSeq + 1 < 2 ^ 64) :
    (u.append b payload).2.Sound cap ∧ Moves u b (u.append b payload).2 (u.append b payload).1 := by
  unfold Uplink.append
  cases happend : u.queue.appendWait b payload with
  | mk b' rest =>
    obtain ⟨q', r⟩ := rest
    rcases appendWait_cases happend with ⟨rfl, rfl, hr⟩ | ⟨rfl, hstored, hopen⟩
    · exact h.refused hr
    · have hseq : u.queue.next ≤ u.queue.appendSeq ∧ u.queue.tail ≤ u.queue.appendSeq := by
        unfold appendSeq
        split_ifs <;> omega
      -- The number is behind every number that was stored.
      have hfirst : u.first u.queue.appendSeq = none := by
        by_contra hfirst
        have hlt := h.below _ (Option.isSome_iff_ne_none.mpr hfirst)
        omega
      have hget : u.queue.pending.get u.queue.appendSeq = none := by
        by_contra hget
        obtain ⟨p, hp⟩ := Option.ne_none_iff_exists'.mp hget
        have hkept := h.kept p (mem_of_get hp)
        rw [(key_of_get hp : p.seq = _), hfirst] at hkept
        cases hkept
      exact h.store hstored hseq.1 hget hfirst hclear

theorem read (b : Budget) : (u.read b).2.Sound cap ∧ Moves u b (u.read b).2 (u.read b).1 := by
  unfold Uplink.read
  cases hread : u.queue.read b with
  | none => exact ⟨h, .refl u b⟩
  | some r =>
    obtain ⟨b', q', p⟩ := r
    obtain ⟨hget, rfl, hbudget⟩ := read_eq_some hread
    have hseq : p.seq = u.queue.next := key_of_get hget
    have hkept := h.kept p (mem_of_get hget)
    have hlt : p.seq < u.queue.tail := h.below p.seq (by rw [hkept]; rfl)
    have hsmall := h.small
    have hafter : after u.queue.next = u.queue.next + 1 := after_of_lt (by omega)
    have hbytes : u.queue.bytes - p.size =
        totalSize (u.queue.pending.erase u.queue.next).values := by
      rw [totalSize_erase hget, h.bytes]
    refine ⟨⟨?_, h.below, h.small, ?_, hbytes, h.limit, ?_, ?_, ?_, ?_⟩, ?_⟩
    · intro x hx
      obtain ⟨hx, hne⟩ := mem_erase.mp hx
      have hle := h.ahead x hx
      show after u.queue.next ≤ x.seq
      omega
    · exact fun x hx => h.kept x (mem_erase.mp hx).1
    · intro hin
      have hcap := h.cap hin
      have hpos := size_nonneg p
      show u.queue.bytes - p.size ≤ cap
      omega
    · rw [hafter, ← hseq]
      exact .read (hseq ▸ h.log)
    · intro x hx
      rcases mem_cons.mp hx with heq | hx
      · cases heq
        exact hkept
      · exact h.reads x hx
    · intro hopen n hn
      show n < after u.queue.next ∨ ((u.queue.pending.erase u.queue.next).get n).isSome
      rw [hafter, get_erase]
      rcases h.seen hopen n hn with hlt | hin
      · exact .inl (by omega)
      · by_cases heq : u.queue.next = n
        · exact .inl (by omega)
        · rw [if_neg heq]
          exact .inr hin
    · rw [hbudget]
      exact .give (size_nonneg p) rfl id id

theorem resume (b : Budget) (seq : ℕ) :
    (u.resume b seq).2.Sound cap ∧ Moves u b (u.resume b seq).2 (u.resume b seq).1 := by
  unfold Uplink.resume resumeFrom
  by_cases hclosed : u.queue.closed = true
  · rw [if_pos hclosed]
    exact ⟨h, .refl u b⟩
  rw [if_neg hclosed]
  by_cases hbehind : seq < u.queue.next
  · rw [if_pos hbehind]
    exact ⟨h, .refl u b⟩
  rw [if_neg hbehind]
  have hbytes : u.queue.bytes - totalSize (u.queue.behind seq) =
      totalSize (u.queue.pending.eraseAll ((u.queue.behind seq).map (·.seq))).values := by
    rw [totalSize_behind, h.bytes]
  have hdropped : ∀ x ∈ u.queue.pending, x.seq ∈ (u.queue.behind seq).map (·.seq) ↔
      x.seq < seq := by
    intro x hx
    rw [mem_map]
    constructor
    · rintro ⟨y, hy, heq⟩
      exact heq ▸ of_decide_eq_true (mem_filter.mp hy).2
    · intro hlt
      exact ⟨x, mem_filter.mpr ⟨mem_values.mpr hx, decide_eq_true hlt⟩, rfl⟩
  dsimp only [releaseLocked]
  have hpos := totalSize_nonneg (u.queue.behind seq)
  refine ⟨⟨?_, h.below, h.small, ?_, hbytes, h.limit, ?_, ?_, ?_, ?_⟩, .give hpos rfl id id⟩
  · intro x hx
    obtain ⟨hx, hnot⟩ := mem_eraseAll.mp hx
    exact Nat.le_of_not_lt fun hlt => hnot ((hdropped x hx).mpr hlt)
  · exact fun x hx => h.kept x (mem_eraseAll.mp hx).1
  · intro hin
    have hcap := h.cap hin
    show u.queue.bytes - totalSize (u.queue.behind seq) ≤ cap
    omega
  · exact .resumed h.log (Nat.le_of_not_lt hbehind)
  · intro x hx
    rcases mem_cons.mp hx with heq | hx
    · cases heq
    · exact h.reads x hx
  · intro hopen n hn
    show n < seq ∨ ((u.queue.pending.eraseAll ((u.queue.behind seq).map (·.seq))).get n).isSome
    rw [get_eraseAll]
    rcases h.seen hopen n hn with hlt | hin
    · exact .inl (by omega)
    · obtain ⟨x, hx⟩ := Option.isSome_iff_exists.mp hin
      have heq : x.seq = n := key_of_get hx
      by_cases hlt : n < seq
      · exact .inl hlt
      · rw [if_neg fun hmem => hlt (heq ▸ (hdropped x (mem_of_get hx)).mp (heq.symm ▸ hmem))]
        exact .inr hin

theorem leave (b : Budget) : (u.leave b).2.Sound cap ∧ Moves u b (u.leave b).2 (u.leave b).1 ∧
      (u.leave b).2.queue.budgeted = false := by
  have hpos : 0 ≤ u.queue.bytes := h.bytes ▸ totalSize_nonneg _
  refine ⟨{ h with cap := nofun }, .give hpos ?_ nofun id, rfl⟩
  rw [sub_self, ite_self]
  rfl

theorem discard (b : Budget) (hclosed : u.queue.closed = true) :
    (u.discard b).2.Sound cap ∧ Moves u b (u.discard b).2 (u.discard b).1 ∧
      (u.discard b).2.queue.budgeted = false := by
  have hbytes : u.queue.bytes - totalSize u.queue.pending.values = 0 := sub_eq_zero.mpr h.bytes
  refine ⟨⟨?_, h.below, h.small, ?_, hbytes, h.limit, nofun, h.log, h.reads, ?_⟩,
    .give (totalSize_nonneg _) ?_ nofun id, rfl⟩
  · exact fun x hx => absurd hx (not_mem_empty x)
  · exact fun x hx => absurd hx (not_mem_empty x)
  · intro hopen
    rw [show (u.discard b).2.queue.closed = u.queue.closed from rfl, hclosed] at hopen
    cases hopen
  · rw [hbytes, ite_self]
    rfl

theorem close (b : Budget) (err : Option String) :
    (u.close err).Sound cap ∧ Moves u b (u.close err) b ∧ (u.close err).queue.closed = true := by
  unfold Uplink.close PacketQueue.close
  split_ifs with hclosed
  · exact ⟨h, .refl u b, hclosed⟩
  · exact ⟨{ h with seen := nofun }, ⟨rfl, rfl, id, id, fun _ => rfl⟩, rfl⟩

end Sound

end

/-- An uplink of a session that is not authenticated. -/
def fresh (maxPending : ℕ) (cap : ℤ) : Uplink :=
  { queue := ({ maxPending := maxPending } : PacketQueue).useBudget cap }

theorem sound_fresh {maxPending : ℕ} (hcap : 0 ≤ cap) : (fresh maxPending cap).Sound cap where
  ahead p hp := absurd hp (not_mem_empty p)
  below _ hn := by cases hn
  small := Nat.two_pow_pos 64
  kept p hp := absurd hp (not_mem_empty p)
  bytes := rfl
  limit := rfl
  cap _ := hcap
  log := .nil
  reads _ hp := by cases hp
  seen _ _ hn := by cases hn

end Uplink

end Pandora.Dataplane
