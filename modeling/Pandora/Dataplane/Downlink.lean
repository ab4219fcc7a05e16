import Pandora.Dataplane.PacketQueue
import Pandora.Foundation.Runs

/-!
# What a client gets of a downlink

The bytes of a connection over requests are numbered packets in a queue.  A `GET` takes one packet
after another out of it and writes them to its response; when it ends, the next `GET` goes on.

A packet is out of the queue before it is written.  If the response takes only a part of it, the
rest is nowhere, and the next `GET` goes on behind the hole (`rest_of_packet_lost`).  As long as no
packet is taken out after that, what the client has got is a prefix of what was written.
-/

namespace Pandora.Dataplane.Downlink

open List Keyed PacketQueue

/-! ## Runs -/

/-- The `GET` of a session; there is one at a time. -/
inductive Get
  | none
  | reading
  /-- It writes a payload to its response. -/
  | responding (payload : List UInt8)
  deriving DecidableEq

/-- `xhttpPacketConn` with its downlink, the `GET`, and what has happened. -/
structure Config where
  queue : PacketQueue
  writeSeq : ℕ := 0
  closed : Bool := false
  /-- The packet of a `Write` that is in `PushWait`. -/
  writing : Option Packet := .none
  get : Get := .none
  /-- The payloads that have got a number, by their numbers. -/
  sent : List (List UInt8) := []
  /-- What has been passed to `Write`. -/
  passed : List UInt8 := []
  /-- What has been written to the responses. -/
  out : List UInt8 := []
  /-- Whether a response has taken only a part of its packet. -/
  lost : Bool := false

open Config

inductive Label
  /-- `Write`, up to `PushWait`. -/
  | write (p : List UInt8)
  /-- A round of `PushWait`. -/
  | store
  /-- The context of `PushWait` is done. -/
  | cancelWrite
  /-- `Close` of the connection, up to the queues. -/
  | closeConn
  /-- `Close` of the queue, by the connection, by `shutdown` or by the broker. -/
  | closeQueue (err : Option String)
  | get
  /-- `Read` gives a packet to the `GET`. -/
  | read
  /-- The request is cancelled, or there is nothing to read any more. -/
  | endGet
  /-- The response takes the payload. -/
  | respond
  /-- The response fails after some bytes. -/
  | respondFails (n : ℕ)

/-- A downlink has no budget. -/
def noBudget : Budget := ⟨0, 0⟩

def Config.write (c : Config) (p : List UInt8) : Config :=
  if p = [] ∨ c.writing.isSome then c
  else if c.closed then { c with passed := c.passed ++ p }
  else
    { c with
      writing := some ⟨c.writeSeq, p⟩
      writeSeq := after c.writeSeq
      sent := c.sent ++ [p]
      passed := c.passed ++ p }

def Config.store (c : Config) (p : Packet) : Config :=
  match c.queue.pushWait noBudget p with
  | (_, _, .wait) => c
  | (_, queue, _) => { c with queue := queue, writing := none }

def next (c : Config) : Label → Config
  | .write p => c.write p
  | .store => c.writing.elim c c.store
  | .cancelWrite => { c with writing := none }
  | .closeConn => { c with closed := true }
  | .closeQueue err => { c with queue := c.queue.close err }
  | .get => if c.get = .none then { c with get := .reading } else c
  | .read =>
    match c.get, c.queue.read noBudget with
    | .reading, some (_, queue, p) => { c with queue := queue, get := .responding p.payload }
    | _, _ => c
  | .endGet => if c.get = .reading then { c with get := .none } else c
  | .respond =>
    match c.get with
    | .responding payload => { c with get := .reading, out := c.out ++ payload }
    | _ => c
  | .respondFails n =>
    match c.get with
    | .responding payload =>
      { c with
        get := .none
        out := c.out ++ payload.take n
        lost := c.lost || n < payload.length }
    | _ => c

/-- **When there is no hole.**  No packet is taken out once a response has taken only a part of
one, and the numbers have not run out. -/
def Config.Clear (c : Config) : Label → Prop
  | .write _ => c.writeSeq + 1 < 2 ^ 64
  | .read => c.lost = false
  | _ => True

instance (c : Config) : DecidablePred c.Clear
  | .write _ => inferInstanceAs (Decidable (_ < _))
  | .read => inferInstanceAs (Decidable (_ = _))
  | .store | .cancelWrite | .closeConn | .closeQueue _ | .get | .endGet | .respond
  | .respondFails _ => .isTrue trivial

/-! ## The invariant -/

/-- What the `GET` has taken out and not written. -/
def Get.held : Get → List UInt8
  | .responding payload => payload
  | _ => []

structure Config.Inv (c : Config) : Prop where
  seq : c.writeSeq = c.sent.length
  bound : c.sent.length < 2 ^ 64
  reached : c.queue.next ≤ c.sent.length
  plain : c.queue.budgeted = false
  pending : ∀ p ∈ c.queue.pending, c.sent[p.seq]? = some p.payload
  writing : ∀ p ∈ c.writing, c.sent[p.seq]? = some p.payload
  whole : c.lost = false → c.out ++ c.get.held = (c.sent.take c.queue.next).flatten
  broken : c.lost = true → c.get.held = [] ∧ c.out <+: (c.sent.take c.queue.next).flatten
  passed : c.sent.flatten <+: c.passed
  opened : c.closed = false → c.passed = c.sent.flatten

theorem inv_new (maxPending : ℕ) : Inv { queue := { maxPending := maxPending } } where
  seq := rfl
  bound := Nat.two_pow_pos 64
  reached := le_rfl
  plain := rfl
  pending p hp := absurd hp (not_mem_empty p)
  writing _ hp := by cases hp
  whole _ := rfl
  broken h := by cases h
  passed := nil_prefix
  opened _ := rfl

variable {c : Config} {payload : List UInt8} {p : Packet}

theorem Config.Inv.out_passed (hc : c.Inv) : c.out <+: c.passed := by
  have htake : (c.sent.take c.queue.next).flatten <+: c.sent.flatten := by
    conv_rhs => rw [← take_append_drop c.queue.next c.sent, flatten_append]
    exact prefix_append _ _
  have hout : c.out <+: (c.sent.take c.queue.next).flatten := by
    cases hlost : c.lost with
    | false =>
      rw [← hc.whole hlost]
      exact prefix_append _ _
    | true => exact (hc.broken hlost).2
  exact hout.trans (htake.trans hc.passed)

/-! ## Steps -/

section

variable (hc : c.Inv)
include hc

namespace Config.Inv

theorem write (p : List UInt8) (hclear : c.writeSeq + 1 < 2 ^ 64) : (c.write p).Inv := by
  unfold Config.write
  split_ifs with hskip hclosed
  · exact hc
  · refine { hc with passed := hc.passed.trans (prefix_append _ _), opened := fun h => ?_ }
    rw [hclosed] at h
    cases h
  · have hseq := hc.seq
    have hlength : (c.sent ++ [p]).length = c.sent.length + 1 := length_append
    have hget : ∀ {seq : ℕ} {payload : List UInt8}, c.sent[seq]? = some payload →
        (c.sent ++ [p])[seq]? = some payload := by
      intro seq payload h
      rw [getElem?_append_left (List.getElem?_eq_some_iff.mp h).1]
      exact h
    -- What has been taken out does not change.
    have htake : (c.sent ++ [p]).take c.queue.next = c.sent.take c.queue.next :=
      take_append_of_le_length hc.reached
    have hopen : c.passed = c.sent.flatten := hc.opened (Bool.eq_false_of_not_eq_true hclosed)
    have hpassed : c.passed ++ p = (c.sent ++ [p]).flatten := by
      rw [hopen, flatten_append, flatten_singleton]
    refine ⟨?_, ?_, ?_, hc.plain, fun x hx => hget (hc.pending x hx), ?_, ?_, ?_, ?_, ?_⟩
    · rw [after_of_lt hclear, hlength, hseq]
    · show (c.sent ++ [p]).length < _
      omega
    · exact hc.reached.trans (by rw [hlength]; exact Nat.le_succ _)
    · rintro x ⟨⟩
      rw [hseq, getElem?_concat_length]
    · intro hlost
      exact (hc.whole hlost).trans (congrArg flatten htake.symm)
    · intro hlost
      obtain ⟨hheld, hout⟩ := hc.broken hlost
      exact ⟨hheld, htake.symm ▸ hout⟩
    · exact hpassed ▸ prefix_rfl
    · exact fun _ => hpassed

theorem store (hp : c.writing = some p) : (c.store p).Inv := by
  have hidle : Inv { c with writing := none } := { hc with writing := nofun }
  unfold Config.store
  cases hpush : c.queue.pushWait noBudget p with
  | mk b' rest =>
    obtain ⟨q', r⟩ := rest
    rcases pushWait_cases hpush with ⟨-, rfl, -⟩ | ⟨rfl, hstored, -⟩
    · cases r with
      | wait => exact hc
      | stored | stale | repeated | error => exact hidle
    · rw [hstored.queue]
      refine { hidle with pending := fun x hx => ?_ }
      rcases mem_put.mp hx with rfl | ⟨-, hx⟩
      · exact hc.writing x hp
      · exact hc.pending x hx

theorem read (hreading : c.get = .reading) (hclear : c.lost = false) {b' : Budget}
    {q' : PacketQueue} (hread : c.queue.read noBudget = some (b', q', p)) :
    Inv { c with queue := q', get := .responding p.payload } := by
  obtain ⟨hget, rfl, -⟩ := read_eq_some hread
  have hseq : p.seq = c.queue.next := key_of_get hget
  have hsent : c.sent[c.queue.next]? = some p.payload := hseq ▸ hc.pending p (mem_of_get hget)
  obtain ⟨hlt, hval⟩ := List.getElem?_eq_some_iff.mp hsent
  have hbound := hc.bound
  have hnext : after c.queue.next = c.queue.next + 1 := after_of_lt (by omega)
  refine { hc with reached := ?_, pending := ?_, whole := ?_, broken := ?_ }
  · show after c.queue.next ≤ c.sent.length
    omega
  · exact fun x hx => hc.pending x (mem_erase.mp hx).1
  · intro hlost
    have hwhole := hc.whole hlost
    rw [hreading] at hwhole
    show c.out ++ p.payload = (c.sent.take (after c.queue.next)).flatten
    rw [hnext, take_succ_eq_append_getElem hlt, flatten_append, flatten_singleton, hval, ← hwhole]
    rw [show Get.held .reading = [] from rfl, append_nil]
  · intro hlost
    rw [show ({ c with queue := _, get := _ } : Config).lost = c.lost from rfl, hclear] at hlost
    cases hlost

theorem respond (hget : c.get = .responding payload) :
    Inv { c with get := .reading, out := c.out ++ payload } := by
  have hheld : c.get.held = payload := by rw [hget]; rfl
  refine { hc with whole := fun hlost => ?_, broken := fun hlost => ?_ }
  · rw [← hc.whole hlost, hheld]
    exact append_nil _
  · obtain ⟨hnil, hout⟩ := hc.broken hlost
    rw [hheld] at hnil
    refine ⟨rfl, ?_⟩
    rw [hnil, append_nil]
    exact hout

theorem respondFails (hget : c.get = .responding payload) (n : ℕ) : Inv { c with
      get := .none, out := c.out ++ payload.take n, lost := c.lost || n < payload.length } := by
  have hheld : c.get.held = payload := by rw [hget]; rfl
  refine { hc with whole := fun hlost => ?_, broken := fun hlost => ?_ }
  · obtain ⟨hlost, hall⟩ := Bool.or_eq_false_iff.mp hlost
    have hle : payload.length ≤ n := Nat.le_of_not_lt (of_decide_eq_false hall)
    rw [← hc.whole hlost, hheld, take_of_length_le hle]
    exact append_nil _
  · refine ⟨rfl, ?_⟩
    cases hbefore : c.lost with
    | false =>
      rw [← hc.whole hbefore, hheld]
      exact (prefix_append_right_inj c.out).mpr <| take_prefix n payload
    | true =>
      obtain ⟨hnil, hout⟩ := hc.broken hbefore
      rw [hheld] at hnil
      rw [hnil, take_nil, append_nil]
      exact hout

theorem withGet (hheld : c.get.held = []) {get : Get}
    (hnil : get.held = []) : Inv { c with get := get } := by
  refine { hc with whole := fun hlost => ?_, broken := fun hlost => ⟨hnil, (hc.broken hlost).2⟩ }
  have hwhole := hc.whole hlost
  rw [hheld] at hwhole
  rw [hnil]
  exact hwhole

theorem next {l : Label} (hclear : c.Clear l) : (next c l).Inv := by
  cases l with
  | write p => exact hc.write p hclear
  | store =>
    show (c.writing.elim c c.store).Inv
    cases hp : c.writing with
    | none => exact hc
    | some => exact hc.store hp
  | cancelWrite => exact { hc with writing := nofun }
  | closeConn => exact { hc with opened := nofun }
  | closeQueue err =>
    have hqueue : (c.queue.close err).pending = c.queue.pending ∧
        (c.queue.close err).next = c.queue.next ∧
        (c.queue.close err).budgeted = c.queue.budgeted := by
      unfold close
      split_ifs <;> exact ⟨rfl, rfl, rfl⟩
    obtain ⟨hpending, hnext, hbudgeted⟩ := hqueue
    refine { hc with
      reached := ?_, plain := hbudgeted.trans hc.plain, pending := ?_, whole := ?_, broken := ?_ }
    · exact hnext.le.trans hc.reached
    · show ∀ p ∈ (c.queue.close err).pending, _
      rw [hpending]
      exact hc.pending
    · show _ → _ = (c.sent.take (c.queue.close err).next).flatten
      rw [hnext]
      exact hc.whole
    · show _ → _ ∧ _ <+: (c.sent.take (c.queue.close err).next).flatten
      rw [hnext]
      exact hc.broken
  | get =>
    show (if c.get = .none then { c with get := .reading } else c : Config).Inv
    split_ifs with hget
    · exact hc.withGet (by rw [hget]; rfl) rfl
    · exact hc
  | endGet =>
    show (if c.get = .reading then { c with get := .none } else c : Config).Inv
    split_ifs with hget
    · exact hc.withGet (by rw [hget]; rfl) rfl
    · exact hc
  | read =>
    unfold Downlink.next
    cases hget : c.get with
    | none | responding => exact hc
    | reading =>
      cases hread : c.queue.read noBudget with
      | none => exact hc
      | some r =>
        obtain ⟨b', q', p⟩ := r
        exact hc.read hget hclear hread
  | respond =>
    simp only [Downlink.next]
    cases hget : c.get with
    | none | reading => exact hc
    | responding => exact hc.respond hget
  | respondFails n =>
    unfold Downlink.next
    cases hget : c.get with
    | none | reading => exact hc
    | responding => exact hc.respondFails hget n

end Config.Inv

end

/-- **The downlink has no holes**, along every run that is clear: what the client has got is a
prefix of what was written. -/
theorem downlink_whole (maxPending : ℕ) (labels : List Label)
    (hclear : Runs.Along next Config.Clear { queue := { maxPending := maxPending } } labels) :
    (labels.foldl next { queue := { maxPending := maxPending } }).out <+:
      (labels.foldl next { queue := { maxPending := maxPending } }).passed :=
  (hclear.invariant (I := Config.Inv) (fun _ _ h hstep => h.next hstep)
    (inv_new maxPending)).out_passed

/-- A response takes one byte of two and fails, and another `GET` takes the next packet. -/
def brokenResponse : List Label :=
  [.write [1, 2], .store, .write [3], .store, .get, .read, .respondFails 1, .get, .read, .respond]

theorem rest_of_packet_lost : ¬(brokenResponse.foldl next { queue := { maxPending := 30 } }).out <+:
      (brokenResponse.foldl next { queue := { maxPending := 30 } }).passed := by
  decide +kernel

/-- A response fails after it has taken its packet, a `Write` finds the queue full, and the next
`GET` goes on; its last response takes only a part. -/
def sample : List Label :=
  [.write [1, 2], .store, .get, .read, .write [3], .store, .respondFails 2, .write [4, 5], .store,
    .get, .read, .respond, .store, .read, .respondFails 1]

theorem sample_whole : Runs.Along next Config.Clear { queue := { maxPending := 1 } } sample ∧
    (sample.foldl next { queue := { maxPending := 1 } }).out = [1, 2, 3, 4] ∧
    (sample.foldl next { queue := { maxPending := 1 } }).out <+:
      (sample.foldl next { queue := { maxPending := 1 } }).passed :=
  ⟨by decide +kernel, by decide +kernel, downlink_whole 1 sample (by decide +kernel)⟩

end Pandora.Dataplane.Downlink
