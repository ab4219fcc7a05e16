import Pandora.Foundation.Keyed

/-!
# Streams in one connection

A client may carry many streams over one connection.  A loop reads the frames of the client, and
hands what they carry to forwarders that run beside it: one for a TCP stream, one for every packet
of a UDP stream.  VLESS and VMess have a copy of this code each.

A TCP forwarder counts the bytes of its user while they pass.  A UDP forwarder sends its packet,
waits two seconds for an answer and writes the answer to the client; the copy of VLESS counts both
once there is an answer and before it is written, the copy of VMess counts nothing.

What a forwarder has done is written down with it, so that what it has forwarded and what has been
billed for it can be compared.
-/

namespace Pandora.Dataplane.Mux

open Function

/-- The two copies. -/
inductive Protocol
  | vless
  | vmess

def muxStatusNew : UInt8 := 1
def muxStatusKeep : UInt8 := 2
def muxStatusEnd : UInt8 := 3
def muxStatusKeepAlive : UInt8 := 4
def muxOptionData : UInt8 := 1
def muxNetworkTCP : UInt8 := 1
def muxNetworkUDP : UInt8 := 2

-- The destinations that are valid.
variable {δ : Type*}

/-- What `readVLESSMuxHeader` and `readVMessMuxHeader` return. -/
structure Header (δ : Type*) where
  streamID : UInt16
  status : UInt8
  option : UInt8
  network : UInt8 := 0
  destination : Option δ := none

/-- Bytes, each way. -/
structure Tally where
  up : ℕ := 0
  down : ℕ := 0
  deriving DecidableEq

/-- How a direction ends. -/
inductive Ending
  | eof
  | failed
  deriving DecidableEq

/-- What comes from outside in a step: whether a call succeeds, a number of bytes, what the
connection has got of them when they cannot be flushed, bytes, and how a read ends. -/
structure Chance where
  ok : Bool := true
  n : ℕ := 0
  got : ℕ := 0
  chunk : List UInt8 := []
  last : Option Ending := none

/-! ## A packet -/

/-- What a forwarder of a packet does next. -/
inductive UdpPhase
  /-- Is there a destination? -/
  | start
  /-- `ListenUDP`. -/
  | listen
  /-- The address of the destination. -/
  | resolve
  /-- `WriteTo`. -/
  | send
  /-- `ReadFrom`. -/
  | receive
  /-- `addTraffic`. -/
  | bill (n : ℕ)
  /-- `writePacketData`. -/
  | reply (n : ℕ)
  /-- After an error: `removeStream`. -/
  | remove
  | done
  deriving DecidableEq

/-- A run of `forwardUDP` or `forwardMuxUDP`. -/
structure UdpForwarder (δ : Type*) where
  id : UInt16
  stream : ℕ
  /-- The destination it has been given (VMess). -/
  dest : Option δ
  payload : List UInt8
  phase : UdpPhase := .start
  /-- The payload has been written to the socket. -/
  wrote : Bool := false
  /-- How long the answer was. -/
  answer : Option ℕ := none
  /-- The bytes of the answer that the client has been written. -/
  delivered : ℕ := 0
  /-- The bytes that have been billed. -/
  billed : Tally := {}

/-- The next step of a forwarder of a packet, with the destination it sees. -/
def UdpForwarder.step (p : Protocol) (dest : Option δ) (f : UdpForwarder δ) (ch : Chance) :
    UdpForwarder δ :=
  match f.phase with
  | .start => { f with phase := if dest.isSome then .listen else .remove }
  | .listen => { f with phase := if ch.ok then .resolve else .remove }
  | .resolve => { f with phase := if ch.ok then .send else .remove }
  | .send => if ch.ok then { f with phase := .receive, wrote := true }
      else { f with phase := .remove }
  | .receive =>
    if ch.ok then
      { f with
        phase := match p with
          | .vless => .bill ch.n
          | .vmess => .reply ch.n
        answer := some ch.n }
    else { f with phase := .remove }
  | .bill n =>
    { f with
      phase := .reply n
      billed := ⟨f.billed.up + f.payload.length, f.billed.down + n⟩ }
  | .reply n =>
    { f with
      phase := if ch.ok then .done else .remove
      delivered := if ch.ok then n else min ch.n n }
  | .remove => { f with phase := .done }
  | .done => f

/-! ## A TCP stream -/

/-- What one direction of `Relay` does next. -/
inductive Half
  /-- `Read`. -/
  | reading
  /-- `emit`: the limiter and `Write`. -/
  | writing (chunk : List UInt8) (last : Option Ending)
  /-- `emit`: the counter. -/
  | counting (n : ℕ) (last : Option Ending)
  /-- `directionDone`. -/
  | ended (e : Ending)
  | over
  deriving DecidableEq

/-- A direction has written what it could of a chunk. -/
def Half.wrote (chunk : List UInt8) (last : Option Ending) (ch : Chance) : Half :=
  .counting (min ch.n chunk.length) (if ch.ok ∧ chunk.length ≤ ch.n then last else some .failed)

/-- A direction has counted what it wrote. -/
def Half.counted : Option Ending → Half
  | none => .reading
  | some e => .ended e

inductive TcpPhase
  /-- Is there a destination? -/
  | start
  /-- `DialTCP`. -/
  | dial
  | relay (up down : Half)
  /-- `removeStream`. -/
  | remove
  | done
  deriving DecidableEq

/-- A run of `forwardTCP` or `forwardMuxTCP`. -/
structure TcpForwarder where
  id : UInt16
  stream : ℕ
  phase : TcpPhase := .start
  /-- The bytes that upstream, and that the writer of the client has accepted. -/
  accepted : Tally := {}
  /-- The bytes that the connection of the client has got. -/
  got : ℕ := 0
  billed : Tally := {}

/-- The next step of a forwarder of a stream, outside `Relay`. -/
def TcpForwarder.step (dest : Option δ) (f : TcpForwarder) (ch : Chance) : TcpForwarder :=
  match f.phase with
  | .start => { f with phase := if dest.isSome then .dial else .remove }
  | .dial => { f with phase := if ch.ok then .relay .reading .reading else .remove }
  | .relay .over .over => { f with phase := .remove }
  | .relay _ _ => f
  | .remove => { f with phase := .done }
  | .done => f

/-- The next step of the way up of `Relay`, outside `Read`. -/
def TcpForwarder.up (f : TcpForwarder) (ch : Chance) : TcpForwarder :=
  match f.phase with
  | .relay (.writing chunk last) down =>
    { f with
      phase := .relay (.wrote chunk last ch) down
      accepted := { f.accepted with up := f.accepted.up + min ch.n chunk.length } }
  | .relay (.counting n last) down =>
    { f with
      phase := .relay (.counted last) down
      billed := { f.billed with up := f.billed.up + n } }
  | .relay (.ended _) down => { f with phase := .relay .over down }
  | _ => f

/-- `writeData`: what the connection gets of `n` bytes that are accepted.  Those of VLESS are only
in a buffer when it cannot be flushed. -/
def Protocol.gets (p : Protocol) (ch : Chance) (n : ℕ) : ℕ :=
  match p with
  | .vless => if ch.ok then n else min ch.got n
  | .vmess => n

/-- The next step of the way down of `Relay`. -/
def TcpForwarder.down (p : Protocol) (f : TcpForwarder) (ch : Chance) : TcpForwarder :=
  match f.phase with
  | .relay up .reading =>
    { f with
      phase := .relay up (if ch.chunk = [] then .counted ch.last else .writing ch.chunk ch.last) }
  | .relay up (.writing chunk last) =>
    { f with
      phase := .relay up (.wrote chunk last ch)
      accepted := { f.accepted with down := f.accepted.down + min ch.n chunk.length }
      got := f.got + p.gets ch (min ch.n chunk.length) }
  | .relay up (.counting n last) =>
    { f with
      phase := .relay up (.counted last)
      billed := { f.billed with down := f.billed.down + n } }
  | .relay up (.ended _) => { f with phase := .relay up .over }
  | _ => f

/-- A direction that has ended closes both ends: after an error, or when the end cannot be passed
on. -/
def Half.TearsDown (h : Half) (ch : Chance) : Prop :=
  h = .ended .failed ∨ (h = .ended .eof ∧ ch.ok = false)

instance (h : Half) (ch : Chance) : Decidable (h.TearsDown ch) :=
  inferInstanceAs (Decidable (_ ∨ _))

/-! ## The session -/

inductive Forwarder (δ : Type*)
  | udp (f : UdpForwarder δ)
  | tcp (f : TcpForwarder)

/-- `vlessMuxStream` and `vmessMuxStream`.  The field `dest` is also the `udpDest` of VMess: only a
TCP forwarder reads the one and only the loop the other. -/
structure Stream (δ : Type*) where
  sessionID : UInt16
  network : UInt8
  dest : Option δ
  /-- The pipe has been closed, from either end. -/
  closed : Bool := false

/-- An entry of `streams`. -/
structure Entry where
  id : UInt16
  stream : ℕ

inductive Failure
  | header
  | data
  | duplicate (id : UInt16)
  | network (n : UInt8)
  | status (n : UInt8)

/-- Where the loop is. -/
inductive Loop (δ : Type*)
  | header
  | data (h : Header δ) (stream : Option ℕ)
  /-- In the `Write` of a pipe, which waits for the other end. -/
  | piping (id : UInt16) (stream : ℕ) (rest : List UInt8)
  /-- In `wg.Wait`. -/
  | waiting (err : Option Failure)
  | returned (err : Option Failure)

/-- `vlessMuxSession` and `vmessMuxSession`, with the streams that have been made and the
forwarders that have been started. -/
structure Config (δ : Type*) where
  protocol : Protocol
  loop : Loop δ := .header
  streams : Keyed Entry.id := ∅
  objects : ℕ → Stream δ := fun _ => ⟨0, 0, none, false⟩
  made : ℕ := 0
  forwarders : ℕ → Forwarder δ := fun _ => .tcp { id := 0, stream := 0 }
  spawned : ℕ := 0

open Config

namespace Config

def spawn (c : Config δ) (f : Forwarder δ) : Config δ :=
  { c with forwarders := update c.forwarders c.spawned f, spawned := c.spawned + 1 }

def setForwarder (c : Config δ) (i : ℕ) (f : Forwarder δ) : Config δ :=
  { c with forwarders := update c.forwarders i f }

/-- `newStream`.  The routine that VMess also starts for UDP does nothing. -/
def newStream (c : Config δ) (id : UInt16) (network : UInt8) (destination : Option δ) : Config δ :=
  let c' := { c with
    objects := update c.objects c.made ⟨id, network, destination, false⟩
    streams := c.streams.put ⟨id, c.made⟩
    made := c.made + 1 }
  if network = muxNetworkTCP then c'.spawn (.tcp { id := id, stream := c.made }) else c'

/-- The pipe of a stream is closed. -/
def closePipe (c : Config δ) (s : ℕ) : Config δ :=
  { c with objects := update c.objects s { c.objects s with closed := true } }

def removeStream (c : Config δ) (id : UInt16) : Config δ :=
  match c.streams.get id with
  | none => c
  | some e => { c.closePipe e.stream with streams := c.streams.erase id }

def closeAll (c : Config δ) : Config δ :=
  { c with
    streams := ∅
    objects := fun s =>
      if s ∈ c.streams.values.map (·.stream) then { c.objects s with closed := true }
      else c.objects s }

/-- The header has been dealt with; is there data? -/
def afterHeader (c : Config δ) (h : Header δ) (stream : Option ℕ) : Config δ :=
  { c with loop := if h.option &&& muxOptionData = 0 then .header else .data h stream }

/-- The loop, after a header. -/
def onHeader (c : Config δ) (h : Header δ) : Config δ :=
  let stream := (c.streams.get h.streamID).map (·.stream)
  if h.status = muxStatusNew then
    if stream.isSome then { c with loop := .returned (some (.duplicate h.streamID)) }
    else if h.network ≠ muxNetworkTCP ∧ h.network ≠ muxNetworkUDP then
      { c with loop := .returned (some (.network h.network)) }
    else (c.newStream h.streamID h.network h.destination).afterHeader h (some c.made)
  else if h.status = muxStatusKeep then c.afterHeader h stream
  else if h.status = muxStatusEnd then
    (if stream.isSome then c.removeStream h.streamID else c).afterHeader h stream
  else if h.status = muxStatusKeepAlive then c.afterHeader h stream
  else { c with loop := .returned (some (.status h.status)) }

/-- A packet may have its own destination, which the stream keeps. -/
def setDest (c : Config δ) (s : ℕ) (destination : Option δ) : Config δ :=
  if destination.isSome then
    { c with objects := update c.objects s { c.objects s with dest := destination } }
  else c

/-- The loop, after the data of a frame. -/
def onData (c : Config δ) (h : Header δ) (stream : Option ℕ) (data : List UInt8) : Config δ :=
  match stream with
  | none => { c with loop := .header }
  | some s =>
    if (c.objects s).network = muxNetworkTCP then { c with loop := .piping h.streamID s data }
    else
      let c := c.setDest s h.destination
      { c.spawn (.udp
          { id := h.streamID, stream := s, dest := (c.objects s).dest, payload := data }) with
        loop := .header }

/-- The destination that a forwarder of a packet sees. -/
def target (c : Config δ) (f : UdpForwarder δ) : Option δ :=
  match c.protocol with
  | .vless => (c.objects f.stream).dest
  | .vmess => f.dest

def stepUdp (c : Config δ) (i : ℕ) (f : UdpForwarder δ) (ch : Chance) : Config δ :=
  let c' := c.setForwarder i (.udp (f.step c.protocol (c.target f) ch))
  if f.phase = .remove then c'.removeStream f.id else c'

def stepTcp (c : Config δ) (i : ℕ) (f : TcpForwarder) (ch : Chance) : Config δ :=
  let c' := c.setForwarder i (.tcp (f.step (c.objects f.stream).dest ch))
  if f.phase = .remove then c'.removeStream f.id else c'

/-- The way up reads: what waits in the pipe, as much as its buffer takes, or that the pipe has
been closed. -/
def readPipe (c : Config δ) (i : ℕ) (f : TcpForwarder) (down : Half) (ch : Chance) : Config δ :=
  if (c.objects f.stream).closed then
    c.setForwarder i (.tcp { f with phase := .relay (.ended (ch.last.getD .failed)) down })
  else
    match c.loop with
    | .piping id s rest =>
      if s = f.stream ∧ (0 < ch.n ∨ rest = []) then
        let chunk := rest.take ch.n
        { c.setForwarder i (.tcp { f with
            phase := .relay (if chunk = [] then .reading else .writing chunk none) down }) with
          loop := if rest.drop ch.n = [] then .header else .piping id s (rest.drop ch.n) }
      else c
    | _ => c

def stepUp (c : Config δ) (i : ℕ) (f : TcpForwarder) (ch : Chance) : Config δ :=
  match f.phase with
  | .relay .reading down => c.readPipe i f down ch
  | .relay up _ =>
    let c' := c.setForwarder i (.tcp (f.up ch))
    if up.TearsDown ch then c'.closePipe f.stream else c'
  | _ => c

def stepDown (c : Config δ) (i : ℕ) (f : TcpForwarder) (ch : Chance) : Config δ :=
  match f.phase with
  | .relay _ down =>
    let c' := c.setForwarder i (.tcp (f.down c.protocol ch))
    if down.TearsDown ch then c'.closePipe f.stream else c'
  | _ => c

end Config

inductive Label (δ : Type*)
  | header (h : Header δ)
  /-- The connection ends, or a header cannot be read. -/
  | headerError (err : Option Failure)
  | data (bytes : List UInt8)
  | dataError
  /-- The `Write` of a pipe finds it closed. -/
  | pipeClosed
  /-- `wg.Wait` returns. -/
  | waited
  /-- The next step of a forwarder. -/
  | forward (i : ℕ) (ch : Chance)
  /-- The next step of a direction of `Relay`. -/
  | up (i : ℕ) (ch : Chance)
  | down (i : ℕ) (ch : Chance)
  /-- `onTimer` of `Relay`. -/
  | timer (i : ℕ)

def Forwarder.Done : Forwarder δ → Prop
  | .udp f => f.phase = .done
  | .tcp f => f.phase = .done

instance : DecidablePred (Forwarder.Done (δ := δ))
  | .udp f => inferInstanceAs (Decidable (f.phase = .done))
  | .tcp f => inferInstanceAs (Decidable (f.phase = .done))

/-- All forwarders have finished. -/
structure Config.Finished (c : Config δ) : Prop where
  done : ∀ i < c.spawned, (c.forwarders i).Done

instance (c : Config δ) : Decidable c.Finished :=
  decidable_of_iff (∀ i < c.spawned, (c.forwarders i).Done) ⟨.mk, (·.done)⟩

def next (c : Config δ) : Label δ → Config δ
  | .header h => match c.loop with
    | .header => c.onHeader h
    | _ => c
  | .headerError err => match c.loop with
    | .header => { c.closeAll with loop := .waiting err }
    | _ => c
  | .data bytes => match c.loop with
    | .data h stream => c.onData h stream bytes
    | _ => c
  | .dataError => match c.loop with
    | .data _ _ => { c.closeAll with loop := .waiting (some .data) }
    | _ => c
  | .pipeClosed => match c.loop with
    | .piping id s _ => if (c.objects s).closed then { c.removeStream id with loop := .header }
        else c
    | _ => c
  | .waited => match c.loop with
    | .waiting err => if c.Finished then { c with loop := .returned err } else c
    | _ => c
  | .forward i ch => if i < c.spawned then
      match c.forwarders i with
      | .udp f => c.stepUdp i f ch
      | .tcp f => c.stepTcp i f ch
    else c
  | .up i ch => if i < c.spawned then
      match c.forwarders i with
      | .udp _ => c
      | .tcp f => c.stepUp i f ch
    else c
  | .down i ch => if i < c.spawned then
      match c.forwarders i with
      | .udp _ => c
      | .tcp f => c.stepDown i f ch
    else c
  | .timer i => if i < c.spawned then
      match c.forwarders i with
      | .udp _ => c
      | .tcp f => match f.phase with
        | .relay _ _ => c.closePipe f.stream
        | _ => c
    else c

/-- What becomes of a TCP forwarder in a step. -/
inductive TcpForwarder.Goes (δ : Type*) (p : Protocol) (f : TcpForwarder) : TcpForwarder → Prop
  | stays : f.Goes δ p f
  | step (dest : Option δ) (ch : Chance) : f.Goes δ p (f.step dest ch)
  | up (ch : Chance) : f.Goes δ p (f.up ch)
  | down (ch : Chance) : f.Goes δ p (f.down p ch)
  | read {up down : Half} (phase : f.phase = .relay .reading down)
    (half : up = .reading ∨ (∃ chunk, up = .writing chunk none) ∨ ∃ e, up = .ended e) :
    f.Goes δ p { f with phase := .relay up down }

/-- What a step of a forwarder leaves as it is: it closes pipes, removes streams, and takes what the
loop writes to a pipe. -/
structure Config.Beside (c : Config δ) (i : ℕ) (f : Forwarder δ) (c' : Config δ) : Prop where
  protocol : c'.protocol = c.protocol
  forwarders : c'.forwarders = update c.forwarders i f
  spawned : c'.spawned = c.spawned
  made : c'.made = c.made
  streams : c.streams = ∅ → c'.streams = ∅
  entries : ∀ e ∈ c'.streams, e ∈ c.streams
  objects : ∀ s, (c'.objects s).network = (c.objects s).network ∧
    (c'.objects s).dest = (c.objects s).dest
  loop : c'.loop = c.loop ∨ ∃ id s rest, c.loop = .piping id s rest ∧
    (c'.loop = .header ∨ ∃ rest', c'.loop = .piping id s rest')

section

variable {c c' : Config δ} {i : ℕ} {f : Forwarder δ}

theorem Config.beside_set : c.Beside i f (c.setForwarder i f) :=
  ⟨rfl, rfl, rfl, rfl, id, fun _ => id, fun _ => ⟨rfl, rfl⟩, .inl rfl⟩

theorem Config.beside_self (h : c.forwarders i = f) : c.Beside i f c :=
  ⟨rfl, (update_eq_self_iff.mpr h.symm).symm, rfl, rfl, id, fun _ => id, fun _ => ⟨rfl, rfl⟩,
    .inl rfl⟩

theorem Config.Beside.closePipe (h : c.Beside i f c') (s : ℕ) : c.Beside i f (c'.closePipe s) := by
  refine { h with objects := fun k => ?_ }
  simp only [Config.closePipe, update_apply]
  split_ifs with heq
  · exact heq ▸ h.objects s
  · exact h.objects k

theorem Config.Beside.removeStream (h : c.Beside i f c') (id : UInt16) :
    c.Beside i f (c'.removeStream id) := by
  unfold Config.removeStream
  cases hget : c'.streams.get id with
  | none => exact h
  | some e =>
    refine ⟨h.protocol, h.forwarders, h.spawned, h.made, fun hempty => ?_, fun e' he' => ?_,
      (h.closePipe e.stream).objects, h.loop⟩
    · rw [h.streams hempty] at hget
      cases hget
    · exact h.entries e' (Keyed.mem_erase.mp he').1

end

/-- What a step is. -/
inductive Stepped (c : Config δ) : Label δ → Config δ → Prop
  | same {l : Label δ} : Stepped c l c
  | header (h : Header δ) (loop : c.loop = .header) : Stepped c (.header h) (c.onHeader h)
  | ended {l : Label δ} (err : Option Failure) :
      Stepped c l { c.closeAll with loop := .waiting err }
  | data {h : Header δ} {stream : Option ℕ} (bytes : List UInt8) (loop : c.loop = .data h stream) :
    Stepped c (.data bytes) (c.onData h stream bytes)
  | pipeClosed (id : UInt16) : Stepped c .pipeClosed { c.removeStream id with loop := .header }
  | waited {err : Option Failure} (loop : c.loop = .waiting err) (finished : c.Finished) :
    Stepped c .waited { c with loop := .returned err }
  | udp {i : ℕ} {f : UdpForwarder δ} {c' : Config δ} (lt : i < c.spawned)
    (is : c.forwarders i = .udp f) (ch : Chance)
    (beside : c.Beside i (.udp (f.step c.protocol (c.target f) ch)) c') :
    Stepped c (.forward i ch) c'
  | tcp {i : ℕ} {f f' : TcpForwarder} {l : Label δ} {c' : Config δ} (lt : i < c.spawned)
    (is : c.forwarders i = .tcp f) (goes : f.Goes δ c.protocol f')
      (beside : c.Beside i (.tcp f') c') :
    Stepped c l c'

section

variable (c : Config δ) {i : ℕ} (hi : i < c.spawned) {f : TcpForwarder}
  (hf : c.forwarders i = .tcp f)
  {l : Label δ} (ch : Chance)
include hi hf

theorem stepped_readPipe {down : Half} (hphase : f.phase = .relay .reading down) :
    Stepped c l (c.readPipe i f down ch) := by
  unfold readPipe
  split_ifs
  · exact .tcp hi hf (.read hphase (.inr (.inr ⟨_, rfl⟩))) beside_set
  · split
    · next id s rest hloop =>
      split
      · refine .tcp hi hf (.read hphase ?_) ⟨rfl, rfl, rfl, rfl, fun h => h, fun _ h => h,
          fun _ => ⟨rfl, rfl⟩, .inr ⟨id, s, rest, hloop, ?_⟩⟩
        · split_ifs
          · exact .inl rfl
          · exact .inr (.inl ⟨_, rfl⟩)
        · split_ifs
          · exact .inl rfl
          · exact .inr ⟨_, rfl⟩
      · exact .same
    · exact .same

theorem stepped_up : Stepped c l (c.stepUp i f ch) := by
  unfold stepUp
  split
  · next hphase => exact stepped_readPipe c hi hf ch hphase
  · split_ifs
    · exact .tcp hi hf (.up ch) (beside_set.closePipe _)
    · exact .tcp hi hf (.up ch) beside_set
  · exact .same

theorem stepped_down : Stepped c l (c.stepDown i f ch) := by
  unfold stepDown
  split
  · split_ifs
    · exact .tcp hi hf (.down ch) (beside_set.closePipe _)
    · exact .tcp hi hf (.down ch) beside_set
  · exact .same

end

theorem stepped_next (c : Config δ) (l : Label δ) : Stepped c l (next c l) := by
  -- A step of a forwarder that is there.
  have hat : ∀ {i : ℕ} {c' : Config δ}, (i < c.spawned → Stepped c l c') →
      Stepped c l (if i < c.spawned then c' else c) := by
    intro i c' h
    split_ifs with hi
    · exact h hi
    · exact .same
  cases l with
  | header h =>
    simp only [next]
    split
    · next hloop => exact .header h hloop
    · exact .same
  | headerError | dataError =>
    simp only [next]
    split
    · exact .ended _
    · exact .same
  | data bytes =>
    simp only [next]
    split
    · next hloop => exact .data bytes hloop
    · exact .same
  | pipeClosed =>
    simp only [next]
    split
    · split_ifs
      · exact .pipeClosed _
      · exact .same
    · exact .same
  | waited =>
    simp only [next]
    split
    · next hloop =>
      split_ifs with hfinished
      · exact .waited hloop hfinished
      · exact .same
    · exact .same
  | forward i ch =>
    refine hat fun hi => ?_
    cases hf : c.forwarders i with
    | udp f =>
      refine .udp hi hf ch ?_
      dsimp only [stepUdp]
      split_ifs
      · exact beside_set.removeStream _
      · exact beside_set
    | tcp f =>
      refine .tcp hi hf (.step (c.objects f.stream).dest ch) ?_
      dsimp only [stepTcp]
      split_ifs
      · exact beside_set.removeStream _
      · exact beside_set
  | up i ch =>
    refine hat fun hi => ?_
    cases hf : c.forwarders i with
    | udp => exact .same
    | tcp => exact stepped_up c hi hf ch
  | down i ch =>
    refine hat fun hi => ?_
    cases hf : c.forwarders i with
    | udp => exact .same
    | tcp => exact stepped_down c hi hf ch
  | timer i =>
    refine hat fun hi => ?_
    cases hf : c.forwarders i with
    | udp => exact .same
    | tcp =>
      dsimp only
      split
      · exact .tcp hi hf .stays ((beside_self hf).closePipe _)
      · exact .same

def start (p : Protocol) : Config δ := { protocol := p }

end Pandora.Dataplane.Mux
