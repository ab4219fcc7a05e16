import Pandora.Foundation.Runs
import Pandora.Identifiers

/-!
# Event streams

A browser keeps a stream of events open.  Its session is checked once, when the request comes in;
then the connection is registered at the hub (`Subscribe`), and from then on it is told about the
revocation of its session by a message on the channel of the session.  Messages come over one
subscription to Redis.  When that is interrupted messages are lost, so all streams are ended
(`goDown`) and the clients have to be checked again.

The steps are the check of a session, the locked sections of the hub, the delivery of a message, and
what the loop does that keeps the subscription (`consume`).
-/

namespace Pandora.Realtime

inductive Channel
  | pub
  | admin
  | user (id : UUID)
  | session (sid : String)
  deriving DecidableEq

structure Event where
  topic : String
  payload : String

def topicSessionRevoked : String := "session.revoked"

/-- What comes over the subscription; there is no event if the payload is not one. -/
structure Message where
  channel : Channel
  event : Option Event

def maxStreamsPerUser : ℕ := 10

/-- The capacity of `subscriber.ch`. -/
def bufferSize : ℕ := 32

/-- `subscriber`, with the session that it was opened for. -/
structure Subscriber where
  id : ℕ
  owner : UUID
  session : String
  channels : List Channel
  buffer : List Event := []
  /-- `finish` has been called. -/
  ended : Bool := false

structure Hub where
  maxStreams : ℕ
  subs : List Subscriber := []
  byChannel : Channel → List ℕ := fun _ => []
  byOwner : UUID → ℕ := fun _ => 0
  live : Bool := false
  /-- `cancel` has been called. -/
  cancelled : Bool := false

inductive SubscribeError
  | notLive
  | tooManyStreams
  | tooManyUserStreams

/-- Who asks for a stream, once the session has been checked. -/
structure Request where
  owner : UUID
  session : String
  audience : Audience

/-- The channels of `publicEvents` and of `adminEvents`. -/
def Request.channels (r : Request) : List Channel :=
  match r.audience with
  | .portal => [.pub, .user r.owner, .session r.session]
  | .admin => [.admin, .session r.session]

/-- The connection of a request. -/
def Request.subscriber (r : Request) (id : ℕ) : Subscriber where
  id := id
  owner := r.owner
  session := r.session
  channels := r.channels

namespace Hub

variable (h : Hub)

/-- The tables with one more connection. -/
def add (r : Request) (id : ℕ) : Hub :=
  { h with
    subs := r.subscriber id :: h.subs
    byOwner := if r.owner = UUID.nil then h.byOwner
      else Function.update h.byOwner r.owner (h.byOwner r.owner + 1)
    byChannel := fun ch => if ch ∈ r.channels then id :: h.byChannel ch else h.byChannel ch }

def subscribe (r : Request) (id : ℕ) : Except SubscribeError Hub :=
  if h.live = false then .error .notLive
  else if 0 < h.maxStreams ∧ h.maxStreams ≤ h.subs.length then .error .tooManyStreams
  else if r.owner ≠ UUID.nil ∧ maxStreamsPerUser ≤ h.byOwner r.owner then .error .tooManyUserStreams
  else .ok (h.add r id)

/-- `Subscription.Close`. -/
def remove (s : Subscriber) : Hub :=
  { h with
    subs := h.subs.filter (·.id ≠ s.id)
    byOwner := if s.owner = UUID.nil then h.byOwner
      else Function.update h.byOwner s.owner
        (if h.byOwner s.owner ≤ 1 then 0 else h.byOwner s.owner - 1)
    byChannel := fun ch =>
      if ch ∈ s.channels then (h.byChannel ch).filter (· ≠ s.id) else h.byChannel ch }

def goLive : Hub := { h with live := !h.cancelled }

/-- `finish`, for some of the connections. -/
def finish (ids : List ℕ) : Hub :=
  { h with subs := h.subs.map fun s => if s.id ∈ ids then { s with ended := true } else s }

/-- An event is put into the buffers of some of the connections; a buffer that is full drops it. -/
def push (ids : List ℕ) (ev : Event) : Hub :=
  { h with subs := h.subs.map fun s =>
      if s.id ∈ ids ∧ s.buffer.length < bufferSize then { s with buffer := s.buffer ++ [ev] }
        else s }

def dispatch (channel : Channel) (ev : Event) : Hub :=
  if ev.topic = topicSessionRevoked then h.finish (h.byChannel channel)
  else h.push (h.byChannel channel) ev

/-- `receive`, for one message. -/
def receive (m : Message) : Hub :=
  match m.channel, m.event with
  | .session sid, _ => h.dispatch (.session sid) ⟨topicSessionRevoked, ""⟩
  | _, none => h
  | ch, some ev => h.dispatch ch ev

end Hub

/-- Where `consume` is. -/
inductive Phase
  | subscribing
  /-- Redis has confirmed the subscription. -/
  | confirmed
  | receiving
  /-- `receive` has returned an error. -/
  | failed
  | stopped
  deriving DecidableEq

/-- No stream can be opened. -/
def Phase.down : Phase → Bool
  | .subscribing => true
  | .confirmed => true
  | .stopped => true
  | _ => false

/-- The hub, the sessions and the subscription. -/
structure System where
  hub : Hub
  /-- The sessions that have been revoked. -/
  revoked : List String := []
  /-- The requests whose session has been checked, and that have not been registered yet. -/
  requests : List Request := []
  nextId : ℕ := 0
  phase : Phase := .subscribing
  /-- Redis sends what is published. -/
  up : Bool := false
  /-- What has been published and not been delivered. -/
  queue : List Message := []
  /-- The connections that `goDown` is about to end. -/
  ending : List ℕ := []
  /-- The sessions whose revocation has been lost since the hub last went down. -/
  lost : List String := []

/-- The sessions that some messages revoke. -/
def revocations (queue : List Message) : List String :=
  queue.filterMap fun m => match m.channel with
    | .session sid => some sid
    | _ => none

inductive Label
  /-- The session of a request is checked. -/
  | check (r : Request)
  /-- A request that has been checked is registered. -/
  | subscribe (i : ℕ)
  /-- A stream is over. -/
  | leave (id : ℕ)
  /-- A session is deleted, and its revocation published. -/
  | revoke (sid : String)
  | publish (m : Message)
  /-- The connection to Redis is broken; nobody knows yet. -/
  | sever
  | confirm
  | goLive
  | deliver
  /-- `receive` returns an error. -/
  | fail
  | goDown
  /-- `goDown` ends one of the connections. -/
  | finish
  /-- `Hub.Close`. -/
  | close

namespace System

variable (s : System)

/-- A message is published: it is on its way, or lost, if there is a subscription. -/
def send (m : Message) : System :=
  if s.phase = .subscribing ∨ s.phase = .stopped then s
  else if s.up then { s with queue := s.queue ++ [m] }
  else { s with lost := revocations [m] ++ s.lost }

/-- The connection does not bring anything any more. -/
def cut : System := { s with up := false, queue := [], lost := revocations s.queue ++ s.lost }

/-- `goDown`, as far as it holds the lock. -/
def takeDown : System :=
  { s with hub.live := false, ending := s.ending ++ s.hub.subs.map (·.id), lost := [] }

def next (s : System) : Label → System
  | .check r => if r.session ∈ s.revoked then s else { s with requests := s.requests ++ [r] }
  | .subscribe i => match s.requests[i]? with
    | none => s
    | some r => match s.hub.subscribe r s.nextId with
      | .error _ => { s with requests := s.requests.eraseIdx i }
      | .ok hub => { s with hub := hub, requests := s.requests.eraseIdx i, nextId := s.nextId + 1 }
  | .leave id => match s.hub.subs.find? (·.id = id) with
    | none => s
    | some sub => { s with hub := s.hub.remove sub }
  | .revoke sid => System.send { s with revoked := sid :: s.revoked } ⟨.session sid, none⟩
  | .publish m => s.send m
  | .sever => s.cut
  | .confirm =>
    if s.phase = .subscribing then { s with phase := .confirmed, up := true, queue := [] } else s
  | .goLive =>
    if s.phase = .confirmed then { s with hub := s.hub.goLive, phase := .receiving } else s
  | .deliver => match s.phase, s.queue with
    | .receiving, m :: queue => { s with hub := s.hub.receive m, queue := queue }
    | _, _ => s
  | .fail => if s.phase = .receiving then { s.cut with phase := .failed } else s
  | .goDown =>
    if s.phase = .failed then
      { s.takeDown with phase := if s.hub.cancelled then .stopped else .subscribing }
    else s
  | .finish => match s.ending with
    | [] => s
    | id :: ending => { s with hub := s.hub.finish [id], ending := ending }
  | .close => { s.takeDown with hub.cancelled := true }

end System

end Pandora.Realtime
