import Pandora.Agent.Node

/-!
# The daemon of a server

A server has several nodes, each with its inbound.  The panel sends the configurations of all of
them at once: the nodes of the message are dealt with in its order, and those that it does not
name are stopped (`Server.applyServerConfig`).  Before there is a stream, the daemon installs what
it finds on disk (`Server.start`).  All that is said to the panel during a step is in `said`, the
last word first.

An inbound is known to the kernel by the name of its node.  That of a node which is not serving is
left alone when the node is removed, so there may be inbounds without a node.
-/

namespace Pandora.Agent

/-- `Server`, and the inbounds of its kernel. -/
structure Server where
  nodes : String → Option Node
  order : List String
  inbounds : String → Option Inbound
  said : List (String × Sent)

namespace Server

def new : Server := ⟨fun _ => none, [], fun _ => none, []⟩

/-- A node and its inbound; nothing has been said yet. -/
def cell (s : Server) (id : String) (n : Node) : Cell := ⟨n, s.inbounds id, []⟩

/-- The node of a name, which is made if it is not there. -/
def node (s : Server) (id nodeType : String) : Node := (s.nodes id).getD { nodeType }

/-- A node has taken a step. -/
def put (s : Server) (id : String) (x : Cell) : Server :=
  { s with
    nodes := Function.update s.nodes id (some x.node)
    inbounds := Function.update s.inbounds id x.inbound
    said := x.sent.map (id, ·) ++ s.said }

/-- `removeNode`, of all nodes but some. -/
def removeUnless (keep : List String) (s : Server) : Server :=
  { s with
    nodes := fun id => if id ∈ keep then s.nodes id else none
    inbounds := fun id =>
      if id ∉ keep ∧ (s.nodes id).any (·.started) = true then none else s.inbounds id }

/-- One configuration of a message; a name that is blank or comes again is passed over. -/
def applyNode (codec : Codec) (p : Server × List String) (item : Chance × NodeConfig) :
    Server × List String :=
  let id := item.2.nodeId
  if id = "" ∨ id ∈ p.2 then p
  else
    (p.1.put id ((p.1.cell id (p.1.node id item.2.nodeType)).applyNodeConfig codec item.1 item.2),
      p.2 ++ [id])

def applyServerConfig (codec : Codec) (items : List (Chance × NodeConfig)) (s : Server) :
    Server :=
  let (s, order) := items.foldl (Server.applyNode codec) (s, [])
  { s.removeUnless order with order }

end Server

/-- What is noted of a configuration that was on disk and could not be installed. -/
def cachedFailure (ch : Chance) (nc : NodeConfig) (cause : Cause) : ApplyFailure :=
  ⟨nc.sha, nc, 1, ch.now + ch.jitter stoppedRetryInterval, cause.reason, true⟩

/-- One configuration that is on disk. -/
def Server.startNode (codec : Codec) (s : Server) (item : Chance × NodeConfig) : Server :=
  let id := item.2.nodeId
  if id = "" ∨ (s.nodes id).isSome then s
  else
    let cell := s.cell id { nodeType := item.2.nodeType, offlineStart := true }
    let (x, result) := cell.installNodeConfig codec item.1 item.2
    let n := { x.node with offlineStart := false }
    let n := match result with
      | some cause => { n with failed := some (cachedFailure item.1 item.2 cause) }
      | none => { n with fromCache := true, healthPending := false }
    { s.put id { x with node := n } with order := s.order ++ [id] }

def Server.start (codec : Codec) (items : List (Chance × NodeConfig)) (s : Server) : Server :=
  items.foldl (Server.startNode codec) s

/-- What `onWelcome` does to a node. -/
def Node.welcome (n : Node) : Node :=
  { n with
    acked := []
    healthPending := n.healthPending ||
      (n.started && n.failed.isNone && !n.fromCache && n.appliedSHA ≠ "")
    fromCache := false
    failed := n.failed.map fun f => { f with fromCache := false } }

/-- A step of one node that is there. -/
def Server.step (s : Server) (id : String) (f : Cell → Cell) : Server :=
  match s.nodes id with
  | none => s
  | some n => s.put id (f (s.cell id n))

def Server.onUsersFull (ch : Chance) (id version : String) (users : List User) (s : Server) :
    Server :=
  if id = "" then s else s.put id ((s.cell id (s.node id "")).onUsersFull ch version users)

def Server.onUsersDelta (ch : Chance) (id fromVersion toVersion : String) (upserted : List User)
    (removed : List ℤ) (s : Server) : Server :=
  match s.nodes id with
  | none =>
    if ch.connected = true then
      { s with said := (id, .users ⟨toVersion, some .versionMismatch⟩) :: s.said }
    else s
  | some n => s.put id ((s.cell id n).onUsersDelta ch fromVersion toVersion upserted removed)

end Pandora.Agent
