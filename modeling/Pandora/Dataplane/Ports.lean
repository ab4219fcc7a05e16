import Pandora.Agent.Kernel
import Pandora.Foundation.Runs

/-!
# The ports of the inbounds

One process serves all inbounds of a machine.  Which of them listens on which port is written down
in a ledger, from a port and its transport to the tag of the inbound; who comes first keeps the
port.  An inbound that is replaced claims the new ports before the old inbound is closed, and lets
the old ones go when the new inbound is up; if that fails, the old one is started again.

Calls come one after another here, and everything that they ask of the outside (making an adapter,
building the routing, starting) may fail (`Chance`).
-/

namespace Pandora.Dataplane

open Agent (Json Document Routing trim)

/-! ## Ports -/

inductive L4
  | tcp
  | udp
  deriving DecidableEq

structure PortKey where
  port : ℤ
  l4 : L4
  deriving DecidableEq

structure InboundConfig where
  tag : String
  protocol : String
  listen : String
  port : ℤ
  raw : Document

/-- A string, or nothing. -/
def stringOf : Option Json → String
  | some (.str s) => s
  | _ => ""

def isMKCPNetwork (network : String) : Bool :=
  Text.toLower (trim network) ∈ ["mkcp", "kcp", "m-kcp"]

/-- `rawValue`.  A field that is spelled otherwise is found in the order in which Go goes through
the map. -/
def rawValue (order : Document) (raw : Document) (key : String) : Option Json :=
  (raw.field key).or ((order.find? fun entry =>
    Text.equalFold (entry.1.replace "_" "") (key.replace "_" "")).map (·.2))

def rawString (order : Document) (raw : Document) (key : String) : String :=
  trim (stringOf (rawValue order raw key))

def inboundPortKeys (order : Document) (cfg : InboundConfig) : List PortKey :=
  let network := Text.toLower (trim (stringOf (cfg.raw.field "network")))
  let proto := Text.toLower (trim cfg.protocol)
  if proto ∈ ["hysteria2", "hy2", "tuic", "juicity"] then [⟨cfg.port, .udp⟩]
  else if proto ∈ ["vless", "vmess"] then
    if network = "xhttp-h3" ∨ isMKCPNetwork network then [⟨cfg.port, .udp⟩] else [⟨cfg.port, .tcp⟩]
  else if proto = "trojan" then
    if isMKCPNetwork network then [⟨cfg.port, .udp⟩] else [⟨cfg.port, .tcp⟩]
  else if proto ∈ ["shadowsocks", "ss"] then [⟨cfg.port, .tcp⟩, ⟨cfg.port, .udp⟩]
  else if proto = "mieru" then
    if Text.equalFold (rawString order cfg.raw "transport") "udp" then [⟨cfg.port, .udp⟩]
    else [⟨cfg.port, .tcp⟩]
  else [⟨cfg.port, .tcp⟩]

def portL4Label (keys : List PortKey) : String :=
  let tcp := keys.any (·.l4 = .tcp)
  let udp := keys.any (·.l4 = .udp)
  if tcp && udp then "tcp+udp" else if tcp then "tcp" else if udp then "udp" else ""

/-- `PortInUseError`. -/
structure PortInUse where
  port : ℤ
  l4 : String
  ownerNodeID : String := ""
  owner : String := ""

/-! ## The core -/

/-- An entry of `ports`. -/
structure Claim where
  key : PortKey
  tag : String
  deriving DecidableEq

/-- An entry of `tagPorts`. -/
structure Lease where
  tag : String
  keys : List PortKey

/-- An entry of `owners`. -/
structure InboundOwner where
  tag : String
  scope : String
  nodeID : String

/-- An entry of `desired`. -/
structure Desired where
  tag : String
  generation : ℕ
  deriving DecidableEq

structure NativeInbound where
  config : InboundConfig
  routing : Option Routing
  generation : ℕ

/-- The tag an inbound is published under. -/
def NativeInbound.tag (i : NativeInbound) : String := i.config.tag

structure NativeCore where
  started : Bool := true
  closed : Bool := false
  seq : ℕ := 0
  desired : Keyed Desired.tag := ∅
  inbounds : Keyed NativeInbound.tag := ∅
  ports : Keyed Claim.key := ∅
  tagPorts : Keyed Lease.tag := ∅
  owners : Keyed InboundOwner.tag := ∅

namespace NativeCore

variable (c : NativeCore)

/-- `c.ports[k]`. -/
def portOwner (k : PortKey) : String := ((c.ports.get k).map (·.tag)).getD ""

/-- `c.owners[tag]`. -/
def ownerOf (tag : String) : InboundOwner := (c.owners.get tag).getD ⟨tag, "", ""⟩

def portConflictLocked (keys : List PortKey) (requesterTag : String) : Option PortInUse :=
  match keys.find? fun k => c.portOwner k ≠ "" ∧ c.portOwner k ≠ requesterTag with
  | none => none
  | some conflictKey =>
    let ownerTag := c.portOwner conflictKey
    let sameOwnerKeys := keys.filter fun k => c.portOwner k = ownerTag
    let requester := c.ownerOf requesterTag
    let owner := c.ownerOf ownerTag
    some {
      port := conflictKey.port
      l4 := portL4Label sameOwnerKeys
      owner := ownerTag
      ownerNodeID := if requester.scope ≠ "" ∧ requester.scope = owner.scope ∧ owner.nodeID ≠ ""
        then owner.nodeID else "" }

/-- The loop that claims the ports. -/
def claimPorts (tag : String) (keys : List PortKey) : NativeCore :=
  { c with ports := keys.foldl (fun ports k => ports.put ⟨k, tag⟩) c.ports }

def releasePortsLocked (tag : String) (release keep : List PortKey) : NativeCore :=
  { c with ports := release.foldl (fun ports k =>
      if k ∈ keep then ports
      else if ports.get k = some ⟨k, tag⟩ then ports.erase k else ports) c.ports }

/-- What `tagPorts` has for a tag. -/
def keysOf (tag : String) : Option (List PortKey) := (c.tagPorts.get tag).map (·.keys)

end NativeCore

/-! ## Calls -/

/-- Why an adapter did not start. -/
inductive StartError
  /-- `EADDRINUSE`. -/
  | addrInUse
  | portInUse (e : PortInUse)
  | other (text : String)

def asExternalPortInUse (keys : List PortKey) : StartError → StartError
  | .addrInUse =>
    match keys with
    | [] => .portInUse ⟨0, "", "", ""⟩
    | k :: _ => .portInUse ⟨k.port, portL4Label keys, "", ""⟩
  | e => e

/-- What the calls of `applyInbound` to the outside return, if they fail. -/
structure Chance where
  new : Option String := none
  build : Option String := none
  start : Option StartError := none
  /-- `restoreInbound`. -/
  restore : Option String := none
  /-- `preloadUsers`, or else `postloadUsers`. -/
  users : Option String := none

/-- The errors of `applyInbound`. -/
inductive ApplyError
  /-- `入站配置不能为空`. -/
  | noConfig
  /-- `入站缺少 tag`. -/
  | noTag
  /-- `入站 %s 端口 %d 无效`. -/
  | invalidPort (tag : String) (port : ℤ)
  /-- `原生内核尚未启动或已关闭`. -/
  | notStarted
  | conflict (e : PortInUse)
  | new (text : String)
  | build (text : String)
  /-- `启动原生协议 %s: %w`. -/
  | start (protocol : String) (e : StartError)
  /-- The same, joined with `restore previous inbound: %w`. -/
  | restore (protocol : String) (e : StartError) (text : String)
  /-- `inbound %q start was superseded or core closed`. -/
  | superseded (tag : String)

/-- How `applyInbound` returns. -/
inductive Result
  | ok
  /-- `UsersPreloadError`. -/
  | users (text : String)
  | error (e : ApplyError)
  /-- `ConfigApplyError`. -/
  | config (e : ApplyError) (previousPreserved : Bool)

namespace NativeCore

/-- The state after the ports are claimed and the old inbound is closed. -/
def claimed (c : NativeCore) (tag : String) (keys : List PortKey) : NativeCore :=
  { c.claimPorts tag keys with
    seq := c.seq + 1
    desired := c.desired.put ⟨tag, c.seq + 1⟩
    inbounds := c.inbounds.erase tag }

/-- Nothing is left of a tag: the new ports and the old ones are released. -/
def forget (c : NativeCore) (tag : String) (keys : List PortKey)
    (oldKeys : Option (List PortKey)) : NativeCore :=
  let c := c.releasePortsLocked tag keys []
  let c := oldKeys.elim c fun oldKeys => c.releasePortsLocked tag oldKeys []
  { c with tagPorts := c.tagPorts.erase tag }

/-- The generation is the one that is wanted. -/
def Current (c : NativeCore) (tag : String) (generation : ℕ) : Prop :=
  c.closed = false ∧ c.desired.get tag = some ⟨tag, generation⟩

instance (c : NativeCore) (tag : String) (generation : ℕ) : Decidable (c.Current tag generation) :=
  inferInstanceAs (Decidable (_ ∧ _))

/-- `applyInbound`, where the adapter did not start.  `oldKeys` and `previous` are what there was
before the ports were claimed. -/
def startFailed (c : NativeCore) (cfg : InboundConfig) (keys : List PortKey)
    (oldKeys : Option (List PortKey)) (previous : Option NativeInbound) (generation : ℕ)
    (e : StartError) (restore : Option String) : NativeCore × Result :=
  let cause := asExternalPortInUse keys e
  match previous with
  | none => (c.forget cfg.tag keys oldKeys, .error (.start cfg.protocol cause))
  | some previous =>
    match restore with
    | some text => (c.forget cfg.tag keys oldKeys, .error (.restore cfg.protocol cause text))
    | none =>
      if c.Current cfg.tag generation then
        ({ c with inbounds := c.inbounds.put { previous with generation := generation } }
            |>.releasePortsLocked cfg.tag keys (oldKeys.getD []),
          .config (.start cfg.protocol cause) true)
      else (c, .error (.start cfg.protocol cause))

/-- `applyInbound`, where the adapter has started. -/
def startDone (c : NativeCore) (cfg : InboundConfig) (routing : Option Routing)
    (keys : List PortKey) (oldKeys : Option (List PortKey)) (generation : ℕ)
    (users : Option String) : NativeCore × Result :=
  if c.Current cfg.tag generation then
    let c := { c with inbounds := c.inbounds.put ⟨cfg, routing, generation⟩ }
    let c := oldKeys.elim c fun oldKeys => c.releasePortsLocked cfg.tag oldKeys keys
    ({ c with tagPorts := c.tagPorts.put ⟨cfg.tag, keys⟩ }, match users with
      | none => .ok
      | some text => .users text)
  else (c, .error (.superseded cfg.tag))

/-- `applyInbound`.  `order` is how Go goes through the fields of the configuration. -/
def applyInbound (c : NativeCore) (cfg : Option InboundConfig) (routing : Option Routing)
    (order : Document) (ch : Chance) : NativeCore × Result :=
  match cfg with
  | none => (c, .error .noConfig)
  | some cfg =>
    if cfg.tag = "" then (c, .error .noTag)
    else if cfg.port < 1 ∨ 65535 < cfg.port then (c, .error (.invalidPort cfg.tag cfg.port))
    else if c.closed ∨ c.started = false then (c, .error .notStarted)
    else
      let keys := inboundPortKeys order cfg
      let previous := c.inbounds.get cfg.tag
      match c.portConflictLocked keys cfg.tag, ch.new, ch.build with
      | some e, _, _ => (c, .config (.conflict e) previous.isSome)
      | none, some text, _ => (c, .config (.new text) previous.isSome)
      | none, none, some text => (c, .config (.build text) previous.isSome)
      | none, none, none =>
        let claimed := c.claimed cfg.tag keys
        match ch.start with
        | some e =>
          claimed.startFailed cfg keys (c.keysOf cfg.tag) previous (c.seq + 1) e ch.restore
        | none =>
          claimed.startDone cfg routing keys (c.keysOf cfg.tag) (c.seq + 1) ch.users

def delInbound (c : NativeCore) (tag : String) : NativeCore :=
  let c := { c with
    seq := c.seq + 1
    desired := c.desired.put ⟨tag, c.seq + 1⟩
    inbounds := c.inbounds.erase tag }
  match c.keysOf tag with
  | none => c
  | some keys =>
    let c := c.releasePortsLocked tag keys []
    { c with tagPorts := c.tagPorts.erase tag }

def setInboundOwner (c : NativeCore) (owner : InboundOwner) : NativeCore :=
  { c with owners := c.owners.put owner }

end NativeCore

end Pandora.Dataplane
