import Pandora.Agent.Kernel
import Pandora.Foundation.Clock

/-!
# One node

What the node daemon keeps of one node, and the steps it takes: a roster or a change to one
arrives, a configuration arrives, a configuration that could not be installed is tried again, the
health of the inbound is reported.  All steps of a daemon are taken one after another.

A node and its inbound in the kernel are one `Cell`.  What the outside decides during a step, the
clock and the answers of the kernel among it, is its `Chance`; what the daemon says to the panel
is written down in `sent`, the last word first.
-/

namespace Pandora.Agent

/-- The functions on texts that stay open: the digest of a document, its decoding with the numbers
as they are written, and the whole number that a text spells. -/
structure Codec where
  digest : String → String
  decode : String → Option Document
  intText : String → Option ℤ

structure NodeConfig where
  nodeId : String
  nodeType : String
  configJson : String
  contentSha256 : String

/-- `strings.ToLower`, of a digest. -/
def lower (s : String) : String := String.ofList (s.toList.map Char.toLower)

/-- Texts that are their own digest. -/
def Codec.plain (decode : String → Option Document) : Codec := ⟨id, decode, fun _ => some 443⟩

def NodeConfig.plain (text : String) : NodeConfig := ⟨"n1", "vless", text, text⟩

/-- The digest that a configuration claims to have. -/
def NodeConfig.sha (nc : NodeConfig) : String := lower nc.contentSha256

structure StagedUsers where
  version : String
  users : List User

structure ApplyFailure where
  sha : String
  cfg : NodeConfig
  attempts : ℕ
  nextRetry : Time
  reason : String
  fromCache : Bool

/-- `ConfigPhase`. -/
inductive Phase
  | switched | healthPassed | failed
  deriving DecidableEq

/-- What is said to the panel of one node. -/
inductive Sent
  | users (ack : UsersAck)
  | config (sha : String) (phase : Phase) (reason : String)
  deriving DecidableEq

structure Node where
  nodeType : String
  known : Users := ∅
  userVersion : String := ""
  staged : Option StagedUsers := none
  pendingUsersAck : Option UsersAck := none
  started : Bool := false
  activeConfig : Option Document := none
  appliedSHA : String := ""
  appliedAt : Time := 0
  healthPending : Bool := false
  failed : Option ApplyFailure := none
  fromCache : Bool := false
  offlineStart : Bool := false
  acked : List (String × Phase) := []

/-- A node and its inbound. -/
structure Cell where
  node : Node
  inbound : Option Inbound
  sent : List Sent

/-- `newNode`. -/
def Cell.new (nodeType : String) (inbound : Option Inbound) : Cell := ⟨{ nodeType }, inbound, []⟩

/-- What the outside decides during a step. -/
structure Chance where
  now : Time
  /-- `panel.Jitter`. -/
  jitter : ℤ → ℤ
  /-- There is a stream, and it takes what is said. -/
  connected : Bool
  /-- The certificate that the configuration needs is there. -/
  hasCert : Bool
  /-- `ApplyInboundWithUsers`, of the new configuration. -/
  install : Outcome
  /-- `ApplyInbound`, of the previous configuration. -/
  reinstall : Outcome
  /-- `AddUsers`, of the previous users, fails. -/
  restoreFails : Bool
  /-- The roster on disk. -/
  cachedUsers : Option StagedUsers
  order : Order
  calls : Calls

/-- The kernel does all that it is told. -/
def Chance.calm : Chance where
  now := 0
  jitter := id
  connected := true
  hasCert := true
  install := .installed
  reinstall := .installed
  restoreFails := false
  cachedUsers := none
  order := Order.listed
  calls := {}

def Cell.say (x : Cell) (s : Sent) : Cell := { x with sent := s :: x.sent }

/-! ## Rosters -/

def Cell.sendUsersAck (ch : Chance) (ack : UsersAck) (x : Cell) : Cell :=
  if ch.connected = true then x.say (.users ack) else x

def Cell.flushUsersAck (ch : Chance) (x : Cell) : Cell :=
  match x.node.pendingUsersAck with
  | none => x
  | some ack => Cell.sendUsersAck ch ack { x with node := { x.node with pendingUsersAck := none } }

def Node.resetUserMirror (n : Node) : Node :=
  { n with
    known := ∅
    userVersion := ""
    pendingUsersAck :=
      if n.userVersion = "" then n.pendingUsersAck else some ⟨n.userVersion, some .resync⟩ }

def Node.markInboundLost (n : Node) : Node := { n.resetUserMirror with started := false }

/-- The users of the inbound; without one, every call fails. -/
def Cell.table (x : Cell) : Table := (x.inbound.map (·.users)).getD ∅

def Cell.calls (ch : Chance) (x : Cell) : Calls :=
  if x.inbound.isSome then ch.calls else ⟨true, true, true⟩

/-- What a roster that was tried leaves, and the answer. -/
def Cell.attempted (ch : Chance) (version : String) (r : Users × Table × Bool) (x : Cell) : Cell :=
  let y : Cell :=
    { x with
      node := { x.node with known := r.1, userVersion := if r.2.2 = true then version else "" }
      inbound := x.inbound.map fun inbound => { inbound with users := r.2.1 } }
  y.sendUsersAck ch ⟨version, if r.2.2 = true then none else some .applyFailed⟩

def Cell.onUsersFull (ch : Chance) (version : String) (users : List User) (x : Cell) : Cell :=
  let users := normalizeUsers users
  if x.node.started = false then
    { x with node := { x.node with staged := some ⟨version, users⟩ } }
  else
    let r := applyUsers ch.order (x.calls ch) users x.node.known x.table
    let x := if r.2.2 = true then { x with node := { x.node with staged := none } } else x
    (x.attempted ch version r).flushUsersAck ch

def Cell.onUsersDelta (ch : Chance) (fromVersion toVersion : String) (upserted : List User)
    (removed : List ℤ) (x : Cell) : Cell :=
  if x.node.started = false ∨ x.node.userVersion = "" ∨ fromVersion ≠ x.node.userVersion then
    x.sendUsersAck ch ⟨toVersion, some .versionMismatch⟩
  else
    let r := applyUserDelta (x.calls ch) upserted removed x.node.known x.table
    (x.attempted ch toVersion r).flushUsersAck ch

/-! ## The users that come with an inbound -/

/-- Where a roster comes from. -/
inductive Source
  | known | staged | cache | none
  deriving DecidableEq

structure PreparedUsers where
  users : List User
  version : String
  source : Source

def Node.prepareInstallUsers (ch : Chance) (n : Node) : PreparedUsers :=
  if n.known.values ≠ [] then ⟨ch.order.apply n.known.values, n.userVersion, .known⟩
  else
    match n.staged, n.offlineStart, ch.cachedUsers with
    | some staged, _, _ => ⟨normalizeUsers staged.users, staged.version, .staged⟩
    | none, true, some cached => ⟨normalizeUsers cached.users, cached.version, .cache⟩
    | none, _, _ => ⟨[], "", .none⟩

def Node.adoptInstalledUsers (p : PreparedUsers) (refused : Bool) (n : Node) : Node :=
  if refused = true then
    let n := n.resetUserMirror
    { n with
      staged := none
      pendingUsersAck :=
        if n.pendingUsersAck = none ∧ p.version ≠ "" then some ⟨p.version, some .applyFailed⟩
        else n.pendingUsersAck }
  else
    let n := { n with known := mirrorOf p.users, userVersion := p.version }
    if p.source = .staged then { n with staged := none, pendingUsersAck := some ⟨p.version, none⟩ }
    else n

/-! ## Configurations -/

/-- `acmeIdentifier` is not empty. -/
def isAcme (cfg : Document) : Bool :=
  match cfg.field "cert_mode", cfg.field "cert_identifier" with
  | some (.str mode), some (.str id) =>
    lower (trim mode) = "acme" && trim id ∉ ["", ".", "[", "]", "[]", "[.", ".]", "[.]"]
  | _, _ => false

/-- The users of before are put back; the inbound is given up if that fails. -/
def Cell.restoreUsers (ch : Chance) (x : Cell) : Cell × Bool :=
  if x.node.known.values = [] then (x, true)
  else if ch.restoreFails = true ∨ x.inbound.isNone then
    ({ x with node := x.node.markInboundLost }, false)
  else
    ({ x with
        inbound := x.inbound.map fun inbound =>
          { inbound with users := inbound.users.addAll (ch.order.apply x.node.known.values) } },
      true)

/-- The part of `applyConfigOnce` that follows a failure which has left no inbound: the previous
configuration is installed again. -/
def Cell.rollBack (codec : Codec) (ch : Chance) (x : Cell) : Cell :=
  match x.node.activeConfig with
  | none => x
  | some previous =>
    let (inbound, r) :=
      installConfig codec.intText ch.reinstall previous x.node.nodeType [] x.inbound
    let x := { x with inbound }
    if r = .ok then
      let (x, restored) := x.restoreUsers ch
      if restored = true then { x with node := { x.node with started := true } } else x
    else { x with node := x.node.markInboundLost }

def Cell.applyConfigOnce (codec : Codec) (ch : Chance) (cfg : Document) (nodeType : String)
    (x : Cell) : Cell × Option Cause :=
  match cloneConfigMap cfg with
  | none => (x, some .snapshot)
  | some snapshot =>
    let prepared := x.node.prepareInstallUsers ch
    let (inbound, r) :=
      installConfig codec.intText ch.install cfg nodeType prepared.users x.inbound
    let x := { x with inbound }
    match r with
    | .preserved cause => ((x.restoreUsers ch).1, some cause)
    | .failed cause => (x.rollBack codec ch, some cause)
    | r =>
      let n := { x.node with activeConfig := some snapshot, nodeType := trim nodeType }
      let n := n.adoptInstalledUsers prepared (r = .usersRefused)
      ({ x with node := { n with started := true } }, none)

def Cell.installNodeConfig (codec : Codec) (ch : Chance) (nc : NodeConfig) (x : Cell) :
    Cell × Option Cause :=
  if codec.digest nc.configJson ≠ nc.sha then (x, some .digestMismatch)
  else
    match codec.decode nc.configJson with
    | none => (x, some .invalidJson)
    | some cfg =>
      if isAcme cfg = true ∧ ch.hasCert = false then (x, some .certPending)
      else
        match x.applyConfigOnce codec ch cfg nc.nodeType with
        | (x, some cause) => (x, some cause)
        | (x, none) =>
          ({ x with
              node := { x.node with
                appliedSHA := nc.sha
                appliedAt := ch.now
                healthPending := true
                failed := none } }, none)

/-- `sendConfigAck`; the answer is whether the panel has been told. -/
def Cell.sendConfigAck (ch : Chance) (sha : String) (phase : Phase) (reason : String) (x : Cell) :
    Cell × Bool :=
  if (sha, phase) ∈ x.node.acked then (x, true)
  else if ch.connected = false then (x, false)
  else
    (Cell.say { x with node := { x.node with acked := (sha, phase) :: x.node.acked } }
      (.config sha phase reason), true)

def minute : ℤ := 60000000000

/-- `applyRetryDelay`, before the jitter. -/
def applyRetryDelay (attempts : ℕ) : ℤ :=
  if attempts ≤ 3 then minute * 2 ^ (attempts - 1) else 5 * minute

def stoppedRetryInterval : ℤ := minute

def healthStabilityWindow : ℤ := 5000000000

/-- The entry of a configuration that could not be installed. -/
def Node.recordFailure (ch : Chance) (nc : NodeConfig) (cause : Cause) (n : Node) : ApplyFailure :=
  let before : ApplyFailure :=
    match n.failed with
    | some f => if f.sha = nc.sha then f else ⟨nc.sha, nc, 0, 0, cause.reason, false⟩
    | none => ⟨nc.sha, nc, 0, 0, cause.reason, false⟩
  { before with
    cfg := nc
    attempts := before.attempts + 1
    nextRetry := ch.now + ch.jitter
      (if n.started = true then applyRetryDelay (before.attempts + 1) else stoppedRetryInterval) }

/-- The configuration failed when the daemon started from its cache, and no stream has come
since. -/
def Node.offline (nc : NodeConfig) (n : Node) : Bool :=
  match n.failed with
  | some f => f.fromCache && f.sha = nc.sha
  | none => false

def Cell.tryInstall (codec : Codec) (ch : Chance) (nc : NodeConfig) (x : Cell) : Cell :=
  let offline := x.node.offline nc
  let (x, result) :=
    Cell.installNodeConfig codec ch nc { x with node := { x.node with offlineStart := offline } }
  let x := { x with node := { x.node with offlineStart := false } }
  match result with
  | some cause =>
    let f := x.node.recordFailure ch nc cause
    (Cell.sendConfigAck ch nc.sha .failed f.reason
      { x with node := { x.node with failed := some f } }).1
  | none =>
    if offline = true then
      { x with node := { x.node with fromCache := true, healthPending := false } }
    else (x.sendConfigAck ch nc.sha .switched "").1

def Cell.applyNodeConfig (codec : Codec) (ch : Chance) (nc : NodeConfig) (x : Cell) : Cell :=
  let y :=
    if x.node.started = true ∧ x.node.appliedSHA = nc.sha ∧ x.node.nodeType = trim nc.nodeType then
      (Cell.sendConfigAck ch nc.sha .switched ""
        { x with node := { x.node with failed := none } }).1
    else
      match x.node.failed with
      | some f =>
        if f.sha = nc.sha ∧ x.node.started = true ∧ ch.now < f.nextRetry then
          (x.sendConfigAck ch nc.sha .failed f.reason).1
        else x.tryInstall codec ch nc
      | none => x.tryInstall codec ch nc
  y.flushUsersAck ch

def Cell.retryFailedConfig (codec : Codec) (ch : Chance) (x : Cell) : Cell :=
  match x.node.failed with
  | none => x
  | some f =>
    if ch.now < f.nextRetry then x else (x.tryInstall codec ch f.cfg).flushUsersAck ch

/-- `reportHealth`; the kernel is ready if an inbound is published. -/
def Cell.reportHealth (ch : Chance) (x : Cell) : Cell :=
  if x.node.healthPending = false ∨ x.node.started = false ∨ x.node.failed.isSome ∨
      ch.now - x.node.appliedAt < healthStabilityWindow then x
  else if x.inbound.isNone then x
  else
    let (y, told) := x.sendConfigAck ch x.node.appliedSHA .healthPassed ""
    if told = true then { y with node := { y.node with healthPending := false } } else y

end Pandora.Agent
