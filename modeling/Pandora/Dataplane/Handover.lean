import Pandora.Foundation.Runs
import Pandora.Traffic.Conservation

/-!
# From the inbounds to the report buffer

An adapter counts the bytes of its users until its `Close` returns.  The loop of the server takes
what has been counted at every tick of `report`, and adds it to the report buffer under the number
of the node.  An inbound that is replaced or removed is closed, and what it still had is put aside
under its tag (`retiredTraffic`), for the next call of `GetTraffic`.  When the process ends, the
core is closed while the loop may still be at work, and what has been put aside by then is handed
to `Shutdown`.

What a thread does under one lock is one `Op` here; a thread is the list of what it has yet to do.
The adapters count in between.  An entry remembers the adapter that counted it, so that it can be
followed.
-/

namespace Pandora.Dataplane.Handover

open Traffic (Direction)

/-! ## Adapters -/

/-- A `core.UserTraffic`, and the adapter that counted it. -/
structure Entry where
  origin : ℕ
  id : ℤ
  up : ℕ := 0
  down : ℕ := 0
  deriving DecidableEq

def Entry.bytes (d : Direction) (e : Entry) : ℕ :=
  match d with
  | .upload => e.up
  | .download => e.down

/-- Where an adapter is in its life. -/
inductive Stage
  | running
  /-- `closeNativeInbound` waits for `Close`, with the lock of the inbound. -/
  | closing
  /-- `closeNativeInbound` has not waited any longer. -/
  | abandoned
  /-- `Close` has returned. -/
  | shut
  deriving DecidableEq

structure Adapter where
  tag : String
  stage : Stage := .running
  /-- What `SnapshotTraffic` would return. -/
  held : Keyed Entry.id := ∅
  /-- What it has ever counted. -/
  counted : List Entry := []
  /-- It has been closed, and what it still had has been put aside. -/
  ended : Bool := false
  /-- Since then a tick has run, or `Shutdown`. -/
  swept : Bool := false

/-- Bytes of a user are counted. -/
def Adapter.count (x : Adapter) (a : ℕ) (id : ℤ) (d : Direction) (n : ℕ) : Adapter :=
  let e : Entry := match d with
    | .upload => ⟨a, id, n, 0⟩
    | .download => ⟨a, id, 0, n⟩
  let old : Entry := (x.held.get id).getD ⟨a, id, 0, 0⟩
  { x with
    held := x.held.put ⟨a, id, old.up + e.up, old.down + e.down⟩
    counted := e :: x.counted }

/-! ## The core and the server -/

/-- An entry of `inbounds`. -/
structure Published where
  tag : String
  adapter : ℕ

/-- `Node`.  `configured` is `activeConfig != nil`. -/
structure Node where
  id : String
  started : Bool := false
  configured : Bool := false

/-- How `installConfig` returns. -/
inductive Installed
  | ok
  /-- `ConfigApplyError` with `PreviousPreserved`. -/
  | preserved
  | failed
  deriving DecidableEq

/-- How far the closing of an inbound is. -/
inductive Closing
  /-- `closeNativeInbound`: take the lock. -/
  | lock
  /-- `closeAdapterBounded`. -/
  | wait
  /-- `stashRetiredTraffic`: `SnapshotTraffic`. -/
  | snap
  /-- `stashRetiredTraffic`: put it aside. -/
  | put (traffic : List Entry)
  deriving DecidableEq

/-- What a thread does next. -/
inductive Op
  /-- `collectNodeTraffic`: `GetTraffic` under the lock of the core. -/
  | collect (id : String)
  /-- `GetTraffic` under the lock of the inbound. -/
  | snapshot (id : String) (retired : List Entry) (a : ℕ)
  /-- `bufferTraffic`. -/
  | buffer (id : String) (traffic : List Entry)
  /-- The tick of `report` ends. -/
  | endTick
  /-- `applyNodeConfig`. -/
  | configure (id : String)
  /-- `installConfig`, up to the claim of the ports; `again` for the one that restores. -/
  | install (id : String) (again : Bool)
  /-- `applyInbound`: the old inbound is taken out. -/
  | detach (id : String) (again : Bool)
  /-- `applyInbound`: `Start`. -/
  | start (id : String) (again previous : Bool)
  /-- `applyInbound`: the new inbound is put in. -/
  | publish (id : String) (again : Bool) (a : ℕ)
  /-- `restoreInbound`. -/
  | restore (id : String) (again : Bool)
  /-- `applyInbound`: the inbound that was restored is put in. -/
  | republish (id : String) (again : Bool) (a : ℕ)
  /-- `applyConfigOnce`, after `installConfig`. -/
  | settle (id : String) (again : Bool) (r : Installed)
  /-- `closeNativeInbound` and `stashRetiredTraffic`. -/
  | retire (tag : String) (a : ℕ) (phase : Closing)
  /-- `closeNativeInbound` alone, of an inbound that was not put in. -/
  | discard (a : ℕ) (waiting : Bool)
  /-- `removeNode` of the nodes that are not in the configuration. -/
  | removeUnseen (seen : List String)
  | removeNode (id : String)
  /-- `DelInbound`. -/
  | delInbound (id : String)
  /-- `removeNode`: the node is forgotten. -/
  | forget (id : String)
  | setOrder (order : List String)
  deriving DecidableEq

/-- What an operation carries from where it was taken to where it goes. -/
def Op.carried : Op → List Entry
  | .snapshot _ retired _ => retired
  | .buffer _ traffic => traffic
  | .retire _ _ (.put traffic) => traffic
  | _ => []

/-- What comes from outside. -/
structure Chance where
  /-- The version is there already, or is known not to work. -/
  skip : Bool := false
  /-- The configuration does not reach the core. -/
  reject : Bool := false
  /-- A port is taken, or the adapter or the routing cannot be made. -/
  refuse : Bool := false
  startFails : Bool := false
  restoreFails : Bool := false
  /-- The users of the old configuration cannot be put back. -/
  usersFail : Bool := false
  /-- `Close` does not return in time. -/
  timeout : Bool := false
  /-- `SnapshotTraffic` fails. -/
  snapshotFails : Bool := false

/-- How far `CloseAndDrainTraffic` and `Shutdown` are. -/
inductive Ending
  | none
  | closing
  /-- `CloseAndDrainTraffic` has returned. -/
  | drained (traffic : List (String × Entry))
  | finished

def Ending.traffic : Ending → List (String × Entry)
  | .drained traffic => traffic
  | _ => []

structure Config where
  adapters : ℕ → Adapter := fun _ => { tag := "" }
  made : ℕ := 0
  inbounds : Keyed Published.tag := ∅
  /-- `retiredTraffic`, each entry with its tag. -/
  retired : List (String × Entry) := []
  closed : Bool := false
  nodes : Keyed Node.id := ∅
  order : List String := []
  /-- What the loop has yet to do. -/
  pc : List Op := []
  stopped : Bool := false
  /-- The threads of `CloseAndDrainTraffic`. -/
  threads : List (List Op) := []
  ending : Ending := .none
  /-- What has been added to the report buffer, and under which node. -/
  handed : List (String × Entry) := []
  /-- In a tick: the inbounds that were over when it began. -/
  tick : Option (List ℕ) := none

namespace Config

def onAdapter (c : Config) (a : ℕ) (f : Adapter → Adapter) : Config :=
  { c with adapters := Function.update c.adapters a (f (c.adapters a)) }

/-- An adapter is made and started. -/
def startAdapter (c : Config) (tag : String) : Config :=
  { c with adapters := Function.update c.adapters c.made { tag := tag }, made := c.made + 1 }

def setStarted (c : Config) (id : String) (started : Bool) : Config :=
  match c.nodes.get id with
  | none => c
  | some n => { c with nodes := c.nodes.put { n with started := started } }

/-- `takeRetiredTrafficLocked`. -/
def takeRetired (c : Config) (tag : String) : Config × List Entry :=
  ({ c with retired := c.retired.filter (·.1 ≠ tag) }, (c.retired.filter (·.1 = tag)).map (·.2))

/-- Traffic is put aside under a tag. -/
def putRetired (c : Config) (tag : String) (traffic : List Entry) : Config :=
  { c with retired := c.retired ++ traffic.map (tag, ·) }

def bufferTraffic (c : Config) (id : String) (traffic : List Entry) : Config :=
  { c with handed := c.handed ++ traffic.map (id, ·) }

/-- The inbounds that are over. -/
def overNow (c : Config) : List ℕ := (List.range c.made).filter fun a => (c.adapters a).ended

/-- A tick has run since these were over. -/
def sweep (c : Config) (l : List ℕ) : Config :=
  { c with adapters := fun a =>
      if a ∈ l then { c.adapters a with swept := true } else c.adapters a }

end Config

/-! ## Operations -/

namespace Config

/-- `GetTraffic`, under the lock of the core. -/
def getTraffic (c : Config) (id : String) : Config × List Op :=
  match c.takeRetired id with
  | (c, retired) => match c.inbounds.get id with
    | none => (c, [.buffer id retired])
    | some p => (c, [.snapshot id retired p.adapter])

def snapshotTraffic (c : Config) (a : ℕ) : Config × List Entry :=
  (c.onAdapter a fun x => { x with held := ∅ }, (c.adapters a).held.values)

/-- `GetTraffic`, under the lock of the inbound. -/
def getLive (c : Config) (id : String) (retired : List Entry) (a : ℕ) (ch : Chance) :
    Config × List Op :=
  match (c.adapters a).stage with
  | .closing => (c, [.snapshot id retired a])
  | .abandoned | .shut => (c, [.buffer id retired])
  | .running =>
    if ch.snapshotFails then (c.putRetired id retired, [])
    else match c.snapshotTraffic a with
      | (c, live) => (c, [.buffer id (retired ++ live)])

/-- The closing of an inbound, and what it still had. -/
def retire (c : Config) (tag : String) (a : ℕ) (ch : Chance) : Closing → Config × List Op
  | .lock => match (c.adapters a).stage with
    | .running => (c.onAdapter a fun x => { x with stage := .closing }, [.retire tag a .wait])
    | .closing => (c, [.retire tag a .lock])
    | .abandoned | .shut => (c, [.retire tag a .snap])
  | .wait =>
    (c.onAdapter a fun x => { x with stage := if ch.timeout then .abandoned else .shut },
      [.retire tag a .snap])
  | .snap =>
    if ch.snapshotFails then (c, [.retire tag a (.put [])])
    else match c.snapshotTraffic a with
      | (c, live) => (c, [.retire tag a (.put live)])
  | .put traffic =>
    ((c.putRetired tag traffic).onAdapter a fun x => { x with ended := x.ended || x.stage = .shut },
      [])

/-- The closing of an inbound that was not put in. -/
def discard (c : Config) (a : ℕ) (ch : Chance) : Bool → Config × List Op
  | false => (c.onAdapter a fun x => { x with stage := .closing }, [.discard a true])
  | true =>
    (c.onAdapter a fun x =>
      { x with
        stage := if ch.timeout then .abandoned else .shut
        ended := x.ended || !ch.timeout }, [])

/-- The inbound of a tag is taken out, to be closed. -/
def takeInbound (c : Config) (tag : String) : Config × List Op :=
  match c.inbounds.get tag with
  | none => (c, [])
  | some p => ({ c with inbounds := c.inbounds.erase tag }, [.retire tag p.adapter .lock])

/-- `applyConfigOnce`, after `installConfig`. -/
def settle (c : Config) (id : String) (ch : Chance) : Bool → Installed → Config × List Op
  | false, .ok => match c.nodes.get id with
    | none => (c, [])
    | some n => ({ c with nodes := c.nodes.put { n with started := true, configured := true } }, [])
  | false, .preserved => (if ch.usersFail then c.setStarted id false else c, [])
  | false, .failed => match c.nodes.get id with
    | none => (c, [])
    | some n => (c, if n.configured then [.install id true] else [])
  | true, .ok => (c.setStarted id (!ch.usersFail), [])
  | true, _ => (c.setStarted id false, [])

/-- What an operation does, and what is to be done in its place. -/
def exec (c : Config) (ch : Chance) : Op → Config × List Op
  | .collect id => match c.nodes.get id with
    | none => (c, [])
    | some n => if n.started then c.getTraffic id else (c, [])
  | .snapshot id retired a => c.getLive id retired a ch
  | .buffer id traffic => (c.bufferTraffic id traffic, [])
  | .endTick => ({ c.sweep (c.tick.getD []) with tick := none }, [])
  | .configure id =>
    (match c.nodes.get id with
      | none => { c with nodes := c.nodes.put { id := id } }
      | some _ => c,
      if ch.skip then [] else [.install id false])
  | .install id again =>
    (c, if ch.reject ∨ c.closed then [.settle id again .failed]
      else if ch.refuse then
        [.settle id again (if (c.inbounds.get id).isSome then .preserved else .failed)]
      else [.detach id again])
  | .detach id again => match c.takeInbound id with
    | (c', ops) => (c', ops ++ [.start id again (c.inbounds.get id).isSome])
  | .start id again previous =>
    if ch.startFails then
      (c, if previous then [.restore id again] else [.settle id again .failed])
    else (c.startAdapter id, [.publish id again c.made])
  | .publish id again a =>
    if c.closed then (c, [.discard a false, .settle id again .failed])
    else match c.takeInbound id with
      | (c, stale) =>
        ({ c with inbounds := c.inbounds.put ⟨id, a⟩ }, stale ++ [.settle id again .ok])
  | .restore id again =>
    if ch.restoreFails then (c, [.settle id again .failed])
    else (c.startAdapter id, [.republish id again c.made])
  | .republish id again a =>
    if c.closed then (c, [.discard a false, .settle id again .failed])
    else ({ c with inbounds := c.inbounds.put ⟨id, a⟩ }, [.settle id again .preserved])
  | .settle id again r => c.settle id ch again r
  | .retire tag a phase => c.retire tag a ch phase
  | .discard a waiting => c.discard a ch waiting
  | .removeUnseen seen =>
    (c, ((c.nodes.values.map (·.id)).filter (· ∉ seen)).map .removeNode)
  | .removeNode id => match c.nodes.get id with
    | none => (c, [])
    | some n => (c, if n.started then [.collect id, .delInbound id, .forget id] else [.forget id])
  | .delInbound id => c.takeInbound id
  | .forget id => ({ c with nodes := c.nodes.erase id }, [])
  | .setOrder order => ({ c with order := order }, [])

end Config

/-! ## Steps -/

inductive Label
  /-- An adapter counts bytes of a user. -/
  | count (a : ℕ) (id : ℤ) (d : Direction) (n : ℕ)
  /-- A `Close` that was not waited for returns. -/
  | late (a : ℕ)
  /-- The loop begins a tick of `report`. -/
  | report
  /-- The loop begins `applyServerConfig`. -/
  | config (ids : List String)
  /-- The loop begins `retryFailedConfig`, or the like for a certificate. -/
  | retry (id : String)
  /-- The loop gets users for a node. -/
  | users (id : String)
  /-- The loop begins `stopAllForTombstone`. -/
  | tombstone
  /-- The loop goes on. -/
  | loop (ch : Chance)
  /-- The loop has come to its end. -/
  | stop
  /-- `CloseAndDrainTraffic` begins. -/
  | drain
  /-- A thread of `CloseAndDrainTraffic` goes on. -/
  | thread (i : ℕ) (ch : Chance)
  /-- `CloseAndDrainTraffic` takes what has been put aside, and returns. -/
  | take
  /-- `Shutdown`. -/
  | shutdown

/-- The loop begins something. -/
def Config.begin (c : Config) (ops : List Op) : Config :=
  if c.pc = [] ∧ c.stopped = false then { c with pc := ops } else c

/-- An operation of the loop. -/
def Config.execLoop (c : Config) (ch : Chance) : Config :=
  match c.pc with
  | [] => c
  | op :: rest => match c.exec ch op with
    | (c, ops) => { c with pc := ops ++ rest }

/-- An operation of a thread. -/
def Config.execThread (c : Config) (i : ℕ) (ch : Chance) : Config :=
  match c.threads[i]? with
  | none | some [] => c
  | some (op :: rest) => match c.exec ch op with
    | (c, ops) => { c with threads := c.threads.set i (ops ++ rest) }

/-- The order of a configuration. -/
def orderOf (ids : List String) : List String := (ids.filter (· ≠ "")).eraseDups

def next (c : Config) : Label → Config
  | .count a id d n =>
    if a < c.made ∧ (c.adapters a).stage ≠ .shut then c.onAdapter a fun x => x.count a id d n else c
  | .late a =>
    if (c.adapters a).stage = .abandoned then
      c.onAdapter a fun x => { x with stage := .shut, ended := true }
    else c
  | .report =>
    if c.pc = [] ∧ c.stopped = false then
      { c with pc := c.order.map .collect ++ [.endTick], tick := some c.overNow }
    else c
  | .config ids =>
    c.begin ((orderOf ids).map .configure ++ [.removeUnseen (orderOf ids), .setOrder (orderOf ids)])
  | .retry id => if (c.nodes.get id).isSome then c.begin [.install id false] else c
  | .users id =>
    if c.pc = [] ∧ c.stopped = false ∧ c.nodes.get id = none then
      { c with nodes := c.nodes.put { id := id } }
    else c
  | .tombstone => c.begin [.removeUnseen [], .setOrder []]
  | .loop ch => c.execLoop ch
  | .stop => if c.pc = [] then { c with stopped := true } else c
  | .drain =>
    if c.closed then c
    else
      { c with
        closed := true
        ending := .closing
        threads := c.inbounds.values.map fun p => [.retire p.tag p.adapter .lock]
        inbounds := ∅ }
  | .thread i ch => c.execThread i ch
  | .take => match c.ending with
    | .closing =>
      if c.threads.flatten = [] then { c with ending := .drained c.retired, retired := [] } else c
    | _ => c
  | .shutdown => match c.ending with
    | .drained traffic =>
      if c.stopped then
        { c.sweep c.overNow with handed := c.handed ++ traffic, ending := .finished }
      else c
    | _ => c

end Pandora.Dataplane.Handover
