import Pandora.Foundation.Runs
import Pandora.Sessions.Refresh

/-!
# Sign-ins, refreshes and revocations that overlap

`Config` is the store together with every request that has begun.  A request advances by one
access to the store at a time (`Config.turn`); what such a step hears from elsewhere --- the
clock, the user whose password was right, random texts, whether someone still is an admin ---
is its `Input`, and may be anything.  A request may also stop at any point (`Label.fail`): a
wrong password, an account that is not active, an error.

The three sign-ins end in the same way, `Flow.ready`: a new session is written, with the epoch
that was read before.  They differ in when they read it.

* `login` reads the epoch of the account that the address belonged to before it verifies the
  password; if the password turns out to be that of another account it reads that account's
  epoch after the verification.
* `ConsumeQuickLogin` reads the epoch after the token is consumed.
* `ConsumeMailLogin` uses the epoch that `StartMailLogin` read before it issued the link.

The last fields of `Config` are a record of what happened, which no step reads: at which
moment the credential behind a session was accepted and the session created, when a mail link
was issued, and all revocations and rotations.
-/

namespace Pandora.Sessions

open Store

/-- Where a request is.  `proved` is the moment at which its credential was accepted. -/
inductive Flow
  /-- `login`, about to read the epoch of the account found for the address. -/
  | login (aud : Audience) (uid0 : UUID) (now : ℤ)
  /-- About to verify the password. -/
  | loginEpoch (aud : Audience) (uid0 : UUID) (now : ℤ) (epoch0 : ℕ)
  /-- The password is that of another account, whose epoch is to be read. -/
  | loginOther (aud : Audience) (uid : UUID) (now : ℤ) (proved : ℕ)
  /-- `ConsumeQuickLogin`, about to read the epoch. -/
  | quickLogin (uid : UUID) (now : ℤ) (proved : ℕ)
  /-- `StartMailLogin`, about to read the epoch. -/
  | mailLink (uid : UUID)
  /-- About to issue the link. -/
  | mailLinkEpoch (uid : UUID) (epoch : ℕ)
  /-- `ConsumeMailLogin`, about to compare the epoch. -/
  | mailLogin (uid : UUID) (epoch : ℕ) (proved : ℕ)
  /-- Any of the three, about to create the session. -/
  | ready (uid : UUID) (aud : Audience) (amr : AMR) (epoch : ℕ) (now : ℤ) (proved : ℕ)
  | refresh (call : Call)
  | ended

/-- The moments at which a session's credential was accepted, and the session created. -/
structure Origin where
  proved : ℕ
  created : ℕ
  deriving DecidableEq

/-- A step of `revokeUser`. -/
structure Revocation where
  uid : UUID
  except : Option UUID
  scope : Scope
  moment : ℕ
  deriving DecidableEq

/-- A rotation: the request that made it, the session, and the generation it replaced. -/
structure Rotation where
  flow : ℕ
  sid : UUID
  gen : ℕ

structure Config where
  db : Store
  flows : List Flow
  /-- Session identifiers from here on have not been given out. -/
  nextId : UUID
  /-- The number of steps so far. -/
  moment : ℕ
  origins : UUID → Option Origin
  /-- When the mail link of a hash was issued last. -/
  links : Hash → ℕ
  revocations : List Revocation
  rotations : List Rotation

def Config.empty : Config :=
  ⟨.empty, [], 0, 0, fun _ => none, fun _ => 0, [], []⟩

/-- What a step hears from outside the store. -/
structure Input where
  now : ℤ
  user : UUID
  stillAdmin : Bool
  secret : Secret

def Env.newSession (env : Env) (sid uid : UUID) (aud : Audience) (amr : AMR) (epoch : ℕ)
    (now : ℤ) (seed : Secret) : Session where
  uid := uid
  aud := aud
  amr := [amr]
  lastSeen := unix now
  reauthAt := if amr = .password then unix now else 0
  absExp := unix (now + env.sessionTTL aud)
  rtSeed := some seed
  rtCur := env.keys.hashSecret (env.keys.refreshSecret sid seed 0)
  rtPrev := none
  rtRotatedAt := 0
  epoch := epoch

/-- The generation a call is about to replace, if its script will answer that it did. -/
def Call.rotates (env : Env) (c : Call) (st : Store) : Bool :=
  match c.stage with
  | .rotate _ now seen .rotate =>
    match (c.script env now seen .rotate st).1 with
    | .ok _ => true
    | _ => false
  | _ => false

namespace Config

variable (env : Env) (c : Config)

/-- A request is somewhere else now. -/
def go (p : ℕ) (f : Flow) : Config := { c with flows := c.flows.set p f }

/-- A request begins. -/
def begin (f : Flow) : Config := { c with flows := c.flows ++ [f] }

/-- The session is written, unless the epoch has changed. -/
def createSession (p : ℕ) (uid : UUID) (aud : Audience) (amr : AMR) (epoch : ℕ) (now : ℤ)
    (proved : ℕ) (seed : Secret) : Config :=
  let sid := c.nextId
  let r := c.db.create sid (env.newSession sid uid aud amr epoch now seed)
  { c.go p .ended with
    db := r.2
    nextId := sid + 1
    origins := if r.1 then Function.update c.origins sid (some ⟨proved, c.moment⟩) else c.origins }

/-- The next step of the request at a position. -/
def turn (p : ℕ) (i : Input) : Config :=
  match c.flows[p]? with
  | none => c
  | some (.login aud uid0 now) => c.go p (.loginEpoch aud uid0 now (c.db.uepoch uid0))
  | some (.loginEpoch aud uid0 now epoch0) =>
    if i.user ≠ uid0 then c.go p (.loginOther aud i.user now c.moment)
    else c.go p (.ready i.user aud .password epoch0 now c.moment)
  | some (.loginOther aud uid now proved) =>
    c.go p (.ready uid aud .password (c.db.uepoch uid) now proved)
  | some (.quickLogin uid now proved) =>
    c.go p (.ready uid .portal .quickLogin (c.db.uepoch uid) now proved)
  | some (.mailLink uid) => c.go p (.mailLinkEpoch uid (c.db.uepoch uid))
  | some (.mailLinkEpoch uid epoch) =>
    let hash := env.keys.hashSecret i.secret
    { c.go p .ended with
      db := c.db.issueMailLink uid hash epoch
      links := Function.update c.links hash c.moment }
  | some (.mailLogin uid epoch proved) =>
    if c.db.uepoch uid ≠ epoch then c.go p .ended
    else c.go p (.ready uid .portal .mailLink epoch i.now proved)
  | some (.ready uid aud amr epoch now proved) =>
    c.createSession env p uid aud amr epoch now proved i.secret
  | some (.refresh call) =>
    let r := call.step env i.stillAdmin i.now c.db
    { c.go p (.refresh r.1) with
      db := r.2
      rotations := if call.rotates env c.db then
        c.rotations ++ [⟨p, call.token.sid, call.token.gen⟩] else c.rotations }
  | some .ended => c

end Config

/-- What may happen next. -/
inductive Label
  | login (aud : Audience) (uid0 : UUID) (now : ℤ)
  | quickLogin (hash : Hash) (now : ℤ)
  | mailLink (uid : UUID)
  | mailLogin (hash : Hash)
  | refresh (aud : Audience) (token : Token) (now : ℤ)
  | turn (p : ℕ) (i : Input)
  | fail (p : ℕ)
  | issueQuickLogin (sid uid : UUID) (hash : Hash)
  | check (sid uid : UUID) (aud : Option Audience) (now : ℤ)
  | revokeOne (sid uid : UUID) (aud : Option Audience)
  | revokeUser (uid : UUID) (except : Option UUID) (scope : Scope)
  | stampReauth (sid uid : UUID) (aud : Audience) (now : ℤ)
  | expire (key : Key)

namespace Config

variable (env : Env) (c : Config)

/-- What a label does, apart from the passing of the moment. -/
def act : Label → Config
  | .login aud uid0 now => c.begin (.login aud uid0 now)
  | .quickLogin hash now =>
    let r := c.db.consumeQuickLogin hash .portal (unix now)
    { c.begin (match r.1 with
        | some (_, uid) => .quickLogin uid now c.moment
        | none => .ended) with db := r.2 }
  | .mailLink uid => c.begin (.mailLink uid)
  | .mailLogin hash =>
    let r := c.db.consumeMailLink hash
    { c.begin (match r.1 with
        | some (uid, epoch) => .mailLogin uid epoch (c.links hash)
        | none => .ended) with db := r.2 }
  | .refresh aud token now => c.begin (.refresh ⟨aud, token, .read 0 now⟩)
  | .turn p i => c.turn env p i
  | .fail p => c.go p .ended
  | .issueQuickLogin sid uid hash => { c with db := (c.db.issueQuickLogin sid uid hash).2 }
  | .check sid uid aud now =>
    { c with db := (c.db.check sid uid aud (unix now) (seconds env.adminIdleTimeout)).2 }
  | .revokeOne sid uid aud => { c with db := (c.db.revokeOne sid uid aud).2 }
  | .revokeUser uid except scope =>
    { c with
      db := (c.db.revokeUser uid except scope).2
      revocations := c.revocations ++ [⟨uid, except, scope, c.moment⟩] }
  | .stampReauth sid uid aud now =>
    { c with db := (c.db.stampReauth sid uid aud (unix now) (seconds env.adminIdleTimeout)).2 }
  | .expire key => { c with db := c.db.expire key }

/-- One step. -/
def next (l : Label) : Config := { c.act env l with moment := c.moment + 1 }

/-- The configuration after the labels, from an empty store. -/
def run (labels : List Label) : Config := labels.foldl (next env) .empty

end Config

end Pandora.Sessions
