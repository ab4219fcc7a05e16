import Mathlib.Data.Nat.Pairing
import Pandora.Sessions.Store

/-!
# Refreshing a session

A refresh token names a session and a generation and carries a secret that the service can
compute again for any generation: `refreshSecret`.  Generation numbers have 64 bits in the
source and go up by one with a rotation; they are natural numbers here.

`Refresh` first reads the session, then judges the token by what it read, and only then calls
a script that checks once more.  Between the steps other requests run, so a call is a state
(`Stage`) and every access to the store is one step of it.
-/

namespace Pandora.Sessions

open Store

/-- What is derived from the master key. -/
structure Keys where
  refreshSecret : UUID → Secret → ℕ → Secret
  hashSecret : Secret → Hash

/-- A refresh token that `parseRefresh` accepted. -/
structure Token where
  sid : UUID
  gen : ℕ
  secret : Secret

/-- What `Refresh` reads of a session. -/
structure RefreshState where
  userId : UUID
  audience : Audience
  rtSeed : Option Secret
  rtCur : Hash
  rtPrev : Option Hash
  rtRotatedAt : ℤ

/-- What a session shows to `readRefresh`. -/
def Session.refreshState (s : Session) : RefreshState :=
  ⟨s.uid, s.aud, s.rtSeed, s.rtCur, s.rtPrev, fromUnix s.rtRotatedAt⟩

def Store.readRefresh (st : Store) (sid : UUID) : Option RefreshState :=
  (st.sess sid).map Session.refreshState

/-- The secret of a generation of a session; a session without a seed has none. -/
def Keys.secretOf (k : Keys) (sid : UUID) (seed : Option Secret) (gen : ℕ) : Option Secret :=
  seed.map fun x => k.refreshSecret sid x gen

def Keys.refreshAuthentic (k : Keys) (t : Token) (seed : Option Secret) : Prop :=
  k.secretOf t.sid seed t.gen = some t.secret

instance (k : Keys) (t : Token) (seed : Option Secret) : Decidable (k.refreshAuthentic t seed) :=
  inferInstanceAs (Decidable (_ = _))

/-- The hash of the secret of a generation. -/
def Keys.hashOf (k : Keys) (sid : UUID) (seed : Option Secret) (gen : ℕ) : Option Hash :=
  (k.secretOf sid seed gen).map k.hashSecret

/-- What `Refresh` makes of what it read. -/
inductive Verdict
  | refused
  | reused
  | proceed (mode : Mode)

/-- The judgement of one round of `Refresh`. -/
def Keys.judge (k : Keys) (aud : Audience) (t : Token) (now : ℤ) (seen : RefreshState) : Verdict :=
  if seen.audience ≠ aud then .refused
  else if ¬ k.refreshAuthentic t seen.rtSeed then .refused
  else if k.hashSecret t.secret = seen.rtCur then .proceed .rotate
  else if some (k.hashSecret t.secret) = seen.rtPrev then
    if refreshGrace * second < Time.sub now seen.rtRotatedAt then .reused else .proceed .grace
  else .reused

/-- What a call answers. -/
inductive Answer
  /-- `errSessionInvalid`. -/
  | refused
  | granted (uid : UUID) (amr : List AMR) (expires : ℤ) (refresh : Option Token)

/-- Where a call of `Refresh` is. -/
inductive Stage
  /-- About to read, in one of the two rounds. -/
  | read (round : ℕ) (now : ℤ)
  /-- The token was used before: about to revoke the session. -/
  | reused (seen : RefreshState)
  /-- A session of the admin audience: about to ask whether its user still is an admin. -/
  | gate (round : ℕ) (now : ℤ) (seen : RefreshState) (mode : Mode)
  /-- The user is no admin any more: about to revoke the session. -/
  | demoted (seen : RefreshState)
  /-- About to call the script. -/
  | rotate (round : ℕ) (now : ℤ) (seen : RefreshState) (mode : Mode)
  | done (answer : Answer)

/-- A call of `Refresh`. -/
structure Call where
  aud : Audience
  token : Token
  stage : Stage

/-- What the service is configured with: how long an admin session may be idle, and how long
sessions last. -/
structure Env where
  keys : Keys
  adminIdleTimeout : ℤ
  sessionTTL : Audience → ℤ

/-- A service in which every generation of every session has a secret and a hash of its own,
admin sessions may be idle for an hour, and sessions last a day. -/
def Env.sample : Env where
  keys := ⟨fun sid seed gen => Nat.pair (Nat.pair sid gen) seed, id⟩
  adminIdleTimeout := 3600 * second
  sessionTTL := fun _ => 86400 * second

def Env.idleTimeout (env : Env) (aud : Audience) : ℤ :=
  idleFor aud env.adminIdleTimeout

/-- A duration in whole seconds. -/
def seconds (d : ℤ) : ℤ := d.tdiv second

/-- What a token's next generation is, computed from the seed that was read. -/
def Keys.nextToken (k : Keys) (t : Token) (seed : Option Secret) : Option Token :=
  (k.secretOf t.sid seed (t.gen + 1)).map fun x => ⟨t.sid, t.gen + 1, x⟩

namespace Call

variable (env : Env) (c : Call)

/-- The stage after the read. -/
def afterRead (round : ℕ) (now : ℤ) : Option RefreshState → Stage
  | none => .done .refused
  | some seen =>
    match env.keys.judge c.aud c.token now seen with
    | .refused => .done .refused
    | .reused => .reused seen
    | .proceed mode =>
      if c.aud = .admin then .gate round now seen mode else .rotate round now seen mode

/-- The refresh token that goes with the answer.  Within the grace period it is the current
one, sent once more. -/
def handOut (seen : RefreshState) (mode : Mode) : Option Token :=
  match env.keys.nextToken c.token seen.rtSeed with
  | none => none
  | some t =>
    if mode = .rotate ∨ env.keys.hashSecret t.secret = seen.rtCur then some t else none

/-- The stage after the script: a conflict in the first round leads to the second, which
takes a new time. -/
def afterRotate (round : ℕ) (seen : RefreshState) (mode : Mode) (later : ℤ) : Rotated → Stage
  | .invalid => .done .refused
  | .conflict => if round + 1 < 2 then .read (round + 1) later else .done .refused
  | .ok s => .done (.granted seen.userId s.amr s.absExp (c.handOut env seen mode))

/-- The hash that a rotation writes. -/
def newHash (seen : RefreshState) : Hash :=
  match env.keys.hashOf c.token.sid seen.rtSeed (c.token.gen + 1) with
  | some h => h
  | none => 0

/-- The call of the script. -/
def script (now : ℤ) (seen : RefreshState) (mode : Mode) (st : Store) : Rotated × Store :=
  st.rotate c.token.sid seen.userId c.aud (unix now) (seconds (env.idleTimeout c.aud)) mode
    (env.keys.hashSecret c.token.secret) (c.newHash env seen)

/-- One step of a call.  `stillAdmin` and `later` are what it hears from outside: the answer
of the gate, and the time of the next round. -/
def step (stillAdmin : Bool) (later : ℤ) (st : Store) : Call × Store :=
  match c.stage with
  | .read round now =>
    ({ c with stage := c.afterRead env round now (st.readRefresh c.token.sid) }, st)
  | .reused seen =>
    ({ c with stage := .done .refused }, (st.revokeOne c.token.sid seen.userId (some c.aud)).2)
  | .gate round now seen mode =>
    ({ c with stage := if stillAdmin then .rotate round now seen mode else .demoted seen }, st)
  | .demoted seen =>
    ({ c with stage := .done .refused }, (st.revokeOne c.token.sid seen.userId (some c.aud)).2)
  | .rotate round now seen mode =>
    let r := c.script env now seen mode st
    ({ c with stage := c.afterRotate env round seen mode later r.1 }, r.2)
  | .done _ => (c, st)

end Call

end Pandora.Sessions
