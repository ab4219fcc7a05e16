import Pandora.Foundation.Clock
import Pandora.Identifiers

/-!
# The session store

Sessions live in Redis, and every script runs alone, so a script is a function of the whole
store.  What the scripts read and write:

* `sess:{sid}`, the session;
* `usess:{uid}`, the set of a user's sessions;
* `uepoch:{uid}`, the user's credential epoch, a counter that is `0` when it is missing; a
  session whose own epoch differs from it is dead;
* `ql:{hash}` and `qls:{sid}`, a quick-login token with the session it was issued from, and
  the newest token of a session;
* `ml:{hash}` and `mlu:{uid}`, a mail link with the epoch it was issued in, and the newest
  link of a user.

Random texts, and what hashing makes of them, are numbers here: they are compared and nothing
else.  Times in the store are whole seconds.
-/

namespace Pandora.Sessions

open Function

/-- A random text, or one derived from a key. -/
abbrev Secret : Type := ℕ

/-- What is stored of a secret. -/
abbrev Hash : Type := ℕ

/-- How a session was opened. -/
inductive AMR
  | password
  | quickLogin
  | mailLink
  deriving DecidableEq

/-- `sess:{sid}`.  A `none` is the empty text of the source. -/
structure Session where
  uid : UUID
  aud : Audience
  amr : List AMR
  lastSeen : ℤ
  reauthAt : ℤ
  absExp : ℤ
  rtSeed : Option Secret
  rtCur : Hash
  rtPrev : Option Hash
  rtRotatedAt : ℤ
  epoch : ℕ

structure Store where
  sess : UUID → Option Session
  usess : UUID → List UUID
  uepoch : UUID → ℕ
  ql : Hash → Option (UUID × UUID)
  qls : UUID → Option Hash
  ml : Hash → Option (UUID × ℕ)
  mlu : UUID → Option Hash

def Store.empty : Store :=
  ⟨fun _ => none, fun _ => [], fun _ => 0, fun _ => none, fun _ => none, fun _ => none,
    fun _ => none⟩

/-- One second, in nanoseconds. -/
def second : ℤ := 1000000000

def unix (t : ℤ) : ℤ := t / second

/-- `fromUnix`: what is not positive stands for the zero time, 1 January of year 1. -/
def fromUnix (sec : ℤ) : ℤ := if sec ≤ 0 then -62135596800 * second else sec * second

/-- `lastSeenEvery`, in seconds. -/
def lastSeenEvery : ℤ := 300

/-- `refreshGrace`, in seconds. -/
def refreshGrace : ℤ := 30

namespace Store

variable (st : Store)

/-- Replace what is stored of one session. -/
def put (sid : UUID) (s : Option Session) : Store :=
  { st with sess := update st.sess sid s }

/-- `SREM usess:{uid} sid`. -/
def srem (uid sid : UUID) : Store :=
  { st with usess := update st.usess uid ((st.usess uid).filter (· ≠ sid)) }

/-- `SADD usess:{uid} sid`. -/
def sadd (uid sid : UUID) : Store :=
  { st with usess := update st.usess uid ((st.usess uid).insert sid) }

/-- `DEL sess:{sid}` and `SREM usess:{uid} sid`. -/
def drop (uid sid : UUID) : Store := (st.put sid none).srem uid sid

/-- `createScript`. -/
def create (sid : UUID) (rec : Session) : Bool × Store :=
  if st.uepoch rec.uid ≠ rec.epoch then (false, st)
  else (true, (st.put sid (some { rec with rtPrev := none, rtRotatedAt := 0 })).sadd rec.uid sid)

/-- The session has passed its absolute end, was idle for too long, or is of an earlier
epoch. -/
def Lapsed (uid : UUID) (s : Session) (idle now : ℤ) : Prop :=
  s.absExp ≤ now ∨ (0 < idle ∧ idle ≤ now - s.lastSeen) ∨ st.uepoch uid ≠ s.epoch

instance (uid : UUID) (s : Session) (idle now : ℤ) : Decidable (st.Lapsed uid s idle now) :=
  inferInstanceAs (Decidable (_ ∨ _ ∨ _))

/-- Only sessions of the admin audience end by being idle. -/
def idleFor (aud : Audience) (adminIdle : ℤ) : ℤ := if aud = .admin then adminIdle else 0

/-- `checkScript`, with the session as its answer.  No audience means any. -/
def check (sid uid : UUID) (aud : Option Audience) (now adminIdle : ℤ) : Option Session × Store :=
  match st.sess sid with
  | none => (none, st.srem uid sid)
  | some s =>
    if s.uid ≠ uid ∨ (aud ≠ none ∧ aud ≠ some s.aud) then (none, st)
    else if st.Lapsed uid s (idleFor s.aud adminIdle) now then
      (none, st.drop uid sid)
    else if lastSeenEvery ≤ now - s.lastSeen then
      (some s, st.put sid (some { s with lastSeen := now }))
    else (some s, st)

/-- The two modes of `rotateScript`. -/
inductive Mode
  | rotate
  | grace
  deriving DecidableEq

/-- What `rotateScript` answers: if all is well, the session as it read it. -/
inductive Rotated
  | invalid
  | ok (s : Session)
  | conflict

/-- `rotateScript`. -/
def rotate (sid uid : UUID) (aud : Audience) (now idle : ℤ) (mode : Mode)
    (expect newHash : Hash) : Rotated × Store :=
  match st.sess sid with
  | none => (.invalid, st)
  | some s =>
    if s.uid ≠ uid ∨ s.aud ≠ aud then (.invalid, st)
    else if st.Lapsed uid s idle now then (.invalid, st.drop uid sid)
    else
      match mode with
      | .rotate =>
        if s.rtCur ≠ expect then (.conflict, st)
        else
          (.ok s, st.put sid (some { s with
            rtPrev := some s.rtCur, rtCur := newHash, rtRotatedAt := now, lastSeen := now }))
      | .grace =>
        if s.rtPrev ≠ some expect ∨ refreshGrace < now - s.rtRotatedAt then (.conflict, st)
        else (.ok s, st.put sid (some { s with lastSeen := now }))

/-- `revokeOneScript`.  No audience means any. -/
def revokeOne (sid uid : UUID) (aud : Option Audience) : Bool × Store :=
  match st.sess sid with
  | none => (false, st)
  | some s =>
    if s.uid ≠ uid ∨ (aud ≠ none ∧ aud ≠ some s.aud) then (false, st)
    else (true, st.drop uid sid)

/-- The audiences a revocation is for: all (`*`), none (`-`), or one. -/
inductive Scope
  | all
  | none
  | only (aud : Audience)
  deriving DecidableEq

/-- The sessions a revocation keeps: the one it is told to except, and those of other
audiences than it is for. -/
def Keeps (except : Option UUID) (scope : Scope) (sid : UUID) (aud : Audience) : Prop :=
  some sid = except ∨ (scope ≠ .all ∧ scope ≠ .only aud)

instance (except : Option UUID) (scope : Scope) (sid : UUID) (aud : Audience) :
    Decidable (Keeps except scope sid aud) := inferInstanceAs (Decidable (_ ∨ _))

/-- What `revokeUserScript` does with one member of the set. -/
def revokeMember (uid : UUID) (except : Option UUID) (scope : Scope) (ep : ℕ) (r : ℕ × Store)
    (sid : UUID) : ℕ × Store :=
  match r.2.sess sid with
  | none => (r.1, r.2.srem uid sid)
  | some s =>
    if Keeps except scope sid s.aud then (r.1, r.2.put sid (some { s with epoch := ep }))
    else (r.1 + 1, r.2.drop uid sid)

/-- `revokeUserScript`: the epoch goes up by one, and the loop runs over the members the set
had when the script began. -/
def revokeUser (uid : UUID) (except : Option UUID) (scope : Scope) : ℕ × Store :=
  let ep := st.uepoch uid + 1
  (st.usess uid).foldl (revokeMember uid except scope ep)
    (0, { st with uepoch := update st.uepoch uid ep })

/-- `stampReauthScript`. -/
def stampReauth (sid uid : UUID) (aud : Audience) (now adminIdle : ℤ) : Bool × Store :=
  match st.sess sid with
  | none => (false, st)
  | some s =>
    if s.uid ≠ uid ∨ s.aud ≠ aud ∨ st.Lapsed uid s (idleFor s.aud adminIdle) now then
      (false, st)
    else (true, st.put sid (some { s with reauthAt := now, lastSeen := now }))

/-- `quickLoginIssueScript`. -/
def issueQuickLogin (sid uid : UUID) (hash : Hash) : Bool × Store :=
  if (st.sess sid).map Session.uid ≠ some uid then (false, st)
  else
    let ql := match st.qls sid with
      | some old => update st.ql old none
      | none => st.ql
    (true, { st with
      ql := update ql hash (some (sid, uid))
      qls := update st.qls sid (some hash) })

/-- `quickLoginConsumeScript`, with the session the token was issued from and its user.  The
token is gone in any case. -/
def consumeQuickLogin (hash : Hash) (aud : Audience) (now : ℤ) : Option (UUID × UUID) × Store :=
  match st.ql hash with
  | none => (none, st)
  | some (sid, uid) =>
    let st' := { st with ql := update st.ql hash none }
    match st.sess sid with
    | none => (none, st')
    | some s =>
      if s.uid ≠ uid ∨ s.aud ≠ aud ∨ s.absExp ≤ now ∨ st.uepoch uid ≠ s.epoch then (none, st')
      else (some (sid, uid), { st' with qls := update st.qls sid none })

/-- `mailLinkIssueScript`. -/
def issueMailLink (uid : UUID) (hash : Hash) (epoch : ℕ) : Store :=
  let ml := match st.mlu uid with
    | some old => update st.ml old none
    | none => st.ml
  { st with
    ml := update ml hash (some (uid, epoch))
    mlu := update st.mlu uid (some hash) }

/-- `mailLinkConsumeScript`, with the user and the epoch of the link. -/
def consumeMailLink (hash : Hash) : Option (UUID × ℕ) × Store :=
  match st.ml hash with
  | none => (none, st)
  | some (uid, epoch) =>
    (some (uid, epoch), { st with
      ml := update st.ml hash none
      mlu := if st.mlu uid = some hash then update st.mlu uid none else st.mlu })

/-- The keys that Redis drops by itself when their time is over. -/
inductive Key
  | sess (sid : UUID)
  | usess (uid : UUID)
  | ql (hash : Hash)
  | qls (sid : UUID)
  | ml (hash : Hash)
  | mlu (uid : UUID)

/-- A key runs out. -/
def expire : Key → Store
  | .sess sid => st.put sid none
  | .usess uid => { st with usess := update st.usess uid [] }
  | .ql hash => { st with ql := update st.ql hash none }
  | .qls sid => { st with qls := update st.qls sid none }
  | .ml hash => { st with ml := update st.ml hash none }
  | .mlu uid => { st with mlu := update st.mlu uid none }

end Store

end Pandora.Sessions
