import Pandora.Foundation.Locks
import Pandora.Identity.Codes
import Pandora.Sessions.System

/-!
# Calls that prove who somebody is, or change what proves it

Accounts and passwords are rows of the database, sessions and mail links keys of Redis.  `State` has
both, together with every call that has begun.  A call advances by one statement, one commit or one
script at a time (`State.step`); in between, others advance.

Statements see what has been committed.  Where a statement locks rows, it waits while another
transaction holds one of them (the state stays as it is), and the rows are held until the
transaction ends.  What a transaction has written and not committed is part of where it is (`Flow`).
Three transactions end in the same way, `Flow.closing`: `ChangePassword`, `CompletePasswordReset`
and `AdminSetEmail` revoke the sessions of the user, commit, and revoke the sessions once more.

A password hash knows the password it is of, and the call that has drawn its salt.

The last fields of `State` are a record of what happened, which no step reads.
-/

namespace Pandora.Identity

open Function

open Sessions (Store Env Hash Secret AMR)

abbrev Password : Type := ℕ

/-- A stored hash.  The salt is the number of the call that made the hash; the hashes that are there
at the beginning have none. -/
structure PHC where
  password : Password
  salt : Option ℕ
  /-- Its parameters are not those of today. -/
  outdated : Bool
  deriving DecidableEq

structure User where
  id : UUID
  email : Address

/-- A password is presented to `Login`. -/
structure Login where
  aud : Audience
  email : Address
  password : Password

/-- How a session was opened; `seen` is the number of writes that had been committed when the
stored hash was read. -/
inductive Opening
  | password (password : Password) (seen : ℕ)
  /-- The same, by a login that has read the epoch only after the hash. -/
  | other (password : Password) (seen : ℕ)
  /-- With a link that was mailed to an address. -/
  | link (address : Address)
  deriving DecidableEq

/-- What a transaction changes. -/
inductive Act
  /-- `AdminSetEmail`. -/
  | email (old new : Address)
  /-- `ChangePassword`, with the hash that it has checked. -/
  | replace (checked new : PHC)
  /-- `CompletePasswordReset`, with the address that the code was mailed to. -/
  | reset (address : Address) (old : Option PHC) (new : PHC)
  deriving DecidableEq

/-- The hash that is stored. -/
def Act.hash : Act → Option PHC
  | .email _ _ => none
  | .replace _ new => some new
  | .reset _ _ new => some new

/-- A change of an account, and the session that the revocation keeps. -/
structure Write where
  user : UUID
  keep : Option UUID
  act : Act
  deriving DecidableEq

/-- What a transaction does to the codes. -/
structure Touched where
  consume : Option ℕ
  expire : List ℕ
  now : ℤ

/-- How far the end of a transaction has come. -/
inductive Tail
  | written
  /-- The sessions have been revoked. -/
  | revoked
  /-- The change has been committed, as this one of all changes. -/
  | committed (index : ℕ)

/-- Where a call is: what it does next. -/
inductive Flow
  /-- `Login`: look up the address. -/
  | login (l : Login)
  /-- Read the epoch of the account. -/
  | loginFound (l : Login) (uid0 : UUID)
  /-- `Authenticate`: read the stored hash and verify the password. -/
  | loginEpoch (l : Login) (uid0 : UUID) (now : ℤ) (epoch0 : ℕ)
  /-- `RehashPassword`. -/
  | loginRehash (l : Login) (uid0 uid : UUID) (now : ℤ) (epoch0 : ℕ) (phc : PHC) (seen : ℕ)
  /-- The password is that of another account: read its epoch. -/
  | loginOther (l : Login) (uid : UUID) (now : ℤ) (seen : ℕ)
  /-- `StartMailLogin`: look up the address. -/
  | mailStart (email : Address)
  /-- Read the epoch. -/
  | mailFound (email : Address) (uid : UUID)
  /-- Issue the link, to be mailed. -/
  | mailEpoch (email : Address) (uid : UUID) (epoch : ℕ)
  /-- `ConsumeMailLogin`: compare the epoch. -/
  | mailUsed (address : Address) (uid : UUID) (epoch : ℕ)
  /-- Create the session. -/
  | ready (uid : UUID) (aud : Audience) (amr : AMR) (epoch : ℕ) (now : ℤ) (o : Opening)
  /-- `StartPasswordReset`: look up the address. -/
  | resetStart (email : Address) (expiresAt : ℤ)
  /-- `ExpireCodes`. -/
  | resetFound (email : Address) (expiresAt : ℤ) (uid : UUID) (now : ℤ)
  /-- Insert the code, mail it and commit. -/
  | resetExpired (email : Address) (expiresAt : ℤ) (uid : UUID) (now : ℤ) (ids : List ℕ)
  /-- `CompletePasswordReset`: `LockLatestCode`. -/
  | complete (email : Address) (code : ℕ) (password : Password)
  /-- `LockUser`. -/
  | completeCode (email : Address) (password : Password) (now : ℤ) (id : ℕ) (uid : UUID)
  /-- `UpsertPassword`. -/
  | completeUser (email : Address) (password : Password) (now : ℤ) (id : ℕ) (uid : UUID)
  /-- `ConsumeCode` and `ExpireCodes`. -/
  | completeWritten (email : Address) (now : ℤ) (id : ℕ) (w : Write)
  /-- `ChangePassword`: read the stored hash and verify the password. -/
  | change (uid : UUID) (keep : Option UUID) (old new : Password)
  /-- `LockPasswordHash`. -/
  | changeChecked (uid : UUID) (keep : Option UUID) (phc : PHC) (new : Password)
  /-- `ReplacePassword`. -/
  | changeLocked (uid : UUID) (keep : Option UUID) (phc : PHC) (new : Password)
  /-- `AdminSetEmail`: `LockUser`. -/
  | edit (uid : UUID) (email : Address)
  /-- `SetUserEmail`. -/
  | editLocked (uid : UUID) (now : ℤ) (old new : Address)
  /-- `ExpireCodes`. -/
  | editWritten (uid : UUID) (now : ℤ) (old new : Address)
  /-- Revoke, commit and revoke again. -/
  | closing (w : Write) (t : Touched) (tail : Tail)
  | ended

/-- What transactions wait for; a unique address is locked by the one who is about to take it. -/
inductive Lock
  | user (uid : UUID)
  | address (email : Address)
  | password (uid : UUID)
  | code (id : ℕ)
  deriving DecidableEq

structure State where
  users : List User
  passwords : UUID → Option PHC
  codes : List VerificationCode := []
  nextCode : ℕ := 0
  held : Locks Lock := fun _ => none
  store : Store := .empty
  /-- Session identifiers from here on have not been given out. -/
  nextSid : UUID := 0
  flows : List Flow := []
  /-- The changes that have been committed. -/
  history : List Write := []
  /-- Those whose second revocation has run. -/
  settled : List ℕ := []
  opened : UUID → Option Opening := fun _ => none
  /-- The address that a link was mailed to. -/
  mailed : Hash → Address := fun _ => 0

/-- What a step hears from outside. -/
structure Input where
  now : ℤ
  secret : Secret
  /-- The digits of a new code. -/
  digits : ℕ := 0
  /-- A statement whose failure does not matter has failed. -/
  broken : Bool := false

def passwordResetMaxAttempts : ℕ := 5

/-- What a login does when the password was right. -/
def Login.proved (l : Login) (uid0 uid : UUID) (now : ℤ) (epoch0 seen : ℕ) : Flow :=
  if uid ≠ uid0 then .loginOther l uid now seen
  else .ready uid l.aud .password epoch0 now (.password l.password seen)

namespace State

variable (s : State)

def userByEmail (email : Address) : Option User := s.users.find? (·.email = email)

def userById (uid : UUID) : Option User := s.users.find? (·.id = uid)

/-- The address of a user. -/
def emailOf (uid : UUID) : Option Address := (s.userById uid).map (·.email)

/-- A call is somewhere else now. -/
def go (p : ℕ) (f : Flow) : State := { s with flows := s.flows.set p f }

/-- A call begins. -/
def begin (f : Flow) : State := { s with flows := s.flows ++ [f] }

/-- A transaction ends: nothing is locked by it any more. -/
def release (p : ℕ) : State := { s with held := s.held.release p }

/-- A call ends, and what it has not committed is forgotten. -/
def stop (p : ℕ) : State := (s.release p).go p .ended

/-- The locks are taken. -/
def take (p : ℕ) (locks : List Lock) : State := { s with held := s.held.takeAll p locks }

/-- The locks are taken and the call goes on, if it need not wait. -/
def acquire (p : ℕ) (locks : List Lock) (f : Flow) : State :=
  if s.held.FreeAll p locks then (s.take p locks).go p f else s

/-- A row is locked; the call goes on if it is as it should be. -/
def lockIf (p : ℕ) (k : Lock) (ok : Prop) [Decidable ok] (f : Flow) : State :=
  if ¬ s.held.Free p k then s else if ok then s.acquire p [k] f else s.stop p

/-- The rows that `ExpireCodes` locks and is going to change. -/
def expiring (email : Address) (now : ℤ) : List ℕ :=
  (VerificationCode.usable .passwordReset email now s.codes).map (·.id)

def authenticate (p : ℕ) (l : Login) (uid0 : UUID) (now : ℤ) (epoch0 : ℕ) : State :=
  match s.userByEmail l.email with
  | none => s.stop p
  | some u => match s.passwords u.id with
    | none => s.stop p
    | some phc =>
      if phc.password ≠ l.password then s.stop p
      else if phc.outdated then
        s.go p (.loginRehash l uid0 u.id now epoch0 phc s.history.length)
      else s.go p (l.proved uid0 u.id now epoch0 s.history.length)

/-- `RehashPassword`: the hash is replaced if it still is the one that was read. -/
def rehash (p : ℕ) (l : Login) (uid : UUID) (phc : PHC) : State :=
  if s.passwords uid = some phc then
    { s with passwords := update s.passwords uid (some ⟨l.password, some p, false⟩) }
  else s

/-- The session is written, unless the epoch has changed. -/
def createSession (env : Env) (p : ℕ) (uid : UUID) (aud : Audience) (amr : AMR)
    (epoch : ℕ) (now : ℤ) (o : Opening) (seed : Secret) : State :=
  let r := s.store.create s.nextSid (env.newSession s.nextSid uid aud amr epoch now seed)
  { s.go p .ended with
    store := r.2
    nextSid := s.nextSid + 1
    opened := if r.1 then update s.opened s.nextSid (some o) else s.opened }

/-- The link is stored; it is going to be mailed to the address. -/
def issueMailLink (p : ℕ) (email : Address) (uid : UUID) (epoch : ℕ) (hash : Hash) : State :=
  { s.go p .ended with
    store := s.store.issueMailLink uid hash epoch
    mailed := update s.mailed hash email }

/-- A code is inserted, and the transaction commits. -/
def insertCode (p : ℕ) (email : Address) (expiresAt : ℤ) (uid : UUID) (now : ℤ) (ids : List ℕ)
    (digits : ℕ) : State :=
  State.stop { s with
    codes := ⟨s.nextCode, .passwordReset, email, digits, some uid, 0, passwordResetMaxAttempts, now,
      expiresAt, none⟩ :: VerificationCode.expire ids now s.codes
    nextCode := s.nextCode + 1 } p

/-- `LockLatestCode` and what is done with the row. -/
def lockCode (p : ℕ) (email : Address) (code : ℕ) (password : Password) (now : ℤ) : State :=
  match VerificationCode.latest .passwordReset email now s.codes with
  | none => s.stop p
  | some c =>
    if ¬ s.held.Free p (.code c.id) then s
    else match c.userId with
    | none => s.stop p
    | some uid =>
      if c.maxAttempts ≤ c.attempts then s.stop p
      else if c.code ≠ code then
        State.stop { s with codes := VerificationCode.incAttempts c.id s.codes } p
      else s.acquire p [.code c.id] (.completeCode email password now c.id uid)

/-- `LockUser`, and the check that the code was mailed to the address that the user has. -/
def lockUser (p : ℕ) (email : Address) (password : Password) (now : ℤ) (id : ℕ) (uid : UUID) :
    State :=
  s.lockIf p (.user uid) (s.emailOf uid = some email) (.completeUser email password now id uid)

/-- `PasswordHash`, and the checks before the transaction of `ChangePassword`. -/
def checkPassword (p : ℕ) (uid : UUID) (keep : Option UUID) (old new : Password) : State :=
  match s.passwords uid with
  | none => s.stop p
  | some phc =>
    if phc.password ≠ old ∨ new = old then s.stop p else s.go p (.changeChecked uid keep phc new)

/-- `LockPasswordHash`. -/
def lockPassword (p : ℕ) (uid : UUID) (keep : Option UUID) (phc : PHC) (new : Password) : State :=
  s.lockIf p (.password uid) (s.passwords uid = some phc) (.changeLocked uid keep phc new)

/-- `LockUser`, in `AdminSetEmail`. -/
def lockEdited (p : ℕ) (uid : UUID) (email : Address) (now : ℤ) : State :=
  if ¬ s.held.Free p (.user uid) then s
  else match s.emailOf uid with
  | none => s.stop p
  | some old =>
    if old = email then s.stop p else s.acquire p [.user uid] (.editLocked uid now old email)

/-- `SetUserEmail`: the address must not be taken. -/
def setEmail (p : ℕ) (uid : UUID) (now : ℤ) (old new : Address) : State :=
  s.lockIf p (.address new) (s.userByEmail new = none) (.editWritten uid now old new)

/-- The rows as a transaction has written them. -/
def apply (w : Write) (t : Touched) : State :=
  { s with
    users := match w.act with
      | .email _ new => s.users.map fun u => if u.id = w.user then { u with email := new } else u
      | _ => s.users
    passwords := match w.act.hash with
      | some new => update s.passwords w.user (some new)
      | none => s.passwords
    codes := VerificationCode.expire t.expire t.now (match t.consume with
      | some id => VerificationCode.consume id t.now s.codes
      | none => s.codes)
    history := s.history ++ [w] }

/-- The end of a transaction, step by step. -/
def close (p : ℕ) (w : Write) (t : Touched) : Tail → State
  | .written =>
    { s.go p (.closing w t .revoked) with store := (s.store.revokeUser w.user w.keep .all).2 }
  | .revoked => ((s.apply w t).release p).go p (.closing w t (.committed s.history.length))
  | .committed index =>
    { s.go p .ended with
      store := (s.store.revokeUser w.user w.keep .all).2
      settled := index :: s.settled }

/-- The next step of a call. -/
def step (env : Env) (p : ℕ) (i : Input) : Flow → State
  | .login l => s.go p (.loginFound l (((s.userByEmail l.email).map (·.id)).getD UUID.nil))
  | .loginFound l uid0 => s.go p (.loginEpoch l uid0 i.now (s.store.uepoch uid0))
  | .loginEpoch l uid0 now epoch0 => s.authenticate p l uid0 now epoch0
  | .loginRehash l uid0 uid now epoch0 phc seen =>
    if i.broken then s.go p (l.proved uid0 uid now epoch0 seen)
    else if s.held.Free p (.password uid) then
      (s.rehash p l uid phc).go p (l.proved uid0 uid now epoch0 seen)
    else s
  | .loginOther l uid now seen =>
    s.go p (.ready uid l.aud .password (s.store.uepoch uid) now (.other l.password seen))
  | .mailStart email => match s.userByEmail email with
    | none => s.stop p
    | some u => s.go p (.mailFound email u.id)
  | .mailFound email uid => s.go p (.mailEpoch email uid (s.store.uepoch uid))
  | .mailEpoch email uid epoch => s.issueMailLink p email uid epoch (env.keys.hashSecret i.secret)
  | .mailUsed address uid epoch =>
    if s.store.uepoch uid ≠ epoch then s.stop p
    else s.go p (.ready uid .portal .mailLink epoch i.now (.link address))
  | .ready uid aud amr epoch now o => s.createSession env p uid aud amr epoch now o i.secret
  | .resetStart email expiresAt => match s.userByEmail email with
    | none => s.stop p
    | some u => s.go p (.resetFound email expiresAt u.id i.now)
  | .resetFound email expiresAt uid now =>
    s.acquire p ((s.expiring email now).map .code)
      (.resetExpired email expiresAt uid now (s.expiring email now))
  | .resetExpired email expiresAt uid now ids => s.insertCode p email expiresAt uid now ids i.digits
  | .complete email code password => s.lockCode p email code password i.now
  | .completeCode email password now id uid => s.lockUser p email password now id uid
  | .completeUser email password now id uid =>
    s.acquire p [.password uid] (.completeWritten email now id
      ⟨uid, none, .reset email (s.passwords uid) ⟨password, some p, false⟩⟩)
  | .completeWritten email now id w =>
    s.acquire p (((s.expiring email now).filter (· ≠ id)).map .code)
      (.closing w ⟨some id, (s.expiring email now).filter (· ≠ id), now⟩ .written)
  | .change uid keep old new => s.checkPassword p uid keep old new
  | .changeChecked uid keep phc new => s.lockPassword p uid keep phc new
  | .changeLocked uid keep phc new =>
    if s.passwords uid ≠ some phc then s.stop p
    else s.go p (.closing ⟨uid, keep, .replace phc ⟨new, some p, false⟩⟩ ⟨none, [], 0⟩ .written)
  | .edit uid email => s.lockEdited p uid email i.now
  | .editLocked uid now old new => s.setEmail p uid now old new
  | .editWritten uid now old new =>
    s.acquire p ((s.expiring old now).map .code)
      (.closing ⟨uid, none, .email old new⟩ ⟨none, s.expiring old now, now⟩ .written)
  | .closing w t tail => s.close p w t tail
  | .ended => s

/-- A call fails, and its transaction is rolled back, unless it has been committed. -/
def fail (p : ℕ) : State :=
  match s.flows[p]? with
  | none => s
  | some (.closing _ _ (.committed _)) => s
  | some _ => s.stop p

end State

/-- What may happen next. -/
inductive Label
  | login (l : Login)
  | mailStart (email : Address)
  /-- `ConsumeMailLogin` begins with its script. -/
  | mailConsume (hash : Hash)
  | resetStart (email : Address) (expiresAt : ℤ)
  | complete (email : Address) (code : ℕ) (password : Password)
  | change (uid : UUID) (keep : Option UUID) (old new : Password)
  | edit (uid : UUID) (email : Address)
  | turn (p : ℕ) (i : Input)
  | fail (p : ℕ)
  /-- A request with a session comes in. -/
  | check (sid uid : UUID) (aud : Option Audience) (now : ℤ)
  /-- A key runs out. -/
  | expire (key : Store.Key)

namespace State

/-- One step. -/
def next (env : Env) (s : State) : Label → State
  | .login l => s.begin (.login l)
  | .mailStart email => s.begin (.mailStart email)
  | .mailConsume hash =>
    { s.begin (match (s.store.consumeMailLink hash).1 with
        | some (uid, epoch) => .mailUsed (s.mailed hash) uid epoch
        | none => .ended) with store := (s.store.consumeMailLink hash).2 }
  | .resetStart email expiresAt => s.begin (.resetStart email expiresAt)
  | .complete email code password => s.begin (.complete email code password)
  | .change uid keep old new => s.begin (.change uid keep old new)
  | .edit uid email => s.begin (.edit uid email)
  | .turn p i => match s.flows[p]? with
    | none => s
    | some f => s.step env p i f
  | .fail p => s.fail p
  | .check sid uid aud now =>
    { s with store := (s.store.check sid uid aud (Sessions.unix now)
        (Sessions.seconds env.adminIdleTimeout)).2 }
  | .expire key => { s with store := s.store.expire key }

/-- Steps, one after another. -/
def run (env : Env) (s : State) (labels : List Label) : State := labels.foldl (next env) s

/-- Some accounts and passwords, and nothing has happened yet. -/
def start (users : List User) (passwords : UUID → Option (Password × Bool)) : State :=
  { users := users, passwords := fun uid => (passwords uid).map fun x => ⟨x.1, none, x.2⟩ }

end State

end Pandora.Identity
