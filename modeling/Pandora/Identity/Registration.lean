import Mathlib.Data.List.Sort
import Pandora.Foundation.Locks
import Pandora.Foundation.Runs
import Pandora.Identity.Codes

/-!
# Registration

An account is registered in two calls.  `StartRegistration` resolves the invite code, opens a
registration session and, if addresses have to be verified, mails a code to the address.
`CompleteRegistration` presents the token of the session and the code, and creates the account.

Calls advance one statement at a time (`State.step`), and others advance in between.  Statements see
what has been committed; `now()` is the time at which the transaction began.  A statement that locks
a row waits while another transaction holds it, and then looks at the row as it is by then.  The
rows that a statement is going to lock are those that it sees when it begins, one after the other.

What a transaction has not committed is part of where it is (`Flow`).  The statements after the
account has been inserted concern rows that the transaction holds or has made itself, so that they
are one step together with the commit.

The last three fields of `State` are a record of what has been committed, which no step reads.
-/

namespace Pandora.Identity.Registration

/-! ## Settings and rows -/

inductive Mode
  | closed
  | inviteOnly
  | opened
  deriving DecidableEq

structure Settings where
  mode : Mode
  emailVerification : Bool
  inviteNeverExpire : Bool

def personalCodeSingleUse (cfg : Settings) : Bool := !cfg.inviteNeverExpire

/-- Ten minutes, in nanoseconds. -/
def registrationTTL : ℤ := 600000000000

def registrationMaxAttempts : ℕ := 5

inductive InviteStatus
  | active
  | exhausted
  | disabled
  deriving DecidableEq

structure InviteCode where
  id : UUID
  code : String
  ownerUserId : Option UUID
  maxUses : Option ℕ
  usedCount : ℕ := 0
  channel : Option String := none
  campaign : Option String := none
  expiresAt : Option ℤ := none
  status : InviteStatus := .active

namespace InviteCode

/-- `inviteUsableSQL`. -/
def Usable (now : ℤ) (v : InviteCode) : Prop :=
  v.status = .active ∧ (∀ t ∈ v.expiresAt, now < t) ∧ ∀ m ∈ v.maxUses, v.usedCount < m

instance (now : ℤ) (v : InviteCode) : Decidable (v.Usable now) :=
  inferInstanceAs (Decidable (_ ∧ _ ∧ _))

/-- The row as `ConsumeInvite` leaves it. -/
def used (singleUse : Bool) (v : InviteCode) : InviteCode :=
  { v with
    usedCount := v.usedCount + 1
    status := if singleUse = true ∨ ∃ m ∈ v.maxUses, m ≤ v.usedCount + 1 then .exhausted
      else v.status }

end InviteCode

inductive SessionStatus
  | pending
  | consumed
  deriving DecidableEq

structure RegistrationSession where
  id : UUID
  token : ℕ
  email : Address
  inviteCodeId : Option UUID
  status : SessionStatus := .pending
  attempts : ℕ := 0
  expiresAt : ℤ

/-- The check before the transaction and the one in it. -/
def RegistrationSession.Open (x : RegistrationSession) : Prop :=
  x.status = .pending ∧ x.attempts < registrationMaxAttempts

instance (x : RegistrationSession) : Decidable x.Open := inferInstanceAs (Decidable (_ ∧ _))

structure Referral where
  refereeUserId : UUID
  referrerUserId : UUID
  inviteCodeId : UUID
  channel : Option String
  campaign : Option String

/-- A row of `users`. -/
structure Account where
  id : UUID
  email : Address
  emailVerifiedAt : Option ℤ

/-- A message with a code, and the row of the code. -/
structure Mail where
  address : Address
  code : ℕ
  row : ℕ

/-! ## Calls -/

/-- What `StartRegistration` was called with, and what it has drawn. -/
structure Start where
  email : Address
  inviteCode : Option String
  token : ℕ
  code : ℕ
  expiresAt : ℤ

/-- The transaction of `CompleteRegistration`. -/
structure Attempt where
  token : ℕ
  /-- What was presented, if it is a number of six digits. -/
  code : Option ℕ
  now : ℤ

/-- Where a call is: what it does next. -/
inductive Flow
  /-- `resolveInviteAtStart`. -/
  | start (o : Start)
  /-- `EmailTaken`. -/
  | resolved (o : Start) (now : ℤ) (invite : Option UUID)
  /-- `InsertRegistration`. -/
  | checked (o : Start) (now : ℤ) (invite : Option UUID) (taken : Bool)
  /-- `ExpireCodes`, row by row; then `InsertCode`. -/
  | expiring (o : Start) (now : ℤ) (invite : Option UUID) (todo done : List ℕ)
  /-- `RegistrationByToken`. -/
  | complete (token : ℕ) (code : Option ℕ)
  /-- The transaction begins. -/
  | prechecked (token : ℕ) (code : Option ℕ)
  /-- `LockRegistrationByToken`. -/
  | begun (a : Attempt)
  /-- `LockUsableInvite`. -/
  | sessionLocked (a : Attempt) (x : RegistrationSession)
  /-- `LockLatestCode` begins. -/
  | inviteLocked (a : Attempt) (x : RegistrationSession) (v : Option InviteCode)
  /-- The newest row that still is usable is locked, and the code compared. -/
  | locking (a : Attempt) (x : RegistrationSession) (v : Option InviteCode) (digits : ℕ)
      (todo : List ℕ)
  /-- `IncCodeAttempts`. -/
  | wrong (a : Attempt) (x : RegistrationSession) (digits : ℕ) (c : VerificationCode)
  /-- `ExpireCodes`, row by row; then `incRegReject`. -/
  | voiding (a : Attempt) (x : RegistrationSession) (digits : ℕ) (c : VerificationCode)
      (todo done : List ℕ)
  /-- `InsertUser`. -/
  | proved (a : Attempt) (x : RegistrationSession) (v : Option InviteCode)
      (c : Option VerificationCode)
  /-- Everything else. -/
  | inserted (a : Attempt) (x : RegistrationSession) (v : Option InviteCode)
      (c : Option VerificationCode) (verifiedAt : Option ℤ)
  | ended

/-- What transactions wait for; a unique address is locked by the one who is about to take it. -/
inductive Lock
  | session (id : UUID)
  | invite (id : UUID)
  | code (id : ℕ)
  | address (email : Address)
  deriving DecidableEq

/-- An account that was created, with the row of the code as it was accepted, what was presented,
and when the transaction began. -/
structure Created where
  user : UUID
  email : Address
  session : UUID
  invite : Option UUID
  code : Option VerificationCode
  presented : Option ℕ
  began : ℤ

/-- A code was compared with what was presented. -/
structure Compared where
  row : ℕ
  digits : ℕ

structure State where
  /-- The time. -/
  clock : ℤ
  users : List Account
  nextId : ℕ
  sessions : List RegistrationSession := []
  codes : List VerificationCode := []
  invites : List InviteCode := []
  referrals : List Referral := []
  mails : List Mail := []
  held : Locks Lock := fun _ => none
  flows : List Flow := []
  created : List Created := []
  compared : List Compared := []

namespace State

variable (cfg : Settings) (s : State)

/-- A call is somewhere else now. -/
def go (p : ℕ) (f : Flow) : State := { s with flows := s.flows.set p f }

/-- A call begins. -/
def begin (f : Flow) : State := { s with flows := s.flows ++ [f] }

/-- A call ends, and what it has not committed is forgotten. -/
def stop (p : ℕ) : State := { s with held := s.held.release p, flows := s.flows.set p .ended }

/-- A lock is taken and the call goes on. -/
def lock (p : ℕ) (k : Lock) (f : Flow) : State :=
  { s with held := s.held.take p k, flows := s.flows.set p f }

/-! ## `StartRegistration` -/

def findUsableInvite (text : String) (now : ℤ) : Option InviteCode :=
  s.invites.find? fun v => v.code = text ∧ v.Usable now

def resolveInviteAtStart (p : ℕ) (o : Start) : State :=
  if cfg.mode = .closed then s.stop p
  else match o.inviteCode with
  | none => if cfg.mode = .inviteOnly then s.stop p else s.go p (.resolved o s.clock none)
  | some text => match s.findUsableInvite text s.clock with
    | none => s.stop p
    | some v => s.go p (.resolved o s.clock (some v.id))

def emailTaken (email : Address) : Bool := s.users.any (·.email = email)

/-- The rows that `ExpireCodes` sees. -/
def expirable (email : Address) (now : ℤ) : List ℕ :=
  (VerificationCode.usable .emailVerify email now s.codes).map (·.id)

/-- The next row of `ExpireCodes`: it is skipped if it is not usable any more. -/
def expireNext (p : ℕ) (email : Address) (now : ℤ) (id : ℕ) (skip hit : Flow) : State :=
  match s.codes.find? (·.id = id) with
  | none => s.go p skip
  | some c =>
    if ¬ s.held.Free p (.code id) then s
    else if c.Usable .emailVerify email now then s.lock p (.code id) hit
    else s.go p skip

/-- The session of a `StartRegistration`. -/
def newSession (o : Start) (invite : Option UUID) : RegistrationSession where
  id := s.nextId
  token := o.token
  email := o.email
  inviteCodeId := invite
  expiresAt := o.expiresAt

/-- The code of a `StartRegistration`. -/
def newCode (o : Start) : VerificationCode where
  id := s.nextId + 1
  purpose := .emailVerify
  target := o.email
  code := o.code
  userId := none
  maxAttempts := registrationMaxAttempts
  createdAt := s.clock
  expiresAt := o.expiresAt

/-- The transaction commits; the token must be unique. -/
def openSession (p : ℕ) (o : Start) (invite : Option UUID) : State :=
  if s.sessions.any (·.token = o.token) then s.stop p
  else { s.stop p with
    sessions := s.newSession o invite :: s.sessions
    nextId := s.nextId + 1 }

/-- The same, with the code. -/
def openAndMail (p : ℕ) (o : Start) (now : ℤ) (invite : Option UUID) (done : List ℕ) : State :=
  if s.sessions.any (·.token = o.token) then s.stop p
  else { s.stop p with
    sessions := s.newSession o invite :: s.sessions
    codes := s.newCode o :: VerificationCode.expire done now s.codes
    mails := ⟨o.email, o.code, s.nextId + 1⟩ :: s.mails
    nextId := s.nextId + 2 }

/-! ## `CompleteRegistration` -/

def registrationByToken (token : ℕ) (now : ℤ) : Option RegistrationSession :=
  s.sessions.find? fun x => x.token = token ∧ now < x.expiresAt

def precheck (p : ℕ) (token : ℕ) (code : Option ℕ) : State :=
  match s.registrationByToken token s.clock with
  | none => s.stop p
  | some x => if x.Open then s.go p (.prechecked token code) else s.stop p

/-- `LockRegistrationByToken`, and the checks of the session. -/
def lockRegistration (p : ℕ) (a : Attempt) : State :=
  match s.registrationByToken a.token a.now with
  | none => s.stop p
  | some x =>
    if ¬ s.held.Free p (.session x.id) then s
    else if ¬ x.Open then s.stop p
    else if cfg.mode = .inviteOnly ∧ x.inviteCodeId = none then s.stop p
    else s.lock p (.session x.id) (.sessionLocked a x)

def lockUsableInvite (p : ℕ) (a : Attempt) (x : RegistrationSession) : State :=
  match x.inviteCodeId with
  | none => s.go p (.inviteLocked a x none)
  | some id => match s.invites.find? (·.id = id) with
    | none => s.stop p
    | some v =>
      if ¬ v.Usable a.now then s.stop p
      else if ¬ s.held.Free p (.invite v.id) then s
      else s.lock p (.invite v.id) (.inviteLocked a x (some v))

/-- `incRegReject`, and the commit. -/
def incRegReject (p : ℕ) (x : RegistrationSession) : State :=
  { s.stop p with
    sessions := s.sessions.map fun y =>
      if y.id = x.id then { y with attempts := y.attempts + 1 } else y }

/-- The rows that `LockLatestCode` sees, the newest one first. -/
def candidates (email : Address) (now : ℤ) : List ℕ :=
  ((VerificationCode.usable .emailVerify email now s.codes).insertionSort
    fun c d => d.createdAt ≤ c.createdAt).map (·.id)

def lookUpCode (p : ℕ) (a : Attempt) (x : RegistrationSession) (v : Option InviteCode) : State :=
  if cfg.emailVerification = false then s.go p (.proved a x v none)
  else match a.code with
  | none => s.incRegReject p x
  | some digits => s.go p (.locking a x v digits (s.candidates x.email a.now))

/-- A row that `LockLatestCode` has found is locked, and what was presented compared with it. -/
def lockCode (p : ℕ) (a : Attempt) (x : RegistrationSession) (v : Option InviteCode) (digits id : ℕ)
    (todo : List ℕ) : State :=
  match s.codes.find? (·.id = id) with
  | none => s.go p (.locking a x v digits todo)
  | some c =>
    if ¬ s.held.Free p (.code c.id) then s
    else if ¬ c.Usable .emailVerify x.email a.now then s.go p (.locking a x v digits todo)
    else if c.maxAttempts ≤ c.attempts then s.incRegReject p x
    else if c.code = digits then s.lock p (.code c.id) (.proved a x v (some c))
    else s.lock p (.code c.id) (.wrong a x digits c)

/-- The transaction that has counted a wrong code commits. -/
def commitWrong (p : ℕ) (a : Attempt) (x : RegistrationSession) (digits : ℕ) (c : VerificationCode)
    (done : List ℕ) : State :=
  { s.incRegReject p x with
    codes := VerificationCode.expire done a.now (VerificationCode.incAttempts c.id s.codes)
    compared := ⟨c.id, digits⟩ :: s.compared }

/-- `InsertUser`: the address must not be taken. -/
def insertUser (p : ℕ) (a : Attempt) (x : RegistrationSession) (v : Option InviteCode)
    (c : Option VerificationCode) : State :=
  if ¬ s.held.Free p (.address x.email) then s
  else if s.emailTaken x.email then s.stop p
  else s.lock p (.address x.email)
    (.inserted a x v c (if cfg.emailVerification then some s.clock else none))

/-- `InsertReferral`, for a code that has an owner. -/
def referral (user : UUID) (v : Option InviteCode) : List Referral :=
  match v with
  | none => []
  | some v => match v.ownerUserId with
    | none => []
    | some owner => [⟨user, owner, v.id, v.channel, v.campaign⟩]

def consumeInvite (v : Option InviteCode) (now : ℤ) : List InviteCode :=
  match v with
  | none => s.invites
  | some v => s.invites.map fun w =>
    if w.id = v.id ∧ w.Usable now then w.used (personalCodeSingleUse cfg && v.ownerUserId.isSome)
    else w

def consumeCode (c : Option VerificationCode) (now : ℤ) : List VerificationCode :=
  match c with
  | none => s.codes
  | some c => VerificationCode.consume c.id now s.codes

def consumeRegistration (x : RegistrationSession) : List RegistrationSession :=
  s.sessions.map fun y => if y.id = x.id ∧ y.status = .pending then { y with status := .consumed }
    else y

/-- The transaction that has created an account commits, unless the code is one's own or cannot be
used any more. -/
def commitAccount (p : ℕ) (a : Attempt) (x : RegistrationSession) (v : Option InviteCode)
    (c : Option VerificationCode) (verifiedAt : Option ℤ) : State :=
  if ∃ w ∈ v, w.ownerUserId = some s.nextId ∨ ¬ ∃ w' ∈ s.invites, w'.id = w.id ∧
    w'.Usable a.now then
    s.stop p
  else { s.stop p with
    users := ⟨s.nextId, x.email, verifiedAt⟩ :: s.users
    nextId := s.nextId + 1
    sessions := s.consumeRegistration x
    codes := s.consumeCode c a.now
    invites := s.consumeInvite cfg v a.now
    referrals := referral s.nextId v ++ s.referrals
    created := ⟨s.nextId, x.email, x.id, v.map (·.id), c, a.code, a.now⟩ :: s.created
    compared := (match c with
      | none => []
      | some c => [⟨c.id, c.code⟩]) ++ s.compared }

/-! ## Steps -/

/-- The next step of a call. -/
def step (p : ℕ) : Flow → State
  | .start o => s.resolveInviteAtStart cfg p o
  | .resolved o now invite => s.go p (.checked o now invite (s.emailTaken o.email))
  | .checked o now invite taken =>
    if taken = false ∧ cfg.emailVerification then
      s.go p (.expiring o now invite (s.expirable o.email now) [])
    else s.openSession p o invite
  | .expiring o now invite [] done => s.openAndMail p o now invite done
  | .expiring o now invite (id :: todo) done =>
    s.expireNext p o.email now id (.expiring o now invite todo done)
      (.expiring o now invite todo (id :: done))
  | .complete token code => s.precheck p token code
  | .prechecked token code =>
    if cfg.mode = .closed then s.stop p else s.go p (.begun ⟨token, code, s.clock⟩)
  | .begun a => s.lockRegistration cfg p a
  | .sessionLocked a x => s.lockUsableInvite p a x
  | .inviteLocked a x v => s.lookUpCode cfg p a x v
  | .locking _ x _ _ [] => s.incRegReject p x
  | .locking a x v digits (id :: todo) => s.lockCode p a x v digits id todo
  | .wrong a x digits c => s.go p (.voiding a x digits c
      (if c.maxAttempts ≤ c.attempts + 1 then s.expirable x.email a.now else []) [])
  | .voiding a x digits c [] done => s.commitWrong p a x digits c done
  | .voiding a x digits c (id :: todo) done =>
    s.expireNext p x.email a.now id (.voiding a x digits c todo done)
      (.voiding a x digits c todo (id :: done))
  | .proved a x v c => s.insertUser cfg p a x v c
  | .inserted a x v c verifiedAt => s.commitAccount cfg p a x v c verifiedAt
  | .ended => s

end State

/-- What may happen next. -/
inductive Label
  /-- Time passes. -/
  | tick (d : ℕ)
  /-- An invite code comes into being. -/
  | issue (v : InviteCode)
  | start (email : Address) (inviteCode : Option String) (token code : ℕ)
  | complete (token : ℕ) (code : Option ℕ)
  | turn (p : ℕ)
  /-- A call fails, and its transaction is rolled back. -/
  | fail (p : ℕ)

namespace State

/-- An invite code with a new text is inserted. -/
def issue (s : State) (v : InviteCode) : State :=
  if s.invites.any (·.code = v.code) then s
  else
    { s with
      invites := { v with id := s.nextId, usedCount := 0 } :: s.invites
      nextId := s.nextId + 1 }

/-- One step. -/
def next (cfg : Settings) (s : State) : Label → State
  | .tick d => { s with clock := s.clock + d }
  | .issue v => s.issue v
  | .start email inviteCode token code =>
    s.begin (.start ⟨email, inviteCode, token, code, s.clock + registrationTTL⟩)
  | .complete token code => s.begin (.complete token code)
  | .turn p => match s.flows[p]? with
    | none => s
    | some f => s.step cfg p f
  | .fail p => s.stop p

end State

end Pandora.Identity.Registration
