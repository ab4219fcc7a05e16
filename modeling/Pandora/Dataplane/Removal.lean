import Pandora.Agent.Users
import Pandora.Dataplane.UserSessions
import Pandora.Foundation.Runs

/-!
# A removed user keeps no connection

A connection takes the epoch of the table, looks its user up and registers.  A user that is removed
is first taken out of the table of the users; then the connections that are registered are taken
out and closed, and a mark is left for those that have looked the user up and are not registered
yet.  A mark is kept for two minutes, which is longer than a handshake takes.

So no connection that found the user before it was removed is left (`Config.Inv.gone`).  But a mark
is compared with the epoch of a connection, which is older than its lookup: a connection that took
its epoch before the user was removed and found the user after it was added again is refused
(`refused_when_back`), and so is one that found it between the two steps of a removal
(`refused_when_found_between`).  Two removals of a user may also overlap, and the second returns
while the first has yet to close the connection (`left_to_another`).  It is enough that nobody looks
a user up while it is being removed, or with an epoch from before a removal, and that removals of a
user do not overlap.
-/

namespace Pandora.Dataplane

open List Keyed Nat UserSessions

open Agent (User Table)

namespace Removal

/-! ## The users -/

/-- What `AddUsers` and `UpsertUsers` refuse: `vless 用户 %q uuid 无效` and
`vless 适配器已关闭`. -/
inductive AddError
  | uuid (uuid : String)
  | closed

section Users

-- `uuid.Parse`, and `String` of what it returns.
variable (parse : String → Option String)

/-- The first loop of `AddUsers` and of `UpsertUsers`. -/
def validate (users : List User) : Except AddError (List User) :=
  users.mapM fun user =>
    match parse user.uuid with
    | none => .error (.uuid user.uuid)
    | some text => .ok { user with uuid := text }

def addUsers (closed : Bool) (users : List User) (t : Table) : Except AddError Table := do
  let validated ← validate parse users
  if closed then .error .closed else .ok (t.addAll validated)

def upsertUsers (closed : Bool) (users : List User) (t : Table) : Except AddError Table := do
  let validated ← validate parse users
  if closed then .error .closed else .ok (t.putAll validated)

/-- The part of `DelUsers` under the lock of the adapter: what is left, and the numbers of the
users that were taken out. -/
def delUsers (ids : List String) (t : Table) : Table × List ℤ :=
  ids.foldl (fun p id =>
    match parse id with
    | none => p
    | some key =>
      (p.1.erase key, match p.1.get key with
        | none => p.2
        | some user => p.2 ++ [user.id])) (t, [])

end Users

def lookupUser (id : String) (t : Table) : Option User := t.get id

/-! ## Runs -/

/-- How far a connection has come.  A lookup has the number of removals there had been. -/
inductive Phase
  | hello
  | known (user : User) (moment : ℕ)
  | refused (user : User) (moment : ℕ)
  | opened (user : User) (moment : ℕ) (h : Handle)
  deriving DecidableEq

/-- A connection that has taken its epoch. -/
structure Conn where
  number : ℕ
  epoch : ℕ
  since : Time
  phase : Phase := .hello
  /-- Whether it has returned by itself. -/
  ended : Bool := false
  deriving DecidableEq

/-- How far a `DelUsers` has come. -/
inductive Stage
  | deleted
  /-- `revoke` has read the clock. -/
  | stamped (now : Time)
  | closing (victims : List Handle)
  | returned
  deriving DecidableEq

structure Call where
  number : ℕ
  moment : ℕ
  removed : List ℤ
  stage : Stage := .deleted
  deriving DecidableEq

/-- A user was taken out of the table. -/
structure Gone where
  id : ℤ
  moment : ℕ

structure Config where
  closed : Bool := false
  users : Table := ∅
  sessions : UserSessions := {}
  clock : Time := 0
  conns : Keyed Conn.number := ∅
  calls : Keyed Call.number := ∅
  /-- How many removals there have been. -/
  moment : ℕ := 0
  removals : List Gone := []
  /-- The sessions whose closers have been called. -/
  kicked : List Handle := []

open Config

inductive Label
  | tick (d : ℕ)
  | stop
  | addUsers (users : List User)
  | upsertUsers (users : List User)
  /-- `DelUsers` takes users out of the table. -/
  | delUsers (d : ℕ) (ids : List String)
  /-- Its `revoke` reads the clock. -/
  | stamp (d : ℕ)
  /-- Its `revoke` marks the users. -/
  | revoke (d : ℕ)
  /-- Its `revoke` closes the next session, or returns. -/
  | kick (d : ℕ)
  | epoch (n : ℕ)
  | lookup (n : ℕ) (id : String)
  | openSession (n : ℕ)
  | leave (n : ℕ)

/-- The handshake is not over, and has not taken longer than marks are kept. -/
def Conn.Waiting (clock : Time) (x : Conn) : Prop :=
  x.ended = false ∧ clock - x.since < UserSessions.revokedKeep

instance (clock : Time) (x : Conn) : Decidable (x.Waiting clock) :=
  inferInstanceAs (Decidable (_ ∧ _))

def Config.stamp (c : Config) (y : Call) : Config :=
  match y.stage with
  | .deleted =>
    let stage := if y.removed = [] then .returned else .stamped c.clock
    { c with calls := c.calls.put { y with stage := stage } }
  | _ => c

def Config.revoke (c : Config) (y : Call) : Config :=
  match y.stage with
  | .stamped now =>
    { c with
      sessions := (c.sessions.revoke y.removed now).1
      calls := c.calls.put { y with stage := .closing (c.sessions.revoke y.removed now).2 } }
  | _ => c

def Config.kick (c : Config) (y : Call) : Config :=
  match y.stage with
  | .closing [] => { c with calls := c.calls.put { y with stage := .returned } }
  | .closing (h :: rest) =>
    { c with calls := c.calls.put { y with stage := .closing rest }, kicked := h :: c.kicked }
  | _ => c

/-- The user is looked up; a connection whose user is not found ends. -/
def Config.lookup (c : Config) (x : Conn) (id : String) : Config :=
  match x.phase with
  | .hello =>
    match lookupUser id c.users with
    | none => { c with conns := c.conns.put { x with ended := true } }
    | some user => { c with conns := c.conns.put { x with phase := .known user c.moment } }
  | _ => c

def Config.openSession (c : Config) (x : Conn) : Config :=
  match x.phase with
  | .known user moment =>
    if x.Waiting c.clock then
      match c.sessions.openSession user.id x.epoch with
      | none => { c with conns := c.conns.put { x with phase := .refused user moment } }
      | some (sessions, h) =>
        { c with
          sessions := sessions
          conns := c.conns.put { x with phase := .opened user moment h } }
    else c
  | _ => c

def Config.leave (c : Config) (x : Conn) : Config :=
  if x.ended then c
  else
    { c with
      conns := c.conns.put { x with ended := true }
      sessions := match x.phase with
        | .opened _ _ h => c.sessions.close h
        | _ => c.sessions }

def next (parse : String → Option String) (c : Config) : Label → Config
  | .tick d => { c with clock := c.clock + d }
  | .stop => { c with closed := true }
  | .addUsers users =>
    match addUsers parse c.closed users c.users with
    | .error _ => c
    | .ok t => { c with users := t }
  | .upsertUsers users =>
    match upsertUsers parse c.closed users c.users with
    | .error _ => c
    | .ok t => { c with users := t }
  | .delUsers d ids =>
    if (c.calls.get d).isSome then c
    else
      { c with
        users := (delUsers parse ids c.users).1
        calls := c.calls.put ⟨d, c.moment + 1, (delUsers parse ids c.users).2, .deleted⟩
        moment := c.moment + 1
        removals := (delUsers parse ids c.users).2.map (⟨·, c.moment + 1⟩) ++ c.removals }
  | .stamp d => (c.calls.get d).elim c c.stamp
  | .revoke d => (c.calls.get d).elim c c.revoke
  | .kick d => (c.calls.get d).elim c c.kick
  | .epoch n =>
    if (c.conns.get n).isSome then c
    else { c with conns := c.conns.put ⟨n, c.sessions.epoch, c.clock, .hello, false⟩ }
  | .lookup n id => (c.conns.get n).elim c fun x => if x.ended then c else c.lookup x id
  | .openSession n => (c.conns.get n).elim c c.openSession
  | .leave n => (c.conns.get n).elim c c.leave

/-! ## What is claimed -/

/-- The user a connection has found, and when. -/
def Phase.found : Phase → Option (User × ℕ)
  | .hello => none
  | .known user moment | .refused user moment | .opened user moment _ => some (user, moment)

/-- The session of a connection. -/
def Phase.handle : Phase → Option Handle
  | .opened _ _ h => some h
  | _ => none

/-- The call took the user of the connection out after the connection had looked it up. -/
def Call.Removed (y : Call) (x : Conn) : Prop :=
  ∃ p ∈ x.phase.found, p.1.id ∈ y.removed ∧ p.2 < y.moment

/-- The connection is not registered, and it has been refused or closed; one that has not called
`open` yet will be refused. -/
def Conn.Out (c : Config) (x : Conn) : Prop :=
  match x.phase with
  | .hello => False
  | .known user _ => x.Waiting c.clock → c.sessions.RevokedSince user.id x.epoch
  | .refused _ _ => True
  | .opened _ _ h => h ∉ c.sessions.conns ∧ (h ∈ c.kicked ∨ x.ended = true)

/-- **A removed user keeps no connection**, and the connections of a user that has come back are
not refused. -/
structure Config.Safe (c : Config) : Prop where
  live : c.sessions.live = c.sessions.conns.length
  gone : ∀ y ∈ c.calls, y.stage = .returned → ∀ x ∈ c.conns, y.Removed x → x.Out c
  back : ∀ x ∈ c.conns, ∀ user moment, x.phase = .refused user moment →
    ∃ r ∈ c.removals, r.id = user.id ∧ moment < r.moment

/-- The user has been taken out of the table, and its connections have not been looked through. -/
def Stage.Pending : Stage → Prop
  | .deleted | .stamped _ => True
  | .closing _ | .returned => False

instance : DecidablePred Stage.Pending
  | .deleted | .stamped _ => .isTrue trivial
  | .closing _ | .returned => .isFalse id

/-- The sessions that a call has yet to close. -/
def Stage.victims : Stage → List Handle
  | .closing victims => victims
  | _ => []

/-- **When this holds.**  Nobody finds a user that has been marked since its epoch or that is being
removed; and when the connections of a user are looked through, no other call is still closing
connections of this user. -/
def Config.Clear (c : Config) : Label → Prop
  | .lookup n id => ∀ x ∈ c.conns.get n, ∀ user ∈ lookupUser id c.users,
      ¬c.sessions.RevokedSince user.id x.epoch ∧
        ∀ y ∈ c.calls.values, y.stage.Pending → user.id ∉ y.removed
  | .revoke d => ∀ y ∈ c.calls.get d, y.stage.Pending →
      ∀ z ∈ c.calls.values, ∀ h ∈ z.stage.victims, h.id ∉ y.removed
  | _ => True

instance (c : Config) : DecidablePred c.Clear
  | .lookup n id => inferInstanceAs (Decidable (∀ x ∈ c.conns.get n, ∀ user ∈ lookupUser id c.users,
      ¬c.sessions.RevokedSince user.id x.epoch ∧
        ∀ y ∈ c.calls.values, y.stage.Pending → user.id ∉ y.removed))
  | .revoke d => inferInstanceAs (Decidable (∀ y ∈ c.calls.get d, y.stage.Pending →
      ∀ z ∈ c.calls.values, ∀ h ∈ z.stage.victims, h.id ∉ y.removed))
  | .tick _ | .stop | .addUsers _ | .upsertUsers _ | .delUsers _ _ | .stamp _ | .kick _ | .epoch _
  | .openSession _ | .leave _ => .isTrue trivial

/-! ## The invariant -/

/-- There was a removal of the user after the moment. -/
def Config.RemovedAfter (c : Config) (id : ℤ) (moment : ℕ) : Prop :=
  ∃ r ∈ c.removals, r.id = id ∧ moment < r.moment

/-- What holds of a connection. -/
structure Conn.Sound (c : Config) (x : Conn) : Prop where
  since : x.since ≤ c.clock
  epoch : x.epoch ≤ c.sessions.seq
  moment : ∀ p ∈ x.phase.found, p.2 ≤ c.moment
  known : ∀ user moment, x.phase = .known user moment → x.Waiting c.clock →
    ∀ r ∈ c.sessions.revoked.get user.id, x.epoch < r.seq →
      x.since ≤ r.time ∧ c.RemovedAfter user.id moment
  refused : ∀ user moment, x.phase = .refused user moment → c.RemovedAfter user.id moment
  opened : ∀ user moment h, x.phase = .opened user moment h →
    h.id = user.id ∧ h.number < c.sessions.issued ∧
      (h ∈ c.sessions.conns ∨ x.ended = true ∨ h ∈ c.kicked ∨ ∃ z ∈ c.calls, h ∈ z.stage.victims)

variable {c : Config} {x : Conn} {y : Call} {h : Handle}

theorem Conn.Sound.handle_lt (hx : x.Sound c)
    (hh : h ∈ x.phase.handle) : h.number < c.sessions.issued := by
  cases hphase : x.phase with
  | hello | known | refused =>
    rw [hphase] at hh
    cases hh
  | opened user moment =>
    rw [hphase] at hh
    cases hh
    exact (hx.opened user moment h hphase).2.1

/-- What holds of a call. -/
structure Call.Sound (c : Config) (y : Call) : Prop where
  moment : y.moment ≤ c.moment
  stamp : ∀ now, y.stage = .stamped now → now ≤ c.clock
  removed : ∀ id ∈ y.removed, ⟨id, y.moment⟩ ∈ c.removals

/-- What holds of a connection and a call.  While the call is pending, who knows the user has
found it before; afterwards the connection is out, or about to be closed. -/
structure Between (c : Config) (x : Conn) (y : Call) : Prop where
  pending : y.stage.Pending → ∀ user moment, x.phase = .known user moment → user.id ∈ y.removed →
    moment < y.moment ∧ ∀ now, y.stage = .stamped now → x.since ≤ now
  known : ¬y.stage.Pending → y.Removed x → ∀ user moment, x.phase = .known user moment →
    x.Waiting c.clock → c.sessions.RevokedSince user.id x.epoch
  opened : ¬y.stage.Pending → y.Removed x → ∀ user moment h, x.phase = .opened user moment h →
    h ∉ c.sessions.conns ∧ (h ∈ c.kicked ∨ x.ended = true ∨ h ∈ y.stage.victims)

theorem Between.idle (hknown : ∀ user moment, x.phase ≠ .known user moment)
    (hopened : ∀ user moment h, x.phase ≠ .opened user moment h) : Between c x y where
  pending _ user moment h := absurd h (hknown user moment)
  known _ _ user moment h := absurd h (hknown user moment)
  opened _ _ user moment h hopen := absurd hopen (hopened user moment h)

structure Config.Inv (c : Config) : Prop where
  live : c.sessions.live = c.sessions.conns.length
  marks : ∀ r ∈ c.sessions.revoked, r.seq ≤ c.sessions.seq
  apart : ∀ x ∈ c.conns, ∀ z ∈ c.conns, ∀ h ∈ x.phase.handle, h ∈ z.phase.handle →
    x.number = z.number
  conn : ∀ x ∈ c.conns, x.Sound c
  call : ∀ y ∈ c.calls, y.Sound c
  between : ∀ x ∈ c.conns, ∀ y ∈ c.calls, Between c x y

theorem inv_new : Inv {} where
  live := rfl
  marks r hr := absurd hr (not_mem_empty r)
  apart x hx := absurd hx (not_mem_empty x)
  conn x hx := absurd hx (not_mem_empty x)
  call y hy := absurd hy (not_mem_empty y)
  between x hx := absurd hx (not_mem_empty x)

theorem Config.Inv.gone (hc : c.Inv) (hx : x ∈ c.conns)
    (hy : y ∈ c.calls) (hback : y.stage = .returned) (hremoved : y.Removed x) : x.Out c := by
  have hbetween := hc.between x hx y hy
  have hpast : ¬y.stage.Pending := by
    rw [hback]
    exact id
  unfold Conn.Out
  cases hphase : x.phase with
  | hello =>
    obtain ⟨p, hp, -⟩ := hremoved
    rw [hphase] at hp
    cases hp
  | known user moment => exact hbetween.known hpast hremoved user moment hphase
  | refused => trivial
  | opened user moment h =>
    obtain ⟨hout, hend⟩ := hbetween.opened hpast hremoved user moment h hphase
    refine ⟨hout, ?_⟩
    rcases hend with hkicked | hended | hvictim
    · exact .inl hkicked
    · exact .inr hended
    · rw [hback] at hvictim
      cases hvictim

theorem Config.Inv.safe (hc : c.Inv) : c.Safe where
  live := hc.live
  gone _ hy hback _ hx hremoved := hc.gone hx hy hback hremoved
  back x hx user moment hphase := (hc.conn x hx).refused user moment hphase

/-! ## Time -/

theorem Conn.Waiting.earlier {clock clock' : Time} (h : x.Waiting clock')
    (hle : clock ≤ clock') : x.Waiting clock := by
  obtain ⟨hended, hshort⟩ := h
  exact ⟨hended, (Int.sub_le_sub_right hle x.since).trans_lt hshort⟩

theorem Config.Inv.tick (hc : c.Inv) (d : ℕ) : Inv { c with clock := c.clock + d } := by
  have hle : c.clock ≤ c.clock + d := le_add_of_nonneg_right (Int.natCast_nonneg d)
  refine ⟨hc.live, hc.marks, hc.apart, ?_, ?_, ?_⟩
  · intro x hx
    have hsound := hc.conn x hx
    exact { hsound with
      since := hsound.since.trans hle
      known := fun user moment hphase hwait =>
        hsound.known user moment hphase (hwait.earlier hle) }
  · intro y hy
    have hsound := hc.call y hy
    exact { hsound with stamp := fun now hnow => (hsound.stamp now hnow).trans hle }
  · intro x hx y hy
    have hbetween := hc.between x hx y hy
    exact { hbetween with
      known := fun hpast hremoved user moment hphase hwait =>
        hbetween.known hpast hremoved user moment hphase (hwait.earlier hle) }

/-! ## Connections -/

namespace Config.Inv

section

variable (hc : c.Inv)
include hc

theorem putConn (hsound : x.Sound c)
    (hapart : ∀ h ∈ x.phase.handle, ∀ z ∈ c.conns, h ∈ z.phase.handle → x.number = z.number)
    (hbetween : ∀ y ∈ c.calls, Between c x y) : Inv { c with conns := c.conns.put x } := by
  have hcases : ∀ z ∈ c.conns.put x, z.Sound c ∧ ∀ y ∈ c.calls, Between c z y := by
    exact forall_mem_put ⟨hsound, hbetween⟩ fun z hz => ⟨hc.conn z hz, hc.between z hz⟩
  refine ⟨hc.live, hc.marks, ?_, fun z hz => { (hcases z hz).1 with },
    fun y hy => { hc.call y hy with }, fun z hz y hy => { (hcases z hz).2 y hy with }⟩
  intro z hz w hw h hzh hwh
  rcases mem_put.mp hz with rfl | ⟨-, hz'⟩ <;> rcases mem_put.mp hw with rfl | ⟨-, hw'⟩
  · rfl
  · exact hapart h hzh w hw' hwh
  · exact (hapart h hwh z hz' hzh).symm
  · exact hc.apart z hz' w hw' h hzh hwh

theorem putHello (hphase : x.phase = .hello) (hsince : x.since ≤ c.clock)
    (hepoch : x.epoch ≤ c.sessions.seq) : Inv { c with conns := c.conns.put x } := by
  refine hc.putConn ⟨hsince, hepoch, ?_, ?_, ?_, ?_⟩ ?_ fun _ _ => .idle ?_ ?_ <;> rw [hphase] <;>
    nofun

theorem lookup (hx : x ∈ c.conns) {id : String}
    (hclear : ∀ user ∈ lookupUser id c.users, ¬c.sessions.RevokedSince user.id x.epoch ∧
      ∀ y ∈ c.calls.values, y.stage.Pending → user.id ∉ y.removed) : (c.lookup x id).Inv := by
  have hsound := hc.conn x hx
  unfold Config.lookup
  cases hphase : x.phase with
  | known | refused | opened => exact hc
  | hello =>
    cases hfound : lookupUser id c.users with
    | none => exact hc.putHello rfl hsound.since hsound.epoch
    | some user =>
      obtain ⟨hfresh, hfree⟩ := hclear user hfound
      refine hc.putConn ⟨hsound.since, hsound.epoch, ?_, ?_, nofun, nofun⟩ nofun
        fun y hy => ⟨?_, ?_, nofun⟩
      · rintro p ⟨⟩
        exact le_rfl
      · rintro _ _ ⟨⟩ - r hr hlt
        exact absurd ⟨r, hr, hlt⟩ hfresh
      · rintro hpending _ _ ⟨⟩ hin
        exact absurd hin (hfree y (mem_values.mpr hy) hpending)
      · -- A removal that is over came before the lookup.
        rintro - ⟨p, ⟨⟩, -, hlt⟩
        exact absurd (hc.call y hy).moment hlt.not_ge

theorem register {s' : UserSessions} (hnumber : h.number = c.sessions.issued)
    (hissued : s'.issued = c.sessions.issued + 1) (hconns : s'.conns = h :: c.sessions.conns)
    (hlive : s'.live = c.sessions.live + 1) (hseq : s'.seq = c.sessions.seq)
    (hrevoked : s'.revoked = c.sessions.revoked) : Inv { c with sessions := s' } := by
  refine ⟨?_, ?_, hc.apart, ?_, fun y hy => { hc.call y hy with }, ?_⟩
  · rw [hlive, hconns, length_cons, hc.live, cast_succ]
  · rw [hrevoked, hseq]
    exact hc.marks
  · intro z hz
    have hsound := hc.conn z hz
    refine ⟨hsound.since, hseq.symm ▸ hsound.epoch, hsound.moment, ?_, hsound.refused, ?_⟩
    · rw [hrevoked]
      exact hsound.known
    · intro user moment h' hopened
      obtain ⟨hid, hless, hwhere⟩ := hsound.opened user moment h' hopened
      refine ⟨hid, ?_, ?_⟩
      · show h'.number < s'.issued
        omega
      · rw [hconns]
        exact hwhere.imp_left (mem_cons_of_mem h)
  · intro z hz y hy
    have hbetween := hc.between z hz y hy
    refine ⟨hbetween.pending, ?_, ?_⟩
    · intro hpast hremoved user moment hknown hwait
      show ∃ r ∈ s'.revoked.get _, _
      rw [hrevoked]
      exact hbetween.known hpast hremoved user moment hknown hwait
    · intro hpast hremoved user moment h' hopened
      obtain ⟨hout, hend⟩ := hbetween.opened hpast hremoved user moment h' hopened
      obtain ⟨-, hless, -⟩ := (hc.conn z hz).opened user moment h' hopened
      refine ⟨?_, hend⟩
      rw [hconns, mem_cons]
      rintro (rfl | hin)
      · omega
      · exact hout hin

theorem openSession (hx : x ∈ c.conns) : (c.openSession x).Inv := by
  have hsound := hc.conn x hx
  unfold Config.openSession
  cases hphase : x.phase with
  | hello | refused | opened => exact hc
  | known user moment =>
    have hfound : (user, moment) ∈ x.phase.found := by
      rw [hphase]
      rfl
    have hmoment := hsound.moment (user, moment) hfound
    dsimp only
    split_ifs with hwait
    · rcases c.sessions.openSession_cases user.id x.epoch with
        ⟨⟨r, hr, hlt⟩, heq⟩ | ⟨s', h, hfresh, heq, hid, hnumber, hissued, hconns, hlive,
          hseq, hrevoked⟩
      · rw [heq]
        obtain ⟨-, hremoved⟩ := hsound.known user moment hphase hwait r hr hlt
        refine hc.putConn ⟨hsound.since, hsound.epoch, ?_, nofun, ?_, nofun⟩ nofun
          fun y _ => .idle nofun nofun
        · rintro p ⟨⟩
          exact hmoment
        · rintro _ _ ⟨⟩
          exact hremoved
      · rw [heq]
        have hinv := hc.register hnumber hissued hconns hlive hseq hrevoked
        refine hinv.putConn ⟨hsound.since, hseq.symm ▸ hsound.epoch, ?_, nofun, nofun, ?_⟩ ?_
          fun y hy => ⟨nofun, nofun, ?_⟩
        · rintro p ⟨⟩
          exact hmoment
        · rintro _ _ _ ⟨⟩
          refine ⟨hid, ?_, .inl ?_⟩
          · show h.number < s'.issued
            omega
          · rw [hconns]
            exact mem_cons_self
        · rintro _ ⟨⟩ z hz hhandle
          have hless := (hc.conn z hz).handle_lt hhandle
          omega
        · -- Had the user been removed, the mark would have been there.
          rintro hpast ⟨p, ⟨⟩, hp⟩ _ _ _ ⟨⟩
          exact absurd ((hc.between x hx y hy).known hpast ⟨(user, moment), hfound, hp⟩ user moment
            hphase hwait) hfresh
    · exact hc

theorem leave (hx : x ∈ c.conns) : (c.leave x).Inv := by
  have hsound := hc.conn x hx
  unfold Config.leave
  split_ifs with hended
  · exact hc
  · have hinv : Inv { c with conns := c.conns.put { x with ended := true } } := by
      refine hc.putConn { hsound with known := ?_, opened := ?_ }
        (fun h hh z hz => hc.apart x hx z hz h hh) fun y hy => ⟨?_, ?_, ?_⟩
      · exact fun _ _ _ hwait => nomatch hwait.1
      · intro user moment h hopened
        obtain ⟨hid, hless, -⟩ := hsound.opened user moment h hopened
        exact ⟨hid, hless, .inr (.inl rfl)⟩
      · exact (hc.between x hx y hy).pending
      · exact fun _ _ _ _ _ hwait => nomatch hwait.1
      · intro hpast hremoved user moment h hopened
        have hout := ((hc.between x hx y hy).opened hpast hremoved user moment h hopened).1
        exact ⟨hout, .inr (.inl rfl)⟩
    cases hphase : x.phase with
    | hello | known | refused =>
      rw [hphase] at hinv
      exact hinv
    | opened user moment h =>
      rw [hphase] at hinv
      refine ⟨?_, hinv.marks, hinv.apart, ?_, fun y hy => { hinv.call y hy with }, ?_⟩
      · show (if h ∈ c.sessions.conns then c.sessions.live - 1 else c.sessions.live) =
          ((c.sessions.conns.erase h).length : ℤ)
        have hlive := hc.live
        rw [length_erase]
        split_ifs with hin
        · have hpos := length_pos_of_mem hin
          omega
        · exact hlive
      · intro z hz
        refine { hinv.conn z hz with opened := ?_ }
        intro user' moment' h' hopened
        obtain ⟨hid, hless, hwhere⟩ := (hinv.conn z hz).opened user' moment' h' hopened
        refine ⟨hid, hless, ?_⟩
        by_cases heq : h' = h
        · -- It is the connection that ends.
          subst heq
          rcases mem_put.mp hz with rfl | ⟨hne, hz⟩
          · exact .inr (.inl rfl)
          · refine absurd (hc.apart z hz x hx h' ?_ ?_) hne
            · rw [hopened]
              rfl
            · rw [hphase]
              rfl
        · exact hwhere.imp_left fun hin => (mem_erase_of_ne heq).mpr hin
      · intro z hz y hy
        refine { hinv.between z hz y hy with opened := ?_ }
        intro hpast hremoved user' moment' h' hopened
        obtain ⟨hout, hend⟩ := (hinv.between z hz y hy).opened hpast hremoved user' moment'
          h' hopened
        exact ⟨fun hin => hout (mem_of_mem_erase hin), hend⟩

end

end Config.Inv

/-! ## Removals -/

theorem Config.Inv.putCall (hc : c.Inv) {kicked : List Handle}
    (hkicked : ∀ h ∈ c.kicked, h ∈ kicked) (hsound : y.Sound c)
    (hvictims : ∀ z ∈ c.calls, z.number = y.number → ∀ h ∈ z.stage.victims,
      h ∈ kicked ∨ h ∈ y.stage.victims)
    (hbetween : ∀ x ∈ c.conns, Between { c with kicked := kicked } x y) :
    Inv { c with calls := c.calls.put y, kicked := kicked } := by
  refine ⟨hc.live, hc.marks, hc.apart, ?_, ?_, ?_⟩
  · intro x hx
    refine { hc.conn x hx with opened := ?_ }
    intro user moment h hopened
    obtain ⟨hid, hless, hwhere⟩ := (hc.conn x hx).opened user moment h hopened
    refine ⟨hid, hless, ?_⟩
    rcases hwhere with hin | hended | hdone | ⟨z, hz, hvictim⟩
    · exact .inl hin
    · exact .inr (.inl hended)
    · exact .inr (.inr (.inl (hkicked h hdone)))
    · by_cases heq : z.number = y.number
      · rcases hvictims z hz heq h hvictim with hdone | hstill
        · exact .inr (.inr (.inl hdone))
        · exact .inr (.inr (.inr ⟨y, mem_put.mpr (.inl rfl), hstill⟩))
      · exact .inr (.inr (.inr ⟨z, mem_put.mpr (.inr ⟨heq, hz⟩), hvictim⟩))
  · exact forall_mem_put ({ hsound with }) fun z hz => { hc.call z hz with }
  · intro x hx z hz
    rcases mem_put.mp hz with rfl | ⟨-, hz⟩
    · exact { hbetween x hx with }
    · refine { hc.between x hx z hz with opened := ?_ }
      intro hpast hremoved user moment h hopened
      obtain ⟨hout, hend⟩ := (hc.between x hx z hz).opened hpast hremoved user moment h hopened
      exact ⟨hout, hend.imp_left (hkicked h)⟩

theorem Config.Inv.stamp (hc : c.Inv) (hy : y ∈ c.calls) : (c.stamp y).Inv := by
  have hsound := hc.call y hy
  unfold Config.stamp
  cases hstage : y.stage with
  | stamped | closing | returned => exact hc
  | deleted =>
    have hvictims : ∀ stage : Stage, ∀ z ∈ c.calls, z.number = y.number → ∀ h ∈ z.stage.victims,
        h ∈ c.kicked ∨ h ∈ stage.victims := by
      intro stage z hz heq h hh
      rw [eq_of_mem hz hy heq, hstage] at hh
      cases hh
    split_ifs with hnone
    · -- Nobody was removed.
      have hidle : ∀ x : Conn, ¬Call.Removed { y with stage := .returned } x := by
        rintro x ⟨p, -, hin, -⟩
        rw [hnone] at hin
        cases hin
      refine hc.putCall (fun _ => id) { hsound with stamp := nofun } (hvictims .returned)
        fun x hx => ⟨nofun, ?_, ?_⟩
      · exact fun _ hremoved => absurd hremoved (hidle x)
      · exact fun _ hremoved => absurd hremoved (hidle x)
    · refine hc.putCall (fun _ => id) { hsound with stamp := ?_ }
        (hvictims (.stamped c.clock)) fun x hx => ⟨?_, ?_, ?_⟩
      · rintro now ⟨⟩
        exact le_rfl
      · intro _ user moment hknown hin
        have hpending : y.stage.Pending := by
          rw [hstage]
          trivial
        have hbefore := (hc.between x hx y hy).pending hpending user moment hknown hin
        refine ⟨hbefore.1, ?_⟩
        rintro now ⟨⟩
        exact (hc.conn x hx).since
      · exact fun hpast => absurd trivial hpast
      · exact fun hpast => absurd trivial hpast

theorem Config.Inv.kick (hc : c.Inv) (hy : y ∈ c.calls) : (c.kick y).Inv := by
  have hsound := hc.call y hy
  have hpast : ∀ victims, y.stage = .closing victims → ¬y.stage.Pending := by
    intro victims hstage
    rw [hstage]
    exact id
  unfold Config.kick
  rcases hstage : y.stage with _ | now | ⟨_ | ⟨h, rest⟩⟩ | _
  · exact hc
  · exact hc
  · refine hc.putCall (fun _ => id) { hsound with stamp := nofun } ?_
      fun x hx => ⟨nofun, fun _ => (hc.between x hx y hy).known (hpast _ hstage), ?_⟩
    · intro z hz heq h hh
      rw [eq_of_mem hz hy heq, hstage] at hh
      cases hh
    · intro _ hremoved user moment h hopened
      have hend := (hc.between x hx y hy).opened (hpast _ hstage) hremoved user moment h hopened
      rw [hstage] at hend
      exact hend
  · refine hc.putCall (fun _ => mem_cons_of_mem h) { hsound with stamp := nofun } ?_
      fun x hx => ⟨nofun, fun _ => (hc.between x hx y hy).known (hpast _ hstage), ?_⟩
    · intro z hz heq h' hh'
      rw [eq_of_mem hz hy heq, hstage] at hh'
      rcases mem_cons.mp hh' with rfl | hrest
      · exact .inl mem_cons_self
      · exact .inr hrest
    · intro _ hremoved user moment h' hopened
      obtain ⟨hout, hend⟩ :=
        (hc.between x hx y hy).opened (hpast _ hstage) hremoved user moment h' hopened
      refine ⟨hout, ?_⟩
      rcases hend with hdone | hended | hvictim
      · exact .inl (mem_cons_of_mem h hdone)
      · exact .inr (.inl hended)
      · rw [hstage] at hvictim
        rcases mem_cons.mp hvictim with rfl | hrest
        · exact .inl mem_cons_self
        · exact .inr (.inr hrest)
  · exact hc

theorem Config.Inv.remove (hc : c.Inv) {d : ℕ} (hd : c.calls.get d = none)
    (users : Table) (removed : List ℤ) :
    Inv { c with
      users := users
      calls := c.calls.put ⟨d, c.moment + 1, removed, .deleted⟩
      moment := c.moment + 1
      removals := removed.map (⟨·, c.moment + 1⟩) ++ c.removals } := by
  have hafter : ∀ {id : ℤ} {moment : ℕ}, c.RemovedAfter id moment → ∃ r ∈ removed.map
      (fun id => (⟨id, c.moment + 1⟩ : Gone)) ++ c.removals, r.id = id ∧ moment < r.moment :=
    fun ⟨r, hr, h⟩ => ⟨r, mem_append_right _ hr, h⟩
  have hinv : Inv { c with
      users := users
      moment := c.moment + 1
      removals := removed.map (⟨·, c.moment + 1⟩) ++ c.removals } := by
    refine ⟨hc.live, hc.marks, hc.apart, ?_, ?_, fun x hx y hy => { hc.between x hx y hy with }⟩
    · intro x hx
      have hsound := hc.conn x hx
      refine { hsound with
        moment := fun p hp => (hsound.moment p hp).trans (le_succ _), known := ?_, refused := ?_ }
      · intro user moment hknown hwait r hr hlt
        exact (hsound.known user moment hknown hwait r hr hlt).imp_right hafter
      · exact fun user moment hrefused => hafter (hsound.refused user moment hrefused)
    · intro y hy
      have hsound := hc.call y hy
      exact ⟨hsound.moment.trans (le_succ _), hsound.stamp,
        fun id hid => mem_append_right _ (hsound.removed id hid)⟩
  refine hinv.putCall (fun _ => id) ⟨le_rfl, nofun, ?_⟩ ?_ fun x hx => ⟨?_, ?_, ?_⟩
  · exact fun id hid => mem_append_left _ (mem_map.mpr ⟨id, hid, rfl⟩)
  · intro z hz heq
    have hsome : c.calls.get d = some z := get_eq_some_iff.mpr ⟨hz, heq⟩
    rw [hd] at hsome
    cases hsome
  · intro _ user moment hknown hin
    refine ⟨lt_succ_of_le ((hc.conn x hx).moment (user, moment) ?_), nofun⟩
    rw [hknown]
    rfl
  · exact fun hpast => absurd trivial hpast
  · exact fun hpast => absurd trivial hpast

theorem Conn.Waiting.not_old {clock now time : Time} (hwait : x.Waiting clock) (hnow : now ≤ clock)
    (htime : x.since ≤ time) : ¬revokedKeep < Time.sub now time := by
  intro hage
  have hage' : revokedKeep < now - time := Time.lt_of_lt_sub (by decide) hage
  have hshort := hwait.2
  have hlt : now - time ≤ clock - x.since := Int.sub_le_sub hnow htime
  exact absurd (hage'.trans_le hlt) hshort.not_gt

section Revoke

variable {s' : UserSessions} {victims : List Handle} {now : Time} (hc : c.Inv) (hy : y ∈ c.calls)
  (hstage : y.stage = .stamped now) (hr : Revoked c.sessions y.removed now s' victims)
  (hx : x ∈ c.conns)
include hc hr hx

theorem Config.Inv.marked {id : ℤ} (hid : id ∈ y.removed) : s'.RevokedSince id x.epoch := by
  obtain ⟨n, hn, hlt, -⟩ := hr.marked id hid
  exact ⟨_, hn, (hc.conn x hx).epoch.trans_lt hlt⟩

theorem Between.revoke (hnow : now ≤ c.clock) {z : Call} (hbetween : Between c x z) :
    Between { c with sessions := s' } x z := by
  refine ⟨hbetween.pending, ?_, ?_⟩
  · intro hpast hremoved user moment hknown hwait
    by_cases hin : user.id ∈ y.removed
    · exact hc.marked hr hx hin
    · obtain ⟨r, hmem, hlt⟩ := hbetween.known hpast hremoved user moment hknown hwait
      obtain ⟨hsince, -⟩ := (hc.conn x hx).known user moment hknown hwait r hmem hlt
      rcases hr.kept user.id hin r hmem with hkept | hage
      · exact ⟨r, hkept, hlt⟩
      · exact absurd hage (hwait.not_old hnow hsince)
  · intro hpast hremoved user moment h hopened
    obtain ⟨hout, hend⟩ := hbetween.opened hpast hremoved user moment h hopened
    exact ⟨fun hstill => hout ((hr.conns h).mp hstill).1, hend⟩

theorem Between.closing
    (hfree : ∀ z ∈ c.calls.values, ∀ h ∈ z.stage.victims, h.id ∉ y.removed) :
    Between { c with sessions := s' } x { y with stage := .closing victims } := by
  refine ⟨nofun, ?_, ?_⟩
  · rintro - ⟨p, hp, hin, -⟩ user moment hknown -
    rw [hknown] at hp
    cases hp
    exact hc.marked hr hx hin
  · rintro - ⟨p, hp, hin, -⟩ user moment h hopened
    rw [hopened] at hp
    cases hp
    obtain ⟨hid, -, hwhere⟩ := (hc.conn x hx).opened user moment h hopened
    have hmine : h.id ∈ y.removed := hid.symm ▸ hin
    refine ⟨fun hstill => ((hr.conns h).mp hstill).2 hmine, ?_⟩
    rcases hwhere with hin | hended | hdone | ⟨z, hz', hvictim⟩
    · exact .inr (.inr ((hr.victims h).mpr ⟨hin, hmine⟩))
    · exact .inr (.inl hended)
    · exact .inl hdone
    · exact absurd hmine (hfree z (mem_values.mpr hz') h hvictim)

include hy hstage

/-- A connection that knows a user that is marked found it before the user was removed. -/
theorem Conn.Sound.revoke : x.Sound { c with
      sessions := s', calls := c.calls.put { y with stage := .closing victims } } := by
  have hx' := hc.conn x hx
  refine ⟨hx'.since, hx'.epoch.trans hr.seq, hx'.moment, ?_, hx'.refused, ?_⟩
  · intro user moment hknown hwait r (hmem : s'.revoked.get user.id = some r) hlt
    by_cases hin : user.id ∈ y.removed
    · obtain ⟨n, hn, -, -⟩ := hr.marked user.id hin
      cases hn.symm.trans hmem
      obtain ⟨hbefore, hsince⟩ :=
        (hc.between x hx y hy).pending (hstage ▸ trivial) user moment hknown hin
      exact ⟨hsince now hstage, ⟨user.id, y.moment⟩, (hc.call y hy).removed _ hin, rfl, hbefore⟩
    · exact hx'.known user moment hknown hwait r (hr.stayed user.id hin r hmem) hlt
  · intro user moment h hopened
    obtain ⟨hid, hless, hwhere⟩ := hx'.opened user moment h hopened
    refine ⟨hid, hr.issued ▸ hless, ?_⟩
    rcases hwhere with hin | hended | hdone | ⟨z, hz, hvictim⟩
    · by_cases hmine : h.id ∈ y.removed
      · exact .inr (.inr (.inr ⟨_, mem_put.mpr (.inl rfl), (hr.victims h).mpr ⟨hin, hmine⟩⟩))
      · exact .inl ((hr.conns h).mpr ⟨hin, hmine⟩)
    · exact .inr (.inl hended)
    · exact .inr (.inr (.inl hdone))
    · refine .inr (.inr (.inr ⟨z, mem_put.mpr (.inr ⟨fun heq => ?_, hz⟩), hvictim⟩))
      rw [eq_of_mem hz hy heq, hstage] at hvictim
      cases hvictim

end Revoke

theorem Config.Inv.revoke (hc : c.Inv) (hy : y ∈ c.calls)
    (hclear : y.stage.Pending → ∀ z ∈ c.calls.values, ∀ h ∈ z.stage.victims, h.id ∉ y.removed) :
    (c.revoke y).Inv := by
  have hsound := hc.call y hy
  unfold Config.revoke
  cases hstage : y.stage with
  | deleted | closing | returned => exact hc
  | stamped now =>
    have hr := c.sessions.revoked_revoke y.removed now
    dsimp only
    generalize (c.sessions.revoke y.removed now).1 = s' at hr ⊢
    generalize (c.sessions.revoke y.removed now).2 = victims at hr ⊢
    refine ⟨?_, ?_, hc.apart, fun x hx => .revoke hc hy hstage hr hx, ?_, ?_⟩
    · have hlive := hc.live
      have hafter := hr.live
      show s'.live = s'.conns.length
      omega
    · intro r (hmem : s'.revoked.get r.key = some r)
      by_cases hin : r.key ∈ y.removed
      · obtain ⟨n, hn, -, hle⟩ := hr.marked r.key hin
        have hseq : n = r.seq := congrArg Revocation.seq (Option.some.inj (hn.symm.trans hmem))
        exact hseq ▸ hle
      · exact (hc.marks r (hr.stayed r.key hin r hmem)).trans hr.seq
    · exact forall_mem_put ({ hsound with stamp := nofun }) fun z hz => { hc.call z hz with }
    · intro x hx z hz
      rcases mem_put.mp hz with rfl | ⟨-, hz⟩
      · exact { Between.closing hc hr hx (hclear (hstage ▸ trivial)) with }
      · exact { (hc.between x hx z hz).revoke hc hr hx (hsound.stamp now hstage) with }

/-! ## All runs -/

theorem Config.Inv.elim {α : Type} (hc : c.Inv) {o : Option α} {f : α → Config}
    (hf : ∀ a ∈ o, (f a).Inv) : (o.elim c f).Inv := by
  cases o with
  | none => exact hc
  | some a => exact hf a rfl

theorem Config.Inv.next {parse : String → Option String} (hc : c.Inv) {l : Label}
    (hclear : c.Clear l) : (next parse c l).Inv := by
  have hframe : ∀ closed users, Inv { c with closed := closed, users := users } :=
    fun _ _ => ⟨hc.live, hc.marks, hc.apart, fun x hx => { hc.conn x hx with },
      fun y hy => { hc.call y hy with }, fun x hx y hy => { hc.between x hx y hy with }⟩
  cases l with
  | tick d => exact hc.tick d
  | stop => exact hframe true c.users
  | addUsers | upsertUsers =>
    simp only [Removal.next]
    split
    · exact hc
    · exact hframe c.closed _
  | delUsers =>
    simp only [Removal.next]
    split_ifs with hd
    · exact hc
    · exact hc.remove (Option.not_isSome_iff_eq_none.mp hd) _ _
  | stamp => exact hc.elim fun y hy => hc.stamp (mem_of_get hy)
  | revoke => exact hc.elim fun y hy => hc.revoke (mem_of_get hy) (hclear y hy)
  | kick => exact hc.elim fun y hy => hc.kick (mem_of_get hy)
  | epoch =>
    simp only [Removal.next]
    split_ifs with hn
    · exact hc
    · exact hc.putHello rfl le_rfl le_rfl
  | lookup =>
    refine hc.elim fun x hx => ?_
    split_ifs with hended
    · exact hc
    · exact hc.lookup (mem_of_get hx) (hclear x hx)
  | openSession => exact hc.elim fun x hx => hc.openSession (mem_of_get hx)
  | leave => exact hc.elim fun x hx => hc.leave (mem_of_get hx)

/-- One connection is open and one has found its user when the user is removed; a third finds the
user when it is back. -/
def sample : List Label :=
  [.addUsers [{ id := 1, uuid := "u" }], .epoch 0, .lookup 0 "u", .openSession 0, .epoch 1,
    .lookup 1 "u", .delUsers 0 ["u"], .stamp 0, .tick 5, .revoke 0, .kick 0, .kick 0,
    .openSession 1, .upsertUsers [{ id := 1, uuid := "u" }], .epoch 2, .lookup 2 "u",
    .openSession 2]

/-- A connection takes its epoch, its user is removed and added again, and the connection finds the
user. -/
def lateFinder : List Label :=
  [.addUsers [{ id := 1, uuid := "u" }], .epoch 0, .delUsers 0 ["u"], .stamp 0, .revoke 0, .kick 0,
    .addUsers [{ id := 1, uuid := "u" }], .lookup 0 "u", .openSession 0]

/-- A connection has been refused, and its user was not removed after it had been found. -/
theorem not_safe_of_refused (n moment : ℕ) (user : User)
    (hphase : ∃ x ∈ c.conns.get n, x.phase = .refused user moment)
    (hremovals : ∀ r ∈ c.removals, r.moment ≤ moment) : ¬c.Safe := by
  intro h
  obtain ⟨x, hx, hx'⟩ := hphase
  obtain ⟨r, hr, -, hlt⟩ := h.back x (mem_of_get hx) _ _ hx'
  exact absurd (hremovals r hr) hlt.not_ge

/-- A user is taken out of the table and added again; a connection takes its epoch and finds the
user before the removal comes to its marks. -/
def foundBetween : List Label :=
  [.addUsers [{ id := 1, uuid := "u" }], .delUsers 0 ["u"], .addUsers [{ id := 1, uuid := "u" }],
    .epoch 0, .lookup 0 "u", .stamp 0, .revoke 0, .kick 0, .openSession 0]

theorem refused_when_found_between : ¬(foundBetween.foldl (next some) {}).Safe :=
  not_safe_of_refused 0 1 { id := 1, uuid := "u" } (by decide +kernel) (by decide +kernel)

/-- A user is removed, added again and removed again before the first removal has closed the
connection of the user. -/
def overlapping : List Label :=
  [.addUsers [{ id := 1, uuid := "u" }], .epoch 0, .lookup 0 "u", .openSession 0, .delUsers 0 ["u"],
    .stamp 0, .revoke 0, .addUsers [{ id := 1, uuid := "u" }], .delUsers 1 ["u"], .stamp 1,
    .revoke 1, .kick 1]

theorem left_to_another : ¬(overlapping.foldl (next some) {}).Safe := by
  intro h
  have hcall : ∃ y ∈ (overlapping.foldl (next some) {}).calls.get 1,
      y = ⟨1, 2, [1], .returned⟩ := by decide +kernel
  have hconn : ∃ x ∈ (overlapping.foldl (next some) {}).conns.get 0,
      x = ⟨0, 0, 0, .opened { id := 1, uuid := "u" } 0 ⟨0, 1, 0⟩, false⟩ := by decide +kernel
  obtain ⟨y, hy, rfl⟩ := hcall
  obtain ⟨x, hx, rfl⟩ := hconn
  obtain ⟨-, hclosed⟩ := h.gone _ (mem_of_get hy) rfl _ (mem_of_get hx)
    ⟨_, rfl, mem_singleton_self _, by decide⟩
  revert hclosed
  decide +kernel

end Removal
end Pandora.Dataplane
