import Pandora.Agent.Node
import Pandora.Agent.Roster

/-!
# What a configuration does to the roster of a node

A configuration is installed in many steps, each of which may fail, but to the roster of the node
it can do only a few things.  If it fails, the roster is as it was, or given up together with the
inbound, or as it was in the inbound of before (`Standing.Failed`).  If it does not, the roster is
the one that came with the inbound, or none (`Node.adoptInstalledUsers`).  In neither case is
anything said about the roster before the end of the step.
-/

namespace Pandora.Agent

open Option Cell List Node

/-! ## What a configuration does to the roster of a node -/

/-- The fields of a node that have to do with its roster. -/
structure Standing where
  started : Bool
  staged : Option StagedUsers
  known : Users
  userVersion : String
  pendingUsersAck : Option UsersAck

def Node.standing (n : Node) : Standing :=
  ⟨n.started, n.staged, n.known, n.userVersion, n.pendingUsersAck⟩

/-- What a configuration that fails leaves of the roster: all of it, nothing, or all of it in the
inbound of before, which serves again. -/
inductive Standing.Failed (ch : Chance) (active : Option Document) (a : Standing) : Standing → Prop
  | unchanged : a.Failed ch active a
  | lost (b : Standing) (hstarted : b.started = false) (hstaged : b.staged = a.staged)
      (hknown : b.known = ∅) (hversion : b.userVersion = "") : a.Failed ch active b
  | rolledBack (hactive : active.isSome = true) (hserves : ch.reinstall.Serves) :
      a.Failed ch active { a with started := true }

/-- What it leaves of a node. -/
abbrev Cell.Fails (ch : Chance) (x z : Cell) : Prop :=
  x.node.standing.Failed ch x.node.activeConfig z.node.standing

theorem restoreUsers_spec (ch : Chance) (x : Cell) : (x.restoreUsers ch).1.sent = x.sent ∧
      (((x.restoreUsers ch).2 = true ∧ (x.restoreUsers ch).1.node = x.node) ∨
        ((x.restoreUsers ch).2 = false ∧ (x.restoreUsers ch).1.node = x.node.markInboundLost)) := by
  unfold restoreUsers
  split_ifs
  · exact ⟨rfl, .inl ⟨rfl, rfl⟩⟩
  · exact ⟨rfl, .inr ⟨rfl, rfl⟩⟩
  · exact ⟨rfl, .inl ⟨rfl, rfl⟩⟩

theorem rollBack_spec (codec : Codec) (ch : Chance) (x : Cell) :
    (x.rollBack codec ch).sent = x.sent ∧ x.Fails ch (x.rollBack codec ch) := by
  unfold rollBack Fails
  cases x.node.activeConfig with
  | none => exact ⟨rfl, .unchanged⟩
  | some previous =>
    obtain ⟨hsent, ⟨htold, hnode⟩ | ⟨htold, hnode⟩⟩ := restoreUsers_spec ch { x with
      inbound := (installConfig codec.intText ch.reinstall previous x.node.nodeType
        [] x.inbound).1 }
    all_goals
      simp only [htold, Bool.false_eq_true, reduceIte]
      split_ifs with hok
    · refine ⟨hsent, ?_⟩
      rw [hnode]
      exact .rolledBack rfl (installConfig_ok hok).1
    · exact ⟨rfl, .lost _ rfl rfl rfl rfl⟩
    · refine ⟨hsent, ?_⟩
      rw [hnode]
      exact .lost _ rfl rfl rfl rfl
    · exact ⟨rfl, .lost _ rfl rfl rfl rfl⟩

theorem Node.standing_adoptInstalledUsers (n : Node) (cfg : Option Document) (nodeType : String)
    (p : PreparedUsers) (refused : Bool) :
    (adoptInstalledUsers p refused { n with activeConfig := cfg, nodeType := nodeType }).standing =
      (n.adoptInstalledUsers p refused).standing := by
  unfold adoptInstalledUsers
  split_ifs <;> rfl

/-- A node serves with the users that came with its inbound, or without any if they were refused. -/
structure Cell.Adopted (ch : Chance) (n : Node) (refused : Bool) (z : Cell) : Prop where
  standing : z.node.standing =
    { (n.adoptInstalledUsers (n.prepareInstallUsers ch) refused).standing with started := true }
  table : refused = false → z.table = (∅ : Table).addAll (n.prepareInstallUsers ch).users
  refused : refused = true → ch.install = .usersRefused

/-- A configuration was refused, or the roster is the one that was installed with it. -/
def Cell.Installs (ch : Chance) (x : Cell) {ε : Type} (r : Cell × Option ε) : Prop :=
  r.1.sent = x.sent ∧ ((r.2 ≠ none ∧ x.Fails ch r.1) ∨
    (r.2 = none ∧ ∃ refused, Adopted ch x.node refused r.1))

/-- **What `applyConfigOnce` does to the roster.** -/
theorem applyConfigOnce_spec (codec : Codec) (ch : Chance) (cfg : Document) (nodeType : String)
    (x : Cell) : x.Installs ch (x.applyConfigOnce codec ch cfg nodeType) := by
  unfold applyConfigOnce
  cases cloneConfigMap cfg with
  | none => exact ⟨rfl, .inl ⟨some_ne_none _, .unchanged⟩⟩
  | some snapshot =>
    dsimp only
    have hadopts := x.node.standing_adoptInstalledUsers (some snapshot) (trim nodeType)
      (x.node.prepareInstallUsers ch)
    generalize hr : installConfig codec.intText ch.install cfg nodeType
      (x.node.prepareInstallUsers ch).users x.inbound = r
    obtain ⟨inbound, r⟩ := r
    have happlied := congrArg Prod.snd hr
    cases r with
    | ok =>
      have htable := (installConfig_ok happlied).2
      rw [hr] at htable
      exact ⟨rfl, .inr ⟨rfl, false, congrArg (fun s => { s with started := true }) (hadopts false),
        fun _ => htable, fun hrefused => by cases hrefused⟩⟩
    | usersRefused =>
      exact ⟨rfl, .inr ⟨rfl, true, congrArg (fun s => { s with started := true }) (hadopts true),
        (fun hok => by cases hok), fun _ => installConfig_usersRefused happlied⟩⟩
    | preserved =>
      obtain ⟨hsent, ⟨-, hnode⟩ | ⟨-, hnode⟩⟩ := restoreUsers_spec ch { x with inbound }
      all_goals
        refine ⟨hsent, .inl ⟨some_ne_none _, ?_⟩⟩
        unfold Fails
        rw [hnode]
      · exact .unchanged
      · exact .lost _ rfl rfl rfl rfl
    | failed =>
      obtain ⟨hsent, hfailed⟩ := rollBack_spec codec ch { x with inbound }
      exact ⟨hsent, .inl ⟨some_ne_none _, hfailed⟩⟩

theorem installNodeConfig_spec (codec : Codec) (ch : Chance) (nc : NodeConfig) (x : Cell) :
    x.Installs ch (x.installNodeConfig codec ch nc) := by
  unfold installNodeConfig
  split_ifs with hdigest
  · exact ⟨rfl, .inl ⟨some_ne_none _, .unchanged⟩⟩
  · cases codec.decode nc.configJson with
    | none => exact ⟨rfl, .inl ⟨some_ne_none _, .unchanged⟩⟩
    | some cfg =>
      dsimp only
      split_ifs with hcert
      · exact ⟨rfl, .inl ⟨some_ne_none _, .unchanged⟩⟩
      · obtain ⟨hsent, hcases⟩ := applyConfigOnce_spec codec ch cfg nc.nodeType x
        cases hr : x.applyConfigOnce codec ch cfg nc.nodeType with
        | mk y result =>
          rw [hr] at hsent hcases
          cases result with
          | some => exact ⟨hsent, hcases⟩
          | none => exact ⟨hsent, hcases.imp_right fun ⟨hnone, refused, h⟩ =>
              ⟨hnone, refused, h.standing, h.table, h.refused⟩⟩

theorem sendConfigAck_spec (ch : Chance) (sha : String) (phase : Phase) (reason : String)
    (x : Cell) : ∃ said, (x.sendConfigAck ch sha phase reason).1.sent = said ++ x.sent ∧
      (∀ s ∈ said, ∀ ack, s ≠ .users ack) ∧
      (x.sendConfigAck ch sha phase reason).1.node.standing = x.node.standing ∧
      (x.sendConfigAck ch sha phase reason).1.table = x.table := by
  unfold sendConfigAck
  split_ifs
  · exact ⟨[], rfl, by simp, rfl, rfl⟩
  · exact ⟨[], rfl, by simp, rfl, rfl⟩
  · exact ⟨[.config sha phase reason], rfl, by simp, rfl, rfl⟩

/-- **What `tryInstall` does to the roster**, and that it does not answer for it. -/
theorem tryInstall_spec (codec : Codec) (ch : Chance) (nc : NodeConfig) (x : Cell) :
    let y := x.tryInstall codec ch nc
    (∃ said, y.sent = said ++ x.sent ∧ ∀ s ∈ said, ∀ ack, s ≠ .users ack) ∧
      (x.Fails ch y ∨ ∃ offline refused, Adopted ch { x.node with offlineStart := offline }
        refused y) := by
  simp only [tryInstall]
  obtain ⟨hsent, hcases⟩ := installNodeConfig_spec codec ch nc
    { x with node := { x.node with offlineStart := x.node.offline nc } }
  cases hr : installNodeConfig codec ch nc
      { x with node := { x.node with offlineStart := x.node.offline nc } } with
  | mk y result =>
    rw [hr] at hsent hcases
    cases result with
    | some cause =>
      obtain ⟨-, hfailed⟩ | ⟨hnone, -⟩ := hcases
      · obtain ⟨said, hsaid, hwhat, hstanding, -⟩ := sendConfigAck_spec ch nc.sha .failed
          (recordFailure ch nc cause { y.node with offlineStart := false }).reason
          { y with
            node := { y.node with
              offlineStart := false
              failed := some (recordFailure ch nc cause { y.node with offlineStart := false }) } }
        refine ⟨⟨said, hsaid.trans (congrArg (said ++ ·) hsent), hwhat⟩, .inl ?_⟩
        unfold Fails
        rw [hstanding]
        exact hfailed
      · cases hnone
    | none =>
      obtain ⟨hnot, -⟩ | ⟨-, refused, h⟩ := hcases
      · exact absurd rfl hnot
      · split_ifs
        · exact ⟨⟨[], hsent, by simp⟩, .inr ⟨_, refused, h.standing, h.table, h.refused⟩⟩
        · obtain ⟨said, hsaid, hwhat, hsame, htable⟩ := sendConfigAck_spec ch nc.sha .switched ""
            { y with node := { y.node with offlineStart := false } }
          exact ⟨⟨said, hsaid.trans (congrArg (said ++ ·) hsent), hwhat⟩, .inr ⟨_, refused,
            hsame.trans h.standing, fun hok => htable.trans (h.table hok), h.refused⟩⟩

/-! ## Steps that have to do with a configuration -/

/-- What such a step does to the roster, before it answers for it. -/
inductive Cell.Turned (ch : Chance) (x z : Cell) : Prop
  | same (hstanding : z.node.standing = x.node.standing)
  | failed (hfails : x.Fails ch z)
  | adopted (offline refused : Bool) (h : Adopted ch { x.node with offlineStart := offline }
      refused z)

/-- What was said is of the configuration. -/
def Cell.SaysConfig (x z : Cell) : Prop :=
  ∃ said, z.sent = said ++ x.sent ∧ ∀ s ∈ said, ∀ ack, s ≠ .users ack

variable {x : Cell} {codec : Codec} {ch : Chance}

theorem tryInstall_turned {nc : NodeConfig} :
    x.SaysConfig (x.tryInstall codec ch nc) ∧ Turned ch x (x.tryInstall codec ch nc) := by
  obtain ⟨hsaid, hfails | ⟨offline, refused, h⟩⟩ := tryInstall_spec codec ch nc x
  · exact ⟨hsaid, .failed hfails⟩
  · exact ⟨hsaid, .adopted offline refused h⟩

theorem sendConfigAck_turned {sha : String} {phase : Phase} {reason : String}
    {z : Cell} (hsent : z.sent = x.sent) (hstanding : z.node.standing = x.node.standing) :
    x.SaysConfig (z.sendConfigAck ch sha phase reason).1 ∧
      Turned ch x (z.sendConfigAck ch sha phase reason).1 := by
  obtain ⟨said, hsaid, hwhat, hsame, -⟩ := sendConfigAck_spec ch sha phase reason z
  exact ⟨⟨said, hsent ▸ hsaid, hwhat⟩, .same (hsame.trans hstanding)⟩

theorem applyNodeConfig_eq (codec : Codec) (ch : Chance) (nc : NodeConfig) (x : Cell) :
    ∃ z, x.applyNodeConfig codec ch nc = z.flushUsersAck ch ∧ x.SaysConfig z ∧ Turned ch x z := by
  simp only [applyNodeConfig]
  split_ifs with happlied
  · exact ⟨_, rfl, sendConfigAck_turned rfl rfl⟩
  · cases x.node.failed with
    | none => exact ⟨_, rfl, tryInstall_turned⟩
    | some =>
      dsimp only
      split_ifs
      · exact ⟨_, rfl, sendConfigAck_turned rfl rfl⟩
      · exact ⟨_, rfl, tryInstall_turned⟩

theorem retryFailedConfig_eq (codec : Codec) (ch : Chance) (x : Cell) :
    x.retryFailedConfig codec ch = x ∨
      ∃ z, x.retryFailedConfig codec ch = z.flushUsersAck ch ∧ x.SaysConfig z ∧ Turned ch x z := by
  unfold retryFailedConfig
  cases x.node.failed with
  | none => exact .inl rfl
  | some f =>
    dsimp only
    split_ifs
    · exact .inl rfl
    · exact .inr ⟨_, rfl, tryInstall_turned⟩

variable {n : Node}

theorem flushUsersAck_spec (hup : ch.connected = true) (x : Cell) :
    (x.flushUsersAck ch).node = { x.node with pendingUsersAck := none } ∧
      (x.flushUsersAck ch).inbound = x.inbound ∧
      (x.flushUsersAck ch).sent = x.node.pendingUsersAck.toList.map .users ++ x.sent := by
  unfold flushUsersAck sendUsersAck
  cases hpending : x.node.pendingUsersAck with
  | none =>
    obtain ⟨node, inbound, sent⟩ := x
    cases node
    cases hpending
    exact ⟨rfl, rfl, rfl⟩
  | some =>
    dsimp only
    rw [if_pos hup]
    exact ⟨rfl, rfl, rfl⟩

/-! ## The users that were staged -/

theorem Node.prepare_staged {st : StagedUsers} (hknown : n.known = ∅)
    (hstaged : n.staged = some st) :
    n.prepareInstallUsers ch = ⟨normalizeUsers st.users, st.version, .staged⟩ := by
  rw [prepareInstallUsers, if_neg (by rw [hknown]; decide), hstaged]

/-- **What was staged is taken by the next inbound**, and the answer is ready. -/
theorem Node.adopt_staged {st : StagedUsers} (hknown : n.known = ∅) (hversion : n.userVersion = "")
    (hquiet : n.pendingUsersAck = none) (hstaged : n.staged = some st) (ch : Chance)
    (refused : Bool) (hnamed : refused = true → st.version ≠ "") :
    (n.adoptInstalledUsers (n.prepareInstallUsers ch) refused).staged = none ∧
      (n.adoptInstalledUsers (n.prepareInstallUsers ch) refused).pendingUsersAck =
        some ⟨st.version, if refused = true then some .applyFailed else none⟩ := by
  rw [prepare_staged hknown hstaged]
  unfold adoptInstalledUsers resetUserMirror
  cases refused with
  | true => simp [hquiet, hversion, hnamed rfl]
  | false => simp

theorem Cell.Adopted.accepts {st : StagedUsers} {z : Cell} (h : Adopted ch n false z)
    (hknown : n.known = ∅) (hstaged : n.staged = some st) (hdistinct : Distinct (wanted st.users))
    (u : User) : u ∈ z.table ↔ u ∈ wanted st.users := by
  have hholds := holds_normalizeUsers st.users
  rw [h.table rfl, Node.prepare_staged hknown hstaged]
  refine (mem_addAll_empty fun u hu v hv => ?_).trans (hholds u)
  exact hdistinct u ((hholds u).mp hu) v ((hholds v).mp hv)

theorem Node.adopt_unstaged (hstaged : n.staged = none) (p : PreparedUsers)
    (refused : Bool) : (n.adoptInstalledUsers p refused).staged = none := by
  unfold adoptInstalledUsers
  split_ifs
  · rfl
  · rfl
  · exact hstaged

/-! ## Rosters that arrive -/

theorem attempted_spec (hup : ch.connected = true) (version : String)
    (r : Users × Table × Bool) (x : Cell) : (x.attempted ch version r).node =
        { x.node with known := r.1, userVersion := if r.2.2 = true then version else "" } ∧
      (x.attempted ch version r).inbound =
        x.inbound.map (fun inbound => { inbound with users := r.2.1 }) ∧
      (x.attempted ch version r).sent =
        .users ⟨version, if r.2.2 = true then none else some .applyFailed⟩ :: x.sent := by
  simp only [attempted, sendUsersAck]
  rw [if_pos hup]
  exact ⟨rfl, rfl, rfl⟩

/-- The kernel can be brought to a roster: it is somewhere between that one and the one that the
node knows, and neither has a credential twice. -/
def Cell.Reaches (x : Cell) (users : List User) : Prop :=
  Distinct x.node.known ∧ Between x.table x.node.known (wanted (normalizeUsers users))

instance (x : Cell) (users : List User) : Decidable (x.Reaches users) :=
  inferInstanceAs (Decidable (_ ∧ _))

theorem attempted_accepts (hup : ch.connected = true) (version : String) {users : List User}
    (hreaches : x.Reaches users)
    (hdistinct : Distinct (wanted (normalizeUsers users))) {r : Users × Table × Bool}
    (hr : applyUsers ch.order (x.calls ch) (normalizeUsers users) x.node.known x.table = r)
    (hok : r.2.2 = true) (u : User) :
    u ∈ (x.attempted ch version r).table ↔ u ∈ normalizeUsers users := by
  subst hr
  have haccepts :=
    (hreaches.2.applyKernelUsers hreaches.1 hdistinct changesTo_moves (x.calls ch)).1 hok u
  refine Iff.trans (iff_of_eq ?_) (haccepts.trans mem_wanted_normalizeUsers)
  rw [table, (attempted_spec hup version _ x).2.1]
  cases hinbound : x.inbound with
  | some => rfl
  | none =>
    have hcalls : x.calls ch = ⟨true, true, true⟩ := by rw [calls, hinbound]; rfl
    have htable : x.table = ∅ := by rw [table, hinbound]; rfl
    rw [hcalls] at hok ⊢
    rw [applyKernelUsers_idle hok, htable]
    rfl

/-- **A node that serves answers a full roster at once.** -/
theorem onUsersFull_spec (hup : ch.connected = true) (version : String) {users : List User}
    (hstarted : x.node.started = true) (hreaches : x.Reaches users)
    (hdistinct : Distinct (wanted (normalizeUsers users))) :
    let y := x.onUsersFull ch version users
    (∃ failure, .users ⟨version, failure⟩ ∈ y.sent ∧
        (failure = none → ∀ u, u ∈ y.table ↔ u ∈ normalizeUsers users)) ∧
      y.node.started = true ∧ (x.node.staged = none → y.node.staged = none) ∧
      y.node.pendingUsersAck = none := by
  simp only [onUsersFull]
  rw [if_neg (by rw [hstarted]; exact Bool.true_eq_false_eq_False)]
  generalize hr : applyUsers ch.order (x.calls ch) (normalizeUsers users) x.node.known x.table = r
  split_ifs with hok
  · obtain ⟨hnode, -, hsent⟩ := attempted_spec hup version r
      { x with node := { x.node with staged := none } }
    obtain ⟨hflushed, hkept, hsaid⟩ := flushUsersAck_spec hup
      (attempted ch version r { x with node := { x.node with staged := none } })
    rw [table, hflushed, hkept, hsaid, hnode, hsent]
    exact ⟨⟨_, mem_append_right _ mem_cons_self, fun _ => attempted_accepts hup version
      (x := { x with node := { x.node with staged := none } }) hreaches hdistinct hr hok⟩,
      hstarted, fun _ => rfl, rfl⟩
  · obtain ⟨hnode, -, hsent⟩ := attempted_spec hup version r x
    obtain ⟨hflushed, -, hsaid⟩ := flushUsersAck_spec hup (x.attempted ch version r)
    rw [hflushed, hsaid, hnode, hsent]
    refine ⟨⟨_, mem_append_right _ mem_cons_self, fun hnone => ?_⟩, hstarted, id, rfl⟩
    rw [if_neg hok] at hnone
    cases hnone

/-- A change to the roster leaves what is staged, and a node that is down as it is. -/
theorem onUsersDelta_spec (hup : ch.connected = true)
    (fromVersion toVersion : String) (upserted : List User) (removed : List ℤ) (x : Cell) :
    let y := x.onUsersDelta ch fromVersion toVersion upserted removed
    y.node.started = x.node.started ∧ y.node.staged = x.node.staged ∧
      (x.node.started = false → y.node = x.node) ∧
      (x.node.pendingUsersAck = none → y.node.pendingUsersAck = none) := by
  unfold onUsersDelta
  split_ifs with hrefused
  · rw [sendUsersAck, if_pos hup]
    exact ⟨rfl, rfl, fun _ => rfl, id⟩
  · dsimp only
    generalize applyUserDelta (x.calls ch) upserted removed x.node.known x.table = r
    obtain ⟨hnode, -⟩ := attempted_spec hup toVersion r x
    obtain ⟨hflushed, -⟩ := flushUsersAck_spec hup (x.attempted ch toVersion r)
    rw [hflushed, hnode]
    exact ⟨rfl, rfl, fun hdown => absurd (.inl hdown) hrefused, fun _ => rfl⟩

/-! ## A node that serves -/

/-- A node that serves, and its kernel, are what a `Roster.Config` says. -/
structure Cell.Mirrors (x : Cell) (c : Roster.Config) : Prop where
  started : x.node.started = true
  serves : x.inbound.isSome = true
  known : x.node.known = c.known
  userVersion : x.node.userVersion = c.userVersion
  table : x.table = c.table
  said : ∀ ack ∈ c.ack, .users ack ∈ x.sent

section

variable {c : Roster.Config} (h : x.Mirrors c) (hup : ch.connected = true)
include h hup

theorem Cell.Mirrors.attempted (version : String) (roster : Option Users) (want : Users)
    (r : Users × Table × Bool) :
    ((x.attempted ch version r).flushUsersAck ch).Mirrors (c.attempted version roster want r) := by
  obtain ⟨hnode, hinbound, hsent⟩ := attempted_spec hup version r x
  obtain ⟨hflushed, hkept, hsaid⟩ := flushUsersAck_spec hup (x.attempted ch version r)
  obtain ⟨inbound, hserves⟩ := isSome_iff_exists.mp h.serves
  rw [hserves] at hinbound
  refine ⟨?_, ?_, ?_, ?_, ?_, ?_⟩
  · rw [hflushed, hnode]
    exact h.started
  · rw [hkept, hinbound]
    rfl
  · rw [hflushed, hnode]
    rfl
  · rw [hflushed, hnode]
    rfl
  · rw [Cell.table, hkept, hinbound]
    rfl
  · rintro ack ⟨⟩
    rw [hsaid, hsent]
    exact mem_append_right _ mem_cons_self

/-- **The two models of `onUsersFull` and of `onUsersDelta` do the same.** -/
theorem Cell.Mirrors.full (version : String) (users : List User) :
    (x.onUsersFull ch version users).Mirrors (c.full version users ch.order ch.calls) := by
  have hcalls : x.calls ch = ch.calls := by rw [calls, if_pos h.serves]
  simp only [onUsersFull, Roster.Config.full]
  rw [if_neg (by rw [h.started]; exact Bool.true_eq_false_eq_False), hcalls, ← h.known, ← h.table]
  refine Mirrors.attempted ?_ hup _ _ _ _
  split_ifs
  · exact { h with }
  · exact h

theorem Cell.Mirrors.delta (fromVersion toVersion : String) (upserted : List User)
    (removed : List ℤ) : (x.onUsersDelta ch fromVersion toVersion upserted removed).Mirrors
      (c.delta fromVersion toVersion upserted removed ch.calls) := by
  have hcalls : x.calls ch = ch.calls := by rw [calls, if_pos h.serves]
  have hrefused : (x.node.started = false ∨ x.node.userVersion = "" ∨
      fromVersion ≠ x.node.userVersion) ↔ ¬c.Takes fromVersion := by
    rw [h.started, h.userVersion, Roster.Config.Takes, not_and_or, not_not]
    exact or_iff_right Bool.false_ne_true.symm
  simp only [onUsersDelta, Roster.Config.delta]
  by_cases htakes : c.Takes fromVersion
  · rw [if_neg (fun hnot => hrefused.mp hnot htakes), if_pos htakes, hcalls, ← h.known, ← h.table]
    exact h.attempted hup _ _ _ _
  · rw [if_pos (hrefused.mpr htakes), if_neg htakes, sendUsersAck, if_pos hup]
    refine ⟨h.started, h.serves, h.known, h.userVersion, h.table, ?_⟩
    rintro ack ⟨⟩
    exact mem_cons_self

end

end Pandora.Agent
