import Pandora.Agent.Staged
import Pandora.Foundation.Runs

/-!
# Rosters that wait for an inbound

A full roster that arrives while the inbound of a node is down is staged, and goes into the kernel
with the next inbound.  Between two steps of a node that serves, nothing should be staged, and
every roster that came since it was last stopped should have been answered; if it was acknowledged,
the kernel should accept its users.

It is answered in each of the ways a node comes up again but two.  When a new configuration fails
and the previous one is installed in its place, the users of before are put back, and there are
none if the node was down; what was staged stays where it is, without an answer
(`staged_roster_forgotten`).  And a roster that is refused goes without an answer if its version
is empty.
-/

namespace Pandora.Agent.Staging

open List Cell Bool Option

/-! ## Runs -/

/-- What happens to a node, as far as its roster is concerned.  What is said to the panel is
written down with the users that the kernel accepts then. -/
inductive Event
  | received (version : String) (users : List User)
  | stopped
  | said (s : Sent) (table : Table)
  deriving DecidableEq

/-- A node and what has happened to it, the last first. -/
structure Config where
  cell : Cell
  log : List Event

open Config

/-- A step.  The stream to the panel is up throughout. -/
inductive Label
  | full (ch : Chance) (version : String) (users : List User)
  | delta (ch : Chance) (fromVersion toVersion : String) (upserted : List User) (removed : List ℤ)
  | config (ch : Chance) (nc : NodeConfig)
  | retry (ch : Chance)

def up (ch : Chance) : Chance := { ch with connected := true }

def act (codec : Codec) (x : Cell) : Label → Cell
  | .full ch version users => x.onUsersFull (up ch) version users
  | .delta ch fromVersion toVersion upserted removed =>
    x.onUsersDelta (up ch) fromVersion toVersion upserted removed
  | .config ch nc => x.applyNodeConfig codec (up ch) nc
  | .retry ch => x.retryFailedConfig codec (up ch)

def Label.receipts : Label → List Event
  | .full _ version users => [.received version users]
  | _ => []

/-- The node has been stopped. -/
def stops (x y : Cell) : List Event :=
  if x.node.started = true ∧ y.node.started = false then [.stopped] else []

def next (codec : Codec) (c : Config) (l : Label) : Config :=
  let x := { c.cell with sent := [] }
  let y := act codec x l
  ⟨y, y.sent.map (.said · y.table) ++ stops x y ++ l.receipts ++ c.log⟩

/-- The kernel accepts the users of a roster and no others. -/
def Accepts (t : Table) (users : List User) : Prop := ∀ u, u ∈ t ↔ u ∈ normalizeUsers users

/-- A roster is settled by what happened after it: the node was stopped, a later roster came, it
was acknowledged while the kernel accepted it, or the panel was told to send one again. -/
def Settles (newer : List Event) (version : String) (users : List User) : Prop :=
  .stopped ∈ newer ∨ (∃ v us, .received v us ∈ newer) ∨
    (∃ t, .said (.users ⟨version, none⟩) t ∈ newer ∧ Accepts t users) ∨
    ∃ v reason t, .said (.users ⟨v, some reason⟩) t ∈ newer

/-- Every roster that came is settled, but for some. -/
def Settled (but : String → List User → Prop) (log : List Event) : Prop :=
  ∀ newer version users older, log = newer ++ .received version users :: older →
    Settles newer version users ∨ but version users

/-- **A node that serves has nothing staged, and every roster that came since it was last stopped
has been installed and acknowledged, has been followed by another, or has been answered
otherwise.** -/
def Config.Served (c : Config) : Prop :=
  c.cell.node.started = true → c.cell.node.staged = none ∧
    ∀ newer version users older, c.log = newer ++ .received version users :: older →
      Settles newer version users

/-! ## What settles a roster -/

variable {version : String} {users : List User} {c : Config} {ch : Chance} {y : Cell}
  {codec : Codec} {l : Label}

theorem Settles.mono {events newer : List Event} (h : Settles events version users)
    (hsub : events ⊆ newer) : Settles newer version users := by
  rcases h with h | ⟨v, us, h⟩ | ⟨t, h, haccepts⟩ | ⟨v, reason, t, h⟩
  · exact .inl (hsub h)
  · exact .inr (.inl ⟨v, us, hsub h⟩)
  · exact .inr (.inr (.inl ⟨t, hsub h, haccepts⟩))
  · exact .inr (.inr (.inr ⟨v, reason, t, hsub h⟩))

theorem Settles.said {newer : List Event} {failure : Option Reason} {t : Table}
    (h : .said (.users ⟨version, failure⟩) t ∈ newer) (ht : failure = none → Accepts t users) :
    Settles newer version users := by
  cases failure with
  | none => exact .inr (.inr (.inl ⟨t, h, ht rfl⟩))
  | some reason => exact .inr (.inr (.inr ⟨version, reason, t, h⟩))

theorem split_append {new log newer older : List Event} (hnew : ∀ v us, .received v us ∉ new)
    (h : new ++ log = newer ++ .received version users :: older) :
    ∃ newer', newer = new ++ newer' ∧ log = newer' ++ .received version users :: older := by
  rcases append_eq_append_iff.mp h with ⟨rest, hnewer, hlog⟩ | ⟨rest, hsplit, hrest⟩
  · exact ⟨rest, hnewer, hlog⟩
  · cases rest with
    | nil => exact ⟨[], by rw [hsplit]; simp, hrest.symm⟩
    | cons =>
      obtain ⟨rfl, -⟩ := cons.inj hrest
      exact absurd (hsplit ▸ mem_append_right newer mem_cons_self) (hnew version users)

/-- **What happens without a new roster** settles what it settles, and leaves settled what was. -/
theorem Settled.append {but but' : String → List User → Prop} {log new : List Event}
    (h : Settled but log) (hnew : ∀ v us, .received v us ∉ new)
    (hbut : ∀ v us, but v us → but' v us ∨ Settles new v us) : Settled but' (new ++ log) := by
  intro newer version users older hlog
  obtain ⟨newer', rfl, hold⟩ := split_append hnew hlog
  rcases h newer' version users older hold with hsettles | hexcept
  · exact .inl (hsettles.mono (subset_append_right _ _))
  · rcases hbut version users hexcept with hexcept | hsettles
    · exact .inr hexcept
    · exact .inl (hsettles.mono (subset_append_left _ _))

/-- **A new roster settles all before it.** -/
theorem settled_received (version : String) (users : List User) (log : List Event) :
    Settled (fun v us => version = v ∧ users = us) (.received version users :: log) := by
  intro newer v us older hlog
  cases newer with
  | nil =>
    obtain ⟨hreceived, -⟩ := cons.inj hlog
    exact .inr (Event.received.inj hreceived)
  | cons =>
    obtain ⟨rfl, -⟩ := cons.inj hlog
    exact .inl (.inr (.inl ⟨version, users, mem_cons_self⟩))

/-! ## What is true between two steps -/

structure Config.Inv (c : Config) : Prop where
  serving : c.cell.node.started = true → c.cell.node.staged = none
  stopped : c.cell.node.started = false → c.cell.node.known = ∅ ∧ c.cell.node.userVersion = ""
  quiet : c.cell.node.pendingUsersAck = none
  distinct : ∀ st ∈ c.cell.node.staged, Distinct (wanted st.users)
  settled : Settled
    (fun v us => ∃ st ∈ c.cell.node.staged, st.version = v ∧ st.users = normalizeUsers us) c.log

theorem Config.Inv.served (h : c.Inv) : c.Served := by
  intro hstarted
  have hstaged := h.serving hstarted
  refine ⟨hstaged, fun newer version users older hlog => ?_⟩
  rcases h.settled newer version users older hlog with hsettles | ⟨st, hst, -⟩
  · exact hsettles
  · rw [hstaged] at hst
    cases hst

theorem Config.inv_new (nodeType : String) (inbound : Option Inbound) :
    Inv ⟨new nodeType inbound, []⟩ where
  serving := fun h => by cases h
  stopped := fun _ => ⟨rfl, rfl⟩
  quiet := rfl
  distinct := fun st hst => by cases hst
  settled := by
    intro newer version users older hlog
    have hlength := congrArg length hlog
    simp at hlength

/-- The condition on a configuration for a node that is down with a roster staged: the inbound of
before, if there was one, cannot be installed again, and a roster without a version is not
refused. -/
def Config.Turns (c : Config) (ch : Chance) : Prop :=
  c.cell.node.started = false → ∀ st ∈ c.cell.node.staged,
    (c.cell.node.activeConfig.isSome = true → ¬ch.reinstall.Serves) ∧
      (st.version = "" → ch.install ≠ .usersRefused)

instance (c : Config) (ch : Chance) : Decidable (c.Turns ch) := inferInstanceAs (Decidable (_ → _))

/-- The condition on a step.  A roster has no credential twice, and if the node serves, the kernel
is between what the node knows and that roster. -/
def Config.Clear (c : Config) : Label → Prop
  | .full _ _ users => Distinct (wanted (normalizeUsers users)) ∧
      (c.cell.node.started = true → c.cell.Reaches users)
  | .delta _ _ _ _ _ => True
  | .config ch _ => c.Turns ch
  | .retry ch => c.Turns ch

instance (c : Config) : (l : Label) → Decidable (c.Clear l)
  | .full _ _ _ => inferInstanceAs (Decidable (_ ∧ _))
  | .delta _ _ _ _ _ => inferInstanceAs (Decidable True)
  | .config ch _ | .retry ch => inferInstanceAs (Decidable (c.Turns ch))

/-! ## The steps -/

theorem not_received (x y : Cell) (v : String) (us : List User) :
    .received v us ∉ y.sent.map (Event.said · y.table) ++ stops x y := by
  unfold stops
  split_ifs <;> simp

/-- A step in which no roster comes. -/
def Config.after (c : Config) (y : Cell) : Config :=
  ⟨y, y.sent.map (.said · y.table) ++ stops { c.cell with sent := [] } y ++ c.log⟩

theorem Config.Inv.keep (h : c.Inv) (hstaged : y.node.staged = c.cell.node.staged)
    (hserving : y.node.started = true → y.node.staged = none)
    (hstopped : y.node.started = false → y.node.known = ∅ ∧ y.node.userVersion = "")
    (hquiet : y.node.pendingUsersAck = none) : (c.after y).Inv := by
  refine ⟨hserving, hstopped, hquiet, fun st hst => h.distinct st (hstaged ▸ hst), ?_⟩
  exact h.settled.append (not_received _ _) fun v us hv => .inl (hstaged.symm ▸ hv)

section

variable (h : c.Inv) (hup : ch.connected = true)
include h hup

theorem Config.Inv.turned {z : Cell} (hturned : Turned ch { c.cell with sent := [] } z)
    (hclear : c.Turns ch) : (c.after (z.flushUsersAck ch)).Inv := by
  obtain ⟨hnode, hinbound, hsent⟩ := flushUsersAck_spec hup z
  -- where the roster that is staged stays, so does all that was settled
  have hkept : z.node.staged = c.cell.node.staged →
      (z.node.started = true → z.node.staged = none) →
      (z.node.started = false → z.node.known = ∅ ∧ z.node.userVersion = "") →
      (c.after (z.flushUsersAck ch)).Inv := by
    intro hstaged hserving hstopped
    refine h.keep ?_ ?_ ?_ ?_ <;> rw [hnode]
    exacts [hstaged, hserving, hstopped]
  have hsame : z.node.standing = c.cell.node.standing → (c.after (z.flushUsersAck ch)).Inv := by
    intro hstanding
    obtain ⟨hstarted, hstaged, hknown, hversion, -⟩ := Standing.mk.inj hstanding
    refine hkept hstaged (fun hup => ?_) fun hdown => ?_
    · exact hstaged.trans (h.serving (hstarted.symm.trans hup))
    · obtain ⟨hk, hv⟩ := h.stopped (hstarted.symm.trans hdown)
      exact ⟨hknown.trans hk, hversion.trans hv⟩
  cases hturned with
  | same hstanding => exact hsame hstanding
  | failed hfails =>
    unfold Fails at hfails
    generalize hb : z.node.standing = b at hfails
    cases hfails with
    | unchanged => exact hsame hb
    | lost _ hstarted hstaged hknown hversion =>
      subst hb
      refine hkept hstaged (fun hup => ?_) fun _ => ⟨hknown, hversion⟩
      exact absurd (hstarted.symm.trans hup) false_ne_true
    | rolledBack hactive hserves =>
      obtain ⟨hstarted, hstaged, -⟩ := Standing.mk.inj hb
      refine hkept hstaged (fun _ => ?_) fun hdown => ?_
      · cases hwas : c.cell.node.started with
        | true => exact hstaged.trans (h.serving hwas)
        | false =>
          cases hst : c.cell.node.staged with
          | none => exact hstaged.trans hst
          | some st => exact absurd hserves ((hclear hwas st hst).1 hactive)
      · exact absurd (hdown.symm.trans hstarted) false_ne_true
  | adopted offline refused hadopted =>
    obtain ⟨hstarted, hstaged, -, -, hpending⟩ := Standing.mk.inj hadopted.standing
    have hserves : z.node.started ≠ false := fun hdown => false_ne_true (hdown.symm.trans hstarted)
    cases hst : c.cell.node.staged with
    | none =>
      have hnone : z.node.staged = none :=
        hstaged.trans (Node.adopt_unstaged
          (n := { c.cell.node with offlineStart := offline }) hst _ _)
      exact hkept (hnone.trans hst.symm) (fun _ => hnone) fun hdown => absurd hdown hserves
    | some st =>
      -- the node was down, or nothing would be staged
      have hdown : c.cell.node.started = false := by
        rw [← not_eq_true]
        exact fun hup => some_ne_none st (hst.symm.trans (h.serving hup))
      obtain ⟨hknown, hversion⟩ := h.stopped hdown
      obtain ⟨hnone, hack⟩ :=
        Node.adopt_staged (n := { c.cell.node with offlineStart := offline }) hknown hversion
          h.quiet hst ch refused fun hrefused hblank =>
            (hclear hdown st hst).2 hblank (hadopted.refused hrefused)
      have hnone' : (z.flushUsersAck ch).node.staged = none := by
        rw [hnode]
        exact hstaged.trans hnone
      have hsaid : .users ⟨st.version, if refused = true then some .applyFailed else none⟩ ∈
          (z.flushUsersAck ch).sent := by
        rw [hsent, hpending.trans hack]
        exact mem_append_left _ mem_cons_self
      unfold Config.after
      refine ⟨fun _ => hnone', fun hdown => ?_, by rw [hnode], ?_, ?_⟩
      · rw [hnode] at hdown
        exact absurd hdown hserves
      · rw [hnone']
        rintro st' ⟨⟩
      · refine h.settled.append (not_received _ _) ?_
        rintro v us ⟨st', hst', rfl, husers⟩
        obtain rfl := some.inj (hst.symm.trans hst')
        refine .inr (.said (mem_append_left _ (mem_map_of_mem hsaid)) fun hok u => ?_)
        cases refused with
        | true => cases hok
        | false =>
          have haccepts := hadopted.accepts hknown hst (h.distinct st hst) u
          rw [husers, mem_wanted_normalizeUsers] at haccepts
          rw [table, hinbound]
          exact haccepts

theorem Config.Inv.full (hclear : c.Clear (.full ch version users))
    (hy : y = onUsersFull ch version users { c.cell with sent := [] }) :
    Inv ⟨y, y.sent.map (.said · y.table) ++ stops { c.cell with sent := [] } y ++
      [.received version users] ++ c.log⟩ := by
  obtain ⟨hdistinct, hreaches⟩ := hclear
  have hnew := not_received { c.cell with sent := [] } y
  rw [append_assoc, singleton_append]
  cases hstarted : c.cell.node.started with
  | false =>
    have hnode : y.node = { c.cell.node with staged := some ⟨version, normalizeUsers users⟩ } := by
      rw [hy]
      simp only [onUsersFull]
      rw [if_pos hstarted]
    refine ⟨fun hup' => ?_, fun _ => ?_, ?_, fun st hst => ?_, ?_⟩
    · rw [hnode] at hup'
      exact absurd (hstarted.symm.trans hup') false_ne_true
    · rw [hnode]
      exact h.stopped hstarted
    · rw [hnode]
      exact h.quiet
    · rw [hnode] at hst
      cases hst
      exact hdistinct
    · refine (settled_received version users c.log).append hnew ?_
      rintro v us ⟨rfl, rfl⟩
      rw [hnode]
      exact .inl ⟨_, rfl, rfl, rfl⟩
  | true =>
    obtain ⟨⟨failure, hsaid, haccepts⟩, hserves, hstaged, hquiet⟩ :=
      onUsersFull_spec hup version (x := { c.cell with sent := [] }) hstarted (hreaches hstarted)
        hdistinct
    rw [← hy] at hsaid haccepts hserves hstaged hquiet
    have hnone : y.node.staged = none := hstaged (h.serving hstarted)
    refine ⟨fun _ => hnone, fun hdown => ?_, hquiet, fun st hst => ?_, ?_⟩
    · exact absurd (hdown.symm.trans hserves) false_ne_true
    · rw [hnone] at hst
      cases hst
    · refine (settled_received version users c.log).append hnew ?_
      rintro v us ⟨rfl, rfl⟩
      exact .inr (.said (mem_append_left _ (mem_map_of_mem hsaid)) haccepts)

theorem Config.Inv.delta (fromVersion toVersion : String) (upserted : List User) (removed : List ℤ)
    (hy : y = onUsersDelta ch fromVersion toVersion upserted removed { c.cell with sent := [] }) :
    (c.after y).Inv := by
  obtain ⟨hstarted, hstaged, hdown, hquiet⟩ := onUsersDelta_spec hup fromVersion toVersion
    upserted removed { c.cell with sent := [] }
  rw [← hy] at hstarted hstaged hdown hquiet
  refine h.keep hstaged (fun hup' => ?_) (fun hdown' => ?_) (hquiet h.quiet)
  · exact hstaged.trans (h.serving (hstarted.symm.trans hup'))
  · have hwas : c.cell.node.started = false := hstarted.symm.trans hdown'
    rw [show y.node = c.cell.node from hdown hwas]
    exact h.stopped hwas

end

theorem Config.Inv.idle (h : c.Inv) (hy : y = { c.cell with sent := [] }) : (c.after y).Inv := by
  subst hy
  exact h.keep rfl h.serving h.stopped h.quiet

theorem next_of_receipts_nil (hl : l.receipts = []) :
    next codec c l = c.after (act codec { c.cell with sent := [] } l) := by
  simp only [next, Config.after]
  rw [hl, append_nil]

/-- **The invariant is kept by every step that meets the condition.** -/
theorem Config.Inv.next (h : c.Inv) (hclear : c.Clear l) : (next codec c l).Inv := by
  cases l with
  | full ch version users => exact h.full (rfl : (up ch).connected = true) hclear rfl
  | delta ch fromVersion toVersion upserted removed =>
    have hup : (up ch).connected = true := rfl
    have hkept := h.delta hup fromVersion toVersion upserted removed rfl
    rw [next_of_receipts_nil rfl]
    exact hkept
  | config ch nc =>
    obtain ⟨z, hz, -, hturned⟩ :=
      applyNodeConfig_eq codec (up ch) nc { c.cell with sent := [] }
    have hkept := h.turned rfl hturned hclear
    rw [← hz] at hkept
    rw [next_of_receipts_nil rfl]
    exact hkept
  | retry ch =>
    rw [next_of_receipts_nil rfl]
    rcases retryFailedConfig_eq codec (up ch) { c.cell with sent := [] } with hidle | hretried
    · exact h.idle hidle
    · obtain ⟨z, hz, -, hturned⟩ := hretried
      have hkept := h.turned rfl hturned hclear
      rw [← hz] at hkept
      exact hkept

/-! ## Every run -/

/-- **What waits for an inbound is answered**, in every run in which each step meets the
condition. -/
theorem served_rosters_answered (codec : Codec) (nodeType : String) (inbound : Option Inbound)
    (labels : List Label)
    (hclear : Runs.Along (next codec) Config.Clear ⟨new nodeType inbound, []⟩ labels) :
    Config.Served (labels.foldl (next codec) ⟨new nodeType inbound, []⟩) :=
  (hclear.invariant (I := Config.Inv) (fun _ _ h hstep => h.next hstep)
    (Config.inv_new nodeType inbound)).served

/-- All texts are of one document. -/
def sampleCodec : Codec := .plain fun _ => some [("server_port", .str "443")]

/-- The inbound of before cannot be installed again. -/
def noReturn : Chance := { Chance.calm with reinstall := .lost "" }

/-- Nor can the new one. -/
def noInbound : Chance := { noReturn with install := .lost "" }

/-- A node is stopped, a roster comes, the next configuration is installed, and another roster
comes. -/
def restartedNode : List Label :=
  [.config .calm (.plain "a"), .config noInbound (.plain "b"),
    .full .calm "v1" [⟨1, "u", 0, 0⟩], .config noReturn (.plain "c"),
    .full .calm "v2" [⟨1, "u", 0, 0⟩, ⟨2, "w", 0, 0⟩]]

theorem restarted_node_answered :
    Runs.Along (next sampleCodec) Config.Clear ⟨new "" none, []⟩ restartedNode ∧
      Config.Served (restartedNode.foldl (next sampleCodec) ⟨new "" none, []⟩) := by
  have hclear : Runs.Along (next sampleCodec) Config.Clear ⟨new "" none, []⟩ restartedNode := by
    decide +kernel
  exact ⟨hclear, served_rosters_answered sampleCodec "" none restartedNode hclear⟩

/-! ## Where it goes wrong -/

/-- A node is stopped, a roster comes, and the next configuration fails; the previous one is
installed in its place. -/
def rolledBackNode : List Label :=
  [.config .calm (.plain "a"), .config noInbound (.plain "b"),
    .full .calm "v1" [⟨1, "u", 0, 0⟩],
    .config { Chance.calm with install := .lost "" } (.plain "c")]

/-- The node serves again, the roster is still staged, and nothing has been said of it. -/
theorem staged_roster_forgotten :
    let c := rolledBackNode.foldl (next sampleCodec) ⟨new "" none, []⟩
    c.cell.node.started = true ∧ c.cell.node.staged.map (·.version) = some "v1" ∧
      c.log = [.said (.config "c" .failed "apply_failed") ∅, .received "v1" [⟨1, "u", 0, 0⟩],
        .said (.config "b" .failed "apply_failed") ∅, .stopped,
        .said (.config "a" .switched "") ∅] ∧
      ¬c.Served := by
  have hstarted : (rolledBackNode.foldl (next sampleCodec) ⟨new "" none, []⟩).cell.node.started =
    true := by decide +kernel
  have hstaged : (rolledBackNode.foldl (next sampleCodec) ⟨new "" none, []⟩).cell.node.staged.map
    (·.version) = some "v1" := by decide +kernel
  refine ⟨hstarted, hstaged, by decide +kernel, fun hserved => ?_⟩
  obtain ⟨hnone, -⟩ := hserved hstarted
  rw [hnone] at hstaged
  cases hstaged

end Pandora.Agent.Staging
