import Pandora.Agent.Staged

/-!
# What a configuration does to what is served

An inbound is built from the document of a configuration, by the kernel from what it was started
with, or by a rollback from the copy that the node keeps.  What matters for the question which
document that is, is the `View` of a node.  All the ways in which a configuration can fail leave
one of a few views (`View.Failed`), and so do all the ways in which a node can deal with one
(`View.Turned`).
-/

namespace Pandora.Agent

open Option Cell

/-- What is served, and what the node believes to be served. -/
structure View where
  raw : Option Document
  started : Bool
  activeConfig : Option Document
  appliedSHA : String
  awaited : Option NodeConfig

def Cell.view (x : Cell) : View :=
  ⟨x.inbound.map (·.raw), x.node.started, x.node.activeConfig, x.node.appliedSHA,
    x.node.failed.map (·.cfg)⟩

/-- What a configuration that fails leaves. -/
inductive View.Failed (v : View) : View → Prop
  /-- The inbound is what it was. -/
  | kept (started : Bool) (hstarted : started = true → v.started = true) :
      v.Failed { v with started }
  /-- There was no previous configuration. -/
  | absent (raw : Option Document) (hactive : v.activeConfig = none)
      (hraw : raw = none ∨ raw = v.raw) : v.Failed { v with raw }
  /-- The previous configuration could not be installed. -/
  | lost (raw : Option Document) (hraw : raw = none ∨ raw = v.raw) :
      v.Failed { v with raw, started := false }
  /-- The previous configuration has been installed. -/
  | rolledBack (previous : Document) (started : Bool) (hactive : v.activeConfig = some previous) :
      v.Failed { v with raw := some previous, started }

theorem restoreUsers_view (ch : Chance) (x : Cell) :
    ∃ started, (started = true → x.node.started = true) ∧
      (x.restoreUsers ch).1.view = { x.view with started } := by
  unfold restoreUsers
  split_ifs
  · exact ⟨x.node.started, id, rfl⟩
  · exact ⟨false, fun h => absurd h Bool.false_ne_true, rfl⟩
  · refine ⟨x.node.started, id, ?_⟩
    simp only [view]
    rw [map_map]
    rfl

variable {x : Cell}

variable {ch : Chance} {version : String} {codec : Codec}

/-- **What is left once the previous configuration has been tried**, of a cell that differs from
the one of before the installation in its inbound only. -/
theorem rollBack_view {v : View} {raw : Option Document} (hx : x.view = { v with raw })
    (hraw : raw = none ∨ raw = v.raw) : v.Failed (x.rollBack codec ch).view := by
  obtain ⟨hpublished, hstarted, hactive, hsha, hawaited⟩ := View.mk.inj hx
  unfold rollBack
  cases hprevious : x.node.activeConfig with
  | none =>
    rw [hx]
    exact .absent raw (hactive.symm.trans hprevious) hraw
  | some previous =>
    have hheld : v.activeConfig = some previous := hactive.symm.trans hprevious
    have hcases := installConfig_cases codec.intText ch.reinstall previous x.node.nodeType
      [] x.inbound
    dsimp only at hcases ⊢
    generalize installConfig codec.intText ch.reinstall previous x.node.nodeType [] x.inbound = r
      at hcases ⊢
    obtain ⟨inbound, result⟩ := r
    -- what the cell looks like with the inbound that the installation has left
    have hlooks : ∀ raw', inbound.map (·.raw) = raw' →
        view { x with inbound } = { v with raw := raw' } := by
      rintro raw' rfl
      exact View.mk.injEq .. |>.mpr ⟨rfl, hstarted, hactive, hsha, hawaited⟩
    have hstops : ∀ raw', inbound.map (·.raw) = raw' →
        view { x with node := x.node.markInboundLost, inbound } =
          { v with raw := raw', started := false } := by
      rintro raw' rfl
      exact View.mk.injEq .. |>.mpr ⟨rfl, rfl, hactive, hsha, hawaited⟩
    by_cases hok : result = .ok
    · rw [if_pos hok]
      obtain ⟨-, new, rfl, hnew⟩ | ⟨⟨cause, hbad⟩, -⟩ | ⟨⟨cause, hbad⟩, -⟩ := hcases
      · obtain ⟨started, -, hview⟩ := restoreUsers_view ch { x with inbound := some new }
        rw [hlooks (some previous) (congrArg some hnew)] at hview
        split_ifs
        · have hserves : ∀ y : Cell, view { y with node := { y.node with started := true } } =
              { y.view with started := true } := fun _ => rfl
          rw [hserves, hview]
          exact .rolledBack previous true hheld
        · rw [hview]
          exact .rolledBack previous started hheld
      · exact absurd (hok.symm.trans hbad) (by simp)
      · exact absurd (hok.symm.trans hbad) (by simp)
    · rw [if_neg hok]
      obtain ⟨-, new, rfl, hnew⟩ | ⟨-, before, after, hold, rfl, hsame⟩ | ⟨-, rfl | rfl⟩ := hcases
      · rw [hstops (some previous) (congrArg some hnew)]
        exact .rolledBack previous false hheld
      · rw [hstops raw (by rw [← hpublished, hold]; exact congrArg some hsame)]
        exact .lost raw hraw
      · rw [hstops none rfl]
        exact .lost none (.inl rfl)
      · rw [hstops raw hpublished]
        exact .lost raw hraw

/-- A configuration whose text has the digest it claims, and its document. -/
def NodeConfig.Reads (codec : Codec) (nc : NodeConfig) (cfg : Document) : Prop :=
  codec.digest nc.configJson = nc.sha ∧ codec.decode nc.configJson = some cfg

theorem applyConfigOnce_view (codec : Codec) (ch : Chance) (cfg : Document)
    (nodeType : String) (x : Cell) :
    let r := x.applyConfigOnce codec ch cfg nodeType
    (r.2 ≠ none ∧ x.view.Failed r.1.view) ∨
      (r.2 = none ∧ ∃ snapshot, cloneConfigMap cfg = some snapshot ∧ r.1.view =
        { x.view with raw := some cfg, started := true, activeConfig := some snapshot }) := by
  unfold applyConfigOnce
  cases hclone : cloneConfigMap cfg with
  | none => exact .inl ⟨some_ne_none _, .kept x.node.started id⟩
  | some snapshot =>
    have hcases := installConfig_cases codec.intText ch.install cfg nodeType
      (x.node.prepareInstallUsers ch).users x.inbound
    dsimp only at hcases ⊢
    generalize installConfig codec.intText ch.install cfg nodeType
      (x.node.prepareInstallUsers ch).users x.inbound = r at hcases ⊢
    obtain ⟨inbound, result⟩ := r
    have hadopts : ∀ refused,
        view { x with
          inbound
          node := { Node.adoptInstalledUsers (x.node.prepareInstallUsers ch) refused
            { x.node with activeConfig := some snapshot, nodeType := trim nodeType } with
            started := true } } =
          { x.view with
            raw := inbound.map (·.raw), started := true, activeConfig := some snapshot } := by
      intro refused
      unfold Node.adoptInstalledUsers
      split_ifs <;> rfl
    obtain ⟨hserves, new, rfl, hnew⟩ | ⟨⟨cause, rfl⟩, before, after, hold, rfl, hsame⟩ |
      ⟨⟨cause, rfl⟩, hgone⟩ := hcases
    · have hraw : (some new).map (·.raw) = some cfg := congrArg some hnew
      rcases hserves with rfl | rfl
      · exact .inr ⟨rfl, snapshot, rfl, (hadopts _).trans (by rw [hraw])⟩
      · exact .inr ⟨rfl, snapshot, rfl, (hadopts _).trans (by rw [hraw])⟩
    · obtain ⟨started, hstarted, hview⟩ := restoreUsers_view ch { x with inbound := some after }
      refine .inl ⟨some_ne_none _, ?_⟩
      have hsees : view { x with inbound := some after } = x.view := by
        unfold view
        rw [hold]
        exact congrArg (View.mk · _ _ _ _) (congrArg some hsame)
      rw [hview, hsees]
      exact .kept started hstarted
    · have hsees : view { x with inbound := inbound } =
          { x.view with raw := inbound.map (·.raw) } := rfl
      refine .inl ⟨some_ne_none _, rollBack_view hsees ?_⟩
      rcases hgone with rfl | rfl
      · exact .inl rfl
      · exact .inr rfl

theorem installNodeConfig_view (codec : Codec) (ch : Chance) (nc : NodeConfig) (x : Cell) :
    let r := x.installNodeConfig codec ch nc
    (r.2 ≠ none ∧ x.view.Failed r.1.view) ∨
      (r.2 = none ∧ ∃ cfg snapshot, nc.Reads codec cfg ∧ cloneConfigMap cfg = some snapshot ∧
        r.1.view = ⟨some cfg, true, some snapshot, nc.sha, none⟩) := by
  unfold installNodeConfig
  split_ifs with hdigest
  · exact .inl ⟨some_ne_none _, .kept x.node.started id⟩
  · cases hdecode : codec.decode nc.configJson with
    | none => exact .inl ⟨some_ne_none _, .kept x.node.started id⟩
    | some cfg =>
      dsimp only
      split_ifs with hcert
      · exact .inl ⟨some_ne_none _, .kept x.node.started id⟩
      · have hcases := applyConfigOnce_view codec ch cfg nc.nodeType x
        cases hr : x.applyConfigOnce codec ch cfg nc.nodeType with
        | mk y result =>
          rw [hr] at hcases
          cases result with
          | some =>
            obtain hfailed | ⟨hnone, -⟩ := hcases
            · exact .inl hfailed
            · cases hnone
          | none =>
            obtain ⟨hnot, -⟩ | ⟨-, snapshot, hclone, hview⟩ := hcases
            · exact absurd rfl hnot
            · obtain ⟨hraw, hstarted, hactive, -⟩ := View.mk.inj hview
              refine .inr ⟨rfl, cfg, snapshot, ⟨not_not.mp hdigest, hdecode⟩, hclone, ?_⟩
              exact View.mk.injEq .. |>.mpr ⟨hraw, hstarted, hactive, rfl, rfl⟩

/-- How a node deals with a configuration. -/
inductive View.Turned (codec : Codec) (nc : NodeConfig) (v : View) : View → Prop
  | unchanged : v.Turned codec nc v
  /-- It is the one that is served. -/
  | confirmed : v.Turned codec nc { v with awaited := none }
  | failed (w : View) (hfailed : v.Failed w) : v.Turned codec nc { w with awaited := some nc }
  | installed (cfg snapshot : Document) (hreads : nc.Reads codec cfg)
      (hclone : cloneConfigMap cfg = some snapshot) :
      v.Turned codec nc ⟨some cfg, true, some snapshot, nc.sha, none⟩

/-- Of all that has been said, only the digest that is served has been said to be. -/
def Cell.Truthful (x : Cell) : Prop :=
  ∀ sha phase reason, .config sha phase reason ∈ x.sent → phase ≠ .failed →
    x.node.started = true ∧ x.node.appliedSHA = sha

theorem truthful_of_sent_nil (h : x.sent = []) : x.Truthful := by
  intro sha phase reason hsaid
  rw [h] at hsaid
  cases hsaid

theorem sendConfigAck_view (ch : Chance) (sha : String) (phase : Phase) (reason : String)
    (x : Cell) : (x.sendConfigAck ch sha phase reason).1.view = x.view := by
  unfold sendConfigAck
  split_ifs <;> rfl

theorem Cell.Truthful.sendConfigAck (h : x.Truthful) {sha : String} {phase : Phase}
    {reason : String} (hphase : phase ≠ .failed → x.node.started = true ∧ x.node.appliedSHA = sha) :
    (x.sendConfigAck ch sha phase reason).1.Truthful := by
  unfold Cell.sendConfigAck
  split_ifs
  · exact h
  · exact h
  · intro sha' phase' reason' hsaid hnot
    rcases List.mem_cons.mp hsaid with heq | hsaid
    · obtain ⟨rfl, rfl, -⟩ := Sent.config.inj heq
      exact hphase hnot
    · exact h sha' phase' reason' hsaid hnot

theorem flushUsersAck_view (ch : Chance) (x : Cell) : (x.flushUsersAck ch).view = x.view := by
  unfold flushUsersAck sendUsersAck
  split
  · rfl
  · split_ifs <;> rfl

theorem Cell.Truthful.sendUsersAck (h : x.Truthful) (ch : Chance) (ack : UsersAck) :
    (x.sendUsersAck ch ack).Truthful := by
  unfold Cell.sendUsersAck
  split_ifs
  · intro sha phase reason hsaid hnot
    rcases List.mem_cons.mp hsaid with heq | hsaid
    · cases heq
    · exact h sha phase reason hsaid hnot
  · exact h

theorem Cell.Truthful.flushUsersAck (h : x.Truthful) (ch : Chance) :
    (x.flushUsersAck ch).Truthful := by
  unfold Cell.flushUsersAck
  split
  · exact h
  · refine Truthful.sendUsersAck ?_ ch _
    exact h

/-- **What `tryInstall` does to what is served**, and that it says so. -/
theorem tryInstall_view (codec : Codec) (ch : Chance) (nc : NodeConfig) (hsent : x.sent = []) :
    x.view.Turned codec nc (x.tryInstall codec ch nc).view ∧
      (x.tryInstall codec ch nc).Truthful := by
  simp only [tryInstall]
  have hcases := installNodeConfig_view codec ch nc
    { x with node := { x.node with offlineStart := x.node.offline nc } }
  have hquiet := (installNodeConfig_spec codec ch nc
    { x with node := { x.node with offlineStart := x.node.offline nc } }).1
  cases hr : installNodeConfig codec ch nc
      { x with node := { x.node with offlineStart := x.node.offline nc } } with
  | mk y result =>
    rw [hr] at hcases hquiet
    have hsilent : y.sent = [] := hquiet.trans hsent
    cases result with
    | some =>
      obtain ⟨-, hfailed⟩ | ⟨hnone, -⟩ := hcases
      · refine ⟨?_, Truthful.sendConfigAck ?_ fun hnot => absurd rfl hnot⟩
        · rw [sendConfigAck_view]
          exact .failed y.view hfailed
        · exact truthful_of_sent_nil hsilent
      · cases hnone
    | none =>
      obtain ⟨hnot, -⟩ | ⟨-, cfg, snapshot, hreads, hclone, hview⟩ := hcases
      · exact absurd rfl hnot
      · obtain ⟨-, hstarted, -, hsha, -⟩ := View.mk.inj hview
        have hturned : x.view.Turned codec nc y.view := by
          rw [hview]
          exact .installed cfg snapshot hreads hclone
        split_ifs
        · exact ⟨hturned, truthful_of_sent_nil hsilent⟩
        · refine ⟨?_, Truthful.sendConfigAck ?_ fun _ => ⟨hstarted, hsha⟩⟩
          · rw [sendConfigAck_view]
            exact hturned
          · exact truthful_of_sent_nil hsilent

theorem applyNodeConfig_view (codec : Codec) (ch : Chance) (nc : NodeConfig) (hsent : x.sent = []) :
    x.view.Turned codec nc (x.applyNodeConfig codec ch nc).view ∧
      (x.applyNodeConfig codec ch nc).Truthful := by
  have htries := tryInstall_view codec ch nc hsent
  have hsilent := truthful_of_sent_nil hsent
  simp only [applyNodeConfig]
  rw [flushUsersAck_view]
  split_ifs with happlied
  · refine ⟨?_, Truthful.flushUsersAck (Truthful.sendConfigAck ?_ fun _ => ?_) ch⟩
    · rw [sendConfigAck_view]
      exact .confirmed
    · exact truthful_of_sent_nil hsent
    · exact ⟨happlied.1, happlied.2.1⟩
  · split
    · split_ifs
      · refine ⟨?_, (hsilent.sendConfigAck fun hnot => absurd rfl hnot).flushUsersAck ch⟩
        rw [sendConfigAck_view]
        exact .unchanged
      · exact ⟨htries.1, htries.2.flushUsersAck ch⟩
    · exact ⟨htries.1, htries.2.flushUsersAck ch⟩

theorem retryFailedConfig_view (hsent : x.sent = []) :
    (x.retryFailedConfig codec ch = x ∨ ∃ nc, x.view.awaited = some nc ∧
        x.view.Turned codec nc (x.retryFailedConfig codec ch).view) ∧
      (x.retryFailedConfig codec ch).Truthful := by
  unfold retryFailedConfig
  cases hfailed : x.node.failed with
  | none => exact ⟨.inl rfl, truthful_of_sent_nil hsent⟩
  | some f =>
    dsimp only
    split_ifs
    · exact ⟨.inl rfl, truthful_of_sent_nil hsent⟩
    · obtain ⟨hturned, htruthful⟩ := tryInstall_view codec ch f.cfg hsent
      refine ⟨.inr ⟨f.cfg, ?_, ?_⟩, htruthful.flushUsersAck ch⟩
      · rw [view, hfailed]
        rfl
      · rw [flushUsersAck_view]
        exact hturned

theorem reportHealth_view (hsent : x.sent = []) :
    (x.reportHealth ch).view = x.view ∧ (x.reportHealth ch).Truthful := by
  have hsilent := truthful_of_sent_nil hsent
  unfold reportHealth
  split_ifs with hnot hnone
  · exact ⟨rfl, hsilent⟩
  · exact ⟨rfl, hsilent⟩
  · have hstarted : x.node.started = true := by
      rw [← Bool.not_eq_false]
      exact fun hdown => hnot (.inr (.inl hdown))
    have htruthful : (x.sendConfigAck ch x.node.appliedSHA .healthPassed "").1.Truthful :=
      hsilent.sendConfigAck fun _ => ⟨hstarted, rfl⟩
    have hview := sendConfigAck_view ch x.node.appliedSHA .healthPassed "" x
    dsimp only
    split_ifs
    · exact ⟨hview, htruthful⟩
    · exact ⟨hview, htruthful⟩

/-! ## Rosters -/

theorem attempted_view {r : Users × Table × Bool} : (x.attempted ch version r).view = x.view := by
  simp only [attempted, sendUsersAck, say, view]
  split_ifs <;> (dsimp only; rw [map_map]; rfl)

theorem onUsersFull_view {users : List User} : (x.onUsersFull ch version users).view = x.view := by
  simp only [onUsersFull]
  split_ifs
  · rfl
  · rw [flushUsersAck_view, attempted_view]
    rfl
  · rw [flushUsersAck_view, attempted_view]

theorem onUsersDelta_view {fromVersion toVersion : String} {upserted : List User}
    {removed : List ℤ} :
    (x.onUsersDelta ch fromVersion toVersion upserted removed).view = x.view := by
  unfold onUsersDelta
  split_ifs
  · unfold sendUsersAck
    split_ifs <;> rfl
  · rw [flushUsersAck_view, attempted_view]

theorem Cell.Truthful.attempted (h : x.Truthful) (ch : Chance) (version : String)
    (r : Users × Table × Bool) : (x.attempted ch version r).Truthful := by
  refine Truthful.sendUsersAck ?_ ch _
  exact h

theorem Cell.Truthful.onUsersFull (h : x.Truthful) (ch : Chance) (version : String)
    (users : List User) : (x.onUsersFull ch version users).Truthful := by
  simp only [Cell.onUsersFull]
  split_ifs
  · exact h
  · refine (Truthful.attempted ?_ ch version _).flushUsersAck ch
    exact h
  · exact (h.attempted ch version _).flushUsersAck ch

theorem Cell.Truthful.onUsersDelta (h : x.Truthful) (ch : Chance)
    (fromVersion toVersion : String) (upserted : List User) (removed : List ℤ) :
    (x.onUsersDelta ch fromVersion toVersion upserted removed).Truthful := by
  unfold Cell.onUsersDelta
  split_ifs
  · exact h.sendUsersAck ch _
  · exact (h.attempted ch toVersion _).flushUsersAck ch

end Pandora.Agent
