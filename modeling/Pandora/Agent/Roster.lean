import Pandora.Agent.Mirror
import Pandora.Foundation.Runs

/-!
# What the kernel accepts when a roster is acknowledged

One node whose inbound serves, the table of its kernel, and any sequence of full rosters and
deltas, with any of the calls of the kernel failing.  A message that fails half-way leaves the
node with an old mirror and the kernel on the way to the roster it was about.

The node then waits for a full roster, and finds its difference to the old mirror.  That leads to
the right table if the roster is again the one that failed, or agrees with it in all that it had
changed.  It does not if the roster goes back: what the node believes to be in the kernel is not
there, and no call is made for it (`restored_user_not_accepted`).
-/

namespace Pandora.Agent.Roster

open Keyed Option Function

/-- The node, the kernel, and what was sent.  `names` are the rosters by the versions that they
were sent under; `tried` is the roster that a failed message has left half installed.  Neither is
read by a step. -/
structure Config where
  known : Users
  userVersion : String
  table : Table
  ack : Option UsersAck
  names : String → Option Users
  tried : Option Users

/-- A message, and what happens when it is taken. -/
inductive Label
  | full (version : String) (users : List User) (order : Order) (fails : Calls)
  | delta (fromVersion toVersion : String) (upserted : List User) (removed : List ℤ)
      (fails : Calls)

/-- An inbound that was installed with a roster. -/
def Config.installed (version : String) (users : List User) : Config where
  known := mirrorOf (normalizeUsers users)
  userVersion := version
  table := (∅ : Table).addAll (normalizeUsers users)
  ack := none
  names := update (fun _ => none) version (some (mirrorOf (normalizeUsers users)))
  tried := none

/-- What a message that was tried leaves. -/
def Config.attempted (c : Config) (version : String) (roster : Option Users) (want : Users)
    (r : Users × Table × Bool) : Config where
  known := r.1
  userVersion := if r.2.2 = true then version else ""
  table := r.2.1
  ack := some ⟨version, if r.2.2 = true then none else some .applyFailed⟩
  names := update c.names version roster
  tried := if r.2.2 = true then none else if r.2.1 = c.table then c.tried else some want

/-- `onUsersFull`, for a node whose inbound serves. -/
def Config.full (c : Config) (version : String) (users : List User) (order : Order)
    (fails : Calls) : Config :=
  let users := normalizeUsers users
  c.attempted version (some (mirrorOf users)) (wanted users)
    (applyUsers order fails users c.known c.table)

/-- A delta is taken: it starts from the roster that the node has. -/
def Config.Takes (c : Config) (fromVersion : String) : Prop :=
  c.userVersion ≠ "" ∧ fromVersion = c.userVersion

instance (c : Config) (fromVersion : String) : Decidable (c.Takes fromVersion) :=
  inferInstanceAs (Decidable (_ ∧ _))

/-- `onUsersDelta`, for a node whose inbound serves. -/
def Config.delta (c : Config) (fromVersion toVersion : String) (upserted : List User)
    (removed : List ℤ) (fails : Calls) : Config :=
  if c.Takes fromVersion then
    c.attempted toVersion ((c.names fromVersion).map fun r => patch r upserted removed)
      ((deltaTargets upserted removed).foldl setUser c.known)
      (applyUserDelta fails upserted removed c.known c.table)
  else { c with ack := some ⟨toVersion, some .versionMismatch⟩ }

def next (c : Config) : Label → Config
  | .full version users order fails => c.full version users order fails
  | .delta fromVersion toVersion upserted removed fails =>
    c.delta fromVersion toVersion upserted removed fails

/-- The kernel accepts the users of a roster and no others. -/
def Accepts (t : Table) (roster : Users) : Prop := ∀ u, u ∈ t ↔ u ∈ roster

/-- **What is acknowledged, and what is reported as installed, is what the kernel accepts.** -/
def Config.Faithful (c : Config) : Prop :=
  ∀ v, c.ack = some ⟨v, none⟩ ∨ (c.userVersion = v ∧ v ≠ "") →
    ∃ roster, c.names v = some roster ∧ Accepts c.table roster

/-! ## Where it goes right -/

/-- The condition on a message: its roster has no credential twice, and if one was left half
installed, it agrees with that. -/
def Config.Clear (c : Config) : Label → Prop
  | .full _ users _ _ => Distinct (wanted (normalizeUsers users)) ∧
      ∀ half ∈ c.tried, Agrees c.known half (wanted (normalizeUsers users))
  | .delta fromVersion _ upserted removed _ =>
    c.Takes fromVersion → Distinct (patch c.known upserted removed)

instance (c : Config) : (l : Label) → Decidable (c.Clear l)
  | .full _ _ _ _ => inferInstanceAs (Decidable (_ ∧ _))
  | .delta _ _ _ _ _ => inferInstanceAs (Decidable (_ → _))

/-- What is true between two messages. -/
structure Config.Inv (c : Config) : Prop where
  distinct : Distinct c.known
  named : ∀ u ∈ c.known, u.uuid ≠ ""
  between : Between c.table c.known (c.tried.getD c.known)
  sure : ∀ v, c.ack = some ⟨v, none⟩ ∨ (c.userVersion = v ∧ v ≠ "") →
    c.tried = none ∧ ∃ roster, c.names v = some roster ∧ ∀ id, roster.get id = c.known.get id

variable {c : Config} {users : List User} {fails : Calls}

theorem Config.Inv.faithful (h : c.Inv) : c.Faithful := by
  intro v hv
  obtain ⟨hnone, roster, hroster, hsame⟩ := h.sure v hv
  have hbetween := h.between
  rw [hnone] at hbetween
  refine ⟨roster, hroster, fun u => ?_⟩
  rw [between_self_iff.mp hbetween u, mem_iff, mem_iff, hsame]

/-- **What a message leaves that was tried**, from anywhere between the old roster and the new
one. -/
theorem Config.Inv.attempted (h : c.Inv) {changes : Changes} {want roster : Users}
    (hbetween : Between c.table c.known want) (hdistinct : Distinct want)
    (hnamed : ∀ u ∈ want, u.uuid ≠ "") (hmoves : changes.Moves c.known want)
    (hroster : ∀ id, roster.get id = want.get id) (version : String) (fails : Calls) :
    (c.attempted version (some roster) want
      (if (applyKernelUsers fails changes c.table).2 = true then want else c.known,
        applyKernelUsers fails changes c.table)).Inv := by
  obtain ⟨hok, hfailed⟩ := hbetween.applyKernelUsers h.distinct hdistinct hmoves fails
  cases hresult : (applyKernelUsers fails changes c.table).2 with
  | true =>
    refine ⟨?_, ?_, ?_, ?_⟩ <;> simp only [Config.attempted, hresult, if_true]
    · exact hdistinct
    · exact hnamed
    · exact between_self_iff.mpr (hok hresult)
    · rintro v hv
      have hversion : version = v := by
        rcases hv with hv | ⟨hv, -⟩
        · exact (UsersAck.mk.inj (some.inj hv)).1
        · exact hv
      subst hversion
      exact ⟨trivial, roster, update_self .., hroster⟩
  | false =>
    refine ⟨?_, ?_, ?_, ?_⟩ <;> simp only [Config.attempted, hresult, Bool.false_eq_true, if_false]
    · exact h.distinct
    · exact h.named
    · split_ifs with hunchanged
      · rw [hunchanged]
        exact h.between
      · exact hfailed hresult
    · rintro v (hv | ⟨rfl, hv⟩)
      · cases (UsersAck.mk.inj (some.inj hv)).2
      · exact absurd rfl hv

theorem Config.Inv.full (h : c.Inv) {version : String}
    {order : Order} (hclear : c.Clear (.full version users order fails)) :
    (c.full version users order fails).Inv := by
  obtain ⟨hdistinct, hagrees⟩ := hclear
  have hbetween : Between c.table c.known (wanted (normalizeUsers users)) := by
    refine h.between.agrees ?_
    cases htried : c.tried with
    | none => exact agrees_self _ _
    | some half => exact hagrees half htried
  exact h.attempted hbetween hdistinct (fun u hu => uuid_ne_of_mem_wanted hu)
    changesTo_moves (fun id => (get_wanted_normalizeUsers users id).symm) version fails

theorem Config.Inv.delta (h : c.Inv) {fromVersion toVersion : String} {upserted : List User}
    {removed : List ℤ} (hclear : c.Clear (.delta fromVersion toVersion upserted removed fails)) :
    (c.delta fromVersion toVersion upserted removed fails).Inv := by
  unfold Config.delta
  split_ifs with htakes
  · obtain ⟨hsome, rfl⟩ := htakes
    obtain ⟨hnone, roster, hroster, hsame⟩ := h.sure c.userVersion (.inr ⟨rfl, hsome⟩)
    have hholds := holds_deltaTargets upserted removed
    have hbetween := h.between
    rw [hnone] at hbetween
    rw [hroster]
    refine h.attempted (hbetween.agrees (agrees_self _ _)) ?_ ?_
      (deltaChanges_moves h.named hholds) ?_ toVersion fails
    · intro u hu v hv
      rw [mem_iff, get_patch] at hu hv
      exact hclear ⟨hsome, rfl⟩ u hu v hv
    · intro u hu
      rcases (mem_foldl_setUser hholds).mp hu with ⟨-, hblank⟩ | ⟨-, hu⟩
      · exact hblank
      · exact h.named u hu
    · intro id
      rw [← get_patch, get_foldl_setUser, get_foldl_setUser, hsame]
  · refine ⟨h.distinct, h.named, h.between, ?_⟩
    rintro v (hv | hv)
    · cases (UsersAck.mk.inj (some.inj hv)).2
    · exact h.sure v (.inr hv)

theorem Config.inv_installed (version : String)
    (hdistinct : Distinct (wanted (normalizeUsers users))) :
    (Config.installed version users).Inv := by
  have hmem : ∀ u, u ∈ mirrorOf (normalizeUsers users) ↔ u ∈ wanted (normalizeUsers users) :=
    fun u => mem_mirrorOf_normalizeUsers.trans mem_wanted_normalizeUsers.symm
  refine ⟨?_, ?_, between_self_iff.mpr fun u => ?_, ?_⟩
  · intro u hu v hv
    exact hdistinct u ((hmem u).mp hu) v ((hmem v).mp hv)
  · intro u hu
    exact uuid_ne_of_mem_wanted ((hmem u).mp hu)
  · refine (mem_addAll_empty fun u hu v hv => ?_).trans mem_mirrorOf_normalizeUsers.symm
    exact hdistinct u (mem_wanted_normalizeUsers.mpr hu) v (mem_wanted_normalizeUsers.mpr hv)
  · rintro v (hv | ⟨rfl, -⟩)
    · cases hv
    · refine ⟨rfl, mirrorOf (normalizeUsers users), ?_, fun _ => rfl⟩
      simp only [Config.installed, update_self]

/-- **As long as no roster has a credential twice, and a roster that was left half installed is
followed by rosters that agree with it, the kernel accepts what the node acknowledges.** -/
theorem acknowledged_is_accepted {version : String} {users : List User} {labels : List Label}
    (hdistinct : Distinct (wanted (normalizeUsers users)))
    (hclear : Runs.Along next Config.Clear (Config.installed version users) labels) :
    (labels.foldl next (Config.installed version users)).Faithful := by
  refine (hclear.invariant (I := Config.Inv) ?_ (Config.inv_installed version hdistinct)).faithful
  intro c l h hl
  cases l with
  | full => exact h.full hl
  | delta => exact h.delta hl

/-- A credential is changed, fails half-way, and is changed again. -/
def repeatedRotation : List Label :=
  [.full "v2" [⟨1, "new", 0, 0⟩] Order.listed { addUsers := true },
    .full "v2" [⟨1, "new", 0, 0⟩] Order.listed {}]

theorem repeated_rotation_accepted :
    Runs.Along next Config.Clear (Config.installed "v1" [⟨1, "old", 0, 0⟩]) repeatedRotation ∧
      (repeatedRotation.foldl next (Config.installed "v1" [⟨1, "old", 0, 0⟩])).Faithful := by
  have hclear : Runs.Along next Config.Clear (Config.installed "v1" [⟨1, "old", 0, 0⟩])
    repeatedRotation := by decide +kernel
  exact ⟨hclear, acknowledged_is_accepted (by decide +kernel) hclear⟩

/-! ## Where it goes wrong -/

/-- The kernel takes the old credential out and fails to take the new one in. -/
def failedRotation : List Label :=
  [.full "v2" [⟨1, "new", 0, 0⟩] Order.listed { addUsers := true },
    .full "v3" [⟨1, "old", 0, 0⟩] Order.listed {}]

/-- A roster that goes back to what it was before a failed change is acknowledged without a call,
and its user is not accepted. -/
theorem restored_user_not_accepted :
    let c := failedRotation.foldl next (Config.installed "v1" [⟨1, "old", 0, 0⟩])
    c.ack = some ⟨"v3", none⟩ ∧ c.userVersion = "v3" ∧ c.table.get "old" = none ∧
      c.names "v3" = some (mirrorOf [⟨1, "old", 0, 0⟩]) ∧ ¬c.Faithful := by
  have hack : (failedRotation.foldl next (Config.installed "v1" [⟨1, "old", 0, 0⟩])).ack =
    some ⟨"v3", none⟩ := by decide +kernel
  have hnone : (failedRotation.foldl next
      (Config.installed "v1" [⟨1, "old", 0, 0⟩])).table.get "old" = none := by decide +kernel
  have hnames : (failedRotation.foldl next (Config.installed "v1" [⟨1, "old", 0, 0⟩])).names "v3" =
    some (mirrorOf [⟨1, "old", 0, 0⟩]) := by decide +kernel
  refine ⟨hack, by decide +kernel, hnone, hnames, fun hfaithful => ?_⟩
  obtain ⟨roster, hroster, haccepts⟩ := hfaithful "v3" (.inl hack)
  obtain rfl := some.inj (hnames.symm.trans hroster)
  have hmem := (haccepts ⟨1, "old", 0, 0⟩).mpr (by decide +kernel)
  rw [mem_iff] at hmem
  exact absurd (hnone.symm.trans hmem) (by decide)

end Pandora.Agent.Roster
