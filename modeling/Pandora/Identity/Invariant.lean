import Pandora.Foundation.Latest
import Pandora.Identity.Calls
import Pandora.Sessions.Coherent

/-!
# What holds whatever calls overlap

Three things carry the statements about addresses and passwords.

* A transaction holds the rows that it has checked and is about to change, so that they are still as
  it has seen them when it commits (`State.Ready`).
* An epoch that a call has read, or that a link was issued with, is an earlier one after the next
  revocation of the user.  As long as it is the current one, what the call has seen before it is not
  outdated (`State.Good`): no change that was committed since has had its second revocation.
* A hash that has been replaced never comes back, since every call draws its own salt.
-/

namespace Pandora.Identity

open Records Sessions List

/-! ## The record of changes -/

/-- The password that a change gives to a user. -/
def Write.sets (uid : UUID) (w : Write) : Option Password :=
  if w.user = uid then w.act.hash.map (·.password) else none

/-- The address that a change gives to a user. -/
def Write.moves (uid : UUID) (w : Write) : Option Address :=
  if w.user = uid then match w.act with
    | .email _ new => some new
    | _ => none
  else none

namespace State

variable (s : State)

/-- The address of the user has been changed, and the second revocation has not run yet. -/
def Pending (uid : UUID) : Prop :=
  ∃ j w, s.history[j]? = some w ∧ (w.moves uid).isSome ∧ j ∉ s.settled

instance (uid : UUID) : Decidable (s.Pending uid) :=
  decidable_of_iff (∃ j ∈ range s.history.length, ∃ w ∈ s.history[j]?,
    (w.moves uid).isSome ∧ j ∉ s.settled)
    ⟨fun ⟨j, _, w, hw, hmoves, hset⟩ => ⟨j, w, hw, hmoves, hset⟩,
      fun ⟨j, w, hw, hmoves, hset⟩ =>
        ⟨j, mem_range.mpr (List.getElem?_eq_some_iff.mp hw).1, w, hw, hmoves, hset⟩⟩

/-- The changes since something was presented, as far as they have had their second revocation, are
of another user or as `P` says. -/
def Stands (P : Write → Prop) (uid : UUID) : Opening → Prop
  | .password _ seen =>
    ∀ j ∈ s.settled, seen ≤ j → ∀ w, s.history[j]? = some w → w.user = uid → P w
  | .other _ _ => True
  | .link address => s.emailOf uid = some address ∨ s.Pending uid

/-- What was presented is not outdated: no change since has had its second revocation. -/
abbrev Good (uid : UUID) (o : Opening) : Prop := s.Stands (fun _ => False) uid o

/-- The same for a session that exists: the changes since were to keep it. -/
abbrev Kept (sid uid : UUID) (o : Opening) : Prop := s.Stands (fun w => w.keep = some sid) uid o

/-- The password that was presented was the one of the user. -/
def Told (uid : UUID) : Opening → Prop
  | .password password seen | .other password seen => seen ≤ s.history.length ∧
      ∀ x, latest (Write.sets uid) (s.history.take seen) = some x → x = password
  | .link _ => True

/-- An epoch that goes with what was presented. -/
def Fits (uid : UUID) (epoch : ℕ) (o : Opening) : Prop :=
  epoch ≤ s.store.uepoch uid ∧ (epoch = s.store.uepoch uid → s.Good uid o)

/-- A transaction has written, and holds what it has checked. -/
def Ready (p : ℕ) (w : Write) : Prop :=
  match w.act with
  | .email old new => s.held (.user w.user) = some p ∧ s.emailOf w.user = some old ∧ old ≠ new ∧
      w.keep = none
  | .replace checked new => s.held (.password w.user) = some p ∧
      s.passwords w.user = some checked ∧ new.salt = some p ∧ new.password ≠ checked.password
  | .reset address old new => s.held (.user w.user) = some p ∧ s.emailOf w.user = some address ∧
      s.held (.password w.user) = some p ∧ s.passwords w.user = old ∧ new.salt = some p ∧
        w.keep = none

/-- What is known of the call at a position. -/
def Fine (p : ℕ) : Flow → Prop
  | .loginEpoch _ uid0 _ epoch0 => epoch0 ≤ s.store.uepoch uid0
  | .loginRehash l uid0 uid _ epoch0 phc seen => phc.password = l.password ∧
      s.Told uid (.password l.password seen) ∧
      (uid = uid0 → s.Fits uid epoch0 (.password l.password seen))
  | .loginOther l uid _ seen => s.Told uid (.other l.password seen)
  | .mailEpoch email uid epoch => s.Fits uid epoch (.link email)
  | .mailUsed address uid epoch => s.Fits uid epoch (.link address)
  | .ready uid _ _ epoch _ o => s.Fits uid epoch o ∧ s.Told uid o
  | .completeUser email _ _ _ uid => s.held (.user uid) = some p ∧ s.emailOf uid = some email
  | .completeWritten _ _ _ w => s.Ready p w
  | .changeChecked _ _ phc new => new ≠ phc.password
  | .changeLocked uid _ phc new => s.held (.password uid) = some p ∧ s.passwords uid = some phc ∧
      new ≠ phc.password
  | .editLocked uid _ old new => s.held (.user uid) = some p ∧ s.emailOf uid = some old ∧ old ≠ new
  | .editWritten uid _ old new => s.held (.user uid) = some p ∧ s.emailOf uid = some old ∧ old ≠ new
  | .closing w _ .written => s.Ready p w
  | .closing w _ .revoked => s.Ready p w
  | .closing w _ (.committed j) => s.history[j]? = some w ∧
      ((w.moves w.user).isSome → w.keep = none)
  | _ => True

end State

/-- The call may still store a hash. -/
def Flow.unwritten : Flow → Bool
  | .login _ | .loginFound _ _ | .loginEpoch _ _ _ _ | .loginRehash _ _ _ _ _ _ _ => true
  | .complete _ _ _ | .completeCode _ _ _ _ _ | .completeUser _ _ _ _ _ => true
  | .completeWritten _ _ _ w => w.act.hash.isSome
  | .change _ _ _ _ | .changeChecked _ _ _ _ | .changeLocked _ _ _ _ => true
  | .closing w _ .written | .closing w _ .revoked => w.act.hash.isSome
  | _ => false

namespace State

variable (s : State)

/-- The call at a position has stored its hash, or never will. -/
def Spent (p : ℕ) : Prop := ∃ f, s.flows[p]? = some f ∧ f.unwritten = false

/-- The salt of a hash belongs to a call that will not store another one. -/
def Salted (h : PHC) : Prop := ∀ p, h.salt = some p → s.Spent p

/-- What the rows, and the record of their changes, have to do with one another. -/
structure Rows : Prop where
  ids : (s.users.map (·.id)).Nodup
  past : ∀ j ∈ s.settled, j < s.history.length
  stored : ∀ uid x, latest (Write.sets uid) s.history = some x →
    ∃ h, s.passwords uid = some h ∧ h.password = x
  moved : ∀ uid x, latest (Write.moves uid) s.history = some x → s.emailOf uid = some x
  differs : ∀ w ∈ s.history, ∀ old new, w.act = .email old new → old ≠ new
  resets : ∀ i w address old new, s.history[i]? = some w → w.act = .reset address old new →
    ∀ x, latest (Write.moves w.user) (s.history.take i) = some x → x = address
  replaced : ∀ w ∈ s.history, ∀ checked new, w.act = .replace checked new →
    new.password ≠ checked.password ∧ s.Salted checked ∧ s.passwords w.user ≠ some checked
  salted : ∀ uid h, s.passwords uid = some h → s.Salted h
  once : ∀ (i j : ℕ) (w w' : Write) checked new new', s.history[i]? = some w →
    s.history[j]? = some w' → w.user = w'.user → w.act = .replace checked new →
      w'.act = .replace checked new' → i = j

/-- What is known of sessions and links. -/
structure Marks : Prop where
  coherent : s.store.Coherent s.nextSid
  links : ∀ hash uid epoch, s.store.ml hash = some (uid, epoch) →
    s.Fits uid epoch (.link (s.mailed hash))
  sessions : ∀ sid x o, s.store.sess sid = some x → s.opened sid = some o →
    s.Told x.uid o ∧ (x.epoch = s.store.uepoch x.uid → s.Kept sid x.uid o)

structure Inv : Prop where
  flows : ∀ p f, s.flows[p]? = some f → s.Fine p f
  rows : s.Rows
  marks : s.Marks

/-! ## Steps that leave the rows as they are -/

/-- The rows and the record are as they were. -/
structure Still (s s' : State) : Prop where
  users : s'.users = s.users
  passwords : s'.passwords = s.passwords
  history : s'.history = s.history
  settled : s'.settled = s.settled

/-- What the others have to rely on when a call takes a step. -/
structure Passes (s s' : State) (q : ℕ) : Prop where
  held : ∀ k, s.held k = some q → s'.held k = some q
  email : ∀ uid, s.held (.user uid) = some q → s'.emailOf uid = s.emailOf uid
  password : ∀ uid, s.held (.password uid) = some q → s'.passwords uid = s.passwords uid
  history : s.history <+: s'.history
  epoch : ∀ uid, s.store.uepoch uid ≤ s'.store.uepoch uid
  fits : ∀ uid e o, s.Fits uid e o → s'.Fits uid e o

variable {s} {s' : State} {o : Opening} {uid : UUID} {w : Write}

theorem Told.mono (h : s.Told uid o) (hpre : s.history <+: s'.history) : s'.Told uid o := by
  obtain ⟨l, hl⟩ := hpre
  cases o with
  | link => trivial
  | password | other =>
    refine ⟨h.1.trans (hl ▸ by simp), fun x hx => h.2 x ?_⟩
    rw [← hl, latest_take_append h.1] at hx
    exact hx

theorem getElem?_of_isPrefix {j : ℕ} (hw : s.history[j]? = some w)
    (hpre : s.history <+: s'.history) : s'.history[j]? = some w := by
  obtain ⟨l, hl⟩ := hpre
  rw [← hl, getElem?_append_left (List.getElem?_eq_some_iff.mp hw).1, hw]

theorem Ready.pass {q : ℕ} (h : s.Ready q w) (hpass : Passes s s' q) : s'.Ready q w := by
  unfold Ready at h ⊢
  cases hact : w.act with
  | email =>
    rw [hact] at h
    exact ⟨hpass.held _ h.1, (hpass.email _ h.1).trans h.2.1, h.2.2⟩
  | replace =>
    rw [hact] at h
    exact ⟨hpass.held _ h.1, (hpass.password _ h.1).trans h.2.1, h.2.2⟩
  | reset =>
    rw [hact] at h
    exact ⟨hpass.held _ h.1, (hpass.email _ h.1).trans h.2.1, hpass.held _ h.2.2.1,
      (hpass.password _ h.2.2.1).trans h.2.2.2.1, h.2.2.2.2⟩

theorem Fine.pass {q : ℕ} {f : Flow} (h : s.Fine q f) (hpass : Passes s s' q) : s'.Fine q f := by
  cases f with
  | loginEpoch l uid0 => exact h.trans (hpass.epoch uid0)
  | loginRehash =>
    exact ⟨h.1, h.2.1.mono hpass.history, fun heq => hpass.fits _ _ _ (h.2.2 heq)⟩
  | loginOther l uid now seen =>
    exact Told.mono (show s.Told uid (.other l.password seen) from h) hpass.history
  | mailEpoch | mailUsed => exact hpass.fits _ _ _ h
  | ready => exact ⟨hpass.fits _ _ _ h.1, h.2.mono hpass.history⟩
  | completeUser =>
    exact ⟨hpass.held _ h.1, (hpass.email _ h.1).trans h.2⟩
  | completeWritten => exact Ready.pass h hpass
  | changeLocked =>
    exact ⟨hpass.held _ h.1, (hpass.password _ h.1).trans h.2.1, h.2.2⟩
  | editLocked | editWritten =>
    exact ⟨hpass.held _ h.1, (hpass.email _ h.1).trans h.2.1, h.2.2⟩
  | closing w t tail =>
    cases tail with
    | written | revoked => exact Ready.pass h hpass
    | committed => exact ⟨getElem?_of_isPrefix h.1 hpass.history, h.2⟩
  | changeChecked => exact h
  | _ => trivial

namespace Still

variable (h : Still s s')
include h

theorem emailOf (uid : UUID) : s'.emailOf uid = s.emailOf uid := by
  unfold State.emailOf userById
  rw [h.users]

theorem pending (uid : UUID) : s'.Pending uid ↔ s.Pending uid := by
  unfold Pending
  rw [h.history, h.settled]

theorem stands {P : Write → Prop} : s'.Stands P uid o ↔ s.Stands P uid o := by
  cases o with
  | password =>
    unfold Stands
    rw [h.history, h.settled]
  | other => exact Iff.rfl
  | link =>
    unfold Stands
    rw [h.emailOf, h.pending]

theorem isPrefix : s.history <+: s'.history := h.history ▸ prefix_rfl

theorem fits (hepoch : s'.store.uepoch = s.store.uepoch) {e : ℕ}
    (hfits : s.Fits uid e o) : s'.Fits uid e o := by
  unfold Fits at hfits ⊢
  rw [hepoch]
  exact ⟨hfits.1, fun heq => h.stands.mpr (hfits.2 heq)⟩

theorem passes (hepoch : s'.store.uepoch = s.store.uepoch) {q : ℕ}
    (hheld : ∀ k, s.held k = some q → s'.held k = some q) : Passes s s' q where
  held := hheld
  email uid _ := h.emailOf uid
  password uid _ := congrFun h.passwords uid
  history := h.isPrefix
  epoch uid := (congrFun hepoch uid).ge
  fits _ _ _ := h.fits hepoch

theorem rows (hrows : s.Rows) (hspent : ∀ p, s.Spent p → s'.Spent p) : s'.Rows := by
  refine ⟨?_, ?_, ?_, ?_, ?_, ?_, ?_, ?_, ?_⟩
  · rw [h.users]
    exact hrows.ids
  · rw [h.settled, h.history]
    exact hrows.past
  · rw [h.history, h.passwords]
    exact hrows.stored
  · intro uid
    rw [h.history, h.emailOf]
    exact hrows.moved uid
  · rw [h.history]
    exact hrows.differs
  · rw [h.history]
    exact hrows.resets
  · rw [h.history, h.passwords]
    intro w hw checked new hact
    obtain ⟨hne, hsalt, hgone⟩ := hrows.replaced w hw checked new hact
    exact ⟨hne, fun p hp => hspent p (hsalt p hp), hgone⟩
  · rw [h.passwords]
    exact fun uid x hx p hp => hspent p (hrows.salted uid x hx p hp)
  · rw [h.history]
    exact hrows.once

end Still

end State

end Pandora.Identity
