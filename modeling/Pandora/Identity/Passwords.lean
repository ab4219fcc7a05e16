import Pandora.Identity.Mailbox

/-!
# An old password

Passwords are changed by `ChangePassword` and `CompletePasswordReset`, while others sign in.  What a
login has presented is checked against the hash that it has read, after it has read the epoch.  So
when the hash has been replaced and the second revocation has run, the epoch of a login that has
read the old hash is an earlier one.

A password may come back: by a later change, or at once, since `CompletePasswordReset` does not
compare the new password with the old one.  Then it opens sessions again (`password_back`).  That is
the only way: `old_password_stops` says that a session which a login has opened with a replaced
password is refused, except the one that the change keeps, unless the change or a later one had set
the password when the login read the hash.

The accounts are those of the beginning here, with their addresses; a login whose address moves to
another account meanwhile reads the epoch too late.
-/

namespace Pandora.Identity

open Records Sessions List Option State Write

/-! ## Runs in which no address is changed -/

/-- `AdminSetEmail` begins. -/
def Label.edits : Label → Bool
  | .edit _ _ => true
  | _ => false

namespace State

variable (s : State)

/-- The account that an address belongs to. -/
def accountOf (email : Address) : UUID := ((s.userByEmail email).map (·.id)).getD UUID.nil

/-- What is known of a call when addresses stay where they are. -/
def Fixed : Flow → Prop
  | .loginFound l uid0 => s.accountOf l.email = uid0
  | .loginEpoch l uid0 _ _ => s.accountOf l.email = uid0
  | .loginRehash _ uid0 uid _ _ _ _ => uid = uid0
  | .loginOther _ _ _ _ => False
  | .mailFound email uid => s.emailOf uid = some email
  | .ready _ _ _ _ _ (.other _ _) => False
  | .edit _ _ => False
  | .editLocked _ _ _ _ => False
  | .editWritten _ _ _ _ => False
  | .completeWritten _ _ _ w => w.moves w.user = none
  | .closing w _ _ => w.moves w.user = none
  | _ => True

/-- Accounts are as they were at the beginning. -/
structure Unmoved (users : List User) : Prop where
  users : s.users = users
  flows : ∀ f ∈ s.flows, s.Fixed f
  opened : ∀ sid password seen, s.opened sid ≠ some (.other password seen)

variable {s} {s' : State} {p epoch0 : ℕ} {f f' : Flow} {users : List User} {env : Env} {l : Login}

theorem Fixed.of_users (h : s.Fixed f) (husers : s'.users = s.users) : s'.Fixed f := by
  have hemail : ∀ uid, s'.emailOf uid = s.emailOf uid := by
    intro uid
    unfold emailOf userById
    rw [husers]
  have haccount : ∀ email, s'.accountOf email = s.accountOf email := by
    intro email
    unfold accountOf userByEmail
    rw [husers]
  cases f with
  | loginFound l | loginEpoch l => exact (haccount l.email).trans h
  | mailFound email uid => exact (hemail uid).trans h
  | ready uid aud amr epoch now o =>
    cases o with
    | other => exact h
    | password | link => trivial
  | loginRehash | loginOther | edit | editLocked | editWritten | completeWritten
  | closing => exact h
  | _ => trivial

namespace Unmoved

variable (h : s.Unmoved users)
include h

theorem moved (husers : s'.users = s.users) (hflows : s'.flows = s.flows.set p f')
    (hfixed : s.Fixed f') (hopened : s'.opened = s.opened) : s'.Unmoved users := by
  refine ⟨husers.trans h.users, fun g hg => ?_, hopened ▸ h.opened⟩
  rw [hflows] at hg
  rcases mem_or_eq_of_mem_set hg with hmem | rfl
  · exact (h.flows g hmem).of_users husers
  · exact hfixed.of_users husers

theorem go (hfixed : s.Fixed f') : (s.go p f').Unmoved users := h.moved rfl rfl hfixed rfl

theorem stop (codes : List VerificationCode) (nextCode : ℕ) :
    (stop { s with codes := codes, nextCode := nextCode } p).Unmoved users :=
  have hflows : (State.stop { s with codes := codes, nextCode := nextCode } p).flows =
      s.flows.set p .ended := rfl
  h.moved rfl hflows trivial rfl

theorem stopped : (s.stop p).Unmoved users := h.stop s.codes s.nextCode

theorem acquire {locks : List Lock} (hfixed : s.Fixed f') :
    (s.acquire p locks f').Unmoved users := by
  unfold State.acquire
  split_ifs
  · exact h.moved rfl rfl hfixed rfl
  · exact h

theorem lockIf {k : Lock} {ok : Prop} [Decidable ok] (hfixed : s.Fixed f') :
    (s.lockIf p k ok f').Unmoved users := by
  unfold State.lockIf
  split_ifs
  · exact h.acquire hfixed
  · exact h.stopped
  · exact h

theorem begin {st : Store} (hfixed : s.Fixed f) : Unmoved { s.begin f with store := st } users := by
  exact ⟨h.users, forall_mem_append.mpr ⟨fun g hg => (h.flows g hg).of_users rfl,
    forall_mem_singleton.mpr (hfixed.of_users rfl)⟩, h.opened⟩

end Unmoved

theorem fixed_proved {uid0 uid : UUID} {now : ℤ} {seen : ℕ} (heq : uid = uid0) :
    s.Fixed (l.proved uid0 uid now epoch0 seen) := by
  rw [Login.proved, if_neg (not_not.mpr heq)]
  trivial

namespace Unmoved

variable (h : s.Unmoved users)
include h

variable {now : ℤ}

theorem authenticate {uid0 : UUID}
    (hfixed : s.accountOf l.email = uid0) : (s.authenticate p l uid0 now epoch0).Unmoved users := by
  unfold State.authenticate
  cases hu : s.userByEmail l.email with
  | none => exact h.stopped
  | some u =>
    have heq : u.id = uid0 := by
      rw [← hfixed, accountOf, hu]
      rfl
    dsimp only
    cases s.passwords u.id with
    | none => exact h.stopped
    | some =>
      dsimp only
      split_ifs
      · exact h.stopped
      · exact h.go heq
      · exact h.go (fixed_proved heq)

theorem createSession {uid : UUID} {aud : Audience} {amr : AMR} {epoch : ℕ}
    {o : Opening} {seed : Secret} (ho : ∀ password seen, o ≠ .other password seen) :
    (s.createSession env p uid aud amr epoch now o seed).Unmoved users := by
  have hgo : (s.go p .ended).Unmoved users := h.go trivial
  refine ⟨hgo.users, fun g hg => (hgo.flows g hg).of_users rfl, fun sid password seen => ?_⟩
  simp only [State.createSession]
  split_ifs
  · by_cases heq : sid = s.nextSid
    · rw [heq, Function.update_self]
      exact fun hother => ho password seen (some.inj hother)
    · rw [Function.update_of_ne heq]
      exact h.opened sid password seen
  · exact h.opened sid password seen

theorem lockCode {email : Address} {code : ℕ} {password : Password} :
    (s.lockCode p email code password now).Unmoved users := by
  unfold State.lockCode
  cases VerificationCode.latest .passwordReset email now s.codes with
  | none => exact h.stopped
  | some c =>
    dsimp only
    by_cases hfree : s.held.Free p (.code c.id)
    swap
    · rw [if_pos hfree]
      exact h
    rw [if_neg (not_not.mpr hfree)]
    cases c.userId with
    | none => exact h.stopped
    | some =>
      split_ifs
      · exact h.stopped
      · exact h.stop _ _
      · exact h.acquire trivial

theorem close {w : Write} {t : Touched} {tail : Tail} (hw : w.moves w.user = none) :
    (s.close p w t tail).Unmoved users := by
  cases tail with
  | written => exact h.moved rfl rfl hw rfl
  | committed => exact h.moved rfl rfl (show s.Fixed .ended from trivial) rfl
  | revoked =>
    have husers : (s.close p w t .revoked).users = s.users := by
      show (s.apply w t).users = s.users
      unfold apply
      cases hact : w.act with
      | email => simp [moves, hact] at hw
      | replace | reset => rfl
    exact h.moved husers rfl hw rfl

theorem step {i : Input} (hids : (users.map (·.id)).Nodup) (hf : s.Fixed f) :
    (s.step env p i f).Unmoved users := by
  cases f with
  | login => exact h.go rfl
  | loginFound => exact h.go hf
  | loginEpoch => exact h.authenticate hf
  | loginRehash l uid0 uid now epoch0 phc seen =>
    simp only [step]
    split_ifs
    · exact h.go (fixed_proved hf)
    · have hrows : (s.rehash p l uid phc).users = s.users ∧ (s.rehash p l uid phc).flows = s.flows ∧
          (s.rehash p l uid phc).opened = s.opened := by
        unfold rehash
        split_ifs <;> exact ⟨rfl, rfl, rfl⟩
      have hflows : ((s.rehash p l uid phc).go p (l.proved uid0 uid now epoch0 seen)).flows =
          s.flows.set p (l.proved uid0 uid now epoch0 seen) :=
        congrArg (fun flows => flows.set p (l.proved uid0 uid now epoch0 seen)) hrows.2.1
      exact h.moved hrows.1 hflows (fixed_proved hf) hrows.2.2
    · exact h
  | loginOther | edit | editLocked | editWritten => exact absurd hf id
  | mailStart email =>
    simp only [step]
    cases hu : s.userByEmail email with
    | none => exact h.stopped
    | some => exact h.go (emailOf_of_userByEmail (h.users ▸ hids) hu)
  | mailFound => exact h.go trivial
  | mailEpoch => exact h.moved rfl rfl (show s.Fixed .ended from trivial) rfl
  | mailUsed =>
    simp only [step]
    split_ifs
    · exact h.stopped
    · exact h.go trivial
  | ready =>
    refine h.createSession fun password seen => ?_
    rintro rfl
    exact hf
  | resetStart email =>
    simp only [step]
    cases s.userByEmail email with
    | none => exact h.stopped
    | some => exact h.go trivial
  | resetFound => exact h.acquire trivial
  | resetExpired => exact h.stop _ _
  | complete => exact h.lockCode
  | completeCode | changeChecked => exact h.lockIf trivial
  | completeUser => exact h.acquire (by simp [Fixed, moves])
  | completeWritten => exact h.acquire hf
  | change uid =>
    simp only [step, checkPassword]
    cases s.passwords uid with
    | none => exact h.stopped
    | some =>
      dsimp only
      split_ifs
      · exact h.stopped
      · exact h.go trivial
  | changeLocked =>
    simp only [step]
    split_ifs
    · exact h.stopped
    · exact h.go (by simp [Fixed, moves])
  | closing => exact h.close hf
  | ended => exact h

theorem next (hids : (users.map (·.id)).Nodup) {l : Label} (hl : l.edits = false) :
    (s.next env l).Unmoved users := by
  cases l with
  | login | mailStart | resetStart | complete | change => exact h.begin trivial
  | mailConsume =>
    refine h.begin ?_
    split <;> trivial
  | edit => exact Bool.noConfusion hl
  | turn p =>
    simp only [State.next]
    cases hp : s.flows[p]? with
    | none => exact h
    | some f => exact h.step hids (h.flows f (mem_of_getElem? hp))
  | fail =>
    simp only [State.next, State.fail]
    split
    · exact h
    · exact h
    · exact h.stopped
  | check | expire => exact ⟨h.users, fun f hf => (h.flows f hf).of_users rfl, h.opened⟩

theorem steady (l : Label) : s.Steady l := by
  cases l with
  | turn =>
    intro x hx
    obtain ⟨f, hf, hlook⟩ := bind_eq_some_iff.mp hx
    have hfixed := h.flows f (mem_of_getElem? hf)
    cases f with
    | mailFound =>
      obtain rfl := some.inj hlook
      exact .inl hfixed
    | _ => exact nomatch hlook
  | _ => trivial

end Unmoved

end State

/-! ## Replaced passwords -/

/-- The password that a change has replaced. -/
def Write.replaced (w : Write) : Option Password :=
  match w.act with
  | .email _ _ => none
  | .replace checked _ => some checked.password
  | .reset _ old _ => old.map (·.password)

/-- The password that a login has presented, and how many changes there had been when it read the
hash. -/
def Opening.presented : Opening → Option (Password × ℕ)
  | .password presented seen => some (presented, seen)
  | .other presented seen => some (presented, seen)
  | .link _ => none

theorem Write.sets_of_replaced {w : Write} (h : w.replaced.isSome) : (w.sets w.user).isSome := by
  unfold replaced at h
  unfold sets
  cases hact : w.act with
  | email => simp [hact] at h
  | replace | reset => simp [Act.hash]

variable (env : Env) {users : List User} (passwords : UUID → Option (Password × Bool))

theorem unmoved_run (hids : (users.map (·.id)).Nodup) (labels : List Label)
    (hlabels : ∀ l ∈ labels, l.edits = false) :
    (run env (.start users passwords) labels).Inv ∧
      (run env (.start users passwords) labels).Unmoved users := by
  have hstart : (start users passwords).Unmoved users :=
    ⟨rfl, by simp [start], by simp [start]⟩
  induction labels using reverseRecOn with
  | nil => exact ⟨inv_start passwords hids, hstart⟩
  | append_singleton labels l ih =>
    obtain ⟨hinv, hunmoved⟩ := ih fun x hx => hlabels x (mem_append_left _ hx)
    rw [run, foldl_append]
    exact ⟨hinv.next (hunmoved.steady l), hunmoved.next hids (hlabels l (by simp))⟩

/-- In every run of logins, changes and resets of passwords, for every change that has been
committed: once its second revocation has run, a session that a login has opened with the password
it replaced is refused, unless it is the one that the change keeps, or the change or a later one had
set that password when the login read the hash; the stored hash is one of that password only if the
change or a later one has set it; `ChangePassword` always sets another password; and of the calls of
it that have checked the same hash, one succeeds at most. -/
theorem old_password_stops (hids : (users.map (·.id)).Nodup) (labels : List Label)
    (hlabels : ∀ l ∈ labels, l.edits = false) :
    (∀ j w password, (State.run env (.start users passwords) labels).history[j]? = some w →
      w.replaced = some password →
      (j ∈ (State.run env (.start users passwords) labels).settled →
        ∀ sid o seen, (State.run env (.start users passwords) labels).opened sid = some o →
          o.presented = some (password, seen) →
          ∀ aud now x, ((State.run env (.start users passwords) labels).store.check sid w.user
            aud now (seconds env.adminIdleTimeout)).1 = some x →
            w.keep = some sid ∨ ∃ i w', j ≤ i ∧ i < seen ∧
              (State.run env (.start users passwords) labels).history[i]? = some w' ∧
              w'.sets w.user = some password) ∧
      ∀ h, (State.run env (.start users passwords) labels).passwords w.user = some h →
        h.password = password → ∃ i w', j ≤ i ∧
          (State.run env (.start users passwords) labels).history[i]? = some w' ∧
          w'.sets w.user = some password) ∧
    (∀ w ∈ (State.run env (.start users passwords) labels).history, ∀ checked new,
      w.act = .replace checked new → new.password ≠ checked.password) ∧
    ∀ (i j : ℕ) (w w' : Write) checked new new',
      (State.run env (.start users passwords) labels).history[i]? = some w →
      (State.run env (.start users passwords) labels).history[j]? = some w' →
      w.user = w'.user → w.act = .replace checked new → w'.act = .replace checked new' → i = j := by
  obtain ⟨hinv, hunmoved⟩ := unmoved_run env passwords hids labels hlabels
  generalize State.run env (.start users passwords) labels = s at *
  refine ⟨fun j w password hw hreplaced => ?_,
    fun w hw checked new hact => (hinv.rows.replaced w hw checked new hact).1, hinv.rows.once⟩
  have hsets : (w.sets w.user).isSome := Write.sets_of_replaced (by simp [hreplaced])
  refine ⟨fun hsettled sid o seen hopened hpresented aud now x hcheck => ?_,
    fun h hh hpassword => ?_⟩
  · obtain ⟨hsess, huid, hepoch⟩ := Store.of_check hcheck
    obtain ⟨htold, hkept⟩ := hinv.marks.sessions sid x o hsess hopened
    cases o with
    | link => exact nomatch hpresented
    | other password' seen' => exact absurd hopened (hunmoved.opened sid password' seen')
    | password password' seen' =>
      obtain ⟨rfl, rfl⟩ : password' = password ∧ seen' = seen := by
        simpa [Opening.presented] using hpresented
      rcases Nat.lt_or_ge j seen' with hlt | hge
      · -- the hash was read after the change
        right
        obtain ⟨i, b, hle, hb, hsome, heq⟩ := exists_latest
          (show (s.history.take seen')[j]? = some w by rw [getElem?_take_of_lt hlt, hw]) hsets
        obtain ⟨y, hy⟩ := isSome_iff_exists.mp hsome
        rw [huid] at htold
        obtain rfl := htold.2 y (heq.trans hy)
        rw [getElem?_take] at hb
        split_ifs at hb with hi
        exact ⟨i, b, hle, hi, hb, hy⟩
      · exact .inl (hkept hepoch j hsettled hge w hw huid.symm)
  · obtain ⟨i, b, hle, hb, hsome, heq⟩ := exists_latest hw hsets
    obtain ⟨y, hy⟩ := isSome_iff_exists.mp hsome
    obtain ⟨h', hh', rfl⟩ := hinv.rows.stored w.user y (heq.trans hy)
    obtain rfl := some.inj (hh.symm.trans hh')
    exact ⟨i, b, hle, hb, hpassword ▸ hy⟩

/-- User 7 changes the password 1 to 2 and back again, and signs in with it. -/
def changedBack : List Label :=
  .change 7 none 1 2 :: turns 0 6 ++ .change 7 none 2 1 :: turns 1 6 ++
    .login ⟨.admin, 10, 1⟩ :: turns 2 4

/-- A reset sets the password 1 once more, and user 7 signs in with it. -/
def resetToSame : List Label :=
  .resetStart 10 (2000 * second) :: turns 0 3 ++ .complete 10 5 1 :: turns 1 7 ++
    .login ⟨.portal, 10, 1⟩ :: turns 2 4

/-- In both runs the second revocation of the first change has run, the login has presented the
password that it replaced, and the session is accepted; in the second one the stored hash is one of
that password, and there is no later change. -/
theorem password_back :
    (((sampleRun changedBack).history.map Write.replaced = [some 1, some 2] ∧
      (sampleRun changedBack).settled = [1, 0] ∧
      (sampleRun changedBack).opened 0 = some (.password 1 2) ∧
      ((sampleRun changedBack).store.check 0 7 none 1001
        (seconds Env.sample.adminIdleTimeout)).1.isSome = true) ∧
    ((sampleRun resetToSame).history.map Write.replaced = [some 1] ∧
      (sampleRun resetToSame).settled = [0] ∧
      (sampleRun resetToSame).opened 0 = some (.password 1 1) ∧
      ((sampleRun resetToSame).passwords 7).map (·.password) = some 1 ∧
      ((sampleRun resetToSame).store.check 0 7 none 1001
        (seconds Env.sample.adminIdleTimeout)).1.isSome = true)) := by
  decide +kernel

/-- Two logins open sessions, and one of the sessions changes the password. -/
def keptOne : List Label :=
  .login ⟨.portal, 10, 1⟩ :: turns 0 4 ++ .login ⟨.portal, 10, 1⟩ :: turns 1 4 ++
    .change 7 (some 0) 1 2 :: turns 2 6

theorem keptOne_stops :
    (sampleRun keptOne).opened 1 = some (.password 1 0) ∧
      ∀ aud now, ((sampleRun keptOne).store.check 1 7 aud now
        (seconds Env.sample.adminIdleTimeout)).1 = none := by
  have hhistory : (sampleRun keptOne).history =
      [⟨7, some 0, .replace ⟨1, none, false⟩ ⟨2, some 2, false⟩⟩] := by decide +kernel
  have hopened : (sampleRun keptOne).opened 1 = some (.password 1 0) := by
    decide +kernel
  refine ⟨hopened, fun aud now => ?_⟩
  by_contra hsome
  obtain ⟨x, hx⟩ := ne_none_iff_exists'.mp hsome
  rcases ((old_password_stops .sample _ (by decide) keptOne (by decide)).1 0 _ 1
    (congrArg (·[0]?) hhistory) rfl).1 (by decide +kernel) 1 _ 0 hopened rfl aud now x
    hx with hkeep | hset
  · exact absurd hkeep (by decide)
  · obtain ⟨i, w', -, hlt, -⟩ := hset
    exact absurd hlt (Nat.not_lt_zero i)

end Pandora.Identity
