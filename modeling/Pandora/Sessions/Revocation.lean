import Pandora.Sessions.Coherent
import Pandora.Sessions.System

/-!
# A revocation and the sign-ins before it

`revokeUser` moves the user's epoch on, and a session is written only if the epoch has not
moved since it was read.  So a sign-in that read the epoch before its credential was accepted
cannot outlive a revocation that comes after the acceptance: the epoch it holds is not the
current one any more.  `Stamped` says that of an epoch and a moment, and the invariant says it
of every request and every mail link.

Two requests read the epoch only after they accepted the credential: a quick login, and a
login whose password turned out to be that of another account.  A revocation in between is
lost on them.  Where no revocation falls into such a gap (`Config.Clear`), a session that is
accepted after a revocation either was proved after it, or existed before and was meant to be
kept.
-/

namespace Pandora.Sessions

open Store List Function Nat Option Quiet Coherent

theorem Call.tame_step (env : Env) (call : Call) (stillAdmin : Bool) (later : ℤ) (st : Store) :
    Tame st (call.step env stillAdmin later st).2 := by
  unfold Call.step
  cases call.stage with
  | read | gate | done => exact (refl st).tame
  | reused | demoted => exact (quiet_revokeOne _ _ _).tame
  | rotate => exact tame_rotate

/-! ## The invariant -/

/-- An epoch that was read, and a moment: if it is still the current one, no revocation came
after that moment. -/
def Stamped (epochs : UUID → ℕ) (rs : List Revocation) (uid : UUID) (epoch t : ℕ) : Prop :=
  epoch ≤ epochs uid ∧ (epoch = epochs uid → ∀ r ∈ rs, r.uid = uid → r.moment ≤ t)

/-- What is known of a request. -/
def Flow.Sound (epochs : UUID → ℕ) (rs : List Revocation) : Flow → Prop
  | .loginEpoch _ uid0 _ epoch0 => epoch0 ≤ epochs uid0
  | .loginOther _ uid _ proved => ∀ r ∈ rs, r.uid = uid → r.moment ≤ proved
  | .quickLogin uid _ proved => ∀ r ∈ rs, r.uid = uid → r.moment ≤ proved
  | .mailLinkEpoch uid epoch => epoch ≤ epochs uid
  | .mailLogin uid epoch proved => Stamped epochs rs uid epoch proved
  | .ready uid _ _ epoch _ proved => Stamped epochs rs uid epoch proved
  | .login _ _ _ => True
  | .mailLink _ => True
  | .refresh _ => True
  | .ended => True

/-- The revocation was told to keep a session, and the session existed. -/
def Revocation.Spares (r : Revocation) (sid : UUID) (aud : Audience) (o : Origin) : Prop :=
  o.created < r.moment ∧ Keeps r.except r.scope sid aud

structure Config.Inv (c : Config) : Prop extends c.db.Coherent c.nextId where
  past : ∀ r ∈ c.revocations, r.moment < c.moment
  dated : ∀ sid o, c.origins sid = some o → o.created < c.moment
  session : ∀ sid s o, c.db.sess sid = some s → c.origins sid = some o →
    s.epoch = c.db.uepoch s.uid →
      ∀ r ∈ c.revocations, r.uid = s.uid → o.proved < r.moment → r.Spares sid s.aud o
  links : ∀ hash uid epoch, c.db.ml hash = some (uid, epoch) →
    Stamped c.db.uepoch c.revocations uid epoch (c.links hash)
  flows : ∀ f ∈ c.flows, f.Sound c.db.uepoch c.revocations

theorem Config.inv_empty : Config.empty.Inv := by
  refine ⟨coherent_empty, ?_, ?_, ?_, ?_, ?_⟩ <;> simp [Config.empty, Store.empty]

variable {f : Flow}

namespace Config.Inv

variable {env : Env} {c c' : Config}

theorem plain (h : c.Inv) (ht : Tame c.db c'.db) (hid : c'.nextId = c.nextId)
    (hm : c'.moment = c.moment + 1) (ho : c'.origins = c.origins) (hl : c'.links = c.links)
    (hr : c'.revocations = c.revocations)
    (hf : ∀ f ∈ c'.flows, f ∈ c.flows ∨ f.Sound c.db.uepoch c.revocations) : c'.Inv := by
  refine .mk (hid ▸ h.toCoherent.tame ht) (fun r hr' => ?_) (fun sid o hs => ?_)
    (fun sid s' o hs hor hep r hmem hu hp => ?_) (fun hash uid epoch hml => ?_) fun f hmem => ?_
  · exact hm ▸ lt_succ_of_lt (h.past r (hr ▸ hr'))
  · exact hm ▸ lt_succ_of_lt (h.dated sid o (ho ▸ hs))
  · obtain ⟨s, hs, huid, haud, hep'⟩ := ht.sess sid s' hs
    rw [haud]
    rw [hep', huid, ht.uepoch] at hep
    exact h.session sid s o hs (ho ▸ hor) hep r (hr ▸ hmem) (hu.trans huid) hp
  · rw [ht.uepoch, hr, hl]
    exact h.links hash uid epoch (ht.ml hash _ hml)
  · rw [ht.uepoch, hr]
    exact (hf f hmem).elim (h.flows f) id

variable {p : ℕ} {st : Store}

section

variable (h : c.Inv)
include h

theorem go (hf : f.Sound c.db.uepoch c.revocations) :
    Inv { c.go p f with moment := c.moment + 1 } :=
  h.plain (refl _).tame rfl rfl rfl rfl rfl fun g hg =>
    (mem_or_eq_of_mem_set hg).imp_right fun hgf : g = f => hgf ▸ hf

theorem begin (ht : Tame c.db st) (hf : f.Sound c.db.uepoch c.revocations) :
    Inv { c.begin f with db := st, moment := c.moment + 1 } :=
  h.plain ht rfl rfl rfl rfl rfl fun g hg => by
    rcases mem_append.1 hg with hg | hg
    · exact .inl hg
    · exact .inr (mem_singleton.1 hg ▸ hf)

theorem script (ht : Tame c.db st) : Inv { c with db := st, moment := c.moment + 1 } :=
  h.plain ht rfl rfl rfl rfl rfl fun _ => .inl

theorem until_now (uid : UUID) : ∀ r ∈ c.revocations, r.uid = uid → r.moment ≤ c.moment :=
  fun r hr _ => (h.past r hr).le

theorem createSession {uid : UUID} {aud : Audience} {amr : AMR} {epoch : ℕ} {now : ℤ} {proved : ℕ}
    {seed : Secret} (hs : Stamped c.db.uepoch c.revocations uid epoch proved) :
    Inv { c.createSession env p uid aud amr epoch now proved seed with
      moment := c.moment + 1 } := by
  let new := env.newSession c.nextId uid aud amr epoch now seed
  have hepochs : (c.db.create c.nextId new).2.uepoch = c.db.uepoch := create_uepoch
  -- What is known of where the sessions come from: of the new one, and of the earlier ones.
  have horigin : ∀ x o, (if (c.db.create c.nextId new).1 then
      update c.origins c.nextId (some ⟨proved, c.moment⟩) else c.origins) x = some o →
      (x = c.nextId ∧ (c.db.create c.nextId new).1 = true ∧ o = ⟨proved, c.moment⟩) ∨
        c.origins x = some o := by
    intro x o ho
    split_ifs at ho with hok
    · exact (of_update_some rfl ho).imp (fun h => ⟨h.1, hok, h.2⟩) And.right
    · exact .inr ho
  refine .mk (h.toCoherent.create new) (fun r hr => lt_succ_of_lt (h.past r hr))
    (fun x o ho => ?_) (fun x s' o hs' ho hep r hr hu hp => ?_) (fun hash u e hml => ?_)
      fun f hf => ?_
  · rcases horigin x o ho with ⟨-, -, rfl⟩ | ho
    · exact lt_succ_self _
    · exact lt_succ_of_lt (h.dated x o ho)
  · rcases create_cases hs' with ⟨rfl, he, huid, -, hok⟩ | ⟨hold, hnot⟩
    · obtain rfl : (⟨proved, c.moment⟩ : Origin) = o := by
        have hnew : (if (c.db.create c.nextId new).1 then
          update c.origins c.nextId (some ⟨proved, c.moment⟩) else c.origins) c.nextId =
            some o := ho
        rw [if_pos hok, update_self] at hnew
        exact some.inj hnew
      exact absurd hp (hs.2 he.symm r hr (hu.trans huid)).not_gt
    · rcases horigin x o ho with ⟨hx, hok, -⟩ | ho
      · exact absurd (hok.symm.trans (hnot hx)) (by decide)
      · exact h.session x s' o hold ho (hep.trans (congrFun hepochs _)) r hr hu hp
  · exact hepochs.symm ▸ h.links hash u e (create_ml ▸ hml)
  · refine hepochs.symm ▸ ?_
    rcases mem_or_eq_of_mem_set hf with hf | rfl
    · exact h.flows f hf
    · trivial

theorem issueMailLink {uid : UUID} {epoch : ℕ} (he : epoch ≤ c.db.uepoch uid) (hash : Hash) :
    Inv { c.go p .ended with
      db := c.db.issueMailLink uid hash epoch
      links := update c.links hash c.moment
      moment := c.moment + 1 } := by
  have hgo : Inv { c.go p .ended with moment := c.moment + 1 } := h.go trivial
  refine { hgo with links := fun x u e hx => ?_ }
  by_cases hxh : x = hash
  · subst hxh
    obtain ⟨rfl, rfl⟩ : uid = u ∧ epoch = e := by simpa [Store.issueMailLink] using hx
    show Stamped c.db.uepoch c.revocations uid epoch (update c.links x c.moment x)
    rw [update_self]
    exact ⟨he, fun _ => h.until_now uid⟩
  · have hold : c.db.ml x = some (u, e) := by
      cases hm : c.db.mlu uid with
      | none => simpa [Store.issueMailLink, hm, hxh] using hx
      | some => exact of_update_none (by simpa [Store.issueMailLink, hm, hxh] using hx)
    show Stamped c.db.uepoch c.revocations u e (update c.links hash c.moment x)
    rw [update_of_ne hxh]
    exact h.links x u e hold

theorem turn (p : ℕ) (i : Input) : Inv { c.turn env p i with moment := c.moment + 1 } := by
  unfold Config.turn
  cases hp : c.flows[p]? with
  | none => exact h.script (refl _).tame
  | some f =>
    have hf : f.Sound c.db.uepoch c.revocations := h.flows f (mem_of_getElem? hp)
    cases f with
    | login | mailLink => exact h.go le_rfl
    | loginEpoch aud uid0 =>
      dsimp only
      split_ifs with hu
      · exact h.go (h.until_now i.user)
      · obtain rfl : i.user = uid0 := not_not.1 hu
        exact h.go ⟨hf, fun _ => h.until_now i.user⟩
    | loginOther | quickLogin => exact h.go ⟨le_rfl, fun _ => hf⟩
    | mailLinkEpoch => exact h.issueMailLink hf _
    | mailLogin =>
      dsimp only
      split_ifs with hu
      · exact h.go trivial
      · exact h.go hf
    | ready => exact h.createSession hf
    | refresh call =>
      refine h.plain (call.tame_step env i.stillAdmin i.now c.db) rfl rfl rfl rfl rfl fun g hg => ?_
      rcases mem_or_eq_of_mem_set hg with hg | rfl
      · exact .inl hg
      · exact .inr trivial
    | ended => exact h.script (refl _).tame

end

end Config.Inv

/-! ## A revocation -/

/-- The user of whom the request has accepted a credential without having read the epoch. -/
def Flow.late : Flow → Option UUID
  | .loginOther _ uid _ _ => some uid
  | .quickLogin uid _ _ => some uid
  | _ => none

/-- The user whose sessions a step revokes. -/
def Label.revokes : Label → Option UUID
  | .revokeUser uid _ _ => some uid
  | _ => none

/-- A step that is no revocation, or a revocation that no request of the user is late for. -/
def Config.Clear (c : Config) (l : Label) : Prop :=
  l.revokes = none ∨ ∀ f ∈ c.flows, f.late ≠ l.revokes

instance (c : Config) (l : Label) : Decidable (c.Clear l) := inferInstanceAs (Decidable (_ ∨ _))

variable {epochs : UUID → ℕ} {rs : List Revocation}

theorem Stamped.revokeUser {uid : UUID} {epoch t : ℕ}
    (h : Stamped epochs rs uid epoch t) (r : Revocation) :
    Stamped (update epochs r.uid (epochs r.uid + 1)) (rs ++ [r]) uid epoch t := by
  by_cases hu : uid = r.uid
  · subst hu
    have hlt : epoch < epochs r.uid + 1 := lt_succ_of_le h.1
    rw [Stamped, update_self]
    exact ⟨hlt.le, fun heq => absurd heq hlt.ne⟩
  · rw [Stamped, update_of_ne hu]
    refine ⟨h.1, fun heq x hx hxu => ?_⟩
    rcases mem_append.1 hx with hx | hx
    · exact h.2 heq x hx hxu
    · exact absurd (mem_singleton.1 hx ▸ hxu.symm) hu

theorem Flow.Sound.revokeUser
    (h : f.Sound epochs rs) {r : Revocation} (hlate : f.late ≠ some r.uid) :
    f.Sound (update epochs r.uid (epochs r.uid + 1)) (rs ++ [r]) := by
  have hle : ∀ u, epochs u ≤ update epochs r.uid (epochs r.uid + 1) u := by
    intro u
    by_cases hu : u = r.uid
    · subst hu
      simp
    · simp [hu]
  -- Only a late request of the user would see the new revocation.
  have hrs : ∀ u t, u ≠ r.uid → (∀ x ∈ rs, x.uid = u → x.moment ≤ t) →
      ∀ x ∈ rs ++ [r], x.uid = u → x.moment ≤ t := by
    intro u t hu hold x hx hxu
    rcases mem_append.1 hx with hx | hx
    · exact hold x hx hxu
    · exact absurd (mem_singleton.1 hx ▸ hxu.symm) hu
  cases f with
  | loginEpoch aud uid0 => exact h.trans (hle uid0)
  | loginOther aud uid now proved | quickLogin uid now proved =>
    exact hrs uid proved (fun hu => hlate (congrArg some hu)) h
  | mailLinkEpoch uid => exact h.trans (hle uid)
  | mailLogin | ready => exact Stamped.revokeUser h r
  | login | mailLink | refresh | ended => trivial

namespace Config.Inv

variable {env : Env} {c : Config}

theorem revokeUser (h : c.Inv) (uid : UUID) (except : Option UUID) (scope : Scope)
    (hclear : ∀ f ∈ c.flows, f.late ≠ some uid) :
    Inv { c with
      db := (c.db.revokeUser uid except scope).2
      revocations := c.revocations ++ [⟨uid, except, scope, c.moment⟩]
      moment := c.moment + 1 } := by
  have hep := revokeUser_uepoch c.db uid except scope
  refine .mk (h.toCoherent.revokeUser uid except scope) (fun r hr => ?_)
    (fun x o ho => lt_succ_of_lt (h.dated x o ho)) (fun x s' o hx ho hcur r hr hu hp => ?_)
    (fun hash u e hml => ?_) fun f hf => ?_
  · rcases mem_append.1 hr with hr | hr
    · exact lt_succ_of_lt (h.past r hr)
    · rw [mem_singleton.1 hr]
      exact lt_succ_self _
  · -- A session that is still current is kept by the new revocation, and was current before.
    obtain ⟨s, hs, huid, haud, hse, hkeep⟩ := h.toCoherent.current_of_revokeUser hx hcur
    rw [← haud]
    rcases mem_append.1 hr with hr | hr
    · exact h.session x s o hs ho hse r hr (hu.trans huid.symm) hp
    · obtain rfl := mem_singleton.1 hr
      exact ⟨h.dated x o ho, hkeep hu.symm⟩
  · rw [revokeUser_ml] at hml
    rw [hep]
    exact (h.links hash u e hml).revokeUser ⟨uid, except, scope, c.moment⟩
  · rw [hep]
    exact (h.flows f hf).revokeUser (r := ⟨uid, except, scope, c.moment⟩) (hclear f hf)

theorem next (h : c.Inv) (l : Label) (hl : c.Clear l) : (c.next env l).Inv := by
  cases l with
  | login | mailLink | refresh => exact h.begin (refl _).tame trivial
  | quickLogin hash now =>
    refine h.begin (quiet_consumeQuickLogin hash .portal (unix now)).tame ?_
    cases (c.db.consumeQuickLogin hash .portal (unix now)).1 with
    | none => trivial
    | some x => exact h.until_now x.2
  | mailLogin hash =>
    refine h.begin (quiet_consumeMailLink hash).tame ?_
    cases hx : c.db.ml hash with
    | none =>
      simp only [Store.consumeMailLink, hx]
      trivial
    | some x =>
      obtain ⟨uid, epoch⟩ := x
      simp only [Store.consumeMailLink, hx]
      exact h.links hash uid epoch hx
  | turn p i => exact h.turn p i
  | fail => exact h.go trivial
  | issueQuickLogin sid uid hash => exact h.script (quiet_issueQuickLogin hash).tame
  | check sid uid aud => exact h.script quiet_check.tame
  | revokeOne sid uid aud => exact h.script (quiet_revokeOne sid uid aud).tame
  | revokeUser uid except scope =>
    exact h.revokeUser uid except scope (hl.resolve_left (some_ne_none uid))
  | stampReauth sid uid aud => exact h.script quiet_stampReauth.tame
  | expire key => exact h.script quiet_expire.tame

end Config.Inv

/-- In every run in which no revocation falls between the acceptance of a credential and a
later read of the epoch: whatever session was created from a credential that had been accepted
before a revocation of its user is refused by the session check ever after, unless the session
existed at the revocation and the revocation was told to keep it. -/
theorem revocation_ends_earlier_signins (env : Env) (labels : List Label)
    (hclear : Runs.Along (Config.next env) Config.Clear .empty labels) :
    ∀ r ∈ (Config.run env labels).revocations, ∀ sid o,
      (Config.run env labels).origins sid = some o → o.proved < r.moment →
        ∀ aud now s, ((Config.run env labels).db.check sid r.uid aud now
            (seconds env.adminIdleTimeout)).1 = some s →
          o.created < r.moment ∧ Keeps r.except r.scope sid s.aud := by
  have hinv : (Config.run env labels).Inv :=
    hclear.invariant (fun _ l hc hl => hc.next l hl) Config.inv_empty
  intro r hr sid o ho hp aud now s hcheck
  obtain ⟨hs, hu, hep⟩ := of_check hcheck
  exact hinv.session sid s o hs ho hep r hr hu.symm hp

/-- What the steps of the following runs hear: user 7 knows the password. -/
def Input.sample : Input := ⟨1000 * second, 7, true, 4⟩

/-- User 7 signs in, and all sessions but this one are revoked. -/
def keptSession : List Label :=
  [.login .portal 7 (1000 * second), .turn 0 .sample, .turn 0 .sample, .turn 0 .sample,
    .revokeUser 7 (some 0) .all]

theorem kept_session_existed : ∃ s, ((Config.run .sample keptSession).db.check 0 7 none 1001
    (seconds Env.sample.adminIdleTimeout)).1 = some s ∧ (3 < 4 ∧ Keeps (some 0) .all 0 s.aud) := by
  have hsome : ((Config.run .sample keptSession).db.check 0 7 none 1001
      (seconds Env.sample.adminIdleTimeout)).1.isSome = true := by decide +kernel
  obtain ⟨s, hs⟩ := isSome_iff_exists.1 hsome
  exact ⟨s, hs, revocation_ends_earlier_signins .sample keptSession (by decide +kernel)
    ⟨7, some 0, .all, 4⟩ (by decide +kernel) 0 ⟨2, 3⟩ (by decide +kernel)
    (by decide) none 1001 s hs⟩

/-- User 7 signs in and issues a quick-login token.  It is consumed, all sessions of the user
are revoked, and only then the quick login reads the epoch. -/
def quickLoginRace : List Label :=
  [.login .portal 7 (1000 * second), .turn 0 .sample, .turn 0 .sample, .turn 0 .sample,
    .issueQuickLogin 0 7 5, .quickLogin 5 (1000 * second), .revokeUser 7 none .all,
    .turn 1 .sample, .turn 1 .sample]

/-- The address belonged to no account when the login began; the password is that of user 7,
whose sessions are revoked before the login reads the epoch. -/
def otherAccountRace : List Label :=
  [.login .portal .nil (1000 * second), .turn 0 .sample, .turn 0 .sample,
    .revokeUser 7 none .all, .turn 0 .sample, .turn 0 .sample]

/-- In both runs a session stands whose credential was accepted before a revocation of all
sessions of the user, and the check accepts it. -/
theorem quick_login_outlives_revocation :
    ((Config.run .sample quickLoginRace).revocations = [⟨7, none, .all, 6⟩] ∧
      (Config.run .sample quickLoginRace).origins 1 = some ⟨5, 8⟩ ∧
      ((Config.run .sample quickLoginRace).db.check 1 7 none 1001
        (seconds Env.sample.adminIdleTimeout)).1.isSome = true) ∧
    ((Config.run .sample otherAccountRace).revocations = [⟨7, none, .all, 3⟩] ∧
      (Config.run .sample otherAccountRace).origins 0 = some ⟨2, 5⟩ ∧
      ((Config.run .sample otherAccountRace).db.check 0 7 none 1001
        (seconds Env.sample.adminIdleTimeout)).1.isSome = true) := by
  decide +kernel

end Pandora.Sessions
