import Pandora.Identity.RegistrationRows

/-!
# What is true of every account that was registered

A transaction that completes a registration holds the session, the invite code and the code from the
moment it has checked them (`State.Fine`), so that the marks it sets when it commits are set on rows
that had none.  `Sound` says what follows from that for sessions, codes, invite codes and referrals,
whatever calls overlap.

A code is checked against the time at which the transaction began.  The transaction may have waited
since then, so that an account can be created with a code that has run out by the clock
(`accepted_late`).
-/

namespace Pandora.Identity.Registration

open List Nat VerificationCode Locks Option

/-- The address of an account was proved by a code that was mailed to it and that had not run out
when the transaction began. -/
def Proved (mails : List Mail) (a : Created) : Prop :=
  ∃ c, a.code = some c ∧ c.purpose = .emailVerify ∧ c.target = a.email ∧ a.presented = some c.code ∧
    ⟨a.email, c.code, c.id⟩ ∈ mails ∧ a.began < c.expiresAt

namespace State

variable (cfg : Settings) (s : State)

/-! ## What transactions hold -/

/-- The session is held, and is pending. -/
def HoldsSession (p : ℕ) (x : RegistrationSession) : Prop :=
  s.held (.session x.id) = some p ∧ x ∈ s.sessions ∧ x.status = .pending ∧
    (cfg.mode = .inviteOnly → x.inviteCodeId ≠ none)

/-- The invite code of the session is held, and can be used. -/
def HoldsInvite (p : ℕ) (now : ℤ) (x : RegistrationSession) (v : Option InviteCode) : Prop :=
  v.map (·.id) = x.inviteCodeId ∧
    ∀ w ∈ v, s.held (.invite w.id) = some p ∧ w ∈ s.invites ∧ w.Usable now

/-- A code for the address is held, and can be used. -/
def HoldsCode (p : ℕ) (now : ℤ) (email : Address) (c : VerificationCode) : Prop :=
  s.held (.code c.id) = some p ∧ c ∈ s.codes ∧ c.Usable .emailVerify email now ∧
    c.attempts < c.maxAttempts

/-- The code that was presented, if there has to be one. -/
def HoldsProof (p : ℕ) (a : Attempt) (x : RegistrationSession) (c : Option VerificationCode) :
    Prop :=
  (cfg.emailVerification = true → c ≠ none) ∧
    ∀ d ∈ c, s.HoldsCode p a.now x.email d ∧ a.code = some d.code

/-- What is known of the call at a position. -/
def Fine (p : ℕ) : Flow → Prop
  | .expiring _ _ _ _ done => ∀ id ∈ done, s.held (.code id) = some p
  | .sessionLocked _ x => s.HoldsSession cfg p x
  | .inviteLocked a x v => s.HoldsSession cfg p x ∧ s.HoldsInvite p a.now x v
  | .locking a x v digits _ => s.HoldsSession cfg p x ∧ s.HoldsInvite p a.now x v ∧
      a.code = some digits
  | .wrong a x digits c => s.HoldsSession cfg p x ∧ s.HoldsCode p a.now x.email c ∧ digits ≠ c.code
  | .voiding a x digits c _ done => s.HoldsSession cfg p x ∧ s.HoldsCode p a.now x.email c ∧
      digits ≠ c.code ∧ ∀ id ∈ done, s.held (.code id) = some p
  | .proved a x v c => s.HoldsSession cfg p x ∧ s.HoldsInvite p a.now x v ∧ s.HoldsProof cfg p a x c
  | .inserted a x v c _ => s.HoldsSession cfg p x ∧ s.HoldsInvite p a.now x v ∧
      s.HoldsProof cfg p a x c
  | _ => True

/-- What a call has to rely on when another one takes a step. -/
structure Passes (s s' : State) (q : ℕ) : Prop where
  held : ∀ k, s.held k = some q → s'.held k = some q
  sessions : s.held.Spares (fun x : RegistrationSession => .session x.id) q s.sessions s'.sessions
  invites : s.held.Spares (fun v : InviteCode => .invite v.id) q s.invites s'.invites
  codes : s.held.Spares (fun c : VerificationCode => .code c.id) q s.codes s'.codes

variable {cfg s} {s' : State} {p q : ℕ}

variable {x : RegistrationSession} {v : Option InviteCode} {now : ℤ} {a : Attempt}
  {c : Option VerificationCode} {f : Flow} {done : List ℕ} {email : Address}

theorem HoldsSession.pass (h : s.HoldsSession cfg q x)
    (hpass : Passes s s' q) : s'.HoldsSession cfg q x :=
  ⟨hpass.held _ h.1, hpass.sessions x h.2.1 h.1, h.2.2⟩

theorem HoldsInvite.pass
    (h : s.HoldsInvite q now x v) (hpass : Passes s s' q) : s'.HoldsInvite q now x v := by
  refine ⟨h.1, fun w hw => ?_⟩
  obtain ⟨hheld, hmem, husable⟩ := h.2 w hw
  exact ⟨hpass.held _ hheld, hpass.invites w hmem hheld, husable⟩

theorem HoldsCode.pass {c : VerificationCode}
    (h : s.HoldsCode q now email c) (hpass : Passes s s' q) : s'.HoldsCode q now email c :=
  ⟨hpass.held _ h.1, hpass.codes c h.2.1 h.1, h.2.2⟩

theorem HoldsProof.pass
    (h : s.HoldsProof cfg q a x c) (hpass : Passes s s' q) : s'.HoldsProof cfg q a x c :=
  ⟨h.1, fun d hd => ⟨(h.2 d hd).1.pass hpass, (h.2 d hd).2⟩⟩

theorem Fine.pass (h : s.Fine cfg q f) (hpass : Passes s s' q) : s'.Fine cfg q f := by
  cases f with
  | expiring => exact fun id hid => hpass.held _ (h id hid)
  | sessionLocked => exact HoldsSession.pass h hpass
  | inviteLocked => exact ⟨h.1.pass hpass, h.2.pass hpass⟩
  | locking | wrong => exact ⟨h.1.pass hpass, h.2.1.pass hpass, h.2.2⟩
  | voiding =>
    exact ⟨h.1.pass hpass, h.2.1.pass hpass, h.2.2.1, fun id hid => hpass.held _ (h.2.2.2 id hid)⟩
  | proved | inserted => exact ⟨h.1.pass hpass, h.2.1.pass hpass, h.2.2.pass hpass⟩
  | _ => trivial

/-! ## The invariant -/

variable (cfg s) (base : List Account)

/-- The tables, and the record of the accounts; `base` are those that were there before. -/
structure Tables : Prop where
  sessions : SessionRows s.sessions s.created s.nextId
  codes : CodeRows s.codes s.created s.compared s.mails s.nextId
  invites : InviteRows cfg s.invites s.created s.referrals s.nextId
  proved : cfg.emailVerification = true → ∀ a ∈ s.created, Proved s.mails a
  invited : cfg.mode = .inviteOnly → ∀ a ∈ s.created, a.invite ≠ none
  accounts : s.users.map (fun u => (u.id, u.email)) =
    s.created.map (fun a => (a.user, a.email)) ++ base.map fun u => (u.id, u.email)

structure Inv : Prop where
  flows : ∀ p f, s.flows[p]? = some f → s.Fine cfg p f
  tables : s.Tables cfg base

variable {cfg s base} {digits id : ℕ} {k : Lock}

theorem Tables.go (h : s.Tables cfg base) (p : ℕ) (f : Flow) : (s.go p f).Tables cfg base :=
  { h with }

theorem Tables.lock (h : s.Tables cfg base) (p : ℕ) (k : Lock) (f : Flow) :
    (s.lock p k f).Tables cfg base :=
  { h with }

theorem Tables.stop (h : s.Tables cfg base) (p : ℕ) : (s.stop p).Tables cfg base :=
  { h with }

theorem Inv.of_step (h : s.Inv cfg base) (hset : s'.flows = s.flows.set p f)
    (hpass : ∀ q, q ≠ p → Passes s s' q) (hf : s'.Fine cfg p f) (htables : s'.Tables cfg base) :
    s'.Inv cfg base := by
  refine ⟨?_, htables⟩
  rw [hset]
  exact Runs.forall_set h.flows (fun q _ hq hg => hg.pass (hpass q hq)) hf

theorem Inv.go (h : s.Inv cfg base) (hf : s.Fine cfg p f) : (s.go p f).Inv cfg base := by
  have hpass : ∀ q, Passes s (s.go p f) q := fun q => ⟨fun _ hk => hk, .refl, .refl, .refl⟩
  exact h.of_step rfl (fun q _ => hpass q) (hf.pass (hpass p)) (h.tables.go p f)

theorem passes_lock (hfree : s.held.Free p k) (f : Flow) (q : ℕ) : Passes s (s.lock p k f) q :=
  ⟨fun _ hk => take_of_held hfree hk, .refl, .refl, .refl⟩

theorem Inv.lock (h : s.Inv cfg base) (hfree : s.held.Free p k)
    (hf : (s.lock p k f).Fine cfg p f) : (s.lock p k f).Inv cfg base :=
  h.of_step rfl (fun q _ => passes_lock hfree f q) hf (h.tables.lock p k f)

theorem Inv.stop (h : s.Inv cfg base) (p : ℕ) : (s.stop p).Inv cfg base :=
  h.of_step rfl (fun _ hq => ⟨fun _ hk => release_of_ne hq hk, .refl, .refl, .refl⟩) trivial
    (h.tables.stop p)

theorem Inv.commit (h : s.Inv cfg base) (hflows : s'.flows = s.flows.set p .ended)
    (hheld : s'.held = s.held.release p)
    (hpass : ∀ q, q ≠ p → (∀ k, s.held k = some q → s'.held k = some q) → Passes s s' q)
    (htables : s'.Tables cfg base) : s'.Inv cfg base := by
  refine h.of_step hflows (fun q hq => hpass q hq fun k hk => ?_) trivial htables
  rw [hheld]
  exact release_of_ne hq hk

/-! ## `StartRegistration` -/

theorem Inv.resolveInviteAtStart (h : s.Inv cfg base) (p : ℕ) (o : Start) :
    (s.resolveInviteAtStart cfg p o).Inv cfg base := by
  unfold State.resolveInviteAtStart
  by_cases hclosed : cfg.mode = .closed
  · rw [if_pos hclosed]
    exact h.stop p
  · rw [if_neg hclosed]
    cases o.inviteCode with
    | none =>
      split_ifs
      · exact h.stop p
      · exact h.go trivial
    | some text =>
      dsimp only
      cases s.findUsableInvite text s.clock with
      | none => exact h.stop p
      | some => exact h.go trivial

theorem Inv.expireNext (h : s.Inv cfg base) {skip hit : Flow} (hskip : s.Fine cfg p skip)
    (hhit : s.held.Free p (.code id) → (s.lock p (.code id) hit).Fine cfg p hit) :
    (s.expireNext p email now id skip hit).Inv cfg base := by
  unfold State.expireNext
  cases s.codes.find? (·.id = id) with
  | none => exact h.go hskip
  | some =>
    dsimp only
    split_ifs with hfree husable
    · exact h.lock hfree (hhit hfree)
    · exact h.go hskip
    · exact h

theorem held_of_lock (hfree : s.held.Free p (.code id))
    (hdone : ∀ i ∈ done, s.held (.code i) = some p) :
    ∀ i ∈ id :: done, (s.lock p (.code id) f).held (.code i) = some p := by
  exact forall_mem_cons.mpr ⟨take_self, fun i hi => take_of_held hfree (hdone i hi)⟩

theorem Inv.openSession (h : s.Inv cfg base) (p : ℕ) (o : Start) (invite : Option UUID) :
    (s.openSession p o invite).Inv cfg base := by
  unfold State.openSession
  split_ifs
  · exact h.stop p
  · refine h.commit rfl rfl (fun q _ hk => ⟨hk, .cons _, .refl, .refl⟩) ?_
    have ht := h.tables
    exact { ht with
      sessions := ht.sessions.insert rfl (lt_succ_self _), codes := ht.codes.mono (le_succ _)
      invites := ht.invites.mono (le_succ _) }

/-- `ExpireCodes` changes only what the transaction holds. -/
theorem spares_expire {codes : List VerificationCode}
    (hdone : ∀ i ∈ done, s.held (.code i) = some p)
    (hq : q ≠ p) : s.held.Spares (fun c : VerificationCode => .code c.id) q codes
      (expire done now codes) := by
  refine .map (fun c _ => ?_) hq
  by_cases hc : c.id ∈ done
  · exact .inr (hdone c.id hc)
  · exact .inl (if_neg hc)

theorem Inv.openAndMail (h : s.Inv cfg base) {o : Start} {invite : Option UUID}
    (hdone : ∀ i ∈ done, s.held (.code i) = some p) :
    (s.openAndMail p o now invite done).Inv cfg base := by
  unfold State.openAndMail
  split_ifs
  · exact h.stop p
  · refine h.commit rfl rfl
      (fun q hq hk => ⟨hk, .cons _, .refl, (spares_expire hdone hq).trans (.cons _)⟩) ?_
    have ht := h.tables
    refine ⟨ht.sessions.insert rfl (Nat.lt_add_of_pos_right Nat.two_pos),
      (ht.codes.expire done now).insert (le_succ _) (lt_succ_self _) rfl,
      ht.invites.mono (le_add_right _ 2), fun hcfg a ha => ?_, ht.invited,
      ht.accounts⟩
    obtain ⟨c, hc, hpurpose, htarget, hpresented, hmail, hexp⟩ := ht.proved hcfg a ha
    exact ⟨c, hc, hpurpose, htarget, hpresented, mem_cons_of_mem _ hmail, hexp⟩

/-! ## `CompleteRegistration` -/

theorem Inv.precheck (h : s.Inv cfg base) (p token : ℕ) (code : Option ℕ) :
    (s.precheck p token code).Inv cfg base := by
  unfold State.precheck
  cases s.registrationByToken token s.clock with
  | none => exact h.stop p
  | some =>
    dsimp only
    split_ifs
    · exact h.go trivial
    · exact h.stop p

theorem Inv.lockRegistration (h : s.Inv cfg base) (p : ℕ) (a : Attempt) :
    (s.lockRegistration cfg p a).Inv cfg base := by
  unfold State.lockRegistration
  cases hfind : s.registrationByToken a.token a.now with
  | none => exact h.stop p
  | some x =>
    dsimp only
    split_ifs with hfree hopen honly
    · exact h.stop p
    · exact h.lock hfree ⟨take_self, mem_of_find?_eq_some hfind, hopen.1,
        fun hmode hnone => honly ⟨hmode, hnone⟩⟩
    · exact h.stop p
    · exact h

theorem Inv.lockUsableInvite (h : s.Inv cfg base)
    (hx : s.HoldsSession cfg p x) : (s.lockUsableInvite p a x).Inv cfg base := by
  unfold State.lockUsableInvite
  cases hid : x.inviteCodeId with
  | none => exact h.go ⟨hx, hid.symm, fun w hw => absurd hw (not_mem_none w)⟩
  | some id =>
    dsimp only
    cases hfind : s.invites.find? (·.id = id) with
    | none => exact h.stop p
    | some v =>
      dsimp only
      have hmem := mem_of_find?_eq_some hfind
      have hvid : v.id = id := by simpa using find?_some hfind
      split_ifs with husable hfree
      · refine h.lock hfree ⟨hx.pass (passes_lock hfree _ p), ?_, fun w hw => ?_⟩
        · rw [hid, ← hvid]
          rfl
        · obtain rfl := some.inj hw
          exact ⟨take_self, hmem, husable⟩
      · exact h
      · exact h.stop p

theorem Tables.incRegReject (h : s.Tables cfg base) (p : ℕ) (x : RegistrationSession) :
    (s.incRegReject p x).Tables cfg base := by
  refine { h with sessions := h.sessions.map (fun y => ?_) (fun y hy => ?_) }
  · split_ifs <;> rfl
  · split_ifs <;> exact hy

section

variable (h : s.Inv cfg base)
include h

section

variable (hx : s.HoldsSession cfg p x)
include hx

theorem Inv.incRegReject : (s.incRegReject p x).Inv cfg base :=
  h.commit rfl rfl
    (fun _ hq hk => ⟨hk, .map_row hx.1 (fun _ hy => if_neg hy) hq, .refl, .refl⟩)
    (h.tables.incRegReject p x)

theorem Inv.lookUpCode (hv : s.HoldsInvite p a.now x v) :
    (s.lookUpCode cfg p a x v).Inv cfg base := by
  unfold State.lookUpCode
  split_ifs with hcfg
  · refine h.go ⟨hx, hv, fun htrue => ?_, fun d hd => absurd hd (not_mem_none d)⟩
    exact absurd (hcfg.symm.trans htrue) Bool.false_ne_true
  · cases hcode : a.code with
    | none => exact h.incRegReject hx
    | some => exact h.go ⟨hx, hv, hcode⟩

theorem Inv.lockCode (hv : s.HoldsInvite p a.now x v)
    (hcode : a.code = some digits) (id : ℕ) (todo : List ℕ) :
    (s.lockCode p a x v digits id todo).Inv cfg base := by
  unfold State.lockCode
  cases hfind : s.codes.find? (·.id = id) with
  | none => exact h.go ⟨hx, hv, hcode⟩
  | some c =>
    dsimp only
    by_cases hfree : s.held.Free p (.code c.id)
    swap
    · rw [if_pos hfree]
      exact h
    rw [if_neg (not_not.mpr hfree)]
    by_cases husable : c.Usable .emailVerify x.email a.now
    swap
    · rw [if_pos husable]
      exact h.go ⟨hx, hv, hcode⟩
    rw [if_neg (not_not.mpr husable)]
    split_ifs with hmax hright
    · exact h.incRegReject hx
    -- the row is held from here on, and what was presented is right or wrong
    all_goals
      have hpass : ∀ f, Passes s (s.lock p (.code c.id) f) p := fun f => passes_lock hfree f p
      have hc : ∀ f, (s.lock p (.code c.id) f).HoldsCode p a.now x.email c := fun f =>
        ⟨take_self, mem_of_find?_eq_some hfind, husable, Nat.lt_of_not_le hmax⟩
    · refine h.lock hfree ⟨hx.pass (hpass _), hv.pass (hpass _), fun _ => some_ne_none c,
        fun d hd => ?_⟩
      obtain rfl := some.inj hd
      exact ⟨hc _, hright ▸ hcode⟩
    · exact h.lock hfree ⟨hx.pass (hpass _), hc _, Ne.symm hright⟩

theorem Inv.commitWrong {c : VerificationCode}
    (hc : s.HoldsCode p a.now x.email c) (hne : digits ≠ c.code)
    (hdone : ∀ i ∈ done, s.held (.code i) = some p) :
    (s.commitWrong p a x digits c done).Inv cfg base := by
  refine h.commit rfl rfl
    (fun q hq hk => ⟨hk, .map_row hx.1 (fun _ hy => if_neg hy) hq, .refl, ?_⟩) ?_
  · -- first the attempt is counted, then the other codes are expired
    intro d hd hheld
    have hinc : s.held.Spares (fun c : VerificationCode => .code c.id) q s.codes
        (incAttempts c.id s.codes) := .map_row hc.1 (fun e he => if_neg he) hq
    exact spares_expire hdone hq d (hinc d hd hheld) hheld
  · have ht := h.tables.incRegReject p x
    exact { ht with codes := (h.tables.codes.incAttempts hc.2.1 hc.2.2.2 hne).expire done a.now }

theorem Inv.insertUser (hv : s.HoldsInvite p a.now x v)
    (hc : s.HoldsProof cfg p a x c) : (s.insertUser cfg p a x v c).Inv cfg base := by
  have hlock : s.held.Free p (.address x.email) → ∀ t,
      (s.lock p (.address x.email) (.inserted a x v c t)).Inv cfg base := by
    intro hfree t
    have hpass := passes_lock hfree (.inserted a x v c t) p
    exact h.lock hfree ⟨hx.pass hpass, hv.pass hpass, hc.pass hpass⟩
  unfold State.insertUser
  split_ifs with hfree
  · exact h.stop p
  · exact hlock hfree _
  · exact hlock hfree _
  · exact h

end

end

theorem Tables.commitAccount (h : s.Tables cfg base) (verifiedAt : Option ℤ)
    (hx : s.HoldsSession cfg p x) (hv : s.HoldsInvite p a.now x v) (hc : s.HoldsProof cfg p a x c) :
    (s.commitAccount cfg p a x v c verifiedAt).Tables cfg base := by
  unfold State.commitAccount
  split_ifs
  · exact h.stop p
  refine ⟨h.sessions.create hx.2.1 hx.2.2.1 rfl (le_succ _), ?_, ?_, fun hcfg b hb => ?_,
    fun hmode b hb => ?_, congrArg ((s.nextId, x.email) :: ·) h.accounts⟩
  · cases c with
    | none => exact h.codes.createWithout rfl (le_succ _)
    | some c =>
      obtain ⟨⟨-, hmem, husable, -⟩, -⟩ := hc.2 c rfl
      exact h.codes.create hmem husable.2.2.1 rfl a.now (le_succ _)
  · cases v with
    | none => exact h.invites.createWithout rfl rfl
    | some v =>
      obtain ⟨-, hmem, husable⟩ := hv.2 v rfl
      exact h.invites.create hmem husable rfl rfl
  · rcases mem_cons.mp hb with rfl | hb
    · obtain ⟨d, rfl⟩ := ne_none_iff_exists'.mp (hc.1 hcfg)
      obtain ⟨⟨-, hmem, ⟨hpurpose, htarget, -, hexp⟩, -⟩, hcode⟩ := hc.2 d rfl
      refine ⟨d, rfl, hpurpose, htarget, hcode, ?_, hexp⟩
      have hmail := h.codes.mailed d hmem
      rw [htarget] at hmail
      exact hmail
    · exact h.proved hcfg b hb
  · rcases mem_cons.mp hb with rfl | hb
    · rw [hv.1]
      exact hx.2.2.2 hmode
    · exact h.invited hmode b hb

theorem Inv.commitAccount (h : s.Inv cfg base) (verifiedAt : Option ℤ)
    (hx : s.HoldsSession cfg p x) (hv : s.HoldsInvite p a.now x v) (hc : s.HoldsProof cfg p a x c) :
    (s.commitAccount cfg p a x v c verifiedAt).Inv cfg base := by
  have htables := h.tables.commitAccount verifiedAt hx hv hc
  unfold State.commitAccount at htables ⊢
  split_ifs at htables ⊢
  · exact h.stop p
  refine h.commit rfl rfl (fun q hq hk =>
    ⟨hk, .map_row hx.1 (fun y hy => if_neg fun hif => hy hif.1) hq, ?_, ?_⟩) htables
  · cases v with
    | none => exact .refl
    | some v => exact .map_row (hv.2 v rfl).1 (fun w hw => if_neg fun hif => hw hif.1) hq
  · cases c with
    | none => exact .refl
    | some c => exact .map_row (hc.2 c rfl).1.1 (fun d hd => if_neg fun hif => hd hif.1) hq

/-! ## Every step -/

section

variable (h : s.Inv cfg base)
include h

theorem Inv.step (hf : s.Fine cfg p f) : (s.step cfg p f).Inv cfg base := by
  cases f with
  | start o => exact h.resolveInviteAtStart p o
  | resolved => exact h.go trivial
  | checked o now invite =>
    dsimp only [State.step]
    split_ifs
    · refine h.go ?_
      intro id hid
      exact absurd hid not_mem_nil
    · exact h.openSession p o invite
  | expiring o now invite todo =>
    cases todo with
    | nil => exact h.openAndMail hf
    | cons => exact h.expireNext hf fun hfree => held_of_lock hfree hf
  | complete token code => exact h.precheck p token code
  | prechecked =>
    dsimp only [State.step]
    split_ifs
    · exact h.stop p
    · exact h.go trivial
  | begun a => exact h.lockRegistration p a
  | sessionLocked => exact h.lockUsableInvite hf
  | inviteLocked => exact h.lookUpCode hf.1 hf.2
  | locking a x v digits todo =>
    cases todo with
    | nil => exact h.incRegReject hf.1
    | cons id todo => exact h.lockCode hf.1 hf.2.1 hf.2.2 id todo
  | wrong =>
    exact h.go ⟨hf.1, hf.2.1, hf.2.2, fun id hid => absurd hid not_mem_nil⟩
  | voiding a x digits c todo =>
    obtain ⟨hx, hc, hne, hdone⟩ := hf
    cases todo with
    | nil => exact h.commitWrong hx hc hne hdone
    | cons =>
      refine h.expireNext ⟨hx, hc, hne, hdone⟩ fun hfree => ?_
      have hpass := fun f => passes_lock (s := s) hfree f p
      exact ⟨hx.pass (hpass _), hc.pass (hpass _), hne, held_of_lock hfree hdone⟩
  | proved => exact h.insertUser hf.1 hf.2.1 hf.2.2
  | inserted a x v c verifiedAt => exact h.commitAccount verifiedAt hf.1 hf.2.1 hf.2.2
  | ended => exact h

theorem Inv.begin (hf : ∀ p, s.Fine cfg p f) : (s.begin f).Inv cfg base := by
  have hpass : ∀ q, Passes s (s.begin f) q := fun q => ⟨fun _ hk => hk, .refl, .refl, .refl⟩
  exact ⟨Runs.forall_append h.flows (fun q _ hg => hg.pass (hpass q))
    fun q => (hf q).pass (hpass q), { h.tables with }⟩

theorem Inv.issue (v : InviteCode) : (s.issue v).Inv cfg base := by
  unfold State.issue
  split_ifs
  · exact h
  · have ht := h.tables
    refine ⟨fun q f hf => (h.flows q f hf).pass ⟨fun _ hk => hk, .refl, .cons _, .refl⟩,
      ht.sessions.mono (le_succ _), ht.codes.mono (le_succ _), ht.invites.insert rfl rfl,
      ht.proved, ht.invited, ht.accounts⟩

theorem Inv.next (l : Label) : (s.next cfg l).Inv cfg base := by
  cases l with
  | tick =>
    exact ⟨fun q f hf => (h.flows q f hf).pass ⟨fun _ hk => hk, .refl, .refl, .refl⟩,
      { h.tables with }⟩
  | issue v => exact h.issue v
  | start | complete => exact h.begin fun _ => trivial
  | turn p =>
    dsimp only [State.next]
    cases hf : s.flows[p]? with
    | none => exact h
    | some f => exact h.step (h.flows p f hf)
  | fail p => exact h.stop p

end

/-- Some accounts, and no registration has begun. -/
def init (clock : ℤ) (users : List Account) (nextId : ℕ) : State :=
  { clock := clock, users := users, nextId := nextId }

theorem inv_init (clock : ℤ) (users : List Account) (nextId : ℕ) :
    (init clock users nextId).Inv cfg users where
  flows p f hf := by simp [init] at hf
  tables := by
    refine ⟨⟨?_, ?_, ?_, ?_, ?_⟩, ⟨?_, ?_, ?_, ?_, ?_, ?_, ?_, ?_⟩,
      ⟨?_, ?_, ?_, ?_, ?_, ?_, ?_, ?_, ?_, ?_, ?_⟩, ?_, ?_, ?_⟩ <;> simp [init]

end State

/-! ## The statement -/

/-- What is true of sessions, codes, invite codes, referrals and accounts; `base` are the accounts
that were not registered here. -/
structure Sound (cfg : Settings) (base : List Account) (s : State) : Prop where
  /-- The record is that of all other accounts. -/
  accounts : s.users.map (fun u => (u.id, u.email)) =
    s.created.map (fun a => (a.user, a.email)) ++ base.map fun u => (u.id, u.email)
  /-- A session creates one account. -/
  sessions : (s.created.map (·.session)).Nodup
  /-- The addresses have been proved. -/
  proved : cfg.emailVerification = true → ∀ a ∈ s.created, Proved s.mails a
  /-- A code creates one account. -/
  codes : (s.created.filterMap Created.codeId).Nodup
  /-- Codes cannot be guessed at more often than this. -/
  attempts : ∀ c ∈ s.codes, misses s.compared c.id c.code ≤ c.maxAttempts
  /-- The uses of an invite code are counted, and limited. -/
  uses : ∀ v ∈ s.invites, v.usedCount = uses s.created v.id ∧ ∀ m ∈ v.maxUses, v.usedCount ≤ m
  /-- A personal code creates one account. -/
  personal : cfg.inviteNeverExpire = false → ∀ v ∈ s.invites, v.ownerUserId ≠ none →
    Registration.uses s.created v.id ≤ 1
  invited : cfg.mode = .inviteOnly → ∀ a ∈ s.created, a.invite ≠ none
  /-- There is a referral if the invite code has an owner. -/
  referrals : ∀ a ∈ s.created, referralsOf s.referrals a.user =
    if ∃ v ∈ s.invites, a.invite = some v.id ∧ v.ownerUserId ≠ none then 1 else 0

theorem State.Tables.referrals_eq {cfg : Settings} {base : List Account} {s : State}
    (h : s.Tables cfg base) {a : Created} (ha : a ∈ s.created) :
    referralsOf s.referrals a.user =
      if ∃ v ∈ s.invites, a.invite = some v.id ∧ v.ownerUserId ≠ none then 1 else 0 := by
  cases hinvite : a.invite with
  | none =>
    rw [h.invites.unreferred a ha hinvite, if_neg]
    rintro ⟨v, -, heq, -⟩
    exact nomatch heq
  | some i =>
    obtain ⟨v, hv, hid⟩ := h.invites.known a ha i hinvite
    rw [h.invites.referred a ha v hv (hid ▸ hinvite)]
    by_cases hown : v.ownerUserId = none
    · rw [if_pos hown, if_neg]
      rintro ⟨w, hw, heq, hwown⟩
      obtain rfl := Database.eq_of_key h.invites.ids hv hw (hid.trans (some.inj heq))
      exact hwown hown
    · rw [if_neg hown, if_pos ⟨v, hv, congrArg some hid.symm, hown⟩]

/-- **Every state of every run is `Sound`**: a session or a code creates one account, its address
has been proved, and the uses of invite codes and the referrals are those of the accounts. -/
theorem registrations_sound (cfg : Settings) (clock : ℤ) (users : List Account) (nextId : ℕ)
    (labels : List Label) :
    Sound cfg users (labels.foldl (State.next cfg) (State.init clock users nextId)) := by
  have hinv : (labels.foldl (State.next cfg) (State.init clock users nextId)).Inv cfg users :=
    Runs.run_invariant (I := fun s : State => s.Inv cfg users) (fun s l h => h.next l) labels
      (State.inv_init clock users nextId)
  have h := hinv.tables
  refine ⟨h.accounts, h.sessions.once, h.proved, h.codes.once, fun c hc => ?_,
    fun v hv => ⟨h.invites.counted v hv, h.invites.bounded v hv⟩, fun hcfg v hv hown => ?_,
    h.invited,
    fun a ha => h.referrals_eq ha⟩
  · rw [(h.codes.counted c hc).1]
    exact (h.codes.counted c hc).2
  · rw [← h.invites.counted v hv]
    exact (h.invites.single hcfg v hv hown).1

/-- Anybody may register, with a verified address. -/
def verifying : Settings := ⟨.opened, true, false⟩

/-- A call with a wrong code has locked the session when one with the right code begins, just before
the code runs out, and commits just after. -/
def slow : List Label :=
  .start 7 none 1 123456 :: replicate 4 (.turn 0) ++ .tick 599999999999 ::
    .complete 1 (some 0) :: replicate 3 (.turn 1) ++
    .complete 1 (some 123456) :: replicate 3 (.turn 2) ++
    .tick 2 :: replicate 5 (.turn 1) ++ replicate 6 (.turn 2)

theorem accepted_late : ∃ a ∈ (slow.foldl (State.next verifying) (State.init 0 [] 1)).created,
      ∃ u ∈ (slow.foldl (State.next verifying) (State.init 0 [] 1)).users, u.id = a.user ∧
        ∃ c ∈ a.code, ∃ t ∈ u.emailVerifiedAt, c.expiresAt < t := by
  decide +kernel

end Pandora.Identity.Registration
