import Pandora.Database.Table
import Pandora.Identity.Invariant

/-!
# Every step keeps the invariant

One lemma for each kind of step: a call goes on without touching a row, a hash is computed anew, a
session or a link is written, and the three steps in which a transaction ends.

There is one condition.  `StartMailLogin` looks up the address and then reads the epoch; when the
address has been changed in between, and both revocations have run, the link is issued with an epoch
that they do not make invalid.
-/

namespace Pandora.Identity

open Records Sessions List Function Option Nat Store Write Coherent

variable {email : Address} {l : Login} {env : Env} {epoch0 epoch seen : ℕ} {k : Lock} {now : ℤ}

namespace State

variable {s s' : State} {p : ℕ} {f f' : Flow}

/-! ## Calls that go on -/

variable {j q : ℕ} {locks : List Lock} {h phc new : PHC} {uid uid0 sid : UUID} {o : Opening}

theorem spent_set (hp : s.flows[p]? = some f) (hflows : s'.flows = s.flows.set p f')
    (hun : f'.unwritten = true → f.unwritten = true) (hq : s.Spent q) : s'.Spent q := by
  obtain ⟨g, hg, hspent⟩ := hq
  by_cases heq : q = p
  · subst heq
    obtain rfl := some.inj (hp.symm.trans hg)
    have hlt : q < s.flows.length := (List.getElem?_eq_some_iff.mp hp).1
    refine ⟨f', by rw [hflows, getElem?_set_self hlt], ?_⟩
    cases hf : f'.unwritten with
    | false => rfl
    | true => rw [hun hf] at hspent; exact hspent
  · exact ⟨g, by rw [hflows, getElem?_set_ne (Ne.symm heq), hg], hspent⟩

theorem spent_ended (hp : s.flows[p]? = some f) (hflows : s'.flows = s.flows.set p .ended)
    (hq : s.Spent q) : s'.Spent q := spent_set hp hflows nofun hq

theorem fine_set (hflows : s'.flows = s.flows.set p f')
    (hrest : ∀ q ≠ p, ∀ g, s.flows[q]? = some g → s'.Fine q g) (hfine : s'.Fine p f') (q : ℕ)
    (g : Flow) (hg : s'.flows[q]? = some g) : s'.Fine q g := by
  rw [hflows] at hg
  exact Runs.forall_set (fun _ _ => id) (fun q g hne => hrest q hne g) hfine q g hg

theorem Marks.tame (h : s.Marks) (hstill : Still s s') (ht : Tame s.store s'.store)
    (hsid : s'.nextSid = s.nextSid) (hopened : s'.opened = s.opened)
    (hmailed : s'.mailed = s.mailed) :
    s'.Marks where
  coherent := hsid ▸ h.coherent.tame ht
  links hash uid epoch hml := by
    rw [hmailed]
    exact hstill.fits ht.uepoch (h.links hash uid epoch (ht.ml hash _ hml))
  sessions sid x' o hx ho := by
    obtain ⟨x, hx, huid, -, hepoch⟩ := ht.sess sid x' hx
    obtain ⟨htold, hkept⟩ := h.sessions sid x o hx (hopened ▸ ho)
    rw [huid, hepoch, ht.uepoch]
    exact ⟨htold.mono hstill.isPrefix, fun hcur => hstill.stands.mpr (hkept hcur)⟩

/-- A call goes on; rows stay as they are, and what the others hold stays with them. -/
theorem Inv.still (h : s.Inv) (hp : s.flows[p]? = some f) (hflows : s'.flows = s.flows.set p f')
    (hstill : Still s s') (hepoch : s'.store.uepoch = s.store.uepoch)
    (hheld : ∀ q ≠ p, ∀ k, s.held k = some q → s'.held k = some q) (hfine : s'.Fine p f')
    (hun : f'.unwritten = true → f.unwritten = true) (hmarks : s'.Marks) : s'.Inv where
  flows := fine_set hflows (fun q hne g hg => (h.flows q g hg).pass
    (hstill.passes hepoch (hheld q hne))) hfine
  rows := hstill.rows h.rows fun _ => spent_set hp hflows hun
  marks := hmarks

theorem Inv.moved (h : s.Inv) (hp : s.flows[p]? = some f) (hflows : s'.flows = s.flows.set p f')
    (hstill : Still s s') (ht : Tame s.store s'.store) (hsid : s'.nextSid = s.nextSid)
    (hopened : s'.opened = s.opened) (hmailed : s'.mailed = s.mailed)
    (hheld : ∀ q ≠ p, ∀ k, s.held k = some q → s'.held k = some q) (hfine : s'.Fine p f')
    (hun : f'.unwritten = true → f.unwritten = true) : s'.Inv :=
  h.still hp hflows hstill ht.uepoch hheld hfine hun (h.marks.tame hstill ht hsid hopened hmailed)

theorem Inv.go (h : s.Inv) (hp : s.flows[p]? = some f) (hfine : s.Fine p f')
    (hun : f'.unwritten = true → f.unwritten = true) : (s.go p f').Inv :=
  have hstill : Still s (s.go p f') := ⟨rfl, rfl, rfl, rfl⟩
  h.moved hp rfl hstill (Quiet.refl _).tame rfl rfl rfl (fun _ _ _ hk => hk)
    (hfine.pass (hstill.passes rfl fun _ hk => hk)) hun

theorem Inv.stop (h : s.Inv) (hp : s.flows[p]? = some f) (codes : List VerificationCode)
    (nextCode : ℕ) : (State.stop { s with codes := codes, nextCode := nextCode } p).Inv := by
  have hflows : (State.stop { s with codes := codes, nextCode := nextCode } p).flows =
      s.flows.set p .ended := rfl
  refine h.moved hp hflows ⟨rfl, rfl, rfl, rfl⟩ (Quiet.refl _).tame rfl rfl rfl
    (fun q hne k hk => ?_) trivial nofun
  exact Locks.release_of_ne hne hk

theorem Inv.acquire (h : s.Inv) (hp : s.flows[p]? = some f) (hfine : (s.take p locks).Fine p f')
    (hun : f'.unwritten = true → f.unwritten = true) : (s.acquire p locks f').Inv := by
  unfold State.acquire
  split_ifs with hfree
  · have hstill : Still (s.take p locks) ((s.take p locks).go p f') := ⟨rfl, rfl, rfl, rfl⟩
    refine h.moved hp rfl ⟨rfl, rfl, rfl, rfl⟩ (Quiet.refl _).tame rfl rfl rfl
      (fun q hne k hk => ?_) (hfine.pass (hstill.passes rfl fun _ hk => hk)) hun
    exact Locks.takeAll_of_held (fun hin => (hfree k hin).holder hk) hk
  · exact h

theorem take_held (k : Lock) : (s.take p [k]).held k = some p :=
  Locks.takeAll_of_mem (mem_singleton.mpr rfl)

theorem passes_take : Passes s (s.take p locks) p :=
  have hstill : Still s (s.take p locks) := ⟨rfl, rfl, rfl, rfl⟩
  hstill.passes rfl fun _ hk => Locks.takeAll_of_held (fun _ => rfl) hk

theorem spent_begin (hflows : s'.flows = s.flows ++ [f]) (hq : s.Spent q) : s'.Spent q := by
  obtain ⟨g, hg, hspent⟩ := hq
  refine ⟨g, ?_, hspent⟩
  rw [hflows, getElem?_append_left (List.getElem?_eq_some_iff.mp hg).1, hg]

theorem Inv.begin (h : s.Inv) {st : Store} (ht : Tame s.store st) (hfine : ∀ q, s.Fine q f) :
    Inv { s.begin f with store := st } := by
  have hstill : Still s { s.begin f with store := st } := ⟨rfl, rfl, rfl, rfl⟩
  have hpass : ∀ q, Passes s { s.begin f with store := st } q :=
    fun q => hstill.passes ht.uepoch fun _ hk => hk
  exact ⟨Runs.forall_append h.flows (fun q _ hg => hg.pass (hpass q))
    fun q => (hfine q).pass (hpass q), hstill.rows h.rows fun _ => spent_begin rfl,
    h.marks.tame hstill ht rfl rfl rfl⟩

/-! ## A hash is stored -/

section Hash

theorem ne_of_salted (hp : s.flows[p]? = some f) (hun : f.unwritten = true)
    (hnew : new.salt = some p) (hh : s.Salted h) : new ≠ h := by
  rintro rfl
  obtain ⟨g, hg, hspent⟩ := hh p hnew
  obtain rfl := some.inj (hp.symm.trans hg)
  exact Bool.false_ne_true (hspent.symm.trans hun)

variable (hrows : s.Rows) (hp : s.flows[p]? = some f) (hflows : s'.flows = s.flows.set p f')
  (hspent : f'.unwritten = false) (hpw : s'.passwords = update s.passwords uid (some new))
  (hnew : new.salt = some p)
include hp hflows hspent

theorem spent_of_stored (hq : s.Spent q) : s'.Spent q :=
  spent_set hp hflows (fun htrue => absurd (htrue.symm.trans hspent) Bool.noConfusion) hq

theorem salted_mono (hh : s.Salted h) : s'.Salted h :=
  fun q hq => spent_of_stored hp hflows hspent (hh q hq)

include hrows hpw hnew

theorem Rows.salted_of_update (u : UUID) (h : PHC) (hh : s'.passwords u = some h) :
    s'.Salted h := by
  rcases of_update_some hpw hh with ⟨-, rfl⟩ | ⟨-, hold⟩
  · intro q hq
    obtain rfl := some.inj (hnew.symm.trans hq)
    exact ⟨f', by rw [hflows, getElem?_set_self (List.getElem?_eq_some_iff.mp hp).1], hspent⟩
  · exact salted_mono hp hflows hspent (hrows.salted u h hold)

omit hflows hspent in
theorem Rows.gone_of_update (hun : f.unwritten = true) {w : Write} (hw : w ∈ s.history)
    {checked n : PHC} (hact : w.act = .replace checked n) : s'.passwords w.user ≠ some checked := by
  intro hback
  obtain ⟨-, hsalt, hgone⟩ := hrows.replaced w hw checked n hact
  rcases of_update_some hpw hback with ⟨-, heq⟩ | ⟨-, hold⟩
  · exact ne_of_salted hp hun hnew hsalt heq.symm
  · exact hgone hold

end Hash

theorem fine_proved (htold : s.Told uid (.password l.password seen))
    (hfits : uid = uid0 → s.Fits uid epoch0 (.password l.password seen)) :
    s.Fine p (l.proved uid0 uid now epoch0 seen) := by
  unfold Login.proved
  split_ifs with hne
  · exact htold
  · exact ⟨hfits (not_not.mp hne), htold⟩

theorem unwritten_proved (l : Login) (uid0 uid : UUID) (now : ℤ) (epoch0 seen : ℕ) :
    (l.proved uid0 uid now epoch0 seen).unwritten = false := by
  unfold Login.proved
  split_ifs <;> rfl

theorem Inv.rewritten (h : s.Inv) (hp : s.flows[p]? = some f)
    (hun : f.unwritten = true) (hflows : s'.flows = s.flows.set p f')
    (hspent : f'.unwritten = false)
    (hfine : s'.Fine p f') (hfree : s.held.Free p (.password uid))
    (hold : s.passwords uid = some phc)
    (hsame : new.password = phc.password) (hnew : new.salt = some p)
    (hpw : s'.passwords = update s.passwords uid (some new)) (husers : s'.users = s.users)
    (hhistory : s'.history = s.history) (hsettled : s'.settled = s.settled)
    (hheld : s'.held = s.held)
    (hstore : s'.store = s.store) (hsid : s'.nextSid = s.nextSid) (hopened : s'.opened = s.opened)
    (hmailed : s'.mailed = s.mailed) : s'.Inv := by
  -- apart from the hashes, it is a step that leaves the rows as they are
  have hstill : Still { s with passwords := s'.passwords } s' := ⟨husers, rfl, hhistory, hsettled⟩
  have hemail : ∀ u, s'.emailOf u = s.emailOf u := hstill.emailOf
  refine ⟨fine_set hflows (fun q hne g hg => (h.flows q g hg).pass ?_) hfine, ?_, ?_⟩
  · refine ⟨fun k hk => hheld ▸ hk, fun u _ => hemail u, fun u hu => ?_, hstill.isPrefix,
      fun u => (congrFun (congrArg uepoch hstore) u).ge,
      fun u e o hfits => hstill.fits (congrArg uepoch hstore) hfits⟩
    rw [hpw]
    refine update_of_ne (fun heq => ?_) _ _
    subst heq
    exact hne (hfree.holder hu)
  · refine ⟨husers ▸ h.rows.ids, hsettled ▸ hhistory ▸ h.rows.past, fun u x hx => ?_,
      fun u x hx => ?_, hhistory ▸ h.rows.differs, hhistory ▸ h.rows.resets,
      fun w hw checked n hact => ?_,
      h.rows.salted_of_update hp hflows hspent hpw hnew, hhistory ▸ h.rows.once⟩
    · rw [hhistory] at hx
      obtain ⟨y, hy, hyx⟩ := h.rows.stored u x hx
      by_cases heq : u = uid
      · subst heq
        obtain rfl := some.inj (hold.symm.trans hy)
        exact ⟨new, by rw [hpw, update_self], hsame.trans hyx⟩
      · exact ⟨y, by rw [hpw, update_of_ne heq, hy], hyx⟩
    · rw [hhistory] at hx
      rw [hemail]
      exact h.rows.moved u x hx
    · rw [hhistory] at hw
      obtain ⟨hne, hsalt, -⟩ := h.rows.replaced w hw checked n hact
      exact ⟨hne, salted_mono hp hflows hspent hsalt, h.rows.gone_of_update hp hpw hnew hun hw hact⟩
  · have hmarks : Marks { s with passwords := s'.passwords } := { h.marks with }
    exact hmarks.tame hstill (hstore ▸ (Quiet.refl _).tame) hsid hopened hmailed

theorem Inv.rehash (h : s.Inv)
    (hp : s.flows[p]? = some (.loginRehash l uid0 uid now epoch0 phc seen))
    (hfree : s.held.Free p (.password uid)) :
    ((s.rehash p l uid phc).go p (l.proved uid0 uid now epoch0 seen)).Inv := by
  obtain ⟨hpassword, htold, hfits⟩ := h.flows p _ hp
  have hspent := unwritten_proved l uid0 uid now epoch0 seen
  unfold State.rehash
  split_ifs with hsame
  · exact h.rewritten hp rfl rfl hspent (fine_proved htold hfits) hfree hsame hpassword.symm
      rfl rfl rfl rfl rfl rfl rfl rfl rfl rfl
  · exact h.go hp (fine_proved htold hfits) fun htrue =>
      absurd (htrue.symm.trans hspent) Bool.noConfusion

/-! ## Sessions and links are written -/

theorem Good.kept (h : s.Good uid o) (sid : UUID) : s.Kept sid uid o := by
  cases o with
  | password => exact fun j hj hle w hw huser => (h j hj hle w hw huser).elim
  | other => trivial
  | link => exact h

theorem Inv.createSession (h : s.Inv) {aud : Audience} {amr : AMR}
    {seed : Secret} (hp : s.flows[p]? = some (.ready uid aud amr epoch now o)) :
    (s.createSession env p uid aud amr epoch now o seed).Inv := by
  obtain ⟨hfits, htold⟩ := h.flows p _ hp
  generalize hrec : env.newSession s.nextSid uid aud amr epoch now seed = rec
  have huid : rec.uid = uid := by rw [← hrec]; rfl
  have hepoch : rec.epoch = epoch := by rw [← hrec]; rfl
  have hstill : Still s (s.createSession env p uid aud amr epoch now o seed) := ⟨rfl, rfl, rfl, rfl⟩
  have huepoch : (s.createSession env p uid aud amr epoch now o seed).store.uepoch =
      s.store.uepoch :=
    create_uepoch
  refine h.still hp rfl hstill huepoch (fun _ _ _ hk => hk) trivial nofun ⟨?_, ?_, ?_⟩
  · exact h.marks.coherent.create _
  · intro hash u e hml
    exact hstill.fits huepoch (h.marks.links hash u e (create_ml ▸ hml))
  · intro sid x o' hx ho
    rw [huepoch]
    simp only [State.createSession, hrec] at hx ho
    rcases create_cases hx with ⟨rfl, hcur, hxuid, hxepoch, hok⟩ | ⟨hold, -⟩
    · rw [hok, if_pos rfl, update_self] at ho
      obtain rfl := some.inj ho
      rw [hxuid, huid]
      refine ⟨htold.mono hstill.isPrefix, fun _ => hstill.stands.mpr (Good.kept ?_ _)⟩
      exact hfits.2 (hepoch.symm.trans (hcur.symm.trans (by rw [huid])))
    · have hne : sid ≠ s.nextSid := Nat.ne_of_lt (h.marks.coherent.fresh sid x hold)
      have hopened : s.opened sid = some o' := by
        split_ifs at ho
        · rwa [update_of_ne hne] at ho
        · exact ho
      exact (h.marks.sessions sid x o' hold hopened).imp (·.mono hstill.isPrefix) fun hkept hcur =>
        hstill.stands.mpr (hkept hcur)

theorem Inv.issueMailLink (h : s.Inv) (hp : s.flows[p]? = some (.mailEpoch email uid epoch))
    (hash : Hash) : (s.issueMailLink p email uid epoch hash).Inv := by
  have hfits : s.Fits uid epoch (.link email) := h.flows p _ hp
  have hstill : Still s (s.issueMailLink p email uid epoch hash) := ⟨rfl, rfl, rfl, rfl⟩
  refine h.still hp rfl hstill rfl (fun _ _ _ hk => hk) trivial nofun
    ⟨h.marks.coherent.issueMailLink uid hash epoch, ?_, ?_⟩
  · intro x u e hx
    refine hstill.fits rfl ?_
    show s.Fits u e (.link (update s.mailed hash email x))
    by_cases hxh : x = hash
    · subst hxh
      obtain ⟨rfl, rfl⟩ : uid = u ∧ epoch = e := by
        simpa [State.issueMailLink, Store.issueMailLink] using hx
      rw [update_self]
      exact hfits
    · rw [update_of_ne hxh]
      refine h.marks.links x u e ?_
      cases hm : s.store.mlu uid with
      | none => simpa [State.issueMailLink, Store.issueMailLink, hm, hxh] using hx
      | some =>
        exact of_update_none (by
          simpa [State.issueMailLink, Store.issueMailLink, hm, hxh] using hx)
  · intro sid x o hx ho
    exact (h.marks.sessions sid x o hx ho).imp (·.mono hstill.isPrefix) fun hkept hcur =>
      hstill.stands.mpr (hkept hcur)

/-! ## A user is revoked -/

section Revoke

variable {u : UUID} {keep : Option UUID}
  (hstore : s'.store = (s.store.revokeUser u keep .all).2) (hpre : s.history <+: s'.history)
  (hgood : ∀ uid o, uid ≠ u → s.Good uid o → s'.Good uid o)
include hstore

theorem uepoch_revoke (uid : UUID) : s'.store.uepoch uid =
    if uid = u then s.store.uepoch uid + 1 else s.store.uepoch uid := by
  rw [hstore, revokeUser_uepoch]
  split_ifs with heq
  · rw [heq, update_self]
  · exact update_of_ne heq _ _

theorem le_uepoch_revoke (uid : UUID) : s.store.uepoch uid ≤ s'.store.uepoch uid := by
  rw [uepoch_revoke hstore uid]
  split_ifs <;> omega

include hgood in
theorem fits_revoke {e : ℕ} (hfits : s.Fits uid e o) : s'.Fits uid e o := by
  have hepoch := uepoch_revoke hstore uid
  by_cases heq : uid = u
  · rw [if_pos heq] at hepoch
    have hlt : e < s'.store.uepoch uid := hepoch ▸ lt_succ_of_le hfits.1
    exact ⟨le_of_lt hlt, fun hcur => absurd hcur (Nat.ne_of_lt hlt)⟩
  · rw [if_neg heq] at hepoch
    refine ⟨hepoch ▸ hfits.1, fun hcur => hgood uid o heq (hfits.2 ?_)⟩
    rw [hcur, hepoch]

include hpre hgood in
theorem Marks.revoke (h : s.Marks) (hsid : s'.nextSid = s.nextSid) (hopened : s'.opened = s.opened)
    (hmailed : s'.mailed = s.mailed)
    (hkept : ∀ sid uid o, (uid = u → keep = some sid) → s.Kept sid uid o → s'.Kept sid uid o) :
    s'.Marks where
  coherent := by
    rw [hstore, hsid]
    exact h.coherent.revokeUser u keep .all
  links hash uid e hml := by
    rw [hstore, revokeUser_ml] at hml
    rw [hmailed]
    exact fits_revoke hstore hgood (h.links hash uid e hml)
  sessions sid x' o hx ho := by
    rw [hopened] at ho
    rw [hstore] at hx ⊢
    constructor
    · rcases revokeUser_cases hx with ⟨-, x, hold, -, rfl⟩ | ⟨-, hold⟩
      · exact (h.sessions sid x o hold ho).1.mono hpre
      · exact (h.sessions sid x' o hold ho).1.mono hpre
    · intro hcur
      obtain ⟨x, hold, huid, -, hxcur, hkeeps⟩ := h.coherent.current_of_revokeUser hx hcur
      refine hkept sid x'.uid o (fun heq => ?_) (huid ▸ (h.sessions sid x o hold ho).2 hxcur)
      rcases hkeeps heq with hsame | ⟨hall, -⟩
      · exact hsame.symm
      · exact absurd rfl hall

end Revoke

/-! ## A transaction ends -/

section Close

variable {w : Write} {t : Touched}

theorem Inv.close_written (h : s.Inv) (hp : s.flows[p]? = some (.closing w t .written)) :
    (s.close p w t .written).Inv := by
  have hstill : Still s (s.close p w t .written) := ⟨rfl, rfl, rfl, rfl⟩
  have hgood : ∀ uid o, uid ≠ w.user → s.Good uid o → (s.close p w t .written).Good uid o :=
    fun uid o _ => hstill.stands.mpr
  have hpass : ∀ q, Passes s (s.close p w t .written) q := fun q =>
    ⟨fun _ hk => hk, fun _ _ => rfl, fun _ _ => rfl, hstill.isPrefix, le_uepoch_revoke rfl,
      fun uid e o => fits_revoke rfl hgood⟩
  have hready : s.Ready p w := h.flows p _ hp
  have hflows : (s.close p w t .written).flows = s.flows.set p (.closing w t .revoked) := rfl
  exact ⟨fine_set rfl (fun q _ g hg => (h.flows q g hg).pass (hpass q)) (hready.pass (hpass p)),
    hstill.rows h.rows fun q => spent_set hp hflows fun hun => hun,
    h.marks.revoke rfl hstill.isPrefix hgood rfl rfl rfl fun _ _ _ _ => hstill.stands.mpr⟩

theorem user_of_moves (hmoves : (w.moves uid).isSome) : w.user = uid := by
  by_contra hne
  rw [moves, if_neg hne] at hmoves
  exact Bool.noConfusion hmoves

section

variable (hw : s.history[j]? = some w) (hhistory : s'.history = s.history)
  (hsettled : s'.settled = j :: s.settled)
include hw hhistory hsettled

theorem pending_settle (hmoves : ¬(w.moves uid).isSome) (h : s.Pending uid) : s'.Pending uid := by
  obtain ⟨i, w', hw', hmoves', hset⟩ := h
  refine ⟨i, w', hhistory ▸ hw', hmoves', ?_⟩
  rw [hsettled, mem_cons]
  rintro (rfl | hi)
  · obtain rfl := some.inj (hw.symm.trans hw')
    exact hmoves hmoves'
  · exact hset hi

theorem stands_settle {P : Write → Prop} (hemail : s'.emailOf uid = s.emailOf uid)
    (hP : uid = w.user → P w) (hmoves : ¬(w.moves uid).isSome) (h : s.Stands P uid o) :
    s'.Stands P uid o := by
  cases o with
  | password =>
    rw [Stands, hhistory, hsettled]
    intro i hi hle w' hw' huser
    rcases mem_cons.mp hi with rfl | hi
    · obtain rfl := some.inj (hw.symm.trans hw')
      exact hP huser.symm
    · exact h i hi hle w' hw' huser
  | other => trivial
  | link => exact h.imp hemail.trans (pending_settle hw hhistory hsettled hmoves)

end

theorem Inv.close_committed (h : s.Inv)
    (hp : s.flows[p]? = some (.closing w t (.committed j))) :
    (s.close p w t (.committed j)).Inv := by
  obtain ⟨hw, hkeep⟩ := h.flows p _ hp
  have hstands : ∀ {P : Write → Prop} {uid o}, (uid = w.user → P w) → ¬(w.moves uid).isSome →
      s.Stands P uid o → (s.close p w t (.committed j)).Stands P uid o :=
    stands_settle hw (rfl : (s.close p w t (.committed j)).history = _) rfl rfl
  have hgood : ∀ uid o, uid ≠ w.user → s.Good uid o → (s.close p w t (.committed j)).Good uid o :=
    fun uid o hne => hstands hne fun hmoves => hne (user_of_moves hmoves).symm
  have hpass : ∀ q, Passes s (s.close p w t (.committed j)) q := fun q =>
    ⟨fun _ hk => hk, fun _ _ => rfl, fun _ _ => rfl, prefix_rfl, le_uepoch_revoke rfl,
      fun uid e o => fits_revoke rfl hgood⟩
  refine ⟨fine_set rfl (fun q _ g hg => (h.flows q g hg).pass (hpass q)) trivial, ?_,
    h.marks.revoke rfl prefix_rfl hgood rfl rfl rfl fun sid uid o hsid =>
      hstands hsid fun hmoves => ?_⟩
  swap
  · -- a change of the address keeps no session
    obtain rfl := user_of_moves hmoves
    exact some_ne_none sid ((hsid rfl).symm.trans (hkeep hmoves))
  have hspent : ∀ q, s.Spent q → (s.close p w t (.committed j)).Spent q :=
    fun q => spent_ended hp rfl
  refine { h.rows with
    past := forall_mem_cons.mpr ⟨(List.getElem?_eq_some_iff.mp hw).1, h.rows.past⟩
    replaced := fun w' hw' checked new hact => ?_
    salted := fun uid x hx q hq => hspent q (h.rows.salted uid x hx q hq) }
  obtain ⟨hne, hsalt, hgone⟩ := h.rows.replaced w' hw' checked new hact
  exact ⟨hne, fun q hq => hspent q (hsalt q hq), hgone⟩

/-! ### The commit -/

theorem emailOf_apply : (s.apply w t).emailOf uid =
    match w.moves uid with
    | some new => (s.emailOf uid).map fun _ => new
    | none => s.emailOf uid := by
  unfold moves emailOf userById apply
  cases hact : w.act with
  | email =>
    rw [@Database.find?_map_update _ _ User.id _ _ fun u => by split_ifs <;> rfl]
    split_ifs with huser
    · subst huser
      cases hfind : s.users.find? (·.id = w.user) with
      | none => rfl
      | some u =>
        have hid : u.id = w.user := by simpa using find?_some hfind
        simp [hid]
    · cases hfind : s.users.find? (·.id = uid) with
      | none => rfl
      | some u =>
        have hid : u.id = uid := by simpa using find?_some hfind
        have hne : ¬ uid = w.user := fun heq => huser heq.symm
        simp [hid, hne]
  | replace | reset => split_ifs <;> rfl

theorem passwords_apply : (s.apply w t).passwords uid =
    if w.user = uid then (w.act.hash).or (s.passwords uid) else s.passwords uid := by
  unfold apply
  cases w.act.hash with
  | none => simp
  | some =>
    by_cases heq : w.user = uid
    · subst heq
      simp
    · simp [heq, update_of_ne (Ne.symm heq)]

theorem history_getElem? {i : ℕ} {w' : Write} (hw' : (s.history ++ [w])[i]? = some w') :
    s.history[i]? = some w' ∨ (i = s.history.length ∧ w' = w) := by
  rcases lt_or_ge i s.history.length with hlt | hge
  · rw [getElem?_append_left hlt] at hw'
    exact .inl hw'
  · right
    have hlen : i < (s.history ++ [w]).length := (List.getElem?_eq_some_iff.mp hw').1
    rw [length_append, length_singleton] at hlen
    obtain rfl : i = s.history.length := by omega
    exact ⟨rfl, by simpa using hw'.symm⟩

theorem Ready.held_user (h : s.Ready p w) (hmoves : (w.moves w.user).isSome) :
    s.held (.user w.user) = some p ∧ w.keep = none := by
  unfold Ready at h
  unfold moves at hmoves
  cases hact : w.act with
  | email =>
    rw [hact] at h
    exact ⟨h.1, h.2.2.2⟩
  | replace | reset => simp [hact] at hmoves

theorem Ready.held_password (h : s.Ready p w) (hhash : w.act.hash = some new) :
    s.held (.password w.user) = some p ∧ new.salt = some p := by
  unfold Ready at h
  cases hact : w.act with
  | email => simp [hact, Act.hash] at hhash
  | replace =>
    rw [hact] at h hhash
    obtain rfl := some.inj hhash
    exact ⟨h.1, h.2.2.1⟩
  | reset =>
    rw [hact] at h hhash
    obtain rfl := some.inj hhash
    exact ⟨h.2.2.1, h.2.2.2.2.1⟩

theorem pending_commit (hpast : ∀ j ∈ s.settled, j < s.history.length)
    (hhistory : s'.history = s.history ++ [w])
    (hsettled : s'.settled = s.settled) (h : (w.moves uid).isSome ∨ s.Pending uid) :
    s'.Pending uid := by
  rw [Pending, hhistory, hsettled]
  rcases h with hmoves | ⟨j, w', hw', hmoves, hset⟩
  · exact ⟨s.history.length, w, by simp, hmoves, fun hin => absurd (hpast _ hin) (lt_irrefl _)⟩
  · refine ⟨j, w', ?_, hmoves, hset⟩
    rw [getElem?_append_left (List.getElem?_eq_some_iff.mp hw').1, hw']

section

variable (hrows : s.Rows) (hhistory : s'.history = s.history ++ [w])
  (hsettled : s'.settled = s.settled)
  (hemail : ∀ uid, w.moves uid = none → s'.emailOf uid = s.emailOf uid)
include hrows hhistory hsettled hemail

/-- A link that was mailed to the old address is good until the second revocation. -/
theorem link_commit {address : Address} (h : s.emailOf uid = some address ∨ s.Pending uid) :
    s'.emailOf uid = some address ∨ s'.Pending uid := by
  cases hmoves : w.moves uid with
  | some => exact .inr (pending_commit hrows.past hhistory hsettled (.inl (by simp [hmoves])))
  | none =>
    exact h.imp (fun hsame => (hemail uid hmoves).trans hsame) fun hpending =>
      pending_commit hrows.past hhistory hsettled (.inr hpending)

theorem stands_commit {P : Write → Prop} (h : s.Stands P uid o) : s'.Stands P uid o := by
  cases o with
  | password =>
    rw [Stands, hhistory, hsettled]
    intro j hj hle w' hw'
    rw [getElem?_append_left (hrows.past j hj)] at hw'
    exact h j hj hle w' hw'
  | other => trivial
  | link => exact link_commit hrows hhistory hsettled hemail h

end

theorem ids_apply (hids : (s.users.map (·.id)).Nodup) : ((s.apply w t).users.map (·.id)).Nodup := by
  unfold apply
  cases w.act with
  | email => exact Database.nodup_map_update hids fun u => by split_ifs <;> rfl
  | replace | reset => exact hids

theorem passwords_close : (s.close p w t .revoked).passwords = match w.act.hash with
    | some new => update s.passwords w.user (some new)
    | none => s.passwords := rfl

theorem passwords_stored (hhash : w.act.hash = some new) :
    (s.close p w t .revoked).passwords = update s.passwords w.user (some new) := by
  rw [passwords_close, hhash]

/-! The rows after a commit, one by one. -/

section Rows

variable (hrows : s.Rows) (hready : s.Ready p w)
include hrows

theorem Rows.stored_apply {x : Password} (hx : latest (sets uid) (s.history ++ [w]) = some x) :
    ∃ y, (s.apply w t).passwords uid = some y ∧ y.password = x := by
  rw [passwords_apply]
  rw [latest_concat, sets] at hx
  split_ifs at hx ⊢ with huser
  · cases hhash : w.act.hash with
    | none =>
      rw [hhash] at hx
      exact hrows.stored uid x hx
    | some new =>
      rw [hhash] at hx
      exact ⟨new, rfl, some.inj hx⟩
  · exact hrows.stored uid x hx

include hready

theorem Rows.moved_apply {x : Address} (hx : latest (moves uid) (s.history ++ [w]) = some x) :
    (s.apply w t).emailOf uid = some x := by
  rw [emailOf_apply]
  rw [latest_concat] at hx
  cases hmoves : w.moves uid with
  | none =>
    rw [hmoves] at hx
    exact hrows.moved uid x hx
  | some =>
    rw [hmoves] at hx
    obtain rfl := some.inj hx
    obtain rfl := user_of_moves (by simp [hmoves] : (w.moves uid).isSome)
    cases hact : w.act with
    | email =>
      rw [Ready, hact] at hready
      simp [hready.2.1]
    | replace | reset => simp [moves, hact] at hmoves

theorem Rows.resets_commit {i : ℕ} {w' : Write} {address x : Address} {old : Option PHC}
    (hw' : (s.history ++ [w])[i]? = some w') (hact : w'.act = .reset address old new)
    (hx : latest (moves w'.user) ((s.history ++ [w]).take i) = some x) : x = address := by
  rcases history_getElem? hw' with hold | ⟨rfl, rfl⟩
  · rw [latest_take_append (le_of_lt (List.getElem?_eq_some_iff.mp hold).1)] at hx
    exact hrows.resets i w' address old new hold hact x hx
  · rw [latest_take_append le_rfl, take_length] at hx
    rw [Ready, hact] at hready
    exact some.inj ((hrows.moved _ x hx).symm.trans hready.2.1)

/-- The hash that a change has checked is still stored, so that nobody has replaced it before. -/
theorem Rows.once_commit {i j : ℕ} {w₁ w₂ : Write} {checked new' : PHC}
    (h₁ : (s.history ++ [w])[i]? = some w₁) (h₂ : (s.history ++ [w])[j]? = some w₂)
    (huser : w₁.user = w₂.user) (hact₁ : w₁.act = .replace checked new)
    (hact₂ : w₂.act = .replace checked new') : i = j := by
  have hfirst : ∀ w' ∈ s.history, w'.user = w.user → ∀ new, w'.act = .replace checked new →
      ∀ new', w.act ≠ .replace checked new' := by
    intro w' hw' huser new hact new' hact'
    rw [Ready, hact'] at hready
    exact (hrows.replaced w' hw' checked new hact).2.2 (huser ▸ hready.2.1)
  rcases history_getElem? h₁ with hold₁ | ⟨rfl, rfl⟩
  · rcases history_getElem? h₂ with hold₂ | ⟨rfl, rfl⟩
    · exact hrows.once i j w₁ w₂ checked new new' hold₁ hold₂ huser hact₁ hact₂
    · exact absurd hact₂ (hfirst w₁ (mem_of_getElem? hold₁) huser new hact₁ new')
  · rcases history_getElem? h₂ with hold₂ | ⟨rfl, -⟩
    · exact absurd hact₁ (hfirst w₂ (mem_of_getElem? hold₂) huser.symm new' hact₂ new)
    · rfl

variable (hp : s.flows[p]? = some (.closing w t .revoked))
include hp

theorem Rows.gone_commit {w' : Write} (hw' : w' ∈ s.history ++ [w]) {checked : PHC}
    (hact : w'.act = .replace checked new) :
    (s.close p w t .revoked).passwords w'.user ≠ some checked := by
  have hun : ∀ {x}, w.act.hash = some x → (Flow.closing w t .revoked).unwritten = true :=
      fun hx => by
    simp [Flow.unwritten, hx]
  rcases mem_append.mp hw' with hold | hlast
  · cases hhash : w.act.hash with
    | none =>
      rw [passwords_close, hhash]
      exact (hrows.replaced w' hold checked new hact).2.2
    | some =>
      exact hrows.gone_of_update hp (passwords_stored hhash) (hready.held_password hhash).2
        (hun hhash) hold hact
  · obtain rfl := mem_singleton.mp hlast
    have hhash : w'.act.hash = some new := by rw [hact]; rfl
    rw [Ready, hact] at hready
    obtain ⟨-, hold, hsalt, -⟩ := hready
    rw [passwords_stored hhash, update_self]
    exact fun heq => ne_of_salted hp (hun hhash) hsalt (hrows.salted _ _ hold) (some.inj heq)

theorem Rows.salted_commit {x : PHC} (hx : (s.close p w t .revoked).passwords uid = some x) :
    (s.close p w t .revoked).Salted x := by
  cases hhash : w.act.hash with
  | none =>
    rw [passwords_close, hhash] at hx
    exact salted_mono hp rfl rfl (hrows.salted uid x hx)
  | some =>
    exact hrows.salted_of_update hp rfl rfl (passwords_stored hhash) (hready.held_password hhash).2
      uid x hx

end Rows

theorem Rows.close_revoked (h : s.Rows) (hp : s.flows[p]? = some (.closing w t .revoked))
    (hready : s.Ready p w) : (s.close p w t .revoked).Rows where
  ids := ids_apply (t := t) h.ids
  past j hj := lt_of_lt_of_le (h.past j hj) (by simp [close, go, release, apply])
  stored _ _ := h.stored_apply (t := t)
  moved _ _ := h.moved_apply hready (t := t)
  differs w' hw' old new hact := by
    rcases mem_append.mp (show w' ∈ s.history ++ [w] from hw') with hold | hlast
    · exact h.differs w' hold old new hact
    · obtain rfl := mem_singleton.mp hlast
      rw [Ready, hact] at hready
      exact hready.2.2.1
  resets _ _ _ _ _ hw' hact _ := h.resets_commit hready hw' hact
  replaced w' hw' checked new hact := by
    refine ⟨?_, ?_, h.gone_commit hready hp hw' hact⟩
    · rcases mem_append.mp (show w' ∈ s.history ++ [w] from hw') with hold | hlast
      · exact (h.replaced w' hold checked new hact).1
      · obtain rfl := mem_singleton.mp hlast
        rw [Ready, hact] at hready
        exact hready.2.2.2
    · refine salted_mono hp rfl rfl ?_
      rcases mem_append.mp (show w' ∈ s.history ++ [w] from hw') with hold | hlast
      · exact (h.replaced w' hold checked new hact).2.1
      · obtain rfl := mem_singleton.mp hlast
        rw [Ready, hact] at hready
        exact h.salted _ _ hready.2.1
  salted _ _ := h.salted_commit hready hp
  once _ _ _ _ _ _ _ h₁ h₂ := h.once_commit hready h₁ h₂

theorem Inv.close_revoked (h : s.Inv) (hp : s.flows[p]? = some (.closing w t .revoked)) :
    (s.close p w t .revoked).Inv := by
  have hready : s.Ready p w := h.flows p _ hp
  have hhistory : (s.close p w t .revoked).history = s.history ++ [w] := rfl
  have hemail : ∀ uid, w.moves uid = none → (s.close p w t .revoked).emailOf uid =
      s.emailOf uid := by
    intro uid hmoves
    show (s.apply w t).emailOf uid = _
    rw [emailOf_apply, hmoves]
  have hfits : ∀ uid e o, s.Fits uid e o → (s.close p w t .revoked).Fits uid e o :=
      fun uid e o hf =>
    ⟨hf.1, fun hcur => stands_commit h.rows hhistory rfl hemail (hf.2 hcur)⟩
  refine ⟨fine_set rfl (fun q hne g hg => (h.flows q g hg).pass ?_) ?_,
    h.rows.close_revoked hp hready, h.marks.coherent, fun hash uid e hml => ?_,
    fun sid x o hx ho => ?_⟩
  · refine ⟨fun k hk => ?_, fun uid hu => hemail uid ?_, fun uid hu => ?_, ⟨[w], rfl⟩,
      fun _ => le_rfl, hfits⟩
    · exact Locks.release_of_ne hne hk
    · cases hmoves : w.moves uid with
      | none => rfl
      | some =>
        have hsome : (w.moves uid).isSome := by simp [hmoves]
        obtain rfl := user_of_moves hsome
        exact absurd (some.inj (hu.symm.trans (hready.held_user hsome).1)) hne
    · show (s.apply w t).passwords uid = _
      rw [passwords_apply]
      split_ifs with huser
      · subst huser
        cases hhash : w.act.hash with
        | none => rfl
        | some => exact absurd (some.inj (hu.symm.trans (hready.held_password hhash).1)) hne
      · rfl
  · exact ⟨by simp [hhistory], fun hmoves => (hready.held_user hmoves).2⟩
  · exact hfits uid e _ (h.marks.links hash uid e hml)
  · obtain ⟨htold, hkept⟩ := h.marks.sessions sid x o hx ho
    exact ⟨htold.mono ⟨[w], rfl⟩, fun hcur => stands_commit h.rows hhistory rfl hemail (hkept hcur)⟩

end Close

/-! ## Every step -/

end State

/-- The address and the account that `StartMailLogin` has found. -/
def Flow.lookedUp : Flow → Option (Address × UUID)
  | .mailFound email uid => some (email, uid)
  | _ => none

namespace State

variable {s s' : State} {p : ℕ} {f f' : Flow}

/-- The epoch is read while the address is still the one that was looked up, or before the
revocation that follows its change. -/
def Steady (s : State) : Label → Prop
  | .turn p _ => ∀ x ∈ s.flows[p]?.bind Flow.lookedUp, s.emailOf x.2 = some x.1 ∨ s.Pending x.2
  | _ => True

instance (s : State) : (l : Label) → Decidable (s.Steady l)
  | .turn p _ => inferInstanceAs (Decidable (∀ x ∈ s.flows[p]?.bind Flow.lookedUp,
      s.emailOf x.2 = some x.1 ∨ s.Pending x.2))
  | .login _ | .mailStart _ | .mailConsume _ | .resetStart _ _ | .complete _ _ _ | .change _ _ _ _
  | .edit _ _ | .fail _ | .check _ _ _ _ | .expire _ => instDecidableTrue

theorem emailOf_of_userByEmail (hids : (s.users.map (·.id)).Nodup) {u : User}
    (hu : s.userByEmail email = some u) : s.emailOf u.id = some email := by
  have hfind : s.userById u.id = some u := Database.find?_key hids (mem_of_find?_eq_some hu)
  have hemail : u.email = email := by simpa using find?_some hu
  rw [emailOf, hfind, map_some, hemail]

theorem Inv.stopped (h : s.Inv) (hp : s.flows[p]? = some f) : (s.stop p).Inv :=
  h.stop hp s.codes s.nextCode

theorem Inv.authenticate (h : s.Inv) {uid0 : UUID}
    (hp : s.flows[p]? = some (.loginEpoch l uid0 now epoch0)) :
    (s.authenticate p l uid0 now epoch0).Inv := by
  unfold State.authenticate
  cases s.userByEmail l.email with
  | none => exact h.stopped hp
  | some u =>
    dsimp only
    cases hphc : s.passwords u.id with
    | none => exact h.stopped hp
    | some phc =>
      dsimp only
      split_ifs with hwrong hold
      · exact h.stopped hp
      all_goals
        have hpassword : phc.password = l.password := not_not.mp hwrong
        have htold : s.Told u.id (.password l.password s.history.length) := by
          refine ⟨le_rfl, fun x hx => ?_⟩
          rw [take_length] at hx
          obtain ⟨y, hy, rfl⟩ := h.rows.stored u.id x hx
          obtain rfl := some.inj (hphc.symm.trans hy)
          exact hpassword
        have hfits : u.id = uid0 → s.Fits u.id epoch0 (.password l.password s.history.length) := by
          rintro rfl
          exact ⟨h.flows p _ hp, fun _ j hj hle => absurd (h.rows.past j hj) (not_lt.mpr hle)⟩
      · exact h.go hp ⟨hpassword, htold, hfits⟩ fun _ => rfl
      · exact h.go hp (fine_proved htold hfits) fun _ => rfl

theorem Inv.lockCode (h : s.Inv) {code : ℕ} {password : Password}
    (hp : s.flows[p]? = some (.complete email code password)) :
    (s.lockCode p email code password now).Inv := by
  unfold State.lockCode
  cases VerificationCode.latest .passwordReset email now s.codes with
  | none => exact h.stopped hp
  | some c =>
    dsimp only
    by_cases hfree : s.held.Free p (.code c.id)
    swap
    · rw [if_pos hfree]
      exact h
    rw [if_neg (not_not.mpr hfree)]
    cases c.userId with
    | none => exact h.stopped hp
    | some =>
      split_ifs
      · exact h.stopped hp
      · exact h.stop hp _ _
      · exact h.acquire hp trivial fun _ => rfl

theorem Inv.lockIf (h : s.Inv) (hp : s.flows[p]? = some f) {ok : Prop} [Decidable ok]
    (hfine : ok → (s.take p [k]).Fine p f') (hun : f'.unwritten = true → f.unwritten = true) :
    (s.lockIf p k ok f').Inv := by
  unfold State.lockIf
  split_ifs with hfree hok
  · exact h.acquire hp (hfine hok) hun
  · exact h.stopped hp
  · exact h

theorem Inv.checkPassword (h : s.Inv) {keep : Option UUID} {old new : Password}
    (hp : s.flows[p]? = some (.change uid keep old new)) :
    (s.checkPassword p uid keep old new).Inv := by
  unfold State.checkPassword
  cases s.passwords uid with
  | none => exact h.stopped hp
  | some =>
    dsimp only
    split_ifs with hbad
    · exact h.stopped hp
    · rw [not_or, not_not] at hbad
      exact h.go hp (fun heq => hbad.2 (heq.trans hbad.1)) fun _ => rfl

theorem Inv.lockEdited (h : s.Inv) (hp : s.flows[p]? = some (.edit uid email)) :
    (s.lockEdited p uid email now).Inv := by
  unfold State.lockEdited
  split_ifs
  · cases hold : s.emailOf uid with
    | none => exact h.stopped hp
    | some =>
      dsimp only
      split_ifs with hsame
      · exact h.stopped hp
      · exact h.acquire hp ⟨take_held _, hold, hsame⟩ nofun
  · exact h

theorem Inv.step (h : s.Inv) {i : Input} (hp : s.flows[p]? = some f)
    (hsteady : s.Steady (.turn p i)) : (s.step env p i f).Inv := by
  cases f with
  | login => exact h.go hp trivial fun _ => rfl
  | loginFound l uid0 => exact h.go hp (le_refl (s.store.uepoch uid0)) fun _ => rfl
  | loginEpoch => exact h.authenticate hp
  | loginRehash =>
    obtain ⟨-, htold, hfits⟩ := h.flows p _ hp
    simp only [step]
    split_ifs with hbroken hfree
    · exact h.go hp (fine_proved htold hfits) fun _ => rfl
    · exact h.rehash hp hfree
    · exact h
  | loginOther =>
    refine h.go hp ?_ nofun
    exact ⟨⟨le_rfl, fun _ => trivial⟩, h.flows p _ hp⟩
  | mailStart email | resetStart email =>
    simp only [step]
    cases s.userByEmail email with
    | none => exact h.stopped hp
    | some => exact h.go hp trivial nofun
  | mailFound email uid =>
    have hgood : s.emailOf uid = some email ∨ s.Pending uid := by
      refine hsteady (email, uid) ?_
      rw [hp]
      rfl
    refine h.go hp ?_ nofun
    exact ⟨le_rfl, fun _ => hgood⟩
  | mailEpoch => exact h.issueMailLink hp _
  | mailUsed =>
    simp only [step]
    split_ifs
    · exact h.stopped hp
    · refine h.go hp ?_ nofun
      exact ⟨h.flows p _ hp, trivial⟩
  | ready => exact h.createSession hp
  | resetFound => exact h.acquire hp trivial nofun
  | resetExpired => exact h.stop hp _ _
  | complete => exact h.lockCode hp
  | completeCode => exact h.lockIf hp (fun hemail => ⟨take_held _, hemail⟩) fun _ => rfl
  | completeUser =>
    obtain ⟨hheld, hemail⟩ := h.flows p _ hp
    refine h.acquire hp ?_ fun _ => rfl
    exact ⟨passes_take.held _ hheld, hemail, take_held _, rfl, rfl, rfl⟩
  | completeWritten email now id w =>
    have hready : s.Ready p w := h.flows p _ hp
    exact h.acquire hp (hready.pass passes_take) fun hun => hun
  | change => exact h.checkPassword hp
  | changeChecked =>
    exact h.lockIf hp (fun hphc => ⟨take_held _, hphc, h.flows p _ hp⟩) fun _ => rfl
  | changeLocked =>
    obtain ⟨hheld, hphc, hne⟩ := h.flows p _ hp
    simp only [step]
    split_ifs
    · exact h.stopped hp
    · refine h.go hp ?_ fun _ => rfl
      exact ⟨hheld, hphc, rfl, hne⟩
  | edit => exact h.lockEdited hp
  | editLocked =>
    obtain ⟨hheld, hemail, hne⟩ := h.flows p _ hp
    exact h.lockIf hp (fun _ => ⟨passes_take.held _ hheld, hemail, hne⟩) nofun
  | editWritten =>
    obtain ⟨hheld, hemail, hne⟩ := h.flows p _ hp
    refine h.acquire hp ?_ nofun
    exact ⟨passes_take.held _ hheld, hemail, hne, rfl⟩
  | closing w t tail =>
    cases tail with
    | written => exact h.close_written hp
    | revoked => exact h.close_revoked hp
    | committed => exact h.close_committed hp
  | ended => exact h

theorem Inv.next (h : s.Inv) {l : Label} (hsteady : s.Steady l) : (s.next env l).Inv := by
  have hsame : Tame s.store s.store := (Quiet.refl _).tame
  -- a script on its own
  have hscript : ∀ st : Store, Tame s.store st → Inv { s with store := st } := fun st ht =>
    have hstill : Still s { s with store := st } := ⟨rfl, rfl, rfl, rfl⟩
    ⟨fun q g hg => (h.flows q g hg).pass (hstill.passes ht.uepoch fun _ hk => hk),
      hstill.rows h.rows fun _ hq => hq, h.marks.tame hstill ht rfl rfl rfl⟩
  cases l with
  | login
  | mailStart | resetStart | complete | change | edit => exact h.begin hsame fun _ => trivial
  | mailConsume hash =>
    refine h.begin (quiet_consumeMailLink hash).tame fun q => ?_
    cases hml : s.store.ml hash with
    | none =>
      simp only [consumeMailLink, hml]
      trivial
    | some x =>
      simp only [consumeMailLink, hml]
      exact h.marks.links hash x.1 x.2 hml
  | turn p =>
    simp only [State.next]
    cases hp : s.flows[p]? with
    | none => exact h
    | some => exact h.step hp hsteady
  | fail p =>
    simp only [State.next, State.fail]
    cases hp : s.flows[p]? with
    | none => exact h
    | some f =>
      split
      case h_1 hnone => exact nomatch hnone
      case h_2 => exact h
      case h_3 => exact h.stopped hp
  | check sid uid aud => exact hscript _ quiet_check.tame
  | expire key => exact hscript _ quiet_expire.tame

theorem inv_start {users : List User} (passwords : UUID → Option (Password × Bool))
    (hids : (users.map (·.id)).Nodup) : (start users passwords).Inv := by
  refine ⟨by simp [start], ⟨hids, by simp [start], by simp [start],
    by simp [start], by simp [start], by simp [start], by simp [start],
    fun uid x hx p hp => ?_,
    by simp [start]⟩, coherent_empty, by simp [start, empty],
    by simp [start, empty]⟩
  -- the hashes at the beginning have no salt
  obtain ⟨y, -, rfl⟩ := map_eq_some_iff.mp hx
  cases hp

end State

end Pandora.Identity
