import Pandora.Sessions.Store

/-!
# What the scripts can do

Most scripts create no session, rotate no token and move no epoch: whatever session there is
afterwards was there before, and is the same but for the times it carries.  That is `Quiet`.
Four are not of this kind, and each has its own lemmas: `create`, a successful `rotate`,
`revokeUser` and `issueMailLink`.
-/

namespace Pandora.Sessions

open Function

/-- The same session, but for when it was last seen and re-authenticated. -/
structure Session.Same (s s' : Session) : Prop where
  uid : s'.uid = s.uid
  aud : s'.aud = s.aud
  seed : s'.rtSeed = s.rtSeed
  cur : s'.rtCur = s.rtCur
  prev : s'.rtPrev = s.rtPrev
  rotatedAt : s'.rtRotatedAt = s.rtRotatedAt
  epoch : s'.epoch = s.epoch

theorem Session.Same.refl (s : Session) : s.Same s := ⟨rfl, rfl, rfl, rfl, rfl, rfl, rfl⟩

namespace Store

variable {st st' : Store} {sid uid : UUID}

/-- A script that leaves sessions, epochs and links as they are, or removes them. -/
structure Quiet (st st' : Store) : Prop where
  sess : ∀ sid s', st'.sess sid = some s' → ∃ s, st.sess sid = some s ∧ s.Same s'
  usess : ∀ uid sid, sid ∈ st'.usess uid → sid ∈ st.usess uid
  uepoch : st'.uepoch = st.uepoch
  ml : ∀ hash x, st'.ml hash = some x → st.ml hash = some x

namespace Quiet

theorem of_eq (hs : st'.sess = st.sess) (hu : st'.usess = st.usess) (he : st'.uepoch = st.uepoch)
    (hm : st'.ml = st.ml) : Quiet st st' where
  sess sid s' h := ⟨s', by rw [← hs, h], .refl s'⟩
  usess uid sid h := by rwa [hu] at h
  uepoch := he
  ml hash x h := by rwa [hm] at h

theorem refl (st : Store) : Quiet st st := of_eq rfl rfl rfl rfl

theorem trans {st'' : Store} (h : Quiet st st') (h' : Quiet st' st'') : Quiet st st'' where
  sess sid s'' hs := by
    obtain ⟨s', hs', same'⟩ := h'.sess sid s'' hs
    obtain ⟨s, hs, same⟩ := h.sess sid s' hs'
    exact ⟨s, hs, same'.uid.trans same.uid, same'.aud.trans same.aud, same'.seed.trans same.seed,
      same'.cur.trans same.cur, same'.prev.trans same.prev,
      same'.rotatedAt.trans same.rotatedAt, same'.epoch.trans same.epoch⟩
  usess uid sid hm := h.usess uid sid (h'.usess uid sid hm)
  uepoch := h'.uepoch.trans h.uepoch
  ml hash x hm := h.ml hash x (h'.ml hash x hm)

theorem put_none {st : Store} {sid : UUID} : Quiet st (st.put sid none) where
  sess x s' h := by
    by_cases hx : x = sid
    · subst hx
      simp [put] at h
    · exact ⟨s', by simpa [put, hx] using h, .refl s'⟩
  usess _ _ h := h
  uepoch := rfl
  ml _ _ h := h

theorem put_same {s s' : Session} (hs : st.sess sid = some s) (same : s.Same s') :
    Quiet st (st.put sid (some s')) where
  sess x t h := by
    by_cases hx : x = sid
    · subst hx
      obtain rfl : s' = t := by simpa [put] using h
      exact ⟨s, hs, same⟩
    · exact ⟨t, by simpa [put, hx] using h, .refl t⟩
  usess _ _ h := h
  uepoch := rfl
  ml _ _ h := h

theorem srem (st : Store) (uid sid : UUID) : Quiet st (st.srem uid sid) where
  sess _ s' h := ⟨s', h, .refl s'⟩
  usess x y h := by
    by_cases hx : x = uid
    · subst hx
      simp only [Store.srem, update_self] at h
      exact (List.mem_filter.1 h).1
    · simpa [Store.srem, hx] using h
  uepoch := rfl
  ml _ _ h := h

theorem drop (st : Store) (uid sid : UUID) : Quiet st (st.drop uid sid) :=
  put_none.trans (srem _ uid sid)

end Quiet

@[simp] theorem put_sess_self (st : Store) (sid : UUID) (s : Option Session) :
    (st.put sid s).sess sid = s := by simp [put]

variable {x : UUID} {except : Option UUID} {scope : Scope}

theorem put_sess_of_ne (hx : x ≠ sid) (s : Option Session) :
    (st.put sid s).sess x = st.sess x := by simp [put, hx]

@[simp] theorem drop_sess_self (st : Store) (uid sid : UUID) :
    (st.drop uid sid).sess sid = none := put_sess_self st sid none

theorem quiet_check {sid uid : UUID} {aud : Option Audience} {now idle : ℤ} :
    Quiet st (st.check sid uid aud now idle).2 := by
  unfold check
  cases hs : st.sess sid with
  | none => exact .srem st uid sid
  | some =>
    dsimp only
    split_ifs
    · exact .refl st
    · exact .drop st uid sid
    · exact .put_same hs ⟨rfl, rfl, rfl, rfl, rfl, rfl, rfl⟩
    · exact .refl st

theorem quiet_revokeOne (sid uid : UUID) (aud : Option Audience) :
    Quiet st (st.revokeOne sid uid aud).2 := by
  unfold revokeOne
  cases st.sess sid with
  | none => exact .refl st
  | some =>
    dsimp only
    split_ifs
    · exact .refl st
    · exact .drop st uid sid

theorem quiet_stampReauth {sid uid : UUID} {aud : Audience} {now idle : ℤ} :
    Quiet st (st.stampReauth sid uid aud now idle).2 := by
  unfold stampReauth
  cases hs : st.sess sid with
  | none => exact .refl st
  | some =>
    dsimp only
    split_ifs
    · exact .refl st
    · exact .put_same hs ⟨rfl, rfl, rfl, rfl, rfl, rfl, rfl⟩

theorem quiet_issueQuickLogin {sid uid : UUID} (hash : Hash) :
    Quiet st (st.issueQuickLogin sid uid hash).2 := by
  unfold issueQuickLogin
  split_ifs
  · exact .refl st
  · exact .of_eq rfl rfl rfl rfl

theorem quiet_consumeQuickLogin (hash : Hash) (aud : Audience) (now : ℤ) :
    Quiet st (st.consumeQuickLogin hash aud now).2 := by
  unfold consumeQuickLogin
  cases st.ql hash with
  | none => exact .refl st
  | some x =>
    obtain ⟨sid, uid⟩ := x
    dsimp only
    cases st.sess sid with
    | none => exact .of_eq rfl rfl rfl rfl
    | some =>
      dsimp only
      split_ifs
      · exact .of_eq rfl rfl rfl rfl
      · exact .of_eq rfl rfl rfl rfl

section

variable {α β : Type*} [DecidableEq α] {f g : α → Option β} {a x : α} {b y : β}

theorem of_update_none (h : update f a none x = some b) : f x = some b := by
  by_cases hx : x = a
  · subst hx
    simp at h
  · simpa [hx] using h

theorem of_update_some (hg : g = update f a (some y)) (h : g x = some b) :
    (x = a ∧ b = y) ∨ (x ≠ a ∧ f x = some b) := by
  rw [hg, update_apply] at h
  split_ifs at h with hx
  · exact .inl ⟨hx, (Option.some.inj h).symm⟩
  · exact .inr ⟨hx, h⟩

end

theorem quiet_consumeMailLink (hash : Hash) : Quiet st (st.consumeMailLink hash).2 := by
  unfold consumeMailLink
  cases st.ml hash with
  | none => exact .refl st
  | some => exact ⟨fun _ s' h => ⟨s', h, .refl s'⟩, fun _ _ h => h, rfl, fun _ _ => of_update_none⟩

theorem quiet_expire {key : Key} : Quiet st (st.expire key) := by
  cases key with
  | sess sid => exact .put_none
  | usess uid =>
    refine ⟨fun _ s' h => ⟨s', h, .refl s'⟩, fun x y h => ?_, rfl, fun _ _ h => h⟩
    by_cases hx : x = uid
    · subst hx
      simp [expire] at h
    · simpa [expire, hx] using h
  | ml => exact ⟨fun _ s' h => ⟨s', h, .refl s'⟩, fun _ _ h => h, rfl, fun _ _ => of_update_none⟩
  | ql | qls | mlu => exact .of_eq rfl rfl rfl rfl

/-- A session as a rotation leaves it. -/
def rotatedSession (s : Session) (now : ℤ) (newHash : Hash) : Session :=
  { s with rtPrev := some s.rtCur, rtCur := newHash, rtRotatedAt := now, lastSeen := now }

/-- Either the script rotated, or it was quiet and did not answer that it rotated. -/
theorem rotate_cases (st : Store) (sid uid : UUID) (aud : Audience) (now idle : ℤ) (mode : Mode)
    (expect newHash : Hash) : (∃ s, mode = .rotate ∧ st.sess sid = some s ∧ s.rtCur = expect ∧
        st.rotate sid uid aud now idle mode expect newHash =
          (.ok s, st.put sid (some (rotatedSession s now newHash)))) ∨
      (Quiet st (st.rotate sid uid aud now idle mode expect newHash).2 ∧
        (mode = .rotate → ∀ s, (st.rotate sid uid aud now idle mode expect newHash).1 ≠
          .ok s)) := by
  unfold rotate
  cases hs : st.sess sid with
  | none => exact .inr ⟨.refl st, by simp⟩
  | some s =>
    dsimp only
    by_cases hid : s.uid ≠ uid ∨ s.aud ≠ aud
    · rw [if_pos hid]
      exact .inr ⟨.refl st, by simp⟩
    rw [if_neg hid]
    by_cases hl : st.Lapsed uid s idle now
    · rw [if_pos hl]
      exact .inr ⟨.drop st uid sid, by simp⟩
    rw [if_neg hl]
    cases mode with
    | rotate =>
      by_cases hc : s.rtCur = expect
      · exact .inl ⟨s, rfl, rfl, hc, if_neg (not_not.2 hc)⟩
      · rw [if_pos hc]
        exact .inr ⟨.refl st, by simp⟩
    | grace =>
      refine .inr ⟨?_, by simp⟩
      dsimp only
      split_ifs
      · exact .refl st
      · exact .put_same hs ⟨rfl, rfl, rfl, rfl, rfl, rfl, rfl⟩

/-! ## The loop of `revokeUser` -/

section Revoke

variable (uid : UUID) (except : Option UUID) (scope : Scope) (ep : ℕ)

/-- What the loop makes of a member of the set. -/
def revoked (sid : UUID) (s : Option Session) : Option Session :=
  s.bind fun s => if Keeps except scope sid s.aud then some { s with epoch := ep } else none

theorem revoked_revoked {sid : UUID} {s : Option Session} :
    revoked except scope ep sid (revoked except scope ep sid s) =
      revoked except scope ep sid s := by
  cases s with
  | none => rfl
  | some s => by_cases h : Keeps except scope sid s.aud <;> simp [revoked, h]

theorem revokeMember_sess (r : ℕ × Store) (sid x : UUID) :
    (revokeMember uid except scope ep r sid).2.sess x =
      if x = sid then revoked except scope ep sid (r.2.sess sid) else r.2.sess x := by
  unfold revokeMember
  cases hs : r.2.sess sid with
  | none =>
    by_cases hx : x = sid
    · subst hx
      simp [revoked, srem, hs]
    · simp [srem, hx]
  | some =>
    dsimp only
    split_ifs with hk hx hx
    · subst hx
      simp [revoked, hk]
    · exact put_sess_of_ne hx _
    · subst hx
      simp [revoked, hk]
    · exact put_sess_of_ne hx _

theorem revokeMember_quiet (r : ℕ × Store) (sid : UUID) :
    (∀ x y, y ∈ (revokeMember uid except scope ep r sid).2.usess x → y ∈ r.2.usess x) ∧
      (revokeMember uid except scope ep r sid).2.uepoch = r.2.uepoch ∧
      (revokeMember uid except scope ep r sid).2.ml = r.2.ml := by
  unfold revokeMember
  cases r.2.sess sid with
  | none => exact ⟨(Quiet.srem r.2 uid sid).usess, rfl, rfl⟩
  | some =>
    dsimp only
    split_ifs
    · exact ⟨fun _ _ h => h, rfl, rfl⟩
    · exact ⟨(Quiet.drop r.2 uid sid).usess, rfl, rfl⟩

theorem foldl_revokeMember (sids : List UUID) (r : ℕ × Store) :
    (∀ x, (sids.foldl (revokeMember uid except scope ep) r).2.sess x =
        if x ∈ sids then revoked except scope ep x (r.2.sess x) else r.2.sess x) ∧
      (∀ x y, y ∈ (sids.foldl (revokeMember uid except scope ep) r).2.usess x → y ∈ r.2.usess x) ∧
      (sids.foldl (revokeMember uid except scope ep) r).2.uepoch = r.2.uepoch ∧
      (sids.foldl (revokeMember uid except scope ep) r).2.ml = r.2.ml := by
  induction sids generalizing r with
  | nil => simp
  | cons sid sids ih =>
    obtain ⟨hs, hu, he, hm⟩ := ih (revokeMember uid except scope ep r sid)
    obtain ⟨hu', he', hm'⟩ := revokeMember_quiet uid except scope ep r sid
    refine ⟨fun x => ?_, fun x y h => hu' x y (hu x y h), he.trans he', hm.trans hm'⟩
    rw [List.foldl_cons, hs, revokeMember_sess]
    by_cases hx : x = sid
    · subst hx
      simp [revoked_revoked]
    · simp [hx]

end Revoke

theorem revokeUser_usess {y : UUID}
    (h : y ∈ (st.revokeUser uid except scope).2.usess x) : y ∈ st.usess x :=
  (foldl_revokeMember uid except scope _ (st.usess uid) _).2.1 x y h

theorem revokeUser_uepoch (st : Store) (uid : UUID) (except : Option UUID) (scope : Scope) :
    (st.revokeUser uid except scope).2.uepoch = update st.uepoch uid (st.uepoch uid + 1) :=
  (foldl_revokeMember uid except scope _ (st.usess uid) _).2.2.1

theorem revokeUser_ml (st : Store) (uid : UUID) (except : Option UUID) (scope : Scope) :
    (st.revokeUser uid except scope).2.ml = st.ml :=
  (foldl_revokeMember uid except scope _ (st.usess uid) _).2.2.2

theorem of_revoked {ep : ℕ} {o : Option Session}
    {s' : Session} (h : revoked except scope ep sid o = some s') :
    ∃ s, o = some s ∧ Keeps except scope sid s.aud ∧ s' = { s with epoch := ep } := by
  cases o with
  | none => simp [revoked] at h
  | some s =>
    by_cases hk : Keeps except scope sid s.aud
    · exact ⟨s, rfl, hk, by simpa [revoked, hk] using h.symm⟩
    · simp [revoked, hk] at h

/-- A session after `revokeUser` was in the set and is kept, or was not in the set. -/
theorem revokeUser_cases {s' : Session} (h : (st.revokeUser uid except scope).2.sess x = some s') :
    (x ∈ st.usess uid ∧ ∃ s, st.sess x = some s ∧ Keeps except scope x s.aud ∧
        s' = { s with epoch := st.uepoch uid + 1 }) ∨
      (x ∉ st.usess uid ∧ st.sess x = some s') := by
  replace h := ((foldl_revokeMember uid except scope _ (st.usess uid) _).1 x).symm.trans h
  by_cases hx : x ∈ st.usess uid
  · rw [if_pos hx] at h
    exact .inl ⟨hx, of_revoked h⟩
  · rw [if_neg hx] at h
    exact .inr ⟨hx, h⟩

end Store
end Pandora.Sessions
