import Pandora.Sessions.Scripts

/-!
# Sets of sessions, and epochs

What holds of a store whatever scripts have run on it: the set of a user has sessions of the user,
all of the current epoch, and no session is of an epoch that is still to come.  So a session that is
not in the set when its user is revoked is of an earlier epoch from then on.
-/

namespace Pandora.Sessions.Store

open Function Nat Option

/-! ## Scripts that move no epoch -/

/-- Sessions keep user, audience and epoch, and nothing new appears. -/
structure Tame (st st' : Store) : Prop where
  sess : ∀ sid s', st'.sess sid = some s' →
    ∃ s, st.sess sid = some s ∧ s'.uid = s.uid ∧ s'.aud = s.aud ∧ s'.epoch = s.epoch
  usess : ∀ uid sid, sid ∈ st'.usess uid → sid ∈ st.usess uid
  uepoch : st'.uepoch = st.uepoch
  ml : ∀ hash x, st'.ml hash = some x → st.ml hash = some x

variable {st : Store} {sid uid x : UUID} {s : Session}

theorem Quiet.tame {st' : Store} (h : Quiet st st') : Tame st st' where
  __ := h
  sess sid s' hs := by
    obtain ⟨s, hs, same⟩ := h.sess sid s' hs
    exact ⟨s, hs, same.uid, same.aud, same.epoch⟩

theorem tame_rotate {aud : Audience} {now idle : ℤ} {mode : Mode} {expect newHash : Hash} :
    Tame st (st.rotate sid uid aud now idle mode expect newHash).2 := by
  rcases rotate_cases st sid uid aud now idle mode expect newHash with
    ⟨s, -, hs, -, heq⟩ | ⟨hq, -⟩
  · rw [heq]
    refine ⟨fun x s' hx => ?_, fun _ _ h => h, rfl, fun _ _ h => h⟩
    by_cases hxs : x = sid
    · subst hxs
      obtain rfl := some.inj ((put_sess_self st x _).symm.trans hx)
      exact ⟨s, hs, rfl, rfl, rfl⟩
    · exact ⟨s', (put_sess_of_ne hxs _).symm.trans hx, rfl, rfl, rfl⟩
  · exact hq.tame

/-! ## Coherence -/

/-- Sessions have been created below `nextId` only. -/
structure Coherent (st : Store) (nextId : UUID) : Prop where
  fresh : ∀ sid s, st.sess sid = some s → sid < nextId
  freshMember : ∀ uid sid, sid ∈ st.usess uid → sid < nextId
  member : ∀ uid sid s, sid ∈ st.usess uid → st.sess sid = some s →
    s.uid = uid ∧ s.epoch = st.uepoch uid
  bounded : ∀ sid s, st.sess sid = some s → s.epoch ≤ st.uepoch s.uid

theorem coherent_empty : empty.Coherent 0 := by
  constructor <;> simp [empty]

namespace Coherent

variable {st' : Store} {nextId : UUID}

theorem tame (h : st.Coherent nextId) (ht : Tame st st') : st'.Coherent nextId where
  fresh sid s' hs := by
    obtain ⟨s, hs, -⟩ := ht.sess sid s' hs
    exact h.fresh sid s hs
  freshMember uid sid hmem := h.freshMember uid sid (ht.usess uid sid hmem)
  member uid sid s' hmem hs := by
    obtain ⟨s, hs, huid, -, hepoch⟩ := ht.sess sid s' hs
    obtain ⟨hu, he⟩ := h.member uid sid s (ht.usess uid sid hmem) hs
    exact ⟨huid.trans hu, by rw [hepoch, he, ht.uepoch]⟩
  bounded sid s' hs := by
    obtain ⟨s, hs, huid, -, hepoch⟩ := ht.sess sid s' hs
    rw [hepoch, huid, ht.uepoch]
    exact h.bounded sid s hs

theorem issueMailLink (h : st.Coherent nextId) (uid : UUID) (hash : Hash) (epoch : ℕ) :
    (st.issueMailLink uid hash epoch).Coherent nextId := { h with }

variable {rec : Session}

theorem create_of_eq (he : st.uepoch rec.uid = rec.epoch) : st.create sid rec =
    (true, (st.put sid (some { rec with rtPrev := none, rtRotatedAt := 0 })).sadd rec.uid sid) :=
  if_neg (not_not.mpr he)

theorem create_of_ne (he : st.uepoch rec.uid ≠ rec.epoch) : st.create sid rec = (false, st) :=
  if_pos he

theorem create_cases (hx : (st.create sid rec).2.sess x = some s) :
    (x = sid ∧ st.uepoch rec.uid = rec.epoch ∧ s.uid = rec.uid ∧ s.epoch = rec.epoch ∧
      (st.create sid rec).1 = true) ∨ (st.sess x = some s ∧
        (x = sid → (st.create sid rec).1 = false)) := by
  by_cases he : st.uepoch rec.uid = rec.epoch
  · rw [create_of_eq he] at hx ⊢
    by_cases hxs : x = sid
    · subst hxs
      obtain rfl := some.inj ((put_sess_self st x _).symm.trans hx)
      exact .inl ⟨rfl, he, rfl, rfl, rfl⟩
    · exact .inr ⟨(put_sess_of_ne hxs _).symm.trans hx, fun heq => absurd heq hxs⟩
  · rw [create_of_ne he] at hx ⊢
    exact .inr ⟨hx, fun _ => rfl⟩

theorem create_usess (hx : x ∈ (st.create sid rec).2.usess uid) :
    (x = sid ∧ uid = rec.uid ∧ st.uepoch rec.uid = rec.epoch) ∨ x ∈ st.usess uid := by
  by_cases he : st.uepoch rec.uid = rec.epoch
  · rw [create_of_eq he] at hx
    change x ∈ update st.usess rec.uid ((st.usess rec.uid).insert sid) uid at hx
    by_cases hu : uid = rec.uid
    · subst hu
      rw [update_self] at hx
      rcases List.mem_insert_iff.mp hx with rfl | hx
      · exact .inl ⟨rfl, rfl, he⟩
      · exact .inr hx
    · rw [update_of_ne hu] at hx
      exact .inr hx
  · rw [create_of_ne he] at hx
    exact .inr hx

theorem create_uepoch : (st.create sid rec).2.uepoch = st.uepoch := by
  unfold create
  split_ifs <;> rfl

theorem create_ml : (st.create sid rec).2.ml = st.ml := by
  unfold create
  split_ifs <;> rfl

theorem create (h : st.Coherent nextId) (rec : Session) :
    (st.create nextId rec).2.Coherent (nextId + 1) where
  fresh sid s hs := by
    rcases create_cases hs with ⟨rfl, -⟩ | ⟨hs, -⟩
    · exact lt_succ_self _
    · exact lt_succ_of_lt (h.fresh sid s hs)
  freshMember uid sid hmem := by
    rcases create_usess hmem with ⟨rfl, -⟩ | hmem
    · exact lt_succ_self _
    · exact lt_succ_of_lt (h.freshMember uid sid hmem)
  member uid sid s hmem hs := by
    rw [create_uepoch]
    rcases create_cases hs with ⟨rfl, he, huid, hepoch, -⟩ | ⟨hold, -⟩
    · rcases create_usess hmem with ⟨-, rfl, -⟩ | hin
      · exact ⟨huid, hepoch.trans he.symm⟩
      · exact absurd (h.freshMember uid _ hin) (lt_irrefl _)
    · rcases create_usess hmem with ⟨rfl, -⟩ | hin
      · exact absurd (h.fresh _ s hold) (lt_irrefl _)
      · exact h.member uid sid s hin hold
  bounded sid s hs := by
    rw [create_uepoch]
    rcases create_cases hs with ⟨rfl, he, huid, hepoch, -⟩ | ⟨hs, -⟩
    · rw [huid, hepoch, he]
    · exact h.bounded sid s hs

theorem revokeUser (h : st.Coherent nextId) (uid : UUID) (except : Option UUID) (scope : Scope) :
    (st.revokeUser uid except scope).2.Coherent nextId where
  fresh sid s hs := by
    rcases revokeUser_cases hs with ⟨hmem, -⟩ | ⟨-, hs⟩
    · exact h.freshMember uid sid hmem
    · exact h.fresh sid s hs
  freshMember u sid hmem := h.freshMember u sid (revokeUser_usess hmem)
  member u sid s' hmem hs := by
    rw [revokeUser_uepoch]
    rcases revokeUser_cases hs with ⟨hin, s, hold, -, rfl⟩ | ⟨hout, hs⟩
    · obtain rfl : uid = u :=
        (h.member uid sid s hin hold).1.symm.trans (h.member u sid s (revokeUser_usess hmem) hold).1
      exact ⟨(h.member uid sid s hin hold).1, by rw [update_self]⟩
    · have hu : u ≠ uid := by
        rintro rfl
        exact hout (revokeUser_usess hmem)
      rw [update_of_ne hu]
      exact h.member u sid s' (revokeUser_usess hmem) hs
  bounded sid s' hs := by
    rw [revokeUser_uepoch]
    rcases revokeUser_cases hs with ⟨hin, s, hold, -, rfl⟩ | ⟨-, hs⟩
    · rw [(h.member uid sid s hin hold).1, update_self]
    · by_cases hu : s'.uid = uid
      · rw [hu, update_self]
        exact le_succ_of_le (hu ▸ h.bounded sid s' hs)
      · rw [update_of_ne hu]
        exact h.bounded sid s' hs

/-- A session of the current epoch after a revocation is of somebody else, or was current before and
is kept. -/
theorem current_of_revokeUser (h : st.Coherent nextId) {except : Option UUID}
    {scope : Scope} {s' : Session} (hs : (st.revokeUser uid except scope).2.sess sid = some s')
    (hcur : s'.epoch = (st.revokeUser uid except scope).2.uepoch s'.uid) :
    ∃ s, st.sess sid = some s ∧ s.uid = s'.uid ∧ s.aud = s'.aud ∧ s.epoch = st.uepoch s.uid ∧
      (s'.uid = uid → Keeps except scope sid s.aud) := by
  rw [revokeUser_uepoch] at hcur
  rcases revokeUser_cases hs with ⟨hin, s, hold, hkeep, rfl⟩ | ⟨-, hs⟩
  · obtain ⟨hu, he⟩ := h.member uid sid s hin hold
    exact ⟨s, hold, rfl, rfl, by rw [he, hu], fun _ => hkeep⟩
  · by_cases hu : s'.uid = uid
    · rw [hu, update_self] at hcur
      exact absurd hcur (Nat.ne_of_lt (lt_succ_of_le (hu ▸ h.bounded sid s' hs)))
    · rw [update_of_ne hu] at hcur
      exact ⟨s', hs, rfl, rfl, hcur, fun heq => absurd heq hu⟩

end Coherent

theorem of_check {aud : Option Audience} {now idle : ℤ}
    (h : (st.check sid uid aud now idle).1 = some s) :
    st.sess sid = some s ∧ s.uid = uid ∧ s.epoch = st.uepoch s.uid := by
  unfold check at h
  cases hs : st.sess sid with
  | none => simp [hs] at h
  | some s' =>
    simp only [hs] at h
    split_ifs at h with hid hl hseen
    all_goals
      obtain rfl := some.inj h
      obtain rfl : s'.uid = uid := by
        by_contra hne
        exact hid (.inl hne)
      have hep : st.uepoch s'.uid = s'.epoch := by
        by_contra hne
        exact hl (.inr (.inr hne))
      exact ⟨rfl, rfl, hep.symm⟩

end Pandora.Sessions.Store
