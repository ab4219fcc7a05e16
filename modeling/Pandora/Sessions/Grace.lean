import Pandora.Sessions.Rotation

/-!
# The grace period

After a rotation the token before may be presented for `refreshGrace` seconds: the answer may have
been lost on its way.  The time of the rotation is stored in whole seconds, and `Refresh` compares
that with a clock that knows more than seconds.  What was cut off from the time of the rotation is
missing at the end of the period: a token that is presented then is taken for a stolen one, and the
session is revoked (`revoked_in_grace`).

`grace_iff` says when exactly the session survives.
-/

namespace Pandora.Sessions

open Store Function Call Time

/-- Some steps of a call that nothing happens in between. -/
def Call.alone (env : Env) (stillAdmin : Bool) (later : ℤ) : ℕ → Call × Store → Call × Store
  | 0, r => r
  | n + 1, r => Call.alone env stillAdmin later n (r.1.step env stillAdmin later r.2)

/-- The token was presented for the last rotation of the session, which was at that time. -/
structure Session.RotatedWith (k : Keys) (tok : Token) (t : ℤ) (s : Session) : Prop where
  authentic : k.refreshAuthentic tok s.rtSeed
  cur : k.hashSecret tok.secret ≠ s.rtCur
  prev : s.rtPrev = some (k.hashSecret tok.secret)
  rotatedAt : s.rtRotatedAt = unix t

namespace Session.RotatedWith

variable {k : Keys} {tok : Token} {t u : ℤ} {s s' : Session}

theorem of_rotation (hk : k.Separates) (hauth : k.refreshAuthentic tok s.rtSeed)
    (hcur : s.rtCur = k.hashSecret tok.secret) {hash : Hash}
    (hnext : k.hashOf tok.sid s.rtSeed (tok.gen + 1) = some hash) :
    (rotatedSession s (unix t) hash).RotatedWith k tok t where
  authentic := hauth
  cur heq := by
    have hhash : k.hashSecret tok.secret = hash := heq
    have hgen := Keys.hashOf_of_authentic hauth
    rw [hhash] at hgen
    exact absurd (hk.eq_of_hashOf hgen hnext) (Nat.lt_succ_self tok.gen).ne
  prev := congrArg some hcur
  rotatedAt := rfl

theorem of_sameTokens (h : s.RotatedWith k tok t) (hsame : s.SameTokens s') :
    s'.RotatedWith k tok t where
  authentic := hsame.seed ▸ h.authentic
  cur := hsame.cur ▸ h.cur
  prev := hsame.prev.trans h.prev
  rotatedAt := hsame.rotatedAt.trans h.rotatedAt

theorem judge (h : s.RotatedWith k tok t) : k.judge s.aud tok u s.refreshState =
      if refreshGrace * second < sub u (fromUnix (unix t)) then .reused else .proceed .grace := by
  show (if s.aud ≠ s.aud then Verdict.refused else if ¬ k.refreshAuthentic tok s.rtSeed then _ else
    if k.hashSecret tok.secret = s.rtCur then _ else
      if some (k.hashSecret tok.secret) = s.rtPrev then
        if refreshGrace * second < sub u (fromUnix s.rtRotatedAt) then _ else _ else _) = _
  rw [if_neg (not_not.2 rfl), if_neg (not_not.2 h.authentic), if_neg h.cur, if_pos h.prev.symm,
    h.rotatedAt]

end Session.RotatedWith

/-! ## Times -/

section Times

variable {t u : ℤ}

theorem fromUnix_unix (ht : second ≤ t) : fromUnix (unix t) = t - t % second := by
  unfold fromUnix unix second at *
  rw [if_neg (by omega)]
  omega

theorem within_grace_iff (ht : second ≤ t) (htu : t ≤ u) (hu : u ≤ t + refreshGrace * second) :
    ¬ refreshGrace * second < sub u (fromUnix (unix t)) ↔
      u - t + t % second ≤ refreshGrace * second := by
  rw [fromUnix_unix ht, sub_of_fits]
  · rw [not_lt, show u - (t - t % second) = u - t + t % second by omega]
  all_goals
    unfold refreshGrace second at *
    first
      | unfold Duration.least
        omega
      | unfold Duration.most
        omega

/-- What `Refresh` lets through, the script lets through. -/
theorem unix_within_grace (hu : u - t + t % second ≤ refreshGrace * second) :
    ¬ refreshGrace < unix u - unix t := by
  unfold unix refreshGrace second at *
  omega

end Times

/-! ## The call -/

section Call

variable {env : Env} {st : Store} {tok : Token} {s : Session} {t u : ℤ} {stillAdmin : Bool}
  {later : ℤ}

theorem alone_reused (hs : st.sess tok.sid = some s)
    (hjudge : env.keys.judge s.aud tok u s.refreshState = .reused) :
    alone env stillAdmin later 3 (⟨s.aud, tok, .read 0 u⟩, st) =
      (⟨s.aud, tok, .done .refused⟩, st.drop s.uid tok.sid) := by
  have hread : st.readRefresh tok.sid = some s.refreshState := by
    rw [readRefresh, hs]
    rfl
  have hrevoke : st.revokeOne tok.sid s.uid (some s.aud) = (true, st.drop s.uid tok.sid) := by
    unfold revokeOne
    simp only [hs]
    rw [if_neg (by simp)]
  simp only [alone, step, hread, afterRead, hjudge]
  rw [show s.refreshState.userId = s.uid from rfl, hrevoke]

theorem alone_granted (hs : st.sess tok.sid = some s)
    (hjudge : env.keys.judge s.aud tok u s.refreshState = .proceed .grace)
    (hadmin : s.aud = .admin → stillAdmin = true)
    (halive : ¬ st.Lapsed s.uid s (seconds (env.idleTimeout s.aud)) (unix u))
    (hprev : s.rtPrev = some (env.keys.hashSecret tok.secret))
    (hgrace : ¬ refreshGrace < unix u - s.rtRotatedAt) :
    ∃ answer, alone env stillAdmin later 3 (⟨s.aud, tok, .read 0 u⟩, st) =
      (⟨s.aud, tok, .done answer⟩, st.put tok.sid (some { s with lastSeen := unix u })) := by
  have hread : st.readRefresh tok.sid = some s.refreshState := by
    rw [readRefresh, hs]
    rfl
  have hscript : (⟨s.aud, tok, .read 0 u⟩ : Call).script env u s.refreshState .grace st =
      (.ok s, st.put tok.sid (some { s with lastSeen := unix u })) := by
    unfold script rotate
    simp only [hs, Session.refreshState]
    rw [if_neg (by simp), if_neg halive, if_neg (not_or.mpr ⟨not_not.mpr hprev, hgrace⟩)]
  refine ⟨.granted s.uid s.amr s.absExp
    ((⟨s.aud, tok, .read 0 u⟩ : Call).handOut env s.refreshState .grace), ?_⟩
  have hrotate : (⟨s.aud, tok, .rotate 0 u s.refreshState .grace⟩ : Call).script env u
      s.refreshState .grace st = (.ok s, st.put tok.sid (some { s with lastSeen := unix u })) :=
        hscript
  by_cases haud : s.aud = .admin
  · simp only [alone, step, hread, afterRead, hjudge, if_pos haud, hadmin haud, if_true,
      hrotate]
    rfl
  · simp only [alone, step, hread, afterRead, hjudge, if_neg haud, hrotate]
    rfl

/-- **The grace period.**  A session is rotated with a token at some time, nothing happens to its
tokens, and the token is presented again within the grace period.  The call ends, and the session is
still there exactly if the token came before the end of the period by more than the rotation had
come after a full second. -/
theorem grace_iff (hk : env.keys.Separates) {st₀ st₁ : Store} {s₀ : Session} {idle : ℤ}
    {hash : Hash} (hauth : env.keys.refreshAuthentic tok s₀.rtSeed)
    (hnext : env.keys.hashOf tok.sid s₀.rtSeed (tok.gen + 1) = some hash)
    (hrotate : st₀.rotate tok.sid s₀.uid s₀.aud (unix t) idle .rotate
      (env.keys.hashSecret tok.secret) hash = (.ok s₀, st₁))
    (hs₁ : ∀ s₁, st₁.sess tok.sid = some s₁ → s₁.SameTokens s) (hs : st.sess tok.sid = some s)
    (ht : second ≤ t) (htu : t ≤ u) (hu : u ≤ t + refreshGrace * second)
    (halive : ¬ st.Lapsed s.uid s (seconds (env.idleTimeout s.aud)) (unix u))
    (hadmin : s.aud = .admin → stillAdmin = true) :
    (∃ answer, (Call.alone env stillAdmin later 3 (⟨s.aud, tok, .read 0 u⟩, st)).1 =
        ⟨s.aud, tok, .done answer⟩) ∧
      ((Call.alone env stillAdmin later 3 (⟨s.aud, tok, .read 0 u⟩, st)).2.sess tok.sid ≠ none ↔
        u - t + t % second ≤ refreshGrace * second) := by
  have hrot : s.RotatedWith env.keys tok t := by
    rcases rotate_cases st₀ tok.sid s₀.uid s₀.aud (unix t) idle .rotate
      (env.keys.hashSecret tok.secret) hash with ⟨s', -, -, hcur, heq⟩ | ⟨-, hne⟩
    · rw [hrotate] at heq
      obtain ⟨hok, hst⟩ := Prod.mk.inj heq
      obtain rfl := Rotated.ok.inj hok
      have hsess : st₁.sess tok.sid = some (rotatedSession s₀ (unix t) hash) := by
        rw [hst]
        exact update_self ..
      exact (Session.RotatedWith.of_rotation hk hauth hcur hnext).of_sameTokens (hs₁ _ hsess)
    · exact absurd (congrArg Prod.fst hrotate) (hne rfl s₀)
  by_cases hgrace : refreshGrace * second < Time.sub u (fromUnix (unix t))
  · -- outside of what `Refresh` takes for the grace period
    rw [alone_reused hs (hrot.judge.trans (if_pos hgrace))]
    refine ⟨⟨_, rfl⟩, ⟨fun hkept => absurd (update_self ..) hkept, fun hle => ?_⟩⟩
    exact absurd hgrace ((within_grace_iff ht htu hu).mpr hle)
  · have hle := (within_grace_iff ht htu hu).mp hgrace
    obtain ⟨answer, heq⟩ := alone_granted hs (hrot.judge.trans (if_neg hgrace)) hadmin
      halive hrot.prev (hrot.rotatedAt ▸ unix_within_grace hle)
    rw [heq]
    refine ⟨⟨answer, rfl⟩, iff_of_true ?_ hle⟩
    rw [show (st.put tok.sid (some { s with lastSeen := unix u })).sess tok.sid =
      some { s with lastSeen := unix u } from update_self ..]
    exact Option.some_ne_none _

end Call

/-! ## A session that is revoked in its grace period -/

/-- A session in its first generation. -/
def Session.fresh : Session :=
  ⟨7, .portal, [.password], 1000, 1000, 90000, some 4, Env.sample.keys.refreshSecret 1 4 0,
    none, 0, 0⟩

/-- Its token. -/
def Token.fresh : Token := ⟨1, 0, Env.sample.keys.refreshSecret 1 4 0⟩

/-- The store after the session was rotated, half a second after second 1001. -/
def Store.afterRotation : Store :=
  (rotate (.put .empty 1 (some .fresh)) 1 7 .portal (unix 1001500000000) 0 .rotate
    (Env.sample.keys.hashSecret Token.fresh.secret)
    (Env.sample.keys.hashSecret (Env.sample.keys.refreshSecret 1 4 1))).2

theorem revoked_in_grace :
    (Call.alone .sample true 0 3 (⟨.portal, .fresh, .read 0 (1001500000000 + 30 * second)⟩,
      .afterRotation)).2.sess 1 = none := by
  decide +kernel

theorem kept_in_grace :
    (Call.alone .sample true 0 3 (⟨.portal, .fresh, .read 0 (1001500000000 + 29 * second)⟩,
      .afterRotation)).2.sess 1 ≠ none := by
  have hrotate : rotate (.put .empty 1 (some .fresh)) 1 7 .portal (unix 1001500000000) 0 .rotate
      (Env.sample.keys.hashSecret Token.fresh.secret)
      (Env.sample.keys.hashSecret (Env.sample.keys.refreshSecret 1 4 1)) =
        (.ok .fresh, .afterRotation) := rfl
  have hs : Store.afterRotation.sess 1 = some (rotatedSession .fresh (unix 1001500000000)
      (Env.sample.keys.hashSecret (Env.sample.keys.refreshSecret 1 4 1))) := rfl
  have hauth : Env.sample.keys.refreshAuthentic .fresh Session.fresh.rtSeed := by decide +kernel
  refine (grace_iff (t := 1001500000000) Env.sample_separates hauth rfl
    hrotate (fun s₁ hs₁ => ?_) hs (by decide) (by decide) (by decide) (by decide +kernel)
    nofun).2.mpr
    (by decide)
  obtain rfl := Option.some.inj (hs.symm.trans hs₁)
  exact ⟨rfl, rfl, rfl, rfl, rfl, rfl⟩

end Pandora.Sessions
