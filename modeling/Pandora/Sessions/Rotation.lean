import Mathlib.Data.List.Nodup
import Pandora.Sessions.Scripts
import Pandora.Sessions.System

/-!
# Rotations in a line

A session stores two hashes: that of its current refresh secret and that of the one before.
`Session.At` says of which generations these are.  The generation itself is not stored; it is
the number of rotations the session has been through (`Config.generation`), and the main
invariant, `Config.Linear`, is that the two hashes always are those of this number and of the
number before.

`Refresh` judges a token by what it read, and the script judges once more, so a stale read is
harmless: the script rotates only if the current hash is the one the token was recognised by,
and with hashes that tell generations apart that is the token's own generation
(`Keys.Separates`).

The second half follows one call.  A token that is too old when it is presented stays too old,
since generations only grow; whatever other requests do meanwhile, the call finds it so when
it reads, and removes the session (`Config.Doomed`).
-/

namespace Pandora.Sessions

open Store List Function Option Nat Call Keys Sessions.Flow

/-- Secrets of different sessions or different generations have different hashes. -/
def Keys.Separates (k : Keys) : Prop :=
  ∀ sid seed gen sid' seed' gen',
    k.hashSecret (k.refreshSecret sid seed gen) = k.hashSecret (k.refreshSecret sid' seed' gen') →
      sid = sid' ∧ gen = gen'

/-- The hash of the generation before; the first has none. -/
def Keys.hashBefore (k : Keys) (sid : UUID) (seed : Option Secret) : ℕ → Option Hash
  | 0 => none
  | g + 1 => k.hashOf sid seed g

/-- The hashes of a session are those of a generation and of the one before. -/
def Session.At (k : Keys) (sid : UUID) (s : Session) (g : ℕ) : Prop :=
  k.hashOf sid s.rtSeed g = some s.rtCur ∧ k.hashBefore sid s.rtSeed g = s.rtPrev

/-- The generation of a session: how often it was rotated. -/
def Config.generation (c : Config) (sid : UUID) : ℕ := (c.rotations.filter (·.sid = sid)).length

namespace Keys

variable {k : Keys} {sid : UUID} {seed : Option Secret} {g g' : ℕ} {h : Hash}

theorem hashOf_of_authentic {t : Token} (h : k.refreshAuthentic t seed) :
    k.hashOf t.sid seed t.gen = some (k.hashSecret t.secret) := by
  rw [hashOf, show k.secretOf t.sid seed t.gen = some t.secret from h, map_some]

theorem hashOf_next (hg : k.hashOf sid seed g = some h) (g' : ℕ) :
    ∃ h', k.hashOf sid seed g' = some h' := by
  cases seed with
  | none => simp [hashOf, secretOf] at hg
  | some x => exact ⟨k.hashSecret (k.refreshSecret sid x g'), rfl⟩

theorem Separates.eq_of_hashOf (hk : k.Separates) (hg : k.hashOf sid seed g = some h)
    (hg' : k.hashOf sid seed g' = some h) : g = g' := by
  cases seed with
  | none => simp [hashOf, secretOf] at hg
  | some x =>
    have heq : k.hashSecret (k.refreshSecret sid x g) = k.hashSecret (k.refreshSecret sid x g') :=
      some.inj (hg.trans hg'.symm)
    exact (hk _ _ _ _ _ _ heq).2

end Keys

/-! ## What one step does to sessions -/

/-- The two sessions carry the same tokens, for the same user and audience. -/
structure Session.SameTokens (s s' : Session) : Prop where
  uid : s'.uid = s.uid
  aud : s'.aud = s.aud
  seed : s'.rtSeed = s.rtSeed
  cur : s'.rtCur = s.rtCur
  prev : s'.rtPrev = s.rtPrev
  rotatedAt : s'.rtRotatedAt = s.rtRotatedAt

variable {s s' : Session} {st : Store} {x sid uid : UUID} {k : Keys} {now : ℤ} {t : Token}
  {c c' : Config} {env : Env} {l : Label} {p g : ℕ} {call : Call}

theorem Session.Same.tokens (h : s.Same s') : s.SameTokens s' := { h with }

/-- Sessions that are there afterwards were there before, with the same tokens. -/
def Store.Steady (st st' : Store) : Prop :=
  ∀ sid s', st'.sess sid = some s' → ∃ s, st.sess sid = some s ∧ s.SameTokens s'

theorem Store.Quiet.steady {st' : Store} (h : Quiet st st') : Steady st st' := by
  intro sid s' hs
  obtain ⟨s, hs, same⟩ := h.sess sid s' hs
  exact ⟨s, hs, same.tokens⟩

theorem Store.Steady.refl (st : Store) : Steady st st := (Quiet.refl st).steady

theorem Store.steady_revokeUser (st : Store) (uid : UUID) (except : Option UUID) (scope : Scope) :
    Steady st (st.revokeUser uid except scope).2 := by
  intro x s' hx
  rcases revokeUser_cases hx with ⟨-, s, hs, -, rfl⟩ | ⟨-, hx⟩
  · exact ⟨s, hs, rfl, rfl, rfl, rfl, rfl, rfl⟩
  · exact ⟨s', hx, rfl, rfl, rfl, rfl, rfl, rfl⟩

theorem Call.step_cases (env : Env) (call : Call) (stillAdmin : Bool) (later : ℤ) (st : Store) :
    (∃ round now seen s, call.rotates env st = true ∧ call.stage = .rotate round now seen .rotate ∧
        st.sess call.token.sid = some s ∧ s.rtCur = env.keys.hashSecret call.token.secret ∧
        (call.step env stillAdmin later st).2 = st.put call.token.sid
          (some (rotatedSession s (unix now) (call.newHash env seen)))) ∨
      (call.rotates env st = false ∧ Quiet st (call.step env stillAdmin later st).2) := by
  unfold step rotates
  cases hstage : call.stage with
  | read | gate | done => exact .inr ⟨rfl, .refl st⟩
  | reused | demoted => exact .inr ⟨rfl, quiet_revokeOne _ _ _⟩
  | rotate round now seen mode =>
    dsimp only [script]
    rcases rotate_cases st call.token.sid seen.userId call.aud (unix now)
      (seconds (env.idleTimeout call.aud)) mode (env.keys.hashSecret call.token.secret)
      (call.newHash env seen) with ⟨s, rfl, hs, hcur, heq⟩ | ⟨hq, hne⟩
    · exact .inl ⟨round, now, seen, s, by simp [heq], rfl, hs, hcur, by rw [heq]⟩
    · refine .inr ⟨?_, hq⟩
      cases mode with
      | grace => rfl
      | rotate =>
        dsimp only
        split
        · next s heq => exact absurd heq (hne rfl s)
        · rfl

/-- The three things that a step can do to sessions and their tokens. -/
inductive Config.Effect (env : Env) (c c' : Config) : Label → Prop
  | steady (l : Label) (sess : Steady c.db c'.db) (rotations : c'.rotations = c.rotations)
      (nextId : c.nextId ≤ c'.nextId) : Effect env c c' l
  | created (l : Label) (s : Session) (seed : Secret)
      (sess : c'.db.sess = update c.db.sess c.nextId (some s))
      (rtSeed : s.rtSeed = some seed)
      (rtCur : s.rtCur = env.keys.hashSecret (env.keys.refreshSecret c.nextId seed 0))
      (rtPrev : s.rtPrev = none) (rotations : c'.rotations = c.rotations)
      (nextId : c'.nextId = c.nextId + 1) : Effect env c c' l
  | rotated (p : ℕ) (i : Input) (call : Call) (round : ℕ) (now : ℤ) (seen : RefreshState)
      (s : Session) (flow : c.flows[p]? = some (.refresh call))
      (rotates : call.rotates env c.db = true)
      (stage : call.stage = .rotate round now seen .rotate)
      (before : c.db.sess call.token.sid = some s)
      (rtCur : s.rtCur = env.keys.hashSecret call.token.secret)
      (sess : c'.db.sess = update c.db.sess call.token.sid
        (some (rotatedSession s (unix now) (call.newHash env seen))))
      (rotations : c'.rotations = c.rotations ++ [⟨p, call.token.sid, call.token.gen⟩])
      (nextId : c'.nextId = c.nextId) : Effect env c c' (.turn p i)

namespace Config

variable (env : Env) (c : Config)

theorem effect_turn (p : ℕ) (i : Input) : Effect env c (c.next env (.turn p i)) (.turn p i) := by
  show Effect env c { c.turn env p i with moment := c.moment + 1 } (.turn p i)
  unfold turn
  cases hp : c.flows[p]? with
  | none => exact .steady _ (.refl _) rfl le_rfl
  | some f =>
    cases f with
    | login | loginOther | quickLogin | mailLink | ended => exact .steady _ (.refl _) rfl le_rfl
    | loginEpoch | mailLogin =>
      dsimp only
      split_ifs <;> exact .steady _ (.refl _) rfl le_rfl
    | mailLinkEpoch =>
      exact .steady _ (fun _ s hx => ⟨s, hx, rfl, rfl, rfl, rfl, rfl, rfl⟩) rfl le_rfl
    | ready uid aud amr epoch now =>
      by_cases he : c.db.uepoch uid = epoch
      · refine .created _ (env.newSession c.nextId uid aud amr epoch now i.secret) i.secret ?_ rfl
          rfl rfl rfl rfl
        have hdb : c.db.create c.nextId (env.newSession c.nextId uid aud amr epoch now i.secret) =
            (true, (c.db.put c.nextId
              (some (env.newSession c.nextId uid aud amr epoch now i.secret))).sadd uid c.nextId) :=
          if_neg (not_not.2 he)
        simp only [createSession, hdb]
        rfl
      · have hdb : c.db.create c.nextId (env.newSession c.nextId uid aud amr epoch now i.secret) =
            (false, c.db) := if_pos he
        refine .steady _ ?_ rfl (le_succ _)
        simp only [createSession, hdb]
        exact .refl _
    | refresh call =>
      rcases call.step_cases env i.stillAdmin i.now c.db with
        ⟨round, now, seen, s, hrot, hstage, hs, hcur, hdb⟩ | ⟨hrot, hq⟩
      · refine .rotated p i call round now seen s hp hrot hstage hs hcur ?_ ?_ rfl
        · dsimp only
          rw [hdb]
          rfl
        · dsimp only
          rw [if_pos hrot]
      · refine .steady _ hq.steady ?_ le_rfl
        dsimp only
        rw [if_neg (by simp [hrot])]

theorem effect (l : Label) : Effect env c (c.next env l) l := by
  cases l with
  | login | mailLink | refresh | fail => exact .steady _ (.refl _) rfl le_rfl
  | quickLogin hash now =>
    exact .steady _ (quiet_consumeQuickLogin hash .portal (unix now)).steady rfl le_rfl
  | mailLogin hash => exact .steady _ (quiet_consumeMailLink hash).steady rfl le_rfl
  | turn p i => exact c.effect_turn env p i
  | issueQuickLogin sid uid hash =>
    exact .steady _ (quiet_issueQuickLogin hash).steady rfl le_rfl
  | check sid uid aud => exact .steady _ quiet_check.steady rfl le_rfl
  | revokeOne sid uid aud => exact .steady _ (quiet_revokeOne sid uid aud).steady rfl le_rfl
  | revokeUser uid except scope =>
    exact .steady _ (steady_revokeUser c.db uid except scope) rfl le_rfl
  | stampReauth sid uid aud =>
    exact .steady _ quiet_stampReauth.steady rfl le_rfl
  | expire key => exact .steady _ quiet_expire.steady rfl le_rfl

end Config

/-! ## The invariant -/

/-- The session a call goes by, once it has read it. -/
def Stage.seen : Stage → Option RefreshState
  | .reused seen => some seen
  | .gate _ _ seen _ => some seen
  | .demoted seen => some seen
  | .rotate _ _ seen _ => some seen
  | .read _ _ => none
  | .done _ => none

/-- A call that goes on after its read has a token that is authentic for the session, and the
session, if it still is there, has the user, the audience and the seed that were read. -/
def Call.Known (k : Keys) (c : Config) (call : Call) : Prop :=
  ∀ seen, call.stage.seen = some seen →
    call.token.sid < c.nextId ∧ k.refreshAuthentic call.token seen.rtSeed ∧
      ∀ s, c.db.sess call.token.sid = some s →
        s.uid = seen.userId ∧ s.aud = call.aud ∧ s.rtSeed = seen.rtSeed

structure Config.Linear (k : Keys) (c : Config) : Prop where
  fresh : ∀ sid s, c.db.sess sid = some s → sid < c.nextId
  spent : ∀ r ∈ c.rotations, r.sid < c.nextId
  tokens : ∀ sid s, c.db.sess sid = some s → s.At k sid (c.generation sid)
  /-- The generations of a session were rotated one after the other, each once. -/
  order : ∀ sid, (c.rotations.filter (·.sid = sid)).map Rotation.gen = range (c.generation sid)
  calls : ∀ call, Flow.refresh call ∈ c.flows → call.Known k c

theorem Config.linear_empty (k : Keys) : empty.Linear k := by
  constructor <;> simp [empty, Store.empty, generation]

theorem Session.At.same (h : s.At k sid g) (same : s.SameTokens s') : s'.At k sid g := by
  rw [Session.At, same.seed, same.cur, same.prev]
  exact h

namespace Config.Effect

theorem nextId_le (h : Effect env c c' l) : c.nextId ≤ c'.nextId := by
  cases h with
  | steady _ _ _ hid => exact hid
  | created _ _ _ _ _ _ _ _ hid => exact hid ▸ le_succ _
  | rotated _ _ _ _ _ _ _ _ _ _ _ _ _ _ hid => exact hid.ge

theorem session (h : Effect env c c' l) {sid : UUID} (hid : sid < c.nextId) {s' : Session}
    (hs : c'.db.sess sid = some s') :
    ∃ s, c.db.sess sid = some s ∧ s'.uid = s.uid ∧ s'.aud = s.aud ∧ s'.rtSeed = s.rtSeed := by
  cases h with
  | steady _ sess =>
    obtain ⟨s, hs, same⟩ := sess sid s' hs
    exact ⟨s, hs, same.uid, same.aud, same.seed⟩
  | created _ _ _ sess =>
    rw [sess, update_of_ne hid.ne] at hs
    exact ⟨s', hs, rfl, rfl, rfl⟩
  | rotated p i call round now seen s flow _ stage before rtCur sess =>
    rcases of_update_some sess hs with ⟨rfl, rfl⟩ | ⟨-, hs⟩
    · exact ⟨s, before, rfl, rfl, rfl⟩
    · exact ⟨s', hs, rfl, rfl, rfl⟩

theorem known (h : Effect env c c' l) (hc : call.Known k c) : call.Known k c' := by
  intro seen hseen
  obtain ⟨hid, hauth, hsess⟩ := hc seen hseen
  refine ⟨hid.trans_le h.nextId_le, hauth, fun s' hs' => ?_⟩
  obtain ⟨s, hs, huid, haud, hseed⟩ := h.session hid hs'
  obtain ⟨hu, ha, hx⟩ := hsess s hs
  exact ⟨huid.trans hu, haud.trans ha, hseed.trans hx⟩

end Config.Effect

variable {seen : RefreshState} {r : Rotation}

theorem Keys.judge_ne_refused {aud : Audience} (h : k.judge aud t now seen ≠ .refused) :
    seen.audience = aud ∧ k.refreshAuthentic t seen.rtSeed := by
  unfold judge at h
  by_cases ha : seen.audience = aud
  · by_cases hk : k.refreshAuthentic t seen.rtSeed
    · exact ⟨ha, hk⟩
    · rw [if_neg (not_not.2 ha), if_pos hk] at h
      exact absurd rfl h
  · rw [if_pos ha] at h
    exact absurd rfl h

theorem Call.known_step (h : c.Linear env.keys) (hc : call.Known env.keys c) (stillAdmin : Bool)
    (later : ℤ) : (call.step env stillAdmin later c.db).1.Known env.keys c := by
  obtain ⟨aud, token, stage⟩ := call
  cases stage with
  | read round now =>
    intro seen hseen
    simp only [step, readRefresh] at hseen ⊢
    cases hs : c.db.sess token.sid with
    | none => simp [hs, afterRead, Stage.seen] at hseen
    | some s =>
      have hj : env.keys.judge aud token now s.refreshState ≠ .refused ∧ s.refreshState = seen := by
        simp only [hs, map_some, afterRead] at hseen
        cases hv : env.keys.judge aud token now s.refreshState with
        | refused => simp [hv, Stage.seen] at hseen
        | reused => exact ⟨by simp, by simpa [hv, Stage.seen] using hseen⟩
        | proceed =>
          refine ⟨by simp, ?_⟩
          simp only [hv] at hseen
          split_ifs at hseen <;> exact some.inj hseen
      obtain ⟨hj, rfl⟩ := hj
      obtain ⟨ha, hauth⟩ := judge_ne_refused hj
      refine ⟨h.fresh _ s hs, hauth, fun s' hs' => ?_⟩
      obtain rfl := some.inj hs'
      exact ⟨rfl, ha, rfl⟩
  | reused | demoted => exact fun _ hseen => absurd hseen (by simp [step, Stage.seen])
  | gate =>
    cases stillAdmin with
    | true | false => exact hc
  | rotate round now seen mode =>
    intro x hseen
    simp only [step] at hseen
    cases hr : (script env ⟨aud, token, .rotate round now seen mode⟩ now seen mode c.db).1 with
    | invalid | ok => simp [hr, afterRotate, Stage.seen] at hseen
    | conflict =>
      simp only [hr, afterRotate] at hseen
      split_ifs at hseen <;> exact absurd hseen (by simp [Stage.seen])
  | done => exact hc

theorem Config.turn_flows (env : Env) (c : Config) (p : ℕ) (i : Input) :
    (c.turn env p i).flows = c.flows ∨ ∃ f, (c.turn env p i).flows = c.flows.set p f ∧
      ∀ call', f = .refresh call' → ∃ call, c.flows[p]? = some (.refresh call) ∧
        call' = (call.step env i.stillAdmin i.now c.db).1 := by
  unfold turn
  cases hp : c.flows[p]? with
  | none => exact .inl rfl
  | some f =>
    cases f with
    | loginEpoch | mailLogin =>
      dsimp only
      split_ifs <;> exact .inr ⟨_, rfl, fun _ heq => by cases heq⟩
    | refresh call => exact .inr ⟨_, rfl, fun _ heq => ⟨call, rfl, (refresh.inj heq).symm⟩⟩
    | ended => exact .inl rfl
    | _ => exact .inr ⟨_, rfl, fun _ heq => by cases heq⟩

/-- The requests after a step: they are as they were, or one has begun, or one has moved on. -/
theorem Config.next_flows (env : Env) (c : Config) (l : Label) : (c.next env l).flows = c.flows ∨
    (∃ f, (c.next env l).flows = c.flows ++ [f] ∧
      ∀ call', f = .refresh call' → call'.stage.seen = none) ∨
    ∃ p f, (l = .fail p ∨ ∃ i, l = .turn p i) ∧ (c.next env l).flows = c.flows.set p f ∧
      ∀ call', f = .refresh call' → ∃ (i : Input) (call : Call),
        c.flows[p]? = some (.refresh call) ∧ call' = (call.step env i.stillAdmin i.now c.db).1 := by
  cases l with
  | quickLogin hash now =>
    refine .inr (.inl ⟨_, rfl, fun call' heq => ?_⟩)
    cases hc : (c.db.consumeQuickLogin hash .portal (unix now)).1 <;> simp [hc] at heq
  | mailLogin hash =>
    refine .inr (.inl ⟨_, rfl, fun call' heq => ?_⟩)
    cases hc : (c.db.consumeMailLink hash).1 <;> simp [hc] at heq
  | login | mailLink => exact .inr (.inl ⟨_, rfl, fun _ heq => by cases heq⟩)
  | refresh =>
    refine .inr (.inl ⟨_, rfl, fun call' heq => ?_⟩)
    obtain rfl := refresh.inj heq
    rfl
  | turn p i =>
    rcases c.turn_flows env p i with h | ⟨f, h, hcall⟩
    · exact .inl h
    · exact .inr (.inr ⟨p, f, .inr ⟨i, rfl⟩, h, fun call' heq => ⟨i, hcall call' heq⟩⟩)
  | fail p => exact .inr (.inr ⟨p, _, .inl rfl, rfl, fun _ heq => by cases heq⟩)
  | _ => exact .inl rfl

theorem Config.next_calls {call' : Call} (h : refresh call' ∈ (c.next env l).flows) :
    refresh call' ∈ c.flows ∨ call'.stage.seen = none ∨
      ∃ (p : ℕ) (i : Input) (call : Call), c.flows[p]? = some (.refresh call) ∧
        call' = (call.step env i.stillAdmin i.now c.db).1 := by
  rcases c.next_flows env l with hsame | ⟨f, hbegun, hseen⟩ | ⟨p, f, -, hmoved, hcall⟩
  · exact .inl (hsame ▸ h)
  · rw [hbegun] at h
    rcases mem_append.1 h with h | h
    · exact .inl h
    · exact .inr (.inl (hseen call' (mem_singleton.1 h).symm))
  · rw [hmoved] at h
    rcases mem_or_eq_of_mem_set h with h | h
    · exact .inl h
    · exact .inr (.inr ⟨p, hcall call' h.symm⟩)

namespace Config

theorem generation_of_eq (h : c'.rotations = c.rotations) (sid : UUID) :
    c'.generation sid = c.generation sid := by
  rw [generation, generation, h]

theorem filter_rotated (h : c'.rotations = c.rotations ++ [r])
    (sid : UUID) : c'.rotations.filter (·.sid = sid) =
      c.rotations.filter (·.sid = sid) ++ if r.sid = sid then [r] else [] := by
  rw [h, filter_append]
  by_cases hr : r.sid = sid <;> simp [hr]

theorem generation_rotated (h : c'.rotations = c.rotations ++ [r])
    (sid : UUID) : c'.generation sid = c.generation sid + if r.sid = sid then 1 else 0 := by
  rw [generation, filter_rotated h, length_append, generation]
  split_ifs <;> rfl

theorem Linear.gen_eq (hk : env.keys.Separates) (h : c.Linear env.keys) {p : ℕ}
    (hp : c.flows[p]? = some (.refresh call))
    (hseen : call.stage.seen = some seen) {s : Session} (hs : c.db.sess call.token.sid = some s)
    (hcur : s.rtCur = env.keys.hashSecret call.token.secret) :
    call.token.gen = c.generation call.token.sid ∧ s.rtSeed = seen.rtSeed := by
  obtain ⟨-, hauth, hsess⟩ := h.calls call (mem_of_getElem? hp) seen hseen
  obtain ⟨-, -, hseed⟩ := hsess s hs
  refine ⟨?_, hseed⟩
  rw [← hseed] at hauth
  exact hk.eq_of_hashOf (hashOf_of_authentic hauth)
    ((h.tokens _ s hs).1.trans (congrArg some hcur))

theorem Linear.next (hk : env.keys.Separates) (h : c.Linear env.keys) (l : Label) :
    (c.next env l).Linear env.keys := by
  have heff := c.effect env l
  have hcalls : ∀ call, refresh call ∈ (c.next env l).flows →
      call.Known env.keys (c.next env l) := by
    intro call hcall
    rcases next_calls hcall with hold | hnone | ⟨p, i, call, hp, rfl⟩
    · exact heff.known (h.calls call hold)
    · exact fun seen hseen => absurd hseen (by simp [hnone])
    · exact heff.known (known_step h (h.calls call (mem_of_getElem? hp)) _ _)
  cases heff with
  | steady _ sess hrot hid =>
    refine ⟨fun sid s' hs => ?_, fun r hr => ?_, fun sid s' hs => ?_, fun sid => ?_, hcalls⟩
    · obtain ⟨s, hs, -⟩ := sess sid s' hs
      exact (h.fresh sid s hs).trans_le hid
    · exact (h.spent r (hrot ▸ hr)).trans_le hid
    · obtain ⟨s, hs, same⟩ := sess sid s' hs
      rw [generation_of_eq hrot]
      exact (h.tokens sid s hs).same same
    · rw [generation_of_eq hrot, hrot]
      exact h.order sid
  | created _ s seed sess hseed hcur hprev hrot hid =>
    refine ⟨fun sid s' hs => ?_, fun r hr => ?_, fun sid s' hs => ?_, fun sid => ?_, hcalls⟩
    · rw [hid]
      rcases of_update_some sess hs with ⟨rfl, -⟩ | ⟨-, hs⟩
      · exact lt_succ_self _
      · exact lt_succ_of_lt (h.fresh sid s' hs)
    · rw [hid]
      exact lt_succ_of_lt (h.spent r (hrot ▸ hr))
    · rw [generation_of_eq hrot]
      rcases of_update_some sess hs with ⟨rfl, rfl⟩ | ⟨-, hs⟩
      · -- No rotation so far was of the new session.
        have hzero : c.generation c.nextId = 0 := by
          refine length_eq_zero_iff.2 (filter_eq_nil_iff.2 fun r hr => ?_)
          simpa using (h.spent r hr).ne
        rw [hzero]
        exact ⟨by simp [hashOf, secretOf, hseed, hcur], hprev.symm⟩
      · exact h.tokens sid s' hs
    · rw [generation_of_eq hrot, hrot]
      exact h.order sid
  | rotated p i call round now seen s flow _ stage before rtCur sess hrot hid =>
    obtain ⟨hgen, hseed⟩ := h.gen_eq hk flow (by rw [stage]; rfl) before rtCur
    refine ⟨fun sid s' hs => ?_, fun r hr => ?_, fun sid s' hs => ?_, fun sid => ?_, hcalls⟩
    · rw [hid]
      rcases of_update_some sess hs with ⟨rfl, -⟩ | ⟨-, hs⟩
      · exact h.fresh _ s before
      · exact h.fresh sid s' hs
    · rw [hid]
      rw [hrot] at hr
      rcases mem_append.1 hr with hr | hr
      · exact h.spent r hr
      · rw [mem_singleton.1 hr]
        exact h.fresh _ s before
    · rw [generation_rotated hrot]
      rcases of_update_some sess hs with ⟨rfl, rfl⟩ | ⟨hx, hs⟩
      · obtain ⟨hcur, -⟩ := h.tokens _ s before
        obtain ⟨new, hnew⟩ := hashOf_next hcur (call.token.gen + 1)
        rw [if_pos rfl]
        refine ⟨?_, hcur⟩
        show env.keys.hashOf call.token.sid s.rtSeed _ = some (call.newHash env seen)
        rw [newHash, ← hseed, hnew, ← hgen, hnew]
      · rw [if_neg (Ne.symm hx)]
        exact h.tokens sid s' hs
    · rw [generation_rotated hrot, filter_rotated hrot, map_append, h.order sid]
      by_cases hx : call.token.sid = sid
      · subst hx
        rw [if_pos rfl, if_pos rfl, range_succ, ← hgen]
        rfl
      · rw [if_neg hx, if_neg hx]
        simp

theorem run_linear (hk : env.keys.Separates) (labels : List Label) :
    (run env labels).Linear env.keys :=
  Runs.run_invariant (fun _ l h => h.next hk l) labels (linear_empty env.keys)

end Config

/-! ## Each generation once -/

theorem count_rotations (rs : List Rotation) (sid : UUID) (g : ℕ) :
    (rs.map fun r => (r.sid, r.gen)).count (sid, g) =
      ((rs.filter (·.sid = sid)).map Rotation.gen).count g := by
  induction rs with
  | nil => rfl
  | cons r rs ih =>
    by_cases hs : r.sid = sid
    · by_cases hg : r.gen = g <;> simp [hs, hg, ih]
    · simp [hs, ih]

theorem Config.Linear.nodup (h : c.Linear k) : (c.rotations.map fun r => (r.sid, r.gen)).Nodup := by
  refine nodup_iff_count_le_one.2 fun x => ?_
  rw [count_rotations, h.order]
  exact nodup_iff_count_le_one.1 nodup_range x.2

/-- A step is a successful rotation of the session. -/
def Config.Rotates (env : Env) (c : Config) (sid : UUID) (l : Label) : Prop :=
  ∃ p i call, l = .turn p i ∧ c.flows[p]? = some (.refresh call) ∧ call.token.sid = sid ∧
    call.rotates env c.db = true

/-- A step adds a rotation of a session exactly if it is the successful step of a call. -/
theorem Config.generation_next (env : Env) (c : Config) (sid : UUID) (l : Label) :
    (c.Rotates env sid l ∧ (c.next env l).generation sid = c.generation sid + 1) ∨
      (¬ c.Rotates env sid l ∧ (c.next env l).generation sid = c.generation sid) := by
  by_cases hrot : c.Rotates env sid l
  · obtain ⟨p, i, call, rfl, hp, rfl, hr⟩ := id hrot
    have hrs : (c.next env (.turn p i)).rotations =
        c.rotations ++ [⟨p, call.token.sid, call.token.gen⟩] := by
      simp [Config.next, act, turn, hp, hr]
    refine .inl ⟨hrot, ?_⟩
    rw [generation_rotated hrs, if_pos rfl]
  · refine .inr ⟨hrot, ?_⟩
    cases c.effect env l with
    | steady _ _ hrs | created _ _ _ _ _ _ _ hrs => exact generation_of_eq hrs sid
    | rotated p i call round now seen s flow rotates stage before rtCur sess hrs =>
      have hx : call.token.sid ≠ sid := fun hx => hrot ⟨p, i, call, rfl, flow, hx, rotates⟩
      rw [generation_rotated hrs, if_neg hx, add_zero]

/-! ## A token that does not belong to the session -/

theorem Store.drop_sess_of_ne (h : x ≠ sid) :
    (st.drop uid sid).sess x = st.sess x := put_sess_of_ne h none

theorem Store.revokeOne_sess_of_ne (h : x ≠ sid)
    (aud : Option Audience) : (st.revokeOne sid uid aud).2.sess x = st.sess x := by
  unfold revokeOne
  cases st.sess sid with
  | none => rfl
  | some =>
    dsimp only
    split_ifs
    · rfl
    · exact drop_sess_of_ne h

theorem Store.rotate_sess_of_ne (h : x ≠ sid) (aud : Audience)
    (now idle : ℤ) (mode : Mode) (expect newHash : Hash) :
    (st.rotate sid uid aud now idle mode expect newHash).2.sess x = st.sess x := by
  unfold rotate
  cases st.sess sid with
  | none => rfl
  | some s =>
    dsimp only
    by_cases hid : s.uid ≠ uid ∨ s.aud ≠ aud
    · rw [if_pos hid]
    rw [if_neg hid]
    by_cases hl : st.Lapsed uid s idle now
    · rw [if_pos hl]
      exact drop_sess_of_ne h
    rw [if_neg hl]
    cases mode with
    | rotate | grace =>
      dsimp only
      split_ifs
      · rfl
      · exact put_sess_of_ne h _

/-- A call touches the session its token names and no other, and that only after the read. -/
theorem Call.step_sess (env : Env) (call : Call) (stillAdmin : Bool) (later : ℤ) (st : Store)
    (h : call.stage.seen = none ∨ x ≠ call.token.sid) :
    (call.step env stillAdmin later st).2.sess x = st.sess x := by
  obtain ⟨aud, token, stage⟩ := call
  cases stage with
  | read | gate | done => rfl
  | reused | demoted => exact revokeOne_sess_of_ne (h.resolve_left (by simp [Stage.seen])) _
  | rotate =>
    exact rotate_sess_of_ne (h.resolve_left (by simp [Stage.seen])) _ _ _ _ _ _

theorem Config.next_turn (env : Env)
    (hp : c.flows[p]? = some (.refresh call)) (i : Input) : (c.next env (.turn p i)).flows =
        c.flows.set p (.refresh (call.step env i.stillAdmin i.now c.db).1) ∧
      (c.next env (.turn p i)).db = (call.step env i.stillAdmin i.now c.db).2 := by
  simp [Config.next, act, turn, hp, go]

theorem Config.Linear.forged (h : c.Linear env.keys)
    (hp : c.flows[p]? = some (.refresh call)) (hs : c.db.sess sid = some s)
    (hforged : ¬ (call.token.sid = sid ∧ env.keys.refreshAuthentic call.token s.rtSeed))
    (i : Input) :
    (c.next env (.turn p i)).db.sess sid = some s := by
  rw [(next_turn env hp i).2, ← hs]
  apply call.step_sess
  cases hseen : call.stage.seen with
  | none => exact .inl rfl
  | some seen =>
    obtain ⟨-, hauth, hsess⟩ := h.calls call (mem_of_getElem? hp) seen hseen
    refine .inr fun hx => hforged ⟨hx.symm, ?_⟩
    subst hx
    rw [(hsess s hs).2.2]
    exact hauth

/-! ## A token that is too old -/

/-- The token is older than the one before the current one, or it is that one and the grace
period since the recorded rotation is over. -/
def Token.Stale (t : Token) (g : ℕ) (s : Session) (now : ℤ) : Prop :=
  t.gen + 1 < g ∨ (t.gen + 1 = g ∧ fromUnix s.rtRotatedAt + refreshGrace * second < now)

theorem Keys.judge_stale (hk : k.Separates)
    (hat : s.At k t.sid g) (hauth : k.refreshAuthentic t s.rtSeed) (hst : t.Stale g s now) :
    k.judge s.aud t now s.refreshState = .reused := by
  have hgen := hashOf_of_authentic hauth
  have hlt : t.gen < g := by
    rcases hst with h | ⟨h, -⟩ <;> omega
  have hcur : k.hashSecret t.secret ≠ s.rtCur := by
    intro heq
    exact hlt.ne (hk.eq_of_hashOf hgen (heq ▸ hat.1))
  show (if s.aud ≠ s.aud then Verdict.refused else if ¬ k.refreshAuthentic t s.rtSeed then _ else
    if k.hashSecret t.secret = s.rtCur then _ else
      if some (k.hashSecret t.secret) = s.rtPrev then _ else _) = _
  rw [if_neg (not_not.2 rfl), if_neg (not_not.2 hauth), if_neg hcur]
  by_cases hprev : some (k.hashSecret t.secret) = s.rtPrev
  · rw [if_pos hprev]
    -- The token is the one before, so it is the grace period that is over.
    have hg : t.gen + 1 = g := by
      cases g with
      | zero => omega
      | succ => rw [hk.eq_of_hashOf hgen (hat.2.trans hprev.symm)]
    obtain ⟨-, hgrace⟩ := hst.resolve_left (by omega)
    exact if_pos (Time.lt_sub_of_lt (by decide) hgrace)
  · exact if_neg hprev

theorem Config.Effect.gone (h : Effect env c c' l)
    (hid : sid < c.nextId) (hs : c.db.sess sid = none) : c'.db.sess sid = none := by
  by_contra hne
  obtain ⟨s', hs'⟩ := ne_none_iff_exists'.1 hne
  obtain ⟨s, hs, -⟩ := h.session hid hs'
  simp_all

theorem Config.Effect.stale (h : Effect env c c' l) (hid : t.sid < c.nextId)
    (hs' : c'.db.sess t.sid = some s')
    (hst : ∀ s, c.db.sess t.sid = some s → t.Stale (c.generation t.sid) s now) :
    t.Stale (c'.generation t.sid) s' now := by
  cases h with
  | steady _ sess hrot _ =>
    obtain ⟨s, hs, same⟩ := sess _ s' hs'
    rw [generation_of_eq hrot, Token.Stale, same.rotatedAt]
    exact hst s hs
  | created _ s seed sess _ _ _ hrot =>
    rw [sess, update_of_ne hid.ne] at hs'
    rw [generation_of_eq hrot]
    exact hst s' hs'
  | rotated p i call round now' seen s flow rotates stage before rtCur sess hrot =>
    rw [generation_rotated hrot]
    split_ifs with hx
    · have hold := hst s (hx ▸ before)
      rw [Token.Stale] at hold ⊢
      omega
    · rw [sess, update_of_ne (Ne.symm hx)] at hs'
      exact hst s' hs'

/-- The call has still to read, and its token is too old now. -/
def Config.Pending (k : Keys) (c : Config) (p : ℕ) (aud : Audience) (t : Token) (now : ℤ) : Prop :=
  c.flows[p]? = some (.refresh ⟨aud, t, .read 0 now⟩) ∧ ∀ s, c.db.sess t.sid = some s →
      s.aud = aud ∧ k.refreshAuthentic t s.rtSeed ∧ t.Stale (c.generation t.sid) s now

/-- The call is about to remove the session. -/
def Config.Removing (c : Config) (p : ℕ) (aud : Audience) (t : Token) : Prop :=
  ∃ seen, c.flows[p]? = some (.refresh ⟨aud, t, .reused seen⟩)

/-- The call is over, and the session is gone. -/
def Config.Removed (c : Config) (p : ℕ) (aud : Audience) (t : Token) : Prop :=
  c.flows[p]? = some (.refresh ⟨aud, t, .done .refused⟩) ∧ c.db.sess t.sid = none

/-- A call that was made with a token too old. -/
def Config.Doomed (k : Keys) (c : Config) (p : ℕ) (aud : Audience) (t : Token) (now : ℤ) : Prop :=
  t.sid < c.nextId ∧ (c.Pending k p aud t now ∨ c.Removing p aud t ∨ c.Removed p aud t)

theorem Config.next_flow_of_other {f : Flow} (hp : c.flows[p]? = some f) (hfail : l ≠ .fail p)
    (hturn : ∀ i, l ≠ .turn p i) : (c.next env l).flows[p]? = some f := by
  rcases c.next_flows env l with hsame | ⟨g, hbegun, -⟩ | ⟨q, g, hl, hmoved, -⟩
  · rw [hsame, hp]
  · rw [hbegun, getElem?_append_left (List.getElem?_eq_some_iff.1 hp).1, hp]
  · have hq : q ≠ p := by
      rintro rfl
      rcases hl with hl | ⟨i, hl⟩
      · exact hfail hl
      · exact hturn i hl
    rw [hmoved, getElem?_set_ne hq, hp]

namespace Config.Doomed

variable {aud : Audience}

theorem set_self {f g : Flow} (hp : c.flows[p]? = some f) : (c.flows.set p g)[p]? = some g :=
  getElem?_set_self (List.getElem?_eq_some_iff.1 hp).1

theorem of_pending (hk : env.keys.Separates) (hc : c.Linear env.keys) (hid : t.sid < c.nextId)
    (h : c.Pending env.keys p aud t now) (i : Input) :
    (c.next env (.turn p i)).Removing p aud t ∨ (c.next env (.turn p i)).Removed p aud t := by
  obtain ⟨hp, hst⟩ := h
  obtain ⟨hflows, -⟩ := next_turn env hp i
  rw [Removing, Removed, hflows, set_self hp]
  cases hs : c.db.sess t.sid with
  | none =>
    refine .inr ⟨?_, (c.effect env (.turn p i)).gone hid hs⟩
    simp [step, readRefresh, hs, afterRead]
  | some s =>
    obtain ⟨rfl, hauth, hst⟩ := hst s hs
    have hj := judge_stale hk (hc.tokens _ s hs) hauth hst
    refine .inl ⟨s.refreshState, ?_⟩
    simp [step, readRefresh, hs, afterRead, hj]

/-- The removal.  The user and the audience it is called with are those of the session. -/
theorem of_removing (hc : c.Linear env.keys) (h : c.Removing p aud t) (i : Input) :
    (c.next env (.turn p i)).Removed p aud t := by
  obtain ⟨seen, hp⟩ := h
  obtain ⟨hflows, hdb⟩ := next_turn env hp i
  rw [Removed, hflows, set_self hp, hdb]
  refine ⟨rfl, ?_⟩
  obtain ⟨-, -, hsess⟩ := hc.calls _ (mem_of_getElem? hp) seen rfl
  show ((c.db.revokeOne t.sid seen.userId (some aud)).2).sess t.sid = none
  unfold revokeOne
  cases hs : c.db.sess t.sid with
  | none => exact hs
  | some s =>
    obtain ⟨huid, haud, -⟩ := hsess s hs
    have hmatch : ¬ (s.uid ≠ seen.userId ∨ (some aud ≠ none ∧ some aud ≠ some s.aud)) := by
      rintro (hne | ⟨-, hne⟩)
      · exact hne huid
      · exact hne (congrArg some haud.symm)
    dsimp only
    rw [if_neg hmatch]
    exact drop_sess_self _ _ _

theorem of_removed (hid : t.sid < c.nextId) (h : c.Removed p aud t) (i : Input) :
    (c.next env (.turn p i)).Removed p aud t := by
  obtain ⟨hp, hnone⟩ := h
  rw [Removed, (next_turn env hp i).1, set_self hp]
  exact ⟨rfl, (c.effect env (.turn p i)).gone hid hnone⟩

section

variable (hk : env.keys.Separates) (hc : c.Linear env.keys) (h : c.Doomed env.keys p aud t now)
include hk hc h

theorem turn (i : Input) :
    (c.next env (.turn p i)).Removing p aud t ∨ (c.next env (.turn p i)).Removed p aud t := by
  obtain ⟨hid, h | h | h⟩ := h
  · exact of_pending hk hc hid h i
  · exact .inr (of_removing hc h i)
  · exact .inr (of_removed hid h i)

theorem next {l : Label} (hl : l ≠ .fail p) : (c.next env l).Doomed env.keys p aud t now := by
  by_cases hown : ∃ i, l = .turn p i
  · obtain ⟨i, rfl⟩ := hown
    exact ⟨h.1.trans_le (c.effect env (.turn p i)).nextId_le, .inr (h.turn hk hc i)⟩
  · have hother : ∀ i, l ≠ .turn p i := fun i hi => hown ⟨i, hi⟩
    obtain ⟨hid, h⟩ := h
    have heff := c.effect env l
    refine ⟨hid.trans_le heff.nextId_le, ?_⟩
    rcases h with ⟨hp, hst⟩ | ⟨seen, hp⟩ | ⟨hp, hnone⟩
    · refine .inl ⟨next_flow_of_other hp hl hother, fun s' hs' => ?_⟩
      obtain ⟨s, hs, -, haud, hseed⟩ := heff.session hid hs'
      obtain ⟨ha, hauth, -⟩ := hst s hs
      exact ⟨haud.trans ha, hseed ▸ hauth, heff.stale hid hs' fun s hs => (hst s hs).2.2⟩
    · exact .inr (.inl ⟨seen, next_flow_of_other hp hl hother⟩)
    · exact .inr (.inr ⟨next_flow_of_other hp hl hother, heff.gone hid hnone⟩)

theorem run {later : List Label} (hl : Label.fail p ∉ later) :
    (later.foldl (Config.next env) c).Doomed env.keys p aud t now := by
  induction later generalizing c with
  | nil => exact h
  | cons l later ih =>
    have hne : l ≠ .fail p := fun heq => hl (heq ▸ mem_cons_self)
    exact ih (hc.next hk l) (h.next hk hc hne) fun hmem => hl (mem_cons_of_mem _ hmem)

end

theorem gone_of_done (h : c.Doomed k p aud t now) {a : Answer}
    (hp : c.flows[p]? = some (.refresh ⟨aud, t, .done a⟩)) : c.db.sess t.sid = none := by
  obtain ⟨-, ⟨hp', -⟩ | ⟨seen, hp'⟩ | ⟨-, hnone⟩⟩ := h
  · simp [hp] at hp'
  · simp [hp] at hp'
  · exact hnone

theorem ends (hk : env.keys.Separates) (hc : c.Linear env.keys) (h : c.Doomed env.keys p aud t now)
    (i j : Input) : ((c.next env (.turn p i)).next env (.turn p j)).Removed p aud t := by
  rcases h.turn hk hc i with h' | h'
  · exact of_removing (hc.next hk _) h' j
  · exact of_removed (h.1.trans_le (c.effect env (.turn p i)).nextId_le) h' j

end Config.Doomed

/-! ## Every run -/

/-- In every run of sign-ins, refreshes and revocations, if secrets of different sessions and
generations have different hashes:

* the hashes of a session are those of its generation and of the one before;
* the generation goes up by one with a successful rotation, and stays as it is otherwise;
* the generations of a session are rotated in order, and none of them twice;
* a call made with an authentic token that is older than the previous generation, or that is
  of the previous generation after the grace period, finds the session gone when it is over,
  whatever happens in between, and two steps of its own end it;
* no step of a call changes a session its token is not authentic for. -/
theorem refresh_rotation_linear (env : Env) (hk : env.keys.Separates) (labels : List Label) :
    (∀ sid s, (Config.run env labels).db.sess sid = some s →
      s.At env.keys sid ((Config.run env labels).generation sid)) ∧ (∀ sid l,
      ((Config.run env labels).Rotates env sid l ∧
        ((Config.run env labels).next env l).generation sid =
          (Config.run env labels).generation sid + 1) ∨
      (¬ (Config.run env labels).Rotates env sid l ∧
        ((Config.run env labels).next env l).generation sid =
          (Config.run env labels).generation sid)) ∧
    (∀ sid, ((Config.run env labels).rotations.filter (·.sid = sid)).map Rotation.gen =
      range ((Config.run env labels).generation sid)) ∧
    ((Config.run env labels).rotations.map fun r => (r.sid, r.gen)).Nodup ∧
    (∀ t s now, (Config.run env labels).db.sess t.sid = some s →
      env.keys.refreshAuthentic t s.rtSeed →
      t.Stale ((Config.run env labels).generation t.sid) s now →
      ∀ p, p = (Config.run env labels).flows.length → ∀ later, Label.fail p ∉ later →
        (∀ a, (Config.run env (labels ++ .refresh s.aud t now :: later)).flows[p]? =
            some (.refresh ⟨s.aud, t, .done a⟩) →
          (Config.run env (labels ++ .refresh s.aud t now :: later)).db.sess t.sid = none) ∧
        ∀ i j, (Config.run env (labels ++ .refresh s.aud t now :: later ++
          [.turn p i, .turn p j])).Removed p s.aud t) ∧
    (∀ p i call sid s, (Config.run env labels).flows[p]? = some (.refresh call) →
      (Config.run env labels).db.sess sid = some s →
      ¬ (call.token.sid = sid ∧ env.keys.refreshAuthentic call.token s.rtSeed) →
        ((Config.run env labels).next env (.turn p i)).db.sess sid = some s) := by
  have hc := Config.run_linear hk labels
  refine ⟨hc.tokens, Config.generation_next env _, hc.order, hc.nodup, ?_,
    fun p i call sid s hp hs hforged =>
    hc.forged hp hs hforged i⟩
  rintro t s now hs hauth hst p rfl later hfail
  -- The call as it begins: the session is the one that is there now.
  have hbegin : ((Config.run env labels).next env (.refresh s.aud t now)).Doomed env.keys
      (Config.run env labels).flows.length s.aud t now := by
    refine ⟨hc.fresh _ s hs, .inl ⟨?_, fun s' hs' => ?_⟩⟩
    · exact getElem?_concat_length
    · obtain rfl := some.inj (hs.symm.trans hs')
      exact ⟨rfl, hauth, hst⟩
  have hrun : Config.run env (labels ++ .refresh s.aud t now :: later) =
      later.foldl (Config.next env) ((Config.run env labels).next env (.refresh s.aud t now)) := by
    rw [Config.run, foldl_append]
    rfl
  have hdoomed := hbegin.run hk (hc.next hk _) hfail
  have hlater := Config.run_linear hk (labels ++ .refresh s.aud t now :: later)
  rw [← hrun] at hdoomed
  refine ⟨fun a ha => hdoomed.gone_of_done ha, fun i j => ?_⟩
  have hlast := hdoomed.ends hk hlater i j
  rw [Config.run, foldl_append]
  exact hlast

theorem Env.sample_separates : Env.sample.keys.Separates := by
  intro sid seed gen sid' seed' gen' h
  have hpair : pair (pair sid gen) seed = pair (pair sid' gen') seed' := h
  exact pair_eq_pair.1 (pair_eq_pair.1 hpair).1

/-- A sign-in, and a refresh with the token that it handed out. -/
def refreshedOnce : List Label :=
  [.login .portal 7 (1000 * second), .turn 0 ⟨0, 7, true, 4⟩, .turn 0 ⟨0, 7, true, 4⟩,
    .turn 0 ⟨0, 7, true, 4⟩,
    .refresh .portal ⟨0, 0, Env.sample.keys.refreshSecret 0 4 0⟩ (1001 * second),
    .turn 1 ⟨0, 7, true, 4⟩, .turn 1 ⟨0, 7, true, 4⟩]

theorem refreshed_once_linear : (Config.run .sample refreshedOnce).generation 0 = 1 ∧
    ∀ s, (Config.run .sample refreshedOnce).db.sess 0 = some s → s.At Env.sample.keys 0 1 := by
  have hgen : (Config.run .sample refreshedOnce).generation 0 = 1 := by decide +kernel
  refine ⟨hgen, fun s hs => ?_⟩
  rw [← hgen]
  exact (refresh_rotation_linear .sample Env.sample_separates refreshedOnce).1 0 s hs

end Pandora.Sessions
