import Pandora.Database.Table
import Pandora.Identity.Registration

/-!
# The tables of registration

Three tables take part in the creation of an account: its session, the code that was mailed and the
invite code.  Each of them has a mark that says what it has been used for, and the record of the
accounts agrees with the marks.  There is one structure for each of the tables, and one lemma for
each kind of write to it.
-/

namespace Pandora.Identity.Registration

open Database List Option Nat State VerificationCode

variable {created : List Created} {nextId next' code id : ℕ} {a : Created} {x : RegistrationSession}

/-! ## Sessions -/

/-- A session that has created an account is consumed. -/
structure SessionRows (sessions : List RegistrationSession) (created : List Created) (nextId : ℕ) :
    Prop where
  ids : (sessions.map (·.id)).Nodup
  below : ∀ x ∈ sessions, x.id < nextId
  known : ∀ a ∈ created, a.session < nextId
  once : (created.map (·.session)).Nodup
  consumed : ∀ a ∈ created, ∀ x ∈ sessions, x.id = a.session → x.status = .consumed

namespace SessionRows

variable {sessions : List RegistrationSession}

section

variable (h : SessionRows sessions created nextId)
include h

theorem mono (hle : nextId ≤ next') : SessionRows sessions created next' :=
  { h with
    below := fun x hx => (h.below x hx).trans_le hle
    known := fun a ha => (h.known a ha).trans_le hle }

theorem insert
    (hx : x.id = nextId) (hlt : nextId < next') : SessionRows (x :: sessions) created next' where
  ids := nodup_map_cons h.ids fun y hy => hx ▸ (h.below y hy).ne
  below := forall_mem_cons.mpr ⟨hx.trans_lt hlt, fun y hy => (h.below y hy).trans hlt⟩
  known a ha := (h.known a ha).trans hlt
  once := h.once
  consumed a ha := forall_mem_cons.mpr
    ⟨fun heq => absurd (heq.symm.trans hx) (h.known a ha).ne, h.consumed a ha⟩

theorem map {f : RegistrationSession → RegistrationSession}
    (hid : ∀ x, (f x).id = x.id) (hstatus : ∀ x, x.status = .consumed → (f x).status = .consumed) :
    SessionRows (sessions.map f) created nextId where
  __ := h
  ids := nodup_map_update h.ids hid
  below := forall_mem_map.mpr fun y hy => (hid y).trans_lt (h.below y hy)
  consumed a ha := forall_mem_map.mpr fun y hy heq =>
    hstatus y (h.consumed a ha y hy ((hid y).symm.trans heq))

theorem create (hx : x ∈ sessions) (hpending : x.status = .pending) (ha : a.session = x.id)
    (hle : nextId ≤ next') : SessionRows (sessions.map fun y =>
      if y.id = x.id ∧ y.status = .pending then { y with status := .consumed } else y)
      (a :: created) next' := by
  have hmap := (h.mono hle).map (f := fun y : RegistrationSession =>
    if y.id = x.id ∧ y.status = .pending then { y with status := .consumed } else y)
    (fun y => by split_ifs <;> rfl) (fun y hy => by
      split_ifs
      · rfl
      · exact hy)
  refine ⟨hmap.ids, hmap.below, forall_mem_cons.mpr ⟨?_, hmap.known⟩,
    nodup_map_cons h.once fun b hb heq => ?_,
    forall_mem_cons.mpr ⟨forall_mem_map.mpr fun z hz heq => ?_, hmap.consumed⟩⟩
  · rw [ha]
    exact (h.below x hx).trans_le hle
  · have hconsumed := h.consumed b hb x hx (ha.symm.trans heq.symm)
    exact absurd (hpending.symm.trans hconsumed) (by decide)
  · have hid : z.id = x.id := by
      rw [ha] at heq
      split_ifs at heq <;> exact heq
    obtain rfl := eq_of_key h.ids hz hx hid
    rw [if_pos ⟨rfl, hpending⟩]

end

end SessionRows

/-! ## Codes -/

/-- How often a code has been compared with something else. -/
def misses (compared : List Compared) (id code : ℕ) : ℕ :=
  compared.countP fun y => y.row = id ∧ y.digits ≠ code

section

variable {compared : List Compared}

theorem misses_cons_of_ne {digits : ℕ} (h : digits ≠ code) :
    misses (⟨id, digits⟩ :: compared) id code = misses compared id code + 1 :=
  countP_cons_of_pos (decide_eq_true ⟨rfl, h⟩)

theorem misses_cons_self : misses (⟨id, code⟩ :: compared) id code = misses compared id code :=
  countP_cons_of_neg (by simp)

theorem misses_cons_other {id' digits : ℕ} (h : id' ≠ id) :
    misses (⟨id', digits⟩ :: compared) id code = misses compared id code :=
  countP_cons_of_neg (by simp [h])

theorem misses_eq_zero (h : ∀ y ∈ compared, y.row < id) : misses compared id code = 0 :=
  countP_eq_zero.mpr fun y hy heq => absurd (of_decide_eq_true heq).1 (h y hy).ne

end

/-- What an account has to do with a code. -/
def Created.codeId (a : Created) : Option ℕ := a.code.map (·.id)

/-- A code that has created an account is consumed, and wrong attempts are counted. -/
structure CodeRows (codes : List VerificationCode) (created : List Created)
    (compared : List Compared) (mails : List Mail) (nextId : ℕ) : Prop where
  ids : (codes.map (·.id)).Nodup
  below : ∀ c ∈ codes, c.id < nextId
  mailed : ∀ c ∈ codes, ⟨c.target, c.code, c.id⟩ ∈ mails
  known : ∀ y ∈ compared, y.row < nextId
  counted : ∀ c ∈ codes, misses compared c.id c.code = c.attempts ∧ c.attempts ≤ c.maxAttempts
  drawn : ∀ a ∈ created, ∀ i ∈ a.codeId, i < nextId
  once : (created.filterMap Created.codeId).Nodup
  consumed : ∀ a ∈ created, ∀ c ∈ codes, a.codeId = some c.id → c.consumedAt ≠ none

namespace CodeRows

variable {codes : List VerificationCode} {compared : List Compared} {mails : List Mail}

theorem mono (h : CodeRows codes created compared mails nextId) (hle : nextId ≤ next') :
    CodeRows codes created compared mails next' :=
  { h with
    below := fun c hc => (h.below c hc).trans_le hle
    known := fun y hy => (h.known y hy).trans_le hle
    drawn := fun a ha i hi => (h.drawn a ha i hi).trans_le hle }

/-- What happens to a code is not what it is compared with. -/
structure Same (c d : VerificationCode) : Prop where
  id : d.id = c.id
  target : d.target = c.target
  code : d.code = c.code
  maxAttempts : d.maxAttempts = c.maxAttempts

theorem map (h : CodeRows codes created compared mails nextId)
    {f : VerificationCode → VerificationCode} (hf : ∀ c, Same c (f c))
    (hattempts : ∀ c, (f c).attempts = c.attempts)
    (hconsumed : ∀ c, c.consumedAt ≠ none → (f c).consumedAt ≠ none) :
    CodeRows (codes.map f) created compared mails nextId where
  __ := h
  ids := nodup_map_update h.ids fun c => (hf c).id
  below := forall_mem_map.mpr fun d hd => (hf d).id.trans_lt (h.below d hd)
  mailed := forall_mem_map.mpr fun d hd => by
    rw [(hf d).id, (hf d).target, (hf d).code]
    exact h.mailed d hd
  counted := forall_mem_map.mpr fun d hd => by
    rw [(hf d).id, (hf d).code, (hf d).maxAttempts, hattempts]
    exact h.counted d hd
  consumed a ha := forall_mem_map.mpr fun d hd heq =>
    hconsumed d (h.consumed a ha d hd (by rw [heq, (hf d).id]))

theorem expire (h : CodeRows codes created compared mails nextId) (done : List ℕ) (now : ℤ) :
    CodeRows (expire done now codes) created compared mails nextId := by
  refine h.map (fun c => ?_) (fun c => ?_) (fun c hc => ?_)
  · split_ifs <;> exact ⟨rfl, rfl, rfl, rfl⟩
  · split_ifs <;> rfl
  · split_ifs <;> exact hc

variable {c : VerificationCode}

section

variable (h : CodeRows codes created compared mails nextId)
include h

theorem insert (hid : nextId ≤ c.id) (hlt : c.id < next') (hattempts : c.attempts = 0) :
    CodeRows (c :: codes) created compared (⟨c.target, c.code, c.id⟩ :: mails) next' where
  ids := nodup_map_cons h.ids fun d hd => ((h.below d hd).trans_le hid).ne
  below := forall_mem_cons.mpr ⟨hlt, fun d hd => (h.below d hd).trans (hid.trans_lt hlt)⟩
  mailed := forall_mem_cons.mpr ⟨mem_cons_self, fun d hd => mem_cons_of_mem _ (h.mailed d hd)⟩
  known y hy := (h.known y hy).trans (hid.trans_lt hlt)
  counted := by
    refine forall_mem_cons.mpr ⟨⟨?_, by omega⟩, h.counted⟩
    rw [hattempts]
    exact misses_eq_zero fun y hy => (h.known y hy).trans_le hid
  drawn a ha i hi := (h.drawn a ha i hi).trans (hid.trans_lt hlt)
  once := h.once
  consumed a ha := forall_mem_cons.mpr
    ⟨fun heq => absurd (h.drawn a ha _ heq) hid.not_gt, h.consumed a ha⟩

theorem incAttempts (hc : c ∈ codes) (hlt : c.attempts < c.maxAttempts) {digits : ℕ}
    (hne : digits ≠ c.code) : CodeRows (incAttempts c.id codes) created
      (⟨c.id, digits⟩ :: compared) mails nextId where
  __ := h
  ids := nodup_map_update h.ids fun d => by split_ifs <;> rfl
  below := forall_mem_map.mpr fun e he => by
    have := h.below e he
    split_ifs <;> exact this
  mailed := forall_mem_map.mpr fun e he => by
    have := h.mailed e he
    split_ifs <;> exact this
  known := forall_mem_cons.mpr ⟨h.below c hc, h.known⟩
  counted := by
    refine forall_mem_update h.ids hc ⟨?_, hlt⟩ fun e he heq => ?_
    · rw [misses_cons_of_ne hne]
      exact congrArg (· + 1) (h.counted c hc).1
    · rw [misses_cons_other (Ne.symm heq)]
      exact h.counted e he
  consumed a ha := forall_mem_map.mpr fun e he heq => by
    split_ifs at heq ⊢ <;> exact h.consumed a ha e he heq

theorem createWithout
    (ha : a.code = none) (hle : nextId ≤ next') :
    CodeRows codes (a :: created) compared mails next' := by
  have hnone : a.codeId = none := by
    rw [Created.codeId, ha]
    rfl
  have hne : ∀ i, a.codeId ≠ some i := fun i heq => some_ne_none i (heq.symm.trans hnone)
  refine { h.mono hle with
    drawn := forall_mem_cons.mpr ⟨fun i hi => absurd hi (hne i), (h.mono hle).drawn⟩
    once := ?_
    consumed := forall_mem_cons.mpr ⟨fun c _ heq => absurd heq (hne c.id), h.consumed⟩ }
  rw [filterMap_cons_none hnone]
  exact h.once

theorem create (hc : c ∈ codes) (hopen : c.consumedAt = none) (ha : a.code = some c) (now : ℤ)
    (hle : nextId ≤ next') :
    CodeRows (consume c.id now codes) (a :: created) (⟨c.id, c.code⟩ :: compared)
      mails next' := by
  have hcode : a.codeId = some c.id := by
    rw [Created.codeId, ha]
    rfl
  have hmap : CodeRows (consume c.id now codes) created compared mails next' := by
    refine (h.mono hle).map (fun d => ?_) (fun d => ?_) (fun d hd => ?_)
    · split_ifs <;> exact ⟨rfl, rfl, rfl, rfl⟩
    · split_ifs <;> rfl
    · split_ifs with hif
      · exact absurd hif.2 hd
      · exact hd
  have hbelow := (h.below c hc).trans_le hle
  refine { hmap with
    known := forall_mem_cons.mpr ⟨hbelow, hmap.known⟩
    counted := ?_
    drawn := forall_mem_cons.mpr ⟨fun i hi => ?_, hmap.drawn⟩
    once := ?_
    consumed := forall_mem_cons.mpr ⟨forall_mem_map.mpr fun e he heq => ?_, hmap.consumed⟩ }
  · intro d hd
    obtain ⟨hmisses, hle⟩ := hmap.counted d hd
    refine ⟨?_, hle⟩
    obtain ⟨e, he, rfl⟩ := mem_map.mp hd
    by_cases hid : e.id = c.id
    · -- it is the code itself, and what was presented was right
      obtain rfl := eq_of_key h.ids he hc hid
      rw [if_pos ⟨rfl, hopen⟩] at hmisses ⊢
      rw [misses_cons_self]
      exact hmisses
    · rw [if_neg fun hif => hid hif.1] at hmisses ⊢
      rw [misses_cons_other (Ne.symm hid)]
      exact hmisses
  · obtain rfl := some.inj (hcode.symm.trans hi)
    exact hbelow
  · rw [filterMap_cons_some hcode, nodup_cons]
    refine ⟨fun hmem => ?_, h.once⟩
    obtain ⟨b, hb, heq⟩ := mem_filterMap.mp hmem
    exact h.consumed b hb c hc heq hopen
  · have hid : e.id = c.id := by
      have := some.inj (hcode.symm.trans heq)
      split_ifs at this <;> exact this.symm
    obtain rfl := eq_of_key h.ids he hc hid
    rw [if_pos ⟨rfl, hopen⟩]
    exact some_ne_none now

end

end CodeRows

/-! ## Invite codes and referrals -/

/-- How many accounts an invite code has created. -/
def uses (created : List Created) (id : UUID) : ℕ := created.countP fun a => a.invite = some id

/-- How many referrals there are for an account. -/
def referralsOf (referrals : List Referral) (user : UUID) : ℕ :=
  referrals.countP fun r => r.refereeUserId = user

variable {user : UUID} {now : ℤ}

theorem referralsOf_eq_zero {referrals : List Referral}
    (h : ∀ r ∈ referrals, r.refereeUserId < user) : referralsOf referrals user = 0 :=
  countP_eq_zero.mpr fun r hr heq => absurd (of_decide_eq_true heq) (h r hr).ne

theorem referralsOf_append (l referrals : List Referral) (user : UUID) :
    referralsOf (l ++ referrals) user = referralsOf l user + referralsOf referrals user :=
  countP_append

theorem mem_referral {v : Option InviteCode} {r : Referral}
    (h : r ∈ referral user v) : r.refereeUserId = user := by
  cases v with
  | none => exact absurd h not_mem_nil
  | some v =>
    unfold referral at h
    cases hown : v.ownerUserId with
    | none =>
      simp only [hown] at h
      exact absurd h not_mem_nil
    | some =>
      simp only [hown, mem_singleton] at h
      rw [h]

theorem referralsOf_referral_of_ne {user' : UUID} (h : user' ≠ user) (v : Option InviteCode) :
    referralsOf (referral user v) user' = 0 :=
  countP_eq_zero.mpr fun _ hr heq =>
    h ((of_decide_eq_true heq).symm.trans (mem_referral hr))

theorem referralsOf_referral_self (user : UUID) (v : InviteCode) :
    referralsOf (referral user (some v)) user = if v.ownerUserId = none then 0 else 1 := by
  cases hown : v.ownerUserId with
  | none =>
    simp only [referral, hown, if_true]
    rfl
  | some owner =>
    simp only [referral, hown, if_neg (some_ne_none owner)]
    exact countP_cons_of_pos (decide_eq_true rfl)

/-- The accounts that an invite code has created are counted, and those of a code with an owner are
its referrals. -/
structure InviteRows (cfg : Settings) (invites : List InviteCode) (created : List Created)
    (referrals : List Referral) (nextId : ℕ) : Prop where
  ids : (invites.map (·.id)).Nodup
  below : ∀ v ∈ invites, v.id < nextId
  users : (created.map (·.user)).Nodup
  drawn : ∀ a ∈ created, a.user < nextId
  known : ∀ a ∈ created, ∀ i ∈ a.invite, ∃ v ∈ invites, v.id = i
  counted : ∀ v ∈ invites, v.usedCount = uses created v.id
  bounded : ∀ v ∈ invites, ∀ m ∈ v.maxUses, v.usedCount ≤ m
  single : cfg.inviteNeverExpire = false → ∀ v ∈ invites, v.ownerUserId ≠ none →
    v.usedCount ≤ 1 ∧ (v.status = .active → v.usedCount = 0)
  referees : ∀ r ∈ referrals, r.refereeUserId < nextId
  referred : ∀ a ∈ created, ∀ v ∈ invites, a.invite = some v.id →
    referralsOf referrals a.user = if v.ownerUserId = none then 0 else 1
  unreferred : ∀ a ∈ created, a.invite = none → referralsOf referrals a.user = 0

namespace InviteRows

variable {cfg : Settings} {invites : List InviteCode} {referrals : List Referral}

theorem mono (h : InviteRows cfg invites created referrals nextId) (hle : nextId ≤ next') :
    InviteRows cfg invites created referrals next' :=
  { h with
    below := fun v hv => (h.below v hv).trans_le hle
    drawn := fun a ha => (h.drawn a ha).trans_le hle
    referees := fun r hr => (h.referees r hr).trans_le hle }

variable {v : InviteCode}

section

variable (h : InviteRows cfg invites created referrals nextId)
include h

theorem insert (hid : v.id = nextId) (hused : v.usedCount = 0) :
    InviteRows cfg (v :: invites) created referrals (nextId + 1) := by
  have hnew : ∀ a ∈ created, a.invite ≠ some v.id := by
    intro a ha heq
    obtain ⟨w, hw, hwid⟩ := h.known a ha v.id heq
    exact absurd (hwid.trans hid) (h.below w hw).ne
  have hmono := h.mono (le_succ nextId)
  refine { hmono with
    ids := nodup_map_cons h.ids fun w hw => hid ▸ (h.below w hw).ne
    below := forall_mem_cons.mpr ⟨hid.trans_lt (lt_succ_self nextId), hmono.below⟩
    known := fun a ha i hi => ?_
    counted := forall_mem_cons.mpr ⟨?_, h.counted⟩
    bounded := forall_mem_cons.mpr ⟨fun m _ => hused ▸ zero_le m, h.bounded⟩
    single := fun hcfg => forall_mem_cons.mpr
      ⟨fun _ => ⟨hused.le.trans (zero_le 1), fun _ => hused⟩, h.single hcfg⟩
    referred := fun a ha => forall_mem_cons.mpr
      ⟨fun heq => absurd heq (hnew a ha), h.referred a ha⟩ }
  · obtain ⟨w, hw, hwid⟩ := h.known a ha i hi
    exact ⟨w, mem_cons_of_mem v hw, hwid⟩
  · rw [hused]
    exact (countP_eq_zero.mpr fun a ha heq => hnew a ha (of_decide_eq_true heq)).symm

/-- An account is created; `l` are the referrals that come with it. -/
theorem newAccount {v : Option InviteCode} (ha : a.user = nextId) :
    ((a :: created).map (·.user)).Nodup ∧ (∀ b ∈ a :: created, b.user < nextId + 1) ∧
      (∀ r ∈ referral nextId v ++ referrals, r.refereeUserId < nextId + 1) ∧
      referralsOf (referral nextId v ++ referrals) a.user =
        referralsOf (referral nextId v) nextId ∧
      ∀ b ∈ created, referralsOf (referral nextId v ++ referrals) b.user =
        referralsOf referrals b.user := by
  have hmono := h.mono (le_succ nextId)
  refine ⟨nodup_map_cons h.users fun b hb => ha ▸ (h.drawn b hb).ne,
    forall_mem_cons.mpr ⟨ha.trans_lt (lt_succ_self nextId), hmono.drawn⟩,
    forall_mem_append.mpr ⟨fun r hr => ?_, hmono.referees⟩, ?_, ?_⟩
  · rw [mem_referral hr]
    exact lt_succ_self nextId
  · rw [referralsOf_append, ha, referralsOf_eq_zero h.referees, add_zero]
  · intro b hb
    rw [referralsOf_append, referralsOf_referral_of_ne (h.drawn b hb).ne, zero_add]

theorem createWithout (ha : a.user = nextId) (hinvite : a.invite = none) :
    InviteRows cfg invites (a :: created) (referral nextId none ++ referrals) (nextId + 1) := by
  obtain ⟨husers, hdrawn, hreferees, hself, hothers⟩ := h.newAccount (v := none) ha
  have hne : ∀ i, a.invite ≠ some i := fun i heq => some_ne_none i (heq.symm.trans hinvite)
  refine { h.mono (le_succ nextId) with
    users := husers, drawn := hdrawn, referees := hreferees
    known := forall_mem_cons.mpr ⟨fun i hi => absurd hi (hne i), h.known⟩
    counted := fun v hv => ?_
    referred := forall_mem_cons.mpr ⟨fun v _ heq => absurd heq (hne v.id), fun b hb v hv heq => ?_⟩
    unreferred := forall_mem_cons.mpr ⟨fun _ => hself, fun b hb heq => ?_⟩ }
  · rw [uses, countP_cons_of_neg (by simp [hinvite])]
    exact h.counted v hv
  · rw [hothers b hb]
    exact h.referred b hb v hv heq
  · rw [hothers b hb]
    exact h.unreferred b hb heq

theorem used_eq (hv : v ∈ invites) (husable : v.Usable now) (b : Bool) :
    (invites.map fun w => if w.id = v.id ∧ w.Usable now then w.used b else w) =
      invites.map fun w => if w.id = v.id then w.used b else w := by
  refine map_congr_left fun w hw => ?_
  by_cases hid : w.id = v.id
  · obtain rfl := eq_of_key h.ids hw hv hid
    rw [if_pos ⟨rfl, husable⟩, if_pos rfl]
  · rw [if_neg fun hif => hid hif.1, if_neg hid]

theorem create (hv : v ∈ invites) (husable : v.Usable now) (ha : a.user = nextId)
    (hinvite : a.invite = some v.id) : InviteRows cfg (invites.map fun w =>
      if w.id = v.id ∧ w.Usable now then w.used (personalCodeSingleUse cfg && v.ownerUserId.isSome)
      else w) (a :: created) (referral nextId (some v) ++ referrals) (nextId + 1) := by
  obtain ⟨husers, hdrawn, hreferees, hself, hothers⟩ := h.newAccount (v := some v) ha
  rw [h.used_eq hv husable]
  have hid : ∀ (b : Bool) (w : InviteCode), (if w.id = v.id then w.used b else w).id = w.id :=
    fun _ w => by split_ifs <;> rfl
  have hbelow := (h.mono (le_succ nextId)).below
  refine ⟨nodup_map_update h.ids (hid _), forall_mem_update h.ids hv (hbelow v hv) fun w hw _ =>
      hbelow w hw, husers, hdrawn, ?_, forall_mem_update h.ids hv ?_ fun w hw hne => ?_,
    forall_mem_update h.ids hv husable.2.2 fun w hw _ => h.bounded w hw,
    fun hcfg => forall_mem_update h.ids hv (fun hown : v.ownerUserId ≠ none => ?_) fun w hw _ =>
      h.single hcfg w hw, hreferees, fun b hb => forall_mem_map.mpr fun w hw heq => ?_,
        fun b hb heq => ?_⟩
  · -- the new account and the old ones have an invite code that exists
    intro b hb i hi
    have hex : ∃ w ∈ invites, w.id = i := by
      rcases mem_cons.mp hb with rfl | hb
      · exact ⟨v, hv, some.inj (hinvite.symm.trans hi)⟩
      · exact h.known b hb i hi
    obtain ⟨w, hw, hwid⟩ := hex
    exact ⟨_, mem_map_of_mem hw, (hid _ w).trans hwid⟩
  · rw [uses, countP_cons_of_pos (by simp [hinvite, InviteCode.used])]
    exact congrArg (· + 1) (h.counted v hv)
  · rw [uses, countP_cons_of_neg (by simp [hinvite, Ne.symm hne])]
    exact h.counted w hw
  · -- a personal code that could be used had not been used, and cannot be used again
    have hzero := (h.single hcfg v hv hown).2 husable.1
    have hsingle : (personalCodeSingleUse cfg && v.ownerUserId.isSome) = true := by
      rw [personalCodeSingleUse, hcfg, isSome_iff_ne_none.mpr hown]
      rfl
    rw [hsingle]
    refine ⟨(congrArg (· + 1) hzero).le, fun hactive => ?_⟩
    rw [InviteCode.used, if_pos (.inl rfl)] at hactive
    exact absurd hactive InviteStatus.noConfusion
  · rw [hid] at heq
    rw [show InviteCode.ownerUserId (if w.id = v.id then _ else w) =
      w.ownerUserId by split_ifs <;> rfl]
    rcases mem_cons.mp hb with rfl | hb
    · obtain rfl := eq_of_key h.ids hv hw (some.inj (hinvite.symm.trans heq))
      rw [hself]
      exact referralsOf_referral_self nextId v
    · rw [hothers b hb]
      exact h.referred b hb w hw heq
  · rcases mem_cons.mp hb with rfl | hb
    · exact absurd (heq.symm.trans hinvite) (some_ne_none v.id).symm
    · rw [hothers b hb]
      exact h.unreferred b hb heq

end

end InviteRows

end Pandora.Identity.Registration
