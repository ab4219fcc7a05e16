import Pandora.Giftcards.Flights

/-!
# A card is redeemed once

Whoever has passed the checks of a code holds the lock on its row, so the row is still unused when
it is marked; and whoever has counted the redemptions of a user holds the lock of the user and the
template, so nobody else adds one.  What a redemption writes it writes at its end, in one step.
-/

namespace Pandora.Giftcards

open Database List Function Tx Config Code Relates Stage Flight Locks

/-! ## What a redemption writes -/

variable {s s' : State} {t : ℕ} {stage : Stage} {outcome : Outcome} {grants : List UUID}
  {f : Flight} {tmpl : Template} {r : Redemption} {usedBy : Option (UUID × Time)} {id : UUID}

section Marked

variable {old new : CodeStatus} {c : Code}

@[simp] theorem marked_id : (c.marked id old new usedBy).id = c.id := by
  unfold marked
  split_ifs <;> rfl

@[simp] theorem marked_expiresAt : (c.marked id old new usedBy).expiresAt = c.expiresAt := by
  unfold marked
  split_ifs <;> rfl

theorem marked_of_ne (hne : c.id ≠ id) : c.marked id old new usedBy = c :=
  if_neg fun h => hne h.1

theorem marked_status (hid : c.id = id) (hold : c.status = old) :
    (c.marked id old new usedBy).status = new := by
  rw [marked, if_pos ⟨hid, hold⟩]

end Marked

section Grant

variable {env : Env} {k : Ticket} {mystery reset : Bool} {p : Prize} {α : Type}

/-- A body that changes neither codes nor redemptions. -/
abbrev Framed (m : Action α) : Prop := Relates (fun _ => True) Frame m

theorem frame_post {posting : Ledger.Posting} : Framed (post env posting) := by
  intro s a s' _ h
  obtain ⟨l, -, rfl⟩ := zoom_ok.mp h
  exact ⟨trivial, rfl, rfl, rfl⟩

theorem frame_onSub {user : UUID}
    {f : Subscriptions.Entitlement → Except Subscriptions.Error Subscriptions.Entitlement} :
    Framed (onSub user id f) := by
  refine bind .read fun s => ofOption.bind fun m =>
    ofExcept.bind fun m' => bind (write fun s _ => ?_) fun _ => .pure
  exact ⟨trivial, rfl, rfl, rfl⟩

theorem frame_grantBalance {balance : ℚ} : Framed (grantBalance env k balance) :=
  .ite (frame_post.bind fun _ => .pure) .pure

theorem frame_attempt {m : Action α} (hm : Framed m) : Framed (attempt m) := by
  intro s x s' hs h
  rcases attempt_ok.mp h with ⟨a, -, hok⟩ | ⟨e, -, -, rfl⟩
  · exact hm hs hok
  · exact ⟨trivial, Std.Refl.refl _⟩

theorem frame_grantOn {subId : UUID} : Framed (grantOn env k mystery p reset subId) := by
  have hdays : Framed (grantDays env k subId p.expireDays) :=
    .ite .pure (.ite .pure (frame_onSub.bind fun _ => .pure))
  have hreset : Framed (grantReset env k subId reset) :=
    .ite (frame_onSub.bind fun _ => .pure) .pure
  have htraffic : Framed (grantTraffic env k mystery subId p.trafficBytes) := by
    refine .ite .pure ((frame_attempt frame_onSub).bind fun given => ?_)
    cases given with
    | ok => exact .pure
    | error => exact .ite .pure .fail
  exact hdays.bind fun _ => hreset.bind fun _ => htraffic.bind fun _ => .pure

theorem frame_grantReward : Framed (grantReward env k mystery p reset) := by
  refine require.bind fun _ => frame_grantBalance.bind fun txn => ?_
  unfold grantRest
  cases k.landing.bind (·.subscriptionId) with
  | none => exact .pure
  | some => exact .ite (frame_grantOn.bind fun _ => .pure) .pure

theorem frame_addSub {x : Except Subscriptions.Error Subscriptions.Entitlement} :
    Framed (addSub x) := by
  refine ofExcept.bind fun m s a s' _ h => ?_
  split_ifs at h
  obtain ⟨rfl, rfl⟩ := Prod.mk.inj (Except.ok.inj h)
  exact ⟨trivial, rfl, rfl, rfl⟩

theorem frame_grantPlan {planId : Option UUID} : Framed (grantPlan env k planId) := by
  unfold grantPlan
  split
  · split
    · exact frame_addSub.bind fun _ => .pure
    · exact frame_onSub.bind fun _ => .pure
    · exact frame_onSub.bind fun _ => .pure
    · exact (frame_onSub.bind fun _ => .pure).bind
        fun _ => .ite (frame_post.bind fun _ => .pure) .pure
    all_goals exact .fail
  · exact .fail

theorem frame_grant : Framed (grant env k) := by
  unfold grant
  cases k.template.rewards with
  | plan => exact frame_grantPlan
  | general => exact frame_grantReward
  | mystery => exact ofExcept.bind fun p => frame_grantReward

/-- The redemption that is written down. -/
def Ticket.row (k : Ticket) (env : Env) (g : Granted) : Redemption :=
  ⟨k.codeId, k.template.id, k.userId, env.now, g⟩

theorem insertRedemption_ok {u : Unit} (h : insertRedemption r s = .ok (u, s')) :
    s' = { s with redemptions := s.redemptions ++ [r] } ∧
      ∀ x ∈ s.redemptions, x.codeId ≠ r.codeId := by
  simp only [insertRedemption, bind_ok, read_ok, require_ok, write_ok] at h
  obtain ⟨_, _, ⟨rfl, rfl⟩, _, _, ⟨-, rfl⟩, _, _, ⟨hfirst, rfl⟩, rfl⟩ := h
  exact ⟨rfl, hfirst⟩

/-- What the end of a redemption writes: the mark on its code, which was unused, and one row. -/
structure Gave (env : Env) (k : Ticket) (s s' : State) : Prop where
  unused : ∃ c ∈ s.codes, c.id = k.codeId ∧ c.status = .unused
  first : ∀ x ∈ s.redemptions, x.codeId ≠ k.codeId
  codes : s'.codes = s.codes.map (Code.marked k.codeId .unused .used (some (k.userId, env.now)))
  templates : s'.templates = s.templates
  redemptions : ∃ g, s'.redemptions = s.redemptions ++ [k.row env g]

theorem give_ok {g : Granted} (h : give env k s = .ok (g, s')) : Gave env k s s' := by
  simp only [give, mark, finish, bind_ok, require_ok, ofExcept_ok, pure_ok] at h
  obtain ⟨_, _, ⟨moved, s₁, hmark, hmoved, rfl⟩, g, s₂, hgrant, _, s₃, hinsert, hrest⟩ := h
  obtain ⟨_, _, ⟨-, rfl⟩, _, _, ⟨-, rfl⟩, _, _, ⟨-, rfl⟩, _, _, ⟨-, rfl⟩, rfl, rfl⟩ := hrest
  obtain ⟨rfl, hiff⟩ := updateCodeStatus_ok hmark
  obtain ⟨-, hframe⟩ := frame_grant trivial hgrant
  obtain ⟨rfl, hfirst⟩ := insertRedemption_ok hinsert
  rw [hframe.redemptions] at hfirst
  exact ⟨hiff.mp hmoved, hfirst, hframe.codes, hframe.templates, g,
    congrArg (· ++ [k.row env g]) hframe.redemptions⟩

end Grant

/-! ## Who holds what -/

/-- The code whose row is locked. -/
def Stage.code : Stage → Option UUID
  | .begun _ => none
  | .locked code => some code.id
  | .limited code _ => some code.id
  | .counting code _ => some code.id
  | .checked code _ => some code.id
  | .placed code _ _ => some code.id

/-- The template, once its limit has been dealt with or is about to be. -/
def Stage.counted : Stage → Option Template
  | .counting _ tmpl => some tmpl
  | .checked _ tmpl => some tmpl
  | .placed _ tmpl _ => some tmpl
  | _ => none

/-- What a redemption holds. -/
structure Flight.Holds (c : Config) (t : ℕ) (f : Flight) : Prop where
  code : ∀ id, f.stage.code = some id → c.codeLocks id = some t ∧
    ∃ row ∈ c.tables.codes, row.id = id ∧ row.status = .unused ∧
      ∀ e ∈ row.expiresAt, f.req.env.now < e
  user : ∀ tmpl, f.stage.counted = some tmpl → 0 < tmpl.maxUsePerUser →
    c.userLocks (f.user, tmpl.id) = some t

theorem Flight.Holds.advance {c : Config} (hf : f.Holds c t) (hcode : stage.code = f.stage.code)
    (hcounted : ∀ tmpl, stage.counted = some tmpl → 0 < tmpl.maxUsePerUser →
      f.stage.counted = some tmpl) : Holds c t { f with stage := stage } :=
  ⟨fun id hid => hf.code id (hcode.symm.trans hid),
    fun tmpl htmpl hlimit => hf.user tmpl (hcounted tmpl htmpl hlimit) hlimit⟩

/-- A step of one redemption leaves alone what others hold. -/
structure Apart (t : ℕ) (c c' : Config) : Prop where
  flights : ∀ t' ≠ t, c'.flights t' = c.flights t'
  codeLocks : ∀ t' ≠ t, ∀ id, c.codeLocks id = some t' → c'.codeLocks id = some t'
  userLocks : ∀ t' ≠ t, ∀ p, c.userLocks p = some t' → c'.userLocks p = some t'
  rows : ∀ t' ≠ t, ∀ row ∈ c.tables.codes, c.codeLocks row.id = some t' → row ∈ c'.tables.codes

namespace Apart

variable {c c' : Config}

theorem trans {c'' : Config} (h : Apart t c c') (h' : Apart t c' c'') : Apart t c c'' :=
  ⟨fun t' hne => (h'.flights t' hne).trans (h.flights t' hne),
    fun t' hne id hid => h'.codeLocks t' hne id (h.codeLocks t' hne id hid),
    fun t' hne p hp => h'.userLocks t' hne p (h.userLocks t' hne p hp),
    fun t' hne row hrow hlock => h'.rows t' hne row (h.rows t' hne row hrow hlock)
      (h.codeLocks t' hne row.id hlock)⟩

theorem advance : Apart t c (c.advance t f stage) :=
  ⟨fun _ hne => update_of_ne hne _ _, fun _ _ _ h => h, fun _ _ _ h => h, fun _ _ _ h _ => h⟩

theorem close : Apart t c (c.close t outcome) :=
  ⟨fun _ hne => update_of_ne hne _ _, fun _ hne _ => release_of_ne hne,
    fun _ hne _ => release_of_ne hne, fun _ _ _ h _ => h⟩

theorem lockCode (hfree : c.codeLocks id = none) :
    Apart t c { c with codeLocks := c.codeLocks.take t id } :=
  ⟨fun _ _ => rfl, fun _ _ _ => take_of_held (.inl hfree), fun _ _ _ h => h, fun _ _ _ h _ => h⟩

theorem lockUser {p : UUID × UUID} (hfree : c.userLocks p = none) :
    Apart t c { c with userLocks := c.userLocks.take t p } :=
  ⟨fun _ _ => rfl, fun _ _ _ h => h, fun _ _ _ => take_of_held (.inl hfree), fun _ _ _ h _ => h⟩

theorem mark {new : CodeStatus}
    (hcodes : s'.codes = c.tables.codes.map (marked id .unused new usedBy))
    (hfree : ∀ t' ≠ t, c.codeLocks id ≠ some t') :
    Apart t c { c with tables := s', grants := grants } := by
  refine ⟨fun _ _ => rfl, fun _ _ _ h => h, fun _ _ _ h => h, fun t' hne row hrow hlock => ?_⟩
  have hid : row.id ≠ id := by
    rintro rfl
    exact hfree t' hne hlock
  rw [hcodes]
  exact mem_map.mpr ⟨row, hrow, marked_of_ne hid⟩

theorem holds {t' : ℕ} (h : Apart t c c') (hne : t' ≠ t) (hf : f.Holds c t') : f.Holds c' t' := by
  refine ⟨fun id hid => ?_, fun tmpl htmpl hlimit => h.userLocks t' hne _
    (hf.user tmpl htmpl hlimit)⟩
  obtain ⟨hlock, row, hrow, rfl, hunused, htime⟩ := hf.code id hid
  exact ⟨h.codeLocks t' hne _ hlock, row, h.rows t' hne row hrow hlock, rfl, hunused, htime⟩

end Apart

/-! ## What a statement does -/

/-- The redemptions of a template by a user. -/
def State.usage (s : State) (user template : UUID) : ℕ :=
  s.redemptions.countP fun r => r.userId = user ∧ r.templateId = template

/-- Everything that the next statement of a redemption can do. -/
inductive Turned (c : Config) (t : ℕ) (f : Flight) : Config → Prop
  | waits : Turned c t f c
  | fails : Turned c t f (c.close t .failed)
  | expires (row : Code) (hrow : row ∈ c.tables.codes) (hfree : c.codeLocks row.id = none)
      (hunused : row.status = .unused) (htime : ∃ e ∈ row.expiresAt, e ≤ f.req.env.now) :
      Turned c t f (Config.close { c with
        tables := { c.tables with
          codes := c.tables.codes.map (Code.marked row.id .unused .expired none) } } t .expired)
  | locks (row : Code) (hrow : row ∈ c.tables.codes) (hfree : c.codeLocks row.id = none)
      (hunused : row.status = .unused) (htime : ∀ e ∈ row.expiresAt, f.req.env.now < e) :
      Turned c t f (Config.advance
        { c with codeLocks := c.codeLocks.take t row.id } t f (.locked row))
  | reads (code : Code) (tmpl : Template) (hstage : f.stage = .locked code)
      (htmpl : tmpl ∈ c.tables.templates) :
      Turned c t f
        (c.advance t f (if 0 < tmpl.maxUsePerUser then .limited code tmpl else .checked code tmpl))
  | limits (code : Code) (tmpl : Template) (hstage : f.stage = .limited code tmpl)
      (hfree : c.userLocks (f.user, tmpl.id) = none) :
      Turned c t f (Config.advance
        { c with userLocks := c.userLocks.take t (f.user, tmpl.id) } t f
        (.counting code tmpl))
  | counts (code : Code) (tmpl : Template) (hstage : f.stage = .counting code tmpl)
      (hroom : tmpl.maxUsePerUser = 0 ∨ c.tables.usage f.user tmpl.id < tmpl.maxUsePerUser) :
      Turned c t f (c.advance t f (.checked code tmpl))
  | places (code : Code) (tmpl : Template) (hstage : f.stage = .checked code tmpl)
      (place : Place) : Turned c t f (c.advance t f (.placed code tmpl place))
  | gives (code : Code) (tmpl : Template) (place : Place)
      (hstage : f.stage = .placed code tmpl place) (s' : State)
      (hgave : Gave f.req.env ⟨place, f.user, code.id, tmpl⟩ c.tables s') :
      Turned c t f
        (Config.close { c with tables := s', grants := c.grants ++ [code.id] } t .granted)

section Turn

variable {c : Config}

theorem lockCode_turned (hash : ℕ) : Turned c t f (c.lockCode t f hash) := by
  unfold lockCode
  cases hfind : c.tables.codes.find? (·.hash = hash) with
  | none => exact .fails
  | some row =>
    have hrow := mem_of_find?_eq_some hfind
    dsimp only
    split_ifs with hlocked hused htime
    · exact .waits
    · exact .fails
    · exact .expires row hrow (not_not.mp hlocked) (not_not.mp hused) htime
    · refine .locks row hrow (not_not.mp hlocked) (not_not.mp hused) fun e he => ?_
      exact not_le.mp fun hle => htime ⟨e, he, hle⟩

theorem readTemplate_turned {code : Code} (hstage : f.stage = .locked code) :
    Turned c t f (c.readTemplate t f code) := by
  unfold readTemplate
  cases hfind : c.tables.templates.find? (·.id = code.templateId) with
  | none => exact .fails
  | some tmpl =>
    dsimp only
    by_cases hok : tmpl.status = .active ∧ checkConditions f.req.env f.user tmpl = .ok ()
    · rw [if_pos hok]
      exact .reads code tmpl hstage (mem_of_find?_eq_some hfind)
    · rw [if_neg hok]
      exact .fails

/-- **What the next statement of a redemption does.** -/
theorem turn_turned (c : Config) (t : ℕ) (f : Flight) : Turned c t f (c.turn t f) := by
  unfold turn
  split
  · exact lockCode_turned _
  · next hstage => exact readTemplate_turned hstage
  · next code tmpl hstage =>
    unfold lockUser
    split_ifs with hfree
    · exact .limits code tmpl hstage hfree
    · exact .waits
  · next code tmpl hstage =>
    cases hlimits : checkLimits c.tables f.user tmpl with
    | error => exact .fails
    | ok => exact .counts code tmpl hstage (ensure_eq_ok.mp hlimits)
  · next code tmpl hstage =>
    cases settlePlace f.req.env c.tables f.user tmpl f.req.input.choice with
    | error => exact .fails
    | ok place => exact .places code tmpl hstage place
  · next code tmpl place hstage =>
    cases hgive : give f.req.env ⟨place, f.user, code.id, tmpl⟩ c.tables with
    | error => exact .fails
    | ok r => exact .gives code tmpl place hstage r.2 (give_ok hgive)

end Turn

/-- Everything that a step can do. -/
inductive Stepped (c : Config) : Label → Config → Prop
  | waits {l : Label} : Stepped c l c
  | begins (t : ℕ) (req : Request) (user : UUID) (hash : ℕ) :
      Stepped c (.begin t req) (c.advance t ⟨req, user, .begun hash⟩ (.begun hash))
  | refused (t : ℕ) (req : Request) :
      Stepped c (.begin t req) { c with outcomes := (t, .failed) :: c.outcomes }
  | turned {t : ℕ} {f : Flight} {c' : Config} (hf : c.flights t = some f) (h : Turned c t f c') :
      Stepped c (.turn t) c'
  | aborted (t : ℕ) : Stepped c (.abort t) (c.close t .failed)
  | elsewhere (e : Elsewhere) : Stepped c (.elsewhere e) (c.next (.elsewhere e))

theorem next_stepped (c : Config) (l : Label) : Stepped c l (c.next l) := by
  cases l with
  | begin t req =>
    show Stepped c _ (c.begin t req)
    unfold begin
    split
    · split_ifs
      · exact .begins ..
      · exact .refused t req
    · exact .refused t req
    · exact .waits
  | turn t =>
    simp only [Config.next]
    cases hf : c.flights t with
    | none => exact .waits
    | some f => exact .turned hf (turn_turned c t f)
  | abort t =>
    simp only [Config.next]
    cases c.flights t with
    | none => exact .waits
    | some => exact .aborted t
  | elsewhere e => exact .elsewhere e

/-! ## Codes and redemptions -/

/-- What the tables say about codes and redemptions. -/
structure Sound (s : State) : Prop where
  ids : (s.codes.map (·.id)).Nodup
  once : (s.redemptions.map (·.codeId)).Nodup
  used : ∀ row ∈ s.codes, row.status = .used ↔ row.id ∈ s.redemptions.map (·.codeId)
  inTime : ∀ r ∈ s.redemptions, ∀ row ∈ s.codes, row.id = r.codeId → ∀ e ∈ row.expiresAt,
    r.redeemedAt < e

theorem ids_marked {codes : List Code} {old new : CodeStatus} :
    (codes.map (marked id old new usedBy)).map (·.id) = codes.map (·.id) := by
  rw [map_map]
  exact map_congr_left fun _ _ => marked_id

theorem Sound.expire (hs : Sound s) {row : Code} (hrow : row ∈ s.codes)
    (hunused : row.status = .unused) :
    Sound { s with codes := s.codes.map (marked row.id .unused .expired none) } := by
  refine ⟨?_, hs.once, fun row' hrow' => ?_, fun r hr row' hrow' hid e he => ?_⟩
  · rw [ids_marked]
    exact hs.ids
  · obtain ⟨x, hx, rfl⟩ := mem_map.mp hrow'
    rw [marked_id, ← hs.used x hx]
    by_cases hid : x.id = row.id
    · obtain rfl : x = row := eq_of_key hs.ids hx hrow hid
      rw [marked_status rfl hunused, hunused]
      exact ⟨nofun, nofun⟩
    · rw [marked_of_ne hid]
  · obtain ⟨x, hx, rfl⟩ := mem_map.mp hrow'
    rw [marked_id] at hid
    rw [marked_expiresAt] at he
    exact hs.inTime r hr x hx hid e he

theorem Gave.sound {env : Env} {k : Ticket} (h : Gave env k s s') (hs : Sound s)
    (htime : ∀ row ∈ s.codes, row.id = k.codeId → ∀ e ∈ row.expiresAt, env.now < e) : Sound s' := by
  obtain ⟨row, hrow, hid, hunused⟩ := h.unused
  obtain ⟨g, hredemptions⟩ := h.redemptions
  have hcodeIds : s'.redemptions.map (·.codeId) = s.redemptions.map (·.codeId) ++ [k.codeId] := by
    rw [hredemptions, map_append]
    rfl
  refine ⟨?_, ?_, fun row' hrow' => ?_, fun r hr row' hrow' hrid e he => ?_⟩
  · rw [h.codes, ids_marked]
    exact hs.ids
  · rw [hredemptions]
    exact nodup_map_append hs.once h.first
  · rw [h.codes] at hrow'
    obtain ⟨x, hx, rfl⟩ := mem_map.mp hrow'
    rw [hcodeIds, marked_id]
    by_cases hx' : x.id = k.codeId
    · obtain rfl : x = row := eq_of_key hs.ids hx hrow (hx'.trans hid.symm)
      rw [marked_status hx' hunused, hx']
      exact ⟨fun _ => mem_append_right _ (mem_singleton_self _), fun _ => rfl⟩
    · rw [marked_of_ne hx', hs.used x hx, mem_append, mem_singleton]
      exact ⟨.inl, fun hor => hor.resolve_right hx'⟩
  · rw [h.codes] at hrow'
    obtain ⟨x, hx, rfl⟩ := mem_map.mp hrow'
    rw [marked_id] at hrid
    rw [marked_expiresAt] at he
    rw [hredemptions] at hr
    rcases mem_append.mp hr with hr | hr
    · exact hs.inTime r hr x hx hrid e he
    · obtain rfl := mem_singleton.mp hr
      exact htime x hx hrid e he

structure Config.Inv (c : Config) : Prop where
  sound : Sound c.tables
  grants : c.grants = c.tables.redemptions.map (·.codeId)
  holds : ∀ t f, c.flights t = some f → f.Holds c t

namespace Config.Inv

variable {c c' : Config}

section

variable (hc : c.Inv)
include hc

theorem apart (h : Apart t c c') (hsound : Sound c'.tables)
    (hgrants : c'.grants = c'.tables.redemptions.map (·.codeId))
    (hown : ∀ f, c'.flights t = some f → f.Holds c' t) : c'.Inv := by
  refine ⟨hsound, hgrants, fun t' f' hf' => ?_⟩
  by_cases heq : t' = t
  · rw [heq] at hf' ⊢
    exact hown f' hf'
  · rw [h.flights t' heq] at hf'
    exact h.holds heq (hc.holds t' f' hf')

theorem advance (hholds : Holds c t { f with stage := stage }) :
    (c.advance t f stage).Inv := by
  refine hc.apart Apart.advance hc.sound hc.grants fun f' hf' => ?_
  rw [advance_self] at hf'
  obtain rfl := Option.some.inj hf'
  exact ⟨hholds.code, hholds.user⟩

theorem close : (c.close t outcome).Inv := by
  refine hc.apart Apart.close hc.sound hc.grants fun f' hf' => ?_
  rw [close_self] at hf'
  cases hf'

theorem commit (h : Apart t c { c with tables := s', grants := grants }) (hsound : Sound s')
    (hgrants : grants = s'.redemptions.map (·.codeId)) :
    (Config.close { c with tables := s', grants := grants } t outcome).Inv := by
  refine hc.apart (h.trans Apart.close) hsound hgrants fun f' hf' => ?_
  rw [Config.close_self] at hf'
  cases hf'

theorem turned (hf : c.flights t = some f) (h : Turned c t f c') : c'.Inv := by
  have hown := hc.holds t f hf
  cases h with
  | waits => exact hc
  | fails => exact hc.close
  | expires row hrow hfree hunused =>
    refine hc.commit (?_ : Apart t c { c with tables := _, grants := c.grants })
      (hc.sound.expire hrow hunused) hc.grants
    refine Apart.mark rfl fun t' _ heq => ?_
    rw [hfree] at heq
    cases heq
  | locks row hrow hfree hunused htime =>
    have hlocked : Inv { c with codeLocks := c.codeLocks.take t row.id } := by
      refine hc.apart (Apart.lockCode hfree) hc.sound hc.grants fun f' hf' => ?_
      have hf'' := hc.holds t f' hf'
      exact ⟨fun id hid => (hf''.code id hid).imp_left (take_of_held (.inl hfree)), hf''.user⟩
    refine hlocked.advance ⟨fun id hid => ?_, fun _ h => nomatch h⟩
    obtain rfl := Option.some.inj hid
    exact ⟨update_self _ _ _, row, hrow, rfl, hunused, htime⟩
  | reads code tmpl hstage =>
    refine hc.advance (hown.advance ?_ fun tmpl' htmpl' hlimit => ?_)
    · rw [hstage]
      split_ifs <;> rfl
    · split_ifs at htmpl' with hmost
      · cases htmpl'
      · obtain rfl := Option.some.inj htmpl'
        exact absurd hlimit hmost
  | limits code tmpl hstage hfree =>
    have hlocked : Inv { c with
        userLocks := c.userLocks.take t (f.user, tmpl.id) } := by
      refine hc.apart (Apart.lockUser hfree) hc.sound hc.grants fun f' hf' => ?_
      have hf'' := hc.holds t f' hf'
      exact ⟨hf''.code, fun tmpl' htmpl' hlimit => take_of_held (.inl hfree)
        (hf''.user tmpl' htmpl' hlimit)⟩
    refine hlocked.advance ⟨fun id hid => hown.code id ?_, fun tmpl' htmpl' _ => ?_⟩
    · rw [hstage]
      exact hid
    · obtain rfl := Option.some.inj htmpl'
      exact update_self _ _ _
  | counts code tmpl hstage | places code tmpl hstage =>
    refine hc.advance (hown.advance ?_ fun tmpl' htmpl' _ => ?_)
    · rw [hstage]
      rfl
    · rw [hstage]
      exact htmpl'
  | gives code tmpl place hstage s' hgave =>
    obtain ⟨hlock, row, hrow, hid, hunused, htime⟩ := hown.code code.id (by rw [hstage]; rfl)
    refine hc.commit (Apart.mark hgave.codes fun t' hne heq => ?_)
      (hgave.sound hc.sound fun row' hrow' hid' => ?_) ?_
    · exact hne (Option.some.inj (heq.symm.trans hlock))
    · obtain rfl : row' = row := eq_of_key hc.sound.ids hrow' hrow (hid'.trans hid.symm)
      exact htime
    · obtain ⟨g, hredemptions⟩ := hgave.redemptions
      rw [hredemptions, map_append, hc.grants]
      rfl

theorem next (l : Label) : (c.next l).Inv := by
  have hstep := next_stepped c l
  generalize c.next l = c' at hstep
  cases hstep with
  | waits => exact hc
  | begins => exact hc.advance ⟨fun _ h => (nomatch h), fun _ h => nomatch h⟩
  | refused =>
    exact { hc with holds := fun t f hf => { hc.holds t f hf with } }
  | turned hf h => exact hc.turned hf h
  | aborted => exact hc.close
  | elsewhere =>
    exact ⟨{ hc.sound with }, hc.grants, fun t f hf => { hc.holds t f hf with }⟩

end

end Config.Inv

/-! ## The limit for each user -/

/-- The template that has been read. -/
def Stage.template : Stage → Option Template
  | .limited _ tmpl => some tmpl
  | .counting _ tmpl => some tmpl
  | .checked _ tmpl => some tmpl
  | .placed _ tmpl _ => some tmpl
  | _ => none

/-- The template whose limit leaves room. -/
def Stage.passed : Stage → Option Template
  | .checked _ tmpl => some tmpl
  | .placed _ tmpl _ => some tmpl
  | _ => none

theorem Stage.counted_of_passed (h : stage.passed = some tmpl) : stage.counted = some tmpl := by
  cases stage with
  | checked | placed => exact h
  | _ => exact nomatch h

theorem Stage.template_of_passed (h : stage.passed = some tmpl) : stage.template = some tmpl := by
  cases stage with
  | checked | placed => exact h
  | _ => exact nomatch h

/-- A template has the limit `most`. -/
def Config.Most (id : UUID) (most : ℕ) (c : Config) : Prop :=
  ∀ tmpl ∈ c.tables.templates, tmpl.id = id → tmpl.maxUsePerUser = most

/-- What a redemption knows of the template. -/
structure Flight.Within (id : UUID) (most : ℕ) (s : State) (f : Flight) : Prop where
  read : ∀ tmpl, f.stage.template = some tmpl → tmpl.id = id → tmpl.maxUsePerUser = most
  room : ∀ tmpl, f.stage.passed = some tmpl → tmpl.id = id → s.usage f.user id < most

structure Config.Limit (id : UUID) (most : ℕ) (c : Config) : Prop where
  usage : ∀ user, c.tables.usage user id ≤ most
  within : ∀ t f, c.flights t = some f → f.Within id most c.tables

namespace Config.Limit

variable {most : ℕ} {c c' : Config}

section

variable (hc : c.Limit id most)
include hc

theorem same (hredemptions : c'.tables.redemptions = c.tables.redemptions)
    (hflights : ∀ t' f', c'.flights t' = some f' →
      c.flights t' = some f' ∨ f'.Within id most c.tables) : c'.Limit id most := by
  have husage : ∀ user, c'.tables.usage user id = c.tables.usage user id := fun user => by
    unfold State.usage
    rw [hredemptions]
  refine ⟨fun user => (husage user).trans_le (hc.usage user), fun t' f' hf' => ?_⟩
  have hwithin : f'.Within id most c.tables := (hflights t' f' hf').elim (hc.within t' f')
    fun h => h
  exact ⟨hwithin.read, fun tmpl htmpl hid => (husage f'.user).trans_lt
    (hwithin.room tmpl htmpl hid)⟩

theorem put (hwithin : Within id most c.tables { f with stage := stage }) :
    (c.advance t f stage).Limit id most := by
  refine hc.same rfl fun t' f' hf' => ?_
  by_cases heq : t' = t
  · rw [heq, advance_self] at hf'
    obtain rfl := Option.some.inj hf'
    exact .inr hwithin
  · rw [advance_of_ne heq] at hf'
    exact .inl hf'

theorem advance (hf : c.flights t = some f)
    (hread : ∀ tmpl, stage.template = some tmpl → f.stage.template = some tmpl ∨
      (tmpl.id = id → tmpl.maxUsePerUser = most))
    (hroom : ∀ tmpl, stage.passed = some tmpl → f.stage.passed = some tmpl ∨
      (tmpl.id = id → c.tables.usage f.user id < most)) : (c.advance t f stage).Limit id most := by
  have hwithin := hc.within t f hf
  refine hc.put ⟨fun tmpl htmpl hid => ?_, fun tmpl htmpl hid => ?_⟩
  · exact (hread tmpl htmpl).elim (fun h => hwithin.read tmpl h hid) fun h => h hid
  · exact (hroom tmpl htmpl).elim (fun h => hwithin.room tmpl h hid) fun h => h hid

theorem close : (c.close t outcome).Limit id most := by
  refine hc.same rfl fun t' f' hf' => .inl ?_
  by_cases heq : t' = t
  · rw [heq, close_self] at hf'
    exact nomatch hf'
  · rw [close_of_ne heq] at hf'
    exact hf'

end

theorem usage_append {s : State} (h : s'.redemptions = s.redemptions ++ [r]) (user : UUID) :
    s'.usage user id = s.usage user id + if r.userId = user ∧ r.templateId = id then 1 else 0 := by
  unfold State.usage
  rw [h, countP_append, countP_singleton]
  simp only [decide_eq_true_eq]

section

variable (hc : c.Limit id most) (hinv : c.Inv) (hmost : 0 < most)
include hc hinv hmost

/-- A redemption is written down: its user has room for it, and no other redemption of this user and
template can have passed the limit. -/
theorem gives (hf : c.flights t = some f)
    (hpassed : f.stage.passed = some tmpl) (huser : r.userId = f.user)
    (htmpl : r.templateId = tmpl.id) (hredemptions : s'.redemptions = c.tables.redemptions ++ [r]) :
    (Config.close { c with tables := s', grants := grants } t .granted).Limit id most := by
  have hread := (hc.within t f hf).read tmpl (template_of_passed hpassed)
  have hmine : tmpl.id = id → c.userLocks (f.user, id) = some t := fun hid => by
    have hlock := (hinv.holds t f hf).user tmpl (counted_of_passed hpassed)
      (by rw [hread hid]; exact hmost)
    rwa [hid] at hlock
  refine ⟨fun user => ?_, fun t' f' hf' => ?_⟩
  · show s'.usage user id ≤ most
    rw [usage_append hredemptions, huser, htmpl]
    split_ifs with hrow
    · obtain ⟨rfl, hid⟩ := hrow
      exact (hc.within t f hf).room tmpl hpassed hid
    · exact hc.usage user
  · have hne : t' ≠ t := by
      rintro rfl
      rw [Config.close_self] at hf'
      cases hf'
    have hf'' : c.flights t' = some f' := by
      rw [Config.close_of_ne hne] at hf'
      exact hf'
    refine ⟨(hc.within t' f' hf'').read, fun tmpl' htmpl' hid' => ?_⟩
    show s'.usage f'.user id < most
    rw [usage_append hredemptions, huser, htmpl]
    split_ifs with hrow
    · -- Two redemptions would hold the same lock.
      have hread' := (hc.within t' f' hf'').read tmpl' (template_of_passed htmpl') hid'
      have hlock := (hinv.holds t' f' hf'').user tmpl' (counted_of_passed htmpl')
        (by rw [hread']; exact hmost)
      rw [hid', ← hrow.1, hmine hrow.2] at hlock
      exact absurd (Option.some.inj hlock).symm hne
    · exact (hc.within t' f' hf'').room tmpl' htmpl' hid'

theorem turned (htmpls : c.Most id most)
    (hf : c.flights t = some f) (h : Turned c t f c') : c'.Limit id most := by
  cases h with
  | waits => exact hc
  | fails => exact hc.close
  | expires => exact close (hc.same rfl fun _ _ hf' => .inl hf')
  | locks =>
    exact advance (hc.same rfl fun _ _ hf' => .inl hf') hf (fun _ h => nomatch h)
      fun _ h => nomatch h
  | reads code tmpl hstage htmpl =>
    refine hc.advance hf (fun tmpl' htmpl' => .inr fun hid => ?_) fun tmpl' htmpl' => .inr
      fun hid => ?_
    · have heq : tmpl = tmpl' := by
        split_ifs at htmpl'
        · exact Option.some.inj htmpl'
        · exact Option.some.inj htmpl'
      rw [← heq] at hid ⊢
      exact htmpls tmpl htmpl hid
    · split_ifs at htmpl' with hlimit
      · exact nomatch htmpl'
      · -- Without a limit nothing is counted.
        obtain rfl := Option.some.inj htmpl'
        rw [htmpls tmpl htmpl hid] at hlimit
        exact absurd hmost hlimit
  | limits code tmpl hstage =>
    refine advance (hc.same rfl fun _ _ hf' => .inl hf') hf (fun tmpl' htmpl' => .inl ?_) fun _ h =>
      nomatch h
    rw [hstage]
    exact htmpl'
  | counts code tmpl hstage hroom =>
    have hread : f.stage.template = some tmpl := by
      rw [hstage]
      rfl
    refine hc.advance hf (fun tmpl' htmpl' => .inl ?_) fun tmpl' htmpl' => .inr fun hid => ?_
    · rw [hread]
      exact htmpl'
    · obtain rfl := Option.some.inj htmpl'
      have hlimit := (hc.within t f hf).read tmpl hread hid
      rw [hlimit, hid] at hroom
      omega
  | places code tmpl hstage =>
    refine hc.advance hf (fun tmpl' htmpl' => .inl ?_) fun tmpl' htmpl' => .inl ?_
    · rw [hstage]
      exact htmpl'
    · rw [hstage]
      exact htmpl'
  | gives code tmpl place hstage s' hgave =>
    obtain ⟨g, hredemptions⟩ := hgave.redemptions
    exact hc.gives hinv hmost hf (by rw [hstage]; rfl) rfl rfl hredemptions

theorem next (htmpls : c.Most id most) (l : Label) : (c.next l).Limit id most := by
  have hstep := next_stepped c l
  generalize c.next l = c' at hstep
  cases hstep with
  | waits => exact hc
  | begins => exact hc.put ⟨fun _ h => (nomatch h), fun _ h => nomatch h⟩
  | turned hf h => exact hc.turned hinv hmost htmpls hf h
  | aborted => exact hc.close
  | refused | elsewhere => exact hc.same rfl fun _ _ hf' => .inl hf'

end

end Config.Limit

/-! ## Every interleaving -/

/-- The redemption that a step is of. -/
def Label.flight : Label → Option ℕ
  | .begin t _ => some t
  | .turn t => some t
  | .abort t => some t
  | .elsewhere _ => none

/-- A step of a redemption writes nothing; or it ends the redemption, marks a code that has expired
and gives nothing; or it ends the redemption, and the card has been given. -/
def Writes (t : ℕ) (c c' : Config) : Prop :=
  c'.tables = c.tables ∨
  (c'.outcomes = (t, .expired) :: c.outcomes ∧ c'.grants = c.grants ∧
    ∃ row ∈ c.tables.codes, ∃ now : Time, row.status = .unused ∧ (∃ e ∈ row.expiresAt, e ≤ now) ∧
      c'.tables = { c.tables with
        codes := c.tables.codes.map (Code.marked row.id .unused .expired none) }) ∨
  (c'.outcomes = (t, .granted) :: c.outcomes ∧ ∃ id, c'.grants = c.grants ++ [id])

theorem Turned.writes {c c' : Config} (h : Turned c t f c') : Writes t c c' := by
  cases h with
  | expires row hrow _ hunused htime =>
    exact .inr (.inl ⟨rfl, rfl, row, hrow, f.req.env.now, hunused, htime, rfl⟩)
  | gives code => exact .inr (.inr ⟨rfl, code.id, rfl⟩)
  | _ => exact .inl rfl

theorem next_writes (c : Config) {l : Label} (hl : l.flight = some t) : Writes t c (c.next l) := by
  have hstep := next_stepped c l
  generalize c.next l = c' at hstep
  cases hstep with
  | waits | begins | refused | aborted => exact .inl rfl
  | turned hf h =>
    obtain rfl := Option.some.inj hl
    exact h.writes
  | elsewhere => cases hl

theorem Config.Inv.idle (hids : (s.codes.map (·.id)).Nodup)
    (hunused : ∀ row ∈ s.codes, row.status ≠ .used) (hempty : s.redemptions = []) :
    (idle s).Inv := by
  refine ⟨⟨hids, ?_, fun row hrow => ?_, fun r hr => ?_⟩, ?_, fun t f hf => ?_⟩
  · show (s.redemptions.map (·.codeId)).Nodup
    rw [hempty]
    exact nodup_nil
  · show row.status = .used ↔ row.id ∈ s.redemptions.map (·.codeId)
    rw [hempty]
    exact iff_of_false (hunused row hrow) not_mem_nil
  · have hr' : r ∈ s.redemptions := hr
    rw [hempty] at hr'
    cases hr'
  · show [] = s.redemptions.map (·.codeId)
    rw [hempty]
    rfl
  · exact nomatch hf

/-- **A card is redeemed at most once, in time, and within the limit of its user**, whatever
redemptions are made at once.  Each code has at most one redemption, and its grant has happened once
if it is used and not at all otherwise; no code has been redeemed at or after the time at which it
expires; a template whose limit stays the same is redeemed no more often than that by anyone; and a
redemption that fails writes nothing, but for the mark on a code that has expired. -/
theorem redeemed_once {s : State} (hids : (s.codes.map (·.id)).Nodup)
    (hunused : ∀ row ∈ s.codes, row.status ≠ .used) (hempty : s.redemptions = [])
    (labels : List Label) :
    let c := labels.foldl Config.next (Config.idle s)
    (∀ row ∈ c.tables.codes, (c.tables.redemptions.map (·.codeId)).count row.id ≤ 1 ∧
        (c.grants.count row.id = if row.status = .used then 1 else 0) ∧
        (c.tables.redemptions.map (·.codeId)).count row.id = c.grants.count row.id) ∧
      (∀ r ∈ c.tables.redemptions, ∀ row ∈ c.tables.codes, row.id = r.codeId →
        ∀ e ∈ row.expiresAt, r.redeemedAt < e) ∧
      (∀ id most, 0 < most →
        Runs.Along Config.next (fun c _ => c.Most id most) (Config.idle s) labels →
        ∀ user, c.tables.usage user id ≤ most) ∧
      ∀ t l, l.flight = some t → Writes t c (c.next l) := by
  intro c
  have hidle := Config.Inv.idle hids hunused hempty
  have hc : c.Inv := Runs.run_invariant (fun _ l hc => hc.next l) labels hidle
  refine ⟨fun row hrow => ?_, hc.sound.inTime, fun id most hmost halong user => ?_, fun t l hl =>
    next_writes c hl⟩
  · have hcount : c.grants.count row.id = if row.status = .used then 1 else 0 := by
      rw [hc.grants]
      split_ifs with hused
      · exact count_eq_one_of_mem hc.sound.once ((hc.sound.used row hrow).mp hused)
      · exact count_eq_zero.mpr fun hin => hused ((hc.sound.used row hrow).mpr hin)
    exact ⟨nodup_iff_count_le_one.mp hc.sound.once row.id, hcount, by rw [hc.grants]⟩
  · have hstart : (Config.idle s).Inv ∧ (Config.idle s).Limit id most := by
      refine ⟨hidle, fun user => ?_, fun t f hf => (nomatch hf)⟩
      show s.usage user id ≤ most
      rw [State.usage, hempty]
      exact Nat.zero_le most
    have hboth := halong.invariant
      (fun c l (h : c.Inv ∧ c.Limit id most) htmpls => ⟨h.1.next l, h.2.next h.1 hmost htmpls l⟩)
        hstart
    exact hboth.2.usage user

/-! ## Two cards of one user -/

instance (id : UUID) (most : ℕ) : DecidablePred (Config.Most id most) := fun _ =>
  inferInstanceAs (Decidable (∀ _ ∈ _, _ → _))

/-- Ten for each user, once. -/
def tenEach : Template where
  id := 1
  name := "新春"
  status := .active
  rewards := .general 10 0 0 false
  newUserOnly := false
  paidUserOnly := false
  maxUsePerUser := 1
  named := by decide +kernel
  accepted := by decide +kernel

def twoCodes : State where
  codes := [⟨1, 1, 1, .unused, none, none⟩, ⟨2, 1, 2, .unused, none, none⟩]
  templates := [tenEach]
  redemptions := []
  subs := []
  subIds := nodup_nil
  ledger := Ledger.State.empty

def byUserSeven (code : String) : Request := ⟨.sample, ⟨code, none⟩⟩

/-- Both codes are locked and the template is read twice before the first redemption counts. -/
def bothAtOnce : List Label :=
  [.begin 0 (byUserSeven "AAAAAAAA"), .begin 1 (byUserSeven "BBBBBBBB"), .turn 0, .turn 1, .turn 0,
    .turn 1, .turn 0, .turn 1, .turn 0, .turn 0, .turn 0, .turn 1, .turn 1]

theorem one_of_two :
    (bothAtOnce.foldl Config.next (Config.idle twoCodes)).outcomes = [(1, .failed), (0, .granted)] ∧
      (bothAtOnce.foldl Config.next (Config.idle twoCodes)).tables.usage 7 1 ≤ 1 :=
  ⟨by decide +kernel, (redeemed_once (by decide) (by decide) rfl bothAtOnce).2.2.1 1 1 Nat.one_pos
    (by decide +kernel) 7⟩

end Pandora.Giftcards
