import Pandora.Giftcards.Giving

/-!
# Whether a redemption depends on the draw

The transaction of a mystery card commits exactly for the prizes that can be given and written
down (`finish_succeeds`), for the checks before the draw suffice for the rest (`accept_suits`).

So the draw does not matter if and only if the prizes of the pool are alike in this.  They need
not be: a prize of money can be given at any time, one of traffic cannot be given to a
subscription whose period is over and not yet rolled on.
-/

namespace Pandora.Giftcards

open Money Database Ledger Tx Nat Ticket
open Subscriptions (Entitlement)

/-! ## A whole redemption -/

variable {s s₁ : State} {p : Prize} {pool : List Prize} {k : Ticket} {env : Env} {input : Input}
  {random : ℕ}

theorem insertRedemption_succeeds_bind {α : Type} {r : Redemption} {f : Unit → Action α} :
    (insertRedemption r >>= f).Succeeds s ↔
      r.granted.Recorded ∧ (∀ x ∈ s.redemptions, x.codeId ≠ r.codeId) ∧
      (f ()).Succeeds { s with redemptions := s.redemptions ++ [r] } := by
  rw [succeeds_bind]
  constructor
  · rintro ⟨_, s₁, h, hf⟩
    simp only [insertRedemption, bind_ok, read_ok, require_ok, write_ok] at h
    obtain ⟨_, _, ⟨rfl, rfl⟩, _, _, ⟨hrecorded, rfl⟩, _, _, ⟨hfirst, rfl⟩, rfl⟩ := h
    exact ⟨hrecorded, hfirst, hf⟩
  · rintro ⟨hrecorded, hfirst, hf⟩
    refine ⟨(), _, ?_, hf⟩
    simp only [insertRedemption, bind_ok, read_ok, require_ok, write_ok]
    exact ⟨s, s, ⟨rfl, rfl⟩, (), s, ⟨hrecorded, rfl⟩, (), s, ⟨hfirst, rfl⟩, rfl⟩

theorem finish_succeeds (hrewards : k.template.rewards = .mystery pool)
    (hdraw : drawPrize env.random pool = .ok p) (hp : p.Valid) (hsuits : k.Suits env s p) :
    (finish env k).Succeeds s ↔ k.Ready env s ∧ k.Grants env s p := by
  have hgrant : grant env k = grantReward env k true p false := by
    rw [grant, hrewards]
    dsimp only
    rw [hdraw]
    rfl
  rw [finish, hgrant, succeeds_bind]
  constructor
  · rintro ⟨g, s₁, hgive, hrest⟩
    obtain ⟨hsame, hg⟩ := grantReward_ok hp hsuits hgive
    simp only [insertRedemption_succeeds_bind, succeeds_ofExcept_bind] at hrest
    obtain ⟨hrecorded, hfirst, _, haudit, _, hplugin, _, hemit, _, hcomplete, -⟩ := hrest
    obtain ⟨hlabel, hcents⟩ := (hg.recorded hp).mp ⟨hrecorded, hplugin⟩
    rw [hsame] at hfirst
    exact ⟨⟨hfirst, haudit, hemit, hcomplete⟩,
      (grantReward_succeeds hp hsuits).mp ⟨g, s₁, hgive⟩, hlabel, hcents⟩
  · rintro ⟨hready, hgrants⟩
    obtain ⟨g, s₁, hgive⟩ := (grantReward_succeeds hp hsuits).mpr hgrants.toGives
    obtain ⟨hsame, hg⟩ := grantReward_ok hp hsuits hgive
    obtain ⟨hrecorded, hplugin⟩ := (hg.recorded hp).mpr ⟨hgrants.label, hgrants.cents⟩
    refine ⟨g, s₁, hgive, ?_⟩
    simp only [insertRedemption_succeeds_bind, succeeds_ofExcept_bind]
    exact ⟨hrecorded, by rw [hsame]; exact hready.first, (), hready.audit, (), hplugin, (),
      hready.emit, (), hready.complete, succeeds_pure⟩

theorem examine_landing (h : examine env input s = .ok (.inr k)) :
    ∃ planKind, landing env s k.userId (offerOf k.template planKind) input.choice =
      .ok (k.landing, k.permanent) := by
  obtain ⟨user, -, h⟩ := except_bind_eq_ok.mp h
  split at h
  · cases h
  obtain ⟨_, -, h⟩ := except_bind_eq_ok.mp h
  obtain ⟨-, -, h⟩ := except_bind_eq_ok.mp h
  unfold examineCode at h
  split at h
  · cases h
  split_ifs at h
  · cases h
  unfold examineCard at h
  split at h
  · cases h
  obtain ⟨-, -, h⟩ := except_bind_eq_ok.mp h
  obtain ⟨-, -, h⟩ := except_bind_eq_ok.mp h
  obtain ⟨-, -, h⟩ := except_bind_eq_ok.mp h
  obtain ⟨_, hplace, h⟩ := except_bind_eq_ok.mp h
  cases h
  obtain ⟨plan, -, h⟩ := except_bind_eq_ok.mp hplace
  obtain ⟨_, hlanding, h⟩ := except_bind_eq_ok.mp h
  obtain ⟨_, -, h⟩ := except_bind_eq_ok.mp h
  cases h
  exact ⟨plan.map (·.kind), hlanding⟩

theorem mark_subs {u : Unit} (h : mark env k s = .ok (u, s₁)) : s₁.subs = s.subs := by
  obtain ⟨_, _, hmoved, h⟩ := bind_ok.mp h
  obtain ⟨-, rfl⟩ := require_ok.mp h
  rw [(updateCodeStatus_ok hmoved).1]

/-- **What is checked before the draw suffices for every prize of the pool**, but for what
`Ticket.Grants` adds. -/
theorem accept_suits (h : accept env input s = .ok (.admitted k, s₁))
    (hrewards : k.template.rewards = .mystery pool) (hp : p ∈ pool) : k.Suits env s₁ p := by
  obtain ⟨_, _, hread, h⟩ := bind_ok.mp h
  obtain ⟨rfl, rfl⟩ := read_ok.mp hread
  obtain ⟨x, _, hx, h⟩ := bind_ok.mp h
  obtain ⟨hexamine, rfl⟩ := ofExcept_ok.mp hx
  cases x with
  | inl =>
    obtain ⟨_, _, -, h⟩ := bind_ok.mp h
    cases (pure_ok.mp h).1
  | inr k' =>
    obtain ⟨_, _, hmark, h⟩ := bind_ok.mp h
    obtain ⟨h, rfl⟩ := pure_ok.mp h
    cases h
    intro hneeds
    obtain ⟨planKind, hplace⟩ := examine_landing hexamine
    obtain ⟨m, htarget, hstate, hlive⟩ := landing_mystery hrewards hplace hp hneeds
    refine ⟨m, ?_, hstate, fun hpos => hlive ⟨p, hp, hpos⟩⟩
    rw [target_congr _ (mark_subs hmark)]
    exact htarget

theorem drawPrize_mem (h : drawPrize random pool = .ok p) : p ∈ pool := by
  unfold drawPrize at h
  split_ifs at h
  cases hpick : pickPrize pool (random % totalWeight pool) with
  | some =>
    rw [hpick] at h
    cases h
    exact pickPrize_mem hpick
  | none =>
    rw [hpick] at h
    cases hlast : pool.getLast? with
    | none => rw [hlast] at h; cases h
    | some =>
      rw [hlast] at h
      cases h
      exact List.mem_of_getLast? hlast

theorem exists_drawPrize (hp : p ∈ pool) (hweight : 0 < p.weight)
    (random : ℕ) : ∃ q, drawPrize random pool = .ok q := by
  obtain ⟨pick, hlt, -⟩ := exists_pick hp hweight
  obtain ⟨q, hq⟩ := exists_pickPrize (mod_lt random (zero_lt_of_lt hlt))
  refine ⟨q, ?_⟩
  rw [drawPrize, if_neg (ne_zero_of_lt hlt), hq]

theorem exists_random (hp : p ∈ pool) (hweight : 0 < p.weight) :
    ∃ random, drawPrize random pool = .ok p := by
  obtain ⟨pick, hlt, hpick⟩ := exists_pick hp hweight
  refine ⟨pick, ?_⟩
  rw [drawPrize, if_neg (ne_zero_of_lt hlt), mod_eq_of_lt hlt, hpick]

/-- The same redemption with another number drawn. -/
def Env.drawing (env : Env) (random : ℕ) : Env := { env with random := random }

theorem accept_drawing (env : Env) (random : ℕ) (input : Input) :
    accept (env.drawing random) input = accept env input := by
  have hplace : settlePlace (env.drawing random) = settlePlace env := rfl
  have hcard : examineCard (env.drawing random) = examineCard env := by
    unfold examineCard
    rw [hplace]
    rfl
  have hexamine : examine (env.drawing random) = examine env := by
    have hportal : portalUser (env.drawing random) = portalUser env := rfl
    have hdeleted : (env.drawing random).isDeleted = env.isDeleted := rfl
    have hhash : (env.drawing random).hash = env.hash := rfl
    have hnow : (env.drawing random).now = env.now := rfl
    unfold examine examineCode
    rw [hcard, hportal, hdeleted, hhash, hnow]
  have hadmission : admission (env.drawing random) = admission env := rfl
  unfold accept
  rw [hexamine, hadmission]

theorem Ticket.Ready.drawing_iff : k.Ready (env.drawing random) s ↔ k.Ready env s :=
  ⟨fun h => { h with }, fun h => { h with }⟩

theorem Ticket.Grants.drawing_iff : k.Grants (env.drawing random) s p ↔ k.Grants env s p :=
  ⟨fun h => { h with }, fun h => { h with }⟩

theorem commits_iff : commits env input s = true ↔ (∃ s₁, accept env input s = .ok (.expired, s₁)) ∨
      ∃ k s₁, accept env input s = .ok (.admitted k, s₁) ∧ (finish env k).Succeeds s₁ := by
  have hsucceeds : commits env input s = true ↔ (redeem env input).Succeeds s := by
    unfold commits Succeeds
    cases redeem env input s with
    | ok => simp [Prod.exists.symm]
    | error => simp
  rw [hsucceeds]
  rw [redeem, succeeds_bind]
  constructor
  · rintro ⟨a, s₁, haccept, hrest⟩
    cases a with
    | expired => exact .inl ⟨s₁, haccept⟩
    | admitted k =>
      obtain ⟨g, s₂, hfinish, -⟩ := succeeds_bind.mp hrest
      exact .inr ⟨k, s₁, haccept, g, s₂, hfinish⟩
  · rintro (⟨s₁, haccept⟩ | ⟨k, s₁, haccept, g, s₂, hfinish⟩)
    · exact ⟨.expired, s₁, haccept, succeeds_pure⟩
    · exact ⟨.admitted k, s₁, haccept, succeeds_bind.mpr ⟨g, s₂, hfinish, succeeds_pure⟩⟩

theorem commits_drawing (haccept : accept env input s = .ok (.admitted k, s₁)) (random : ℕ) :
    commits (env.drawing random) input s = true ↔ (finish (env.drawing random) k).Succeeds s₁ := by
  rw [commits_iff, accept_drawing, haccept]
  constructor
  · rintro (⟨s₂, h⟩ | ⟨k', s₂, h, hfinish⟩)
    · cases h
    · cases h
      exact hfinish
  · exact fun hfinish => .inr ⟨k, s₁, rfl, hfinish⟩

/-- The transaction of a mystery card commits if nothing is in the way and the prize drawn can
be given. -/
theorem commits_mystery (haccept : accept env input s = .ok (.admitted k, s₁))
    (hrewards : k.template.rewards = .mystery pool) (hdraw : drawPrize random pool = .ok p) :
    commits (env.drawing random) input s = true ↔ k.Ready env s₁ ∧ k.Grants env s₁ p := by
  have hvalid := (validateRewards_mystery (hrewards ▸ k.template.accepted)).2
  have hp := drawPrize_mem hdraw
  rw [commits_drawing haccept, ← Ready.drawing_iff, ← Grants.drawing_iff]
  have hsuits : k.Suits env s₁ p := accept_suits haccept hrewards hp
  exact finish_succeeds hrewards hdraw (hvalid p hp) hsuits

theorem finish_drawing (hrewards : ∀ pool, k.template.rewards ≠ .mystery pool)
    (random : ℕ) : finish (env.drawing random) k = finish env k := by
  have hgrant : grant (env.drawing random) k = grant env k := by
    unfold grant
    cases h : k.template.rewards with
    | mystery pool => exact absurd h (hrewards pool)
    | plan | general => rfl
  rw [finish, finish, hgrant]
  rfl

/-- The prizes of the pool that is drawn from are alike: all of them can be given, or none. -/
def PoolAlike (env : Env) (input : Input) (s : State) : Prop :=
  ∀ k s₁ pool, accept env input s = .ok (.admitted k, s₁) → k.template.rewards = .mystery pool →
    k.Ready env s₁ → (∀ p ∈ pool, k.Grants env s₁ p) ∨ ∀ p ∈ pool, ¬k.Grants env s₁ p

/-- **The draw of a mystery card does not decide whether the redemption commits if and only if
the prizes of its pool are alike.** -/
theorem commits_whatever_drawn_iff (env : Env) (input : Input) (s : State) :
    (∀ r r', commits (env.drawing r) input s = commits (env.drawing r') input s) ↔
      PoolAlike env input s := by
  constructor
  · intro hsame k s₁ pool haccept hrewards hready
    have hvalid := (validateRewards_mystery (hrewards ▸ k.template.accepted)).2
    by_contra hmixed
    push Not at hmixed
    obtain ⟨⟨q, hq, hrefused⟩, p, hp, hgrants⟩ := hmixed
    obtain ⟨r, hr⟩ := exists_random hp (hvalid p hp).weight
    obtain ⟨r', hr'⟩ := exists_random hq (hvalid q hq).weight
    have hcommits := (commits_mystery haccept hrewards hr).mpr ⟨hready, hgrants⟩
    rw [hsame r r'] at hcommits
    exact hrefused ((commits_mystery haccept hrewards hr').mp hcommits).2
  · intro halike r r'
    rw [Bool.eq_iff_iff]
    by_cases hadmitted : ∃ k s₁, accept env input s = .ok (.admitted k, s₁)
    · obtain ⟨k, s₁, haccept⟩ := hadmitted
      by_cases hmystery : ∃ pool, k.template.rewards = .mystery pool
      · obtain ⟨pool, hrewards⟩ := hmystery
        obtain ⟨hne, hvalid⟩ := validateRewards_mystery (hrewards ▸ k.template.accepted)
        obtain ⟨q, hq⟩ := List.exists_mem_of_ne_nil pool hne
        obtain ⟨p, hp⟩ := exists_drawPrize hq (hvalid q hq).weight r
        obtain ⟨p', hp'⟩ := exists_drawPrize hq (hvalid q hq).weight r'
        rw [commits_mystery haccept hrewards hp, commits_mystery haccept hrewards hp']
        refine and_congr_right fun hready => ?_
        rcases halike k s₁ pool haccept hrewards hready with hall | hnone
        · exact iff_of_true (hall p (drawPrize_mem hp)) (hall p' (drawPrize_mem hp'))
        · exact iff_of_false (hnone p (drawPrize_mem hp)) (hnone p' (drawPrize_mem hp'))
      · push Not at hmystery
        rw [commits_drawing haccept, commits_drawing haccept, finish_drawing hmystery,
          finish_drawing hmystery]
    · push Not at hadmitted
      rw [commits_iff, commits_iff, accept_drawing, accept_drawing]
      refine or_congr Iff.rfl (iff_of_false ?_ ?_) <;>
      · rintro ⟨k, s₁, haccept, -⟩
        exact hadmitted k s₁ haccept

/-! ## The chances -/

open List

theorem countP_pickPrize : (range (totalWeight pool)).countP (pickPrize pool · = some p) =
    ((pool.filter (· = p)).map (·.weight)).sum := by
  induction pool with
  | nil => rfl
  | cons q pool ih =>
    -- the first numbers are those of the head, and the others are drawn from the rest
    have hhead : (range q.weight).countP (pickPrize (q :: pool) · = some p) =
        (range q.weight).countP fun _ => q = p :=
      countP_congr fun r hr => by simp [pickPrize, mem_range.mp hr]
    have htotal : totalWeight (q :: pool) = q.weight + totalWeight pool := sum_cons
    rw [htotal, range_add, countP_append, countP_map, hhead]
    by_cases hq : q = p <;> simp [hq, pickPrize, Function.comp_def, ih]

/-- **The draw is fair**: of the numbers that can be drawn, each prize has as many as its weight. -/
theorem drawPrize_fair (pool : List Prize) (p : Prize) :
    (range (totalWeight pool)).countP (drawPrize · pool = .ok p) =
      ((pool.filter (· = p)).map (·.weight)).sum := by
  rw [← countP_pickPrize]
  refine countP_congr fun r hr => ?_
  have hlt := mem_range.mp hr
  obtain ⟨q, hq⟩ := exists_pickPrize hlt
  simp [drawPrize, mod_eq_of_lt hlt, hq, ne_zero_of_lt hlt]

/-! ## A draw that is made again

A card with a prize of ten and one of a gibibyte of traffic.  The subscription has been paid for
ninety days; the thirty days of its quota were over yesterday, and the next ones have not been
opened. -/

/-- A number of days. -/
def inDays (n : ℤ) : Time := n * 86400000000000

def quotaBetweenPeriods : Subscriptions.QuotaRow where
  id := 1
  metric := .traffic
  period := .cycle
  periodStart := 0
  periodEnd := some (inDays 30)
  limit := some (100 * 2 ^ 30)
  consumed := 0
  bonus := 0

def subBetweenPeriods : Entitlement where
  id := 1
  userId := 7
  planId := 1
  kind := .subscription
  status := .active
  periodStart := 0
  periodEnd := inDays 90
  renewalClosedAt := none
  interval := .month
  intervalCount := 1
  quotas := [⟨quotaBetweenPeriods, by decide⟩]
  ordered := by decide

def moneyOrTraffic : Template where
  id := 1
  name := "盲盒"
  status := .active
  rewards := .mystery [⟨"十元", 1, 10, 0, 0⟩, ⟨"流量", 1, 0, 2 ^ 30, 0⟩]
  newUserOnly := false
  paidUserOnly := false
  maxUsePerUser := 0
  named := by decide +kernel
  accepted := by decide +kernel

def betweenPeriods : State where
  codes := [⟨1, 1, 1, .unused, none, none⟩]
  templates := [moneyOrTraffic]
  redemptions := []
  subs := [subBetweenPeriods]
  subIds := by decide
  ledger := Ledger.State.empty

def redeeming : Env := { Env.sample with now := inDays 31, clock := inDays 31, hash := fun _ => 1 }

theorem draw_made_again : commits (redeeming.drawing 0) ⟨"ABCDEFGH", none⟩ betweenPeriods = true ∧
      commits (redeeming.drawing 1) ⟨"ABCDEFGH", none⟩ betweenPeriods = false ∧
      redeem (redeeming.drawing 1) ⟨"ABCDEFGH", none⟩ betweenPeriods =
        .error (.subscription .bonusPeriodSwitching) := by
  refine ⟨by decide +kernel, by decide +kernel, ?_⟩
  rfl

end Pandora.Giftcards
