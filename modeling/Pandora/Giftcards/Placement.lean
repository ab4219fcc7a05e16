import Mathlib.Data.List.Sort
import Pandora.Giftcards.Template
import Pandora.Subscriptions.Entitlement

/-!
# Where a card lands

A card that gives days, traffic or a reset gives them to one subscription of the user, which
the user chooses among the options of the card (`placementOptions`).  The choice is made before
a prize is drawn, so that of a mystery card has to do for every prize of its pool
(`offerOf`).
-/

namespace Pandora.Giftcards

open List

open Subscriptions (Entitlement Condition PlanKind)

/-- The kinds of an offer; `none` needs no subscription. -/
inductive OfferKind
  | none | plan | days | reset | traffic | mixed
  deriving DecidableEq

/-- What is to land. -/
structure Offer where
  kind : OfferKind
  planId : UUID := UUID.nil
  planKind : Option PlanKind := Option.none
  mystery : Bool := false
  hasDays : Bool := false
  hasReset : Bool := false
  hasTraffic : Bool := false
  days : ℕ := 0

/-- The least number of days among those that give any. -/
def minDays (pool : List Prize) : ℕ :=
  pool.foldl (fun least p =>
    if 0 < p.expireDays ∧ (least = 0 ∨ p.expireDays < least) then p.expireDays else least) 0

/-- `offerOf`.  That of a mystery card is what any prize of its pool may need. -/
def offerOf (t : Template) (planKind : Option PlanKind) : Offer :=
  match t.rewards with
  | .plan none _ => { kind := .none }
  | .plan (some planId) _ => { kind := .plan, planId := planId, planKind := planKind }
  | .mystery pool =>
    let days := pool.any fun p => 0 < p.expireDays
    let traffic := pool.any fun p => 0 < p.trafficBytes
    if days = false ∧ traffic = false then { kind := .none }
    else
      { kind := .mixed, mystery := true, hasDays := days, hasTraffic := traffic
        days := minDays pool }
  | .general _ trafficBytes expireDays resetQuota =>
    let days : Bool := 0 < expireDays
    let traffic : Bool := 0 < trafficBytes
    match days, resetQuota, traffic with
    | false, false, false => { kind := .none }
    | true, false, false => { kind := .days, days := expireDays }
    | false, true, false => { kind := .reset }
    | false, false, true => { kind := .traffic }
    | _, _, _ =>
      { kind := .mixed, hasDays := days, hasReset := resetQuota, hasTraffic := traffic
        days := expireDays }

/-- A subscription that a card may land on. -/
structure Candidate where
  subscriptionId : UUID
  planId : UUID
  state : Condition
  periodEnd : Time
  permanent : Bool
  unlimited : Bool
  trafficUsed : ℕ
  trafficCap : ℕ

/-- The traffic quotas of the plan that have a limit. -/
def limitedTraffic (m : Entitlement) : List (ℕ × ℕ) :=
  m.quotas.filterMap fun q =>
    if q.1.metric = .traffic ∧ (q.1.period = .cycle ∨ q.1.period = .total) then
      q.1.limit.map fun limit => (q.1.consumed, limit)
    else none

/-- One row of `candidatesOf`; `clock` is that of the machine. -/
def candidateOf (clock now : Time) (m : Entitlement) : Candidate where
  subscriptionId := m.id
  planId := m.planId
  state := m.stateAt now
  periodEnd := m.periodEnd
  permanent := Subscriptions.IsPermanent clock m.periodEnd
  unlimited := (limitedTraffic m).isEmpty
  trafficUsed := ((limitedTraffic m).map Prod.fst).sum
  trafficCap := ((limitedTraffic m).map Prod.snd).sum

/-- `ByUser`, and `candidatesOf`. -/
def candidatesOf (clock now : Time) (userId : UUID) (subs : List Entitlement) : List Candidate :=
  (subs.filter (·.userId = userId)).map (candidateOf clock now)

/-! ## Options -/

/-- What an option does. -/
inductive Use
  | renew | stack | change | new | extendDays | resetTraffic | addTraffic

/-- The name of it, which the portal sends back. -/
def Use.name : Use → String
  | .renew => "renew"
  | .stack => "stack"
  | .change => "change"
  | .new => "new"
  | .extendDays => "extend_days"
  | .resetTraffic => "reset_traffic"
  | .addTraffic => "add_traffic"

/-- An option.  Its badge, which only the portal shows, is left out. -/
structure Choosable where
  use : Use
  subscriptionId : Option UUID
  expired : Bool := false

def Choosable.key (o : Choosable) : String × Option UUID := (o.use.name, o.subscriptionId)

def optionFor (use : Use) (c : Candidate) : Choosable := { use, subscriptionId := c.subscriptionId }

/-- The order of `byEndAsc`: by the end of the period, then by the identifier. -/
def EndsBefore (a b : Candidate) : Prop :=
  a.periodEnd < b.periodEnd ∨ (a.periodEnd = b.periodEnd ∧ a.subscriptionId ≤ b.subscriptionId)

instance (a b : Candidate) : Decidable (EndsBefore a b) := inferInstanceAs (Decidable (_ ∨ _))

def byEndAsc (cands : List Candidate) : List Candidate := cands.insertionSort EndsBefore

def byEndDesc (cands : List Candidate) : List Candidate := (byEndAsc cands).reverse

def filterState (cands : List Candidate) (state : Condition) : List Candidate :=
  cands.filter (·.state = state)

def planOptions (planId : UUID) (planKind : Option PlanKind) (cands : List Candidate)
    (allowChange : Bool) : List Choosable :=
  let alive := cands.filter (·.state ≠ .ended)
  let same := alive.filter (·.planId = planId)
  let other := alive.filter (·.planId ≠ planId)
  let revived := if allowChange = true then
      (byEndDesc (filterState other .revivable)).map fun c =>
        { optionFor .change c with expired := true }
    else []
  let changed := if allowChange = true then
      (byEndAsc (filterState other .live)).map (optionFor .change)
    else []
  let rest := revived ++ [{ use := .new, subscriptionId := none }] ++ changed
  if planKind = some .oneTime then
    (byEndAsc (filterState same .live)).map (optionFor .stack) ++ rest
  else
    let renews := (byEndAsc (filterState same .live) ++ byEndDesc (filterState same .revivable)).map
      (optionFor .renew)
    if alive.length = 1 ∧ renews.length = 1 then renews else renews ++ rest

def daysOptions (cands : List Candidate) : List Choosable :=
  (byEndAsc (filterState cands .live) ++ byEndAsc (filterState cands .revivable)).map
    (optionFor .extendDays)

/-- `resetOptions`; which one is the default is for the portal only. -/
def resetOptions (cands : List Candidate) : List Choosable :=
  (byEndAsc (filterState cands .live)).map (optionFor .resetTraffic)

def trafficOptions (cands : List Candidate) : List Choosable :=
  (byEndAsc (filterState cands .live)).map (optionFor .addTraffic)

/-- The candidates that a card other than a mystery card is any good for. -/
def suited (o : Offer) (cands : List Candidate) : List Candidate :=
  if o.mystery = true then cands
  else
    let hasDays := o.kind = .days ∨ (o.kind = .mixed ∧ o.hasDays = true)
    let hasTraffic := o.kind = .traffic ∨ (o.kind = .mixed ∧ o.hasTraffic = true)
    cands.filter fun c =>
      ¬(hasDays ∧ c.permanent = true) ∧ ¬(hasTraffic ∧ c.unlimited = true)

def placementOptions (o : Offer) (cands : List Candidate) (allowChange : Bool) : List Choosable :=
  match o.kind with
  | .plan => planOptions o.planId o.planKind cands allowChange
  | .days => daysOptions (suited o cands)
  | .reset => resetOptions (suited o cands)
  | .traffic => trafficOptions (suited o cands)
  | .mixed =>
    if o.hasDays = true ∧ o.hasReset = false ∧ o.hasTraffic = false then
      daysOptions (suited o cands)
    else if o.hasDays = true then daysOptions (filterState (suited o cands) .live)
    else if o.hasReset = true then resetOptions (suited o cands)
    else if o.hasTraffic = true then trafficOptions (suited o cands)
    else []
  | .none => []

/-- What the user chose in the portal; an empty name is no choice. -/
structure Choice where
  use : String
  subscriptionId : Option UUID

def choiceKey (choice : Option Choice) : Option (String × Option UUID) :=
  match choice with
  | none => none
  | some c =>
    if c.use = "" then none
    else if c.use = Use.new.name then some (Use.new.name, none)
    else some (c.use, c.subscriptionId)

/-- Why there is no choice. -/
inductive ChoiceError
  | stale | required
  deriving DecidableEq

def resolveChoice (choice : Option Choice) (opts : List Choosable) :
    Except ChoiceError (Option Choosable) :=
  match choiceKey choice with
  | some key =>
    match opts.find? (·.key = key) with
    | some o => .ok (some o)
    | none => .error .stale
  | none =>
    match opts with
    | [] => .ok none
    | [o] => .ok (some o)
    | _ => .error .required

variable {o : Choosable} {cands : List Candidate} {pool : List Prize} {c : Candidate} {t : Template}

theorem resolveChoice_mem {choice : Option Choice} {opts : List Choosable}
    (h : resolveChoice choice opts = .ok (some o)) : o ∈ opts := by
  unfold resolveChoice at h
  cases hkey : choiceKey choice with
  | some key =>
    simp only [hkey] at h
    cases hfind : opts.find? (·.key = key) with
    | none => rw [hfind] at h; cases h
    | some =>
      rw [hfind] at h
      cases h
      exact mem_of_find?_eq_some hfind
  | none =>
    simp only [hkey] at h
    split at h
    · cases h
    · cases h
      exact mem_singleton_self o
    · cases h

/-! ## Options are candidates -/

theorem mem_byEndAsc : c ∈ byEndAsc cands ↔ c ∈ cands :=
  (perm_insertionSort _ _).mem_iff

theorem mem_filterState {state : Condition} :
    c ∈ filterState cands state ↔ c ∈ cands ∧ c.state = state := by
  simp [filterState]

theorem mem_daysOptions (h : o ∈ daysOptions cands) :
    ∃ c ∈ cands, o.subscriptionId = some c.subscriptionId ∧ c.state ≠ .ended := by
  obtain ⟨c, hc, rfl⟩ := mem_map.mp h
  rcases mem_append.mp hc with hc | hc
  all_goals
    obtain ⟨hmem, hstate⟩ := mem_filterState.mp (mem_byEndAsc.mp hc)
    exact ⟨c, hmem, rfl, by simp [hstate]⟩

theorem mem_trafficOptions (h : o ∈ trafficOptions cands) :
    ∃ c ∈ cands, o.subscriptionId = some c.subscriptionId ∧ c.state = .live := by
  obtain ⟨c, hc, rfl⟩ := mem_map.mp h
  obtain ⟨hmem, hstate⟩ := mem_filterState.mp (mem_byEndAsc.mp hc)
  exact ⟨c, hmem, rfl, hstate⟩

theorem offerOf_mystery (ht : t.rewards = .mystery pool)
    (planKind : Option PlanKind) : (offerOf t planKind = { kind := .none } ∧
        ∀ p ∈ pool, p.expireDays = 0 ∧ p.trafficBytes = 0) ∨
      ∃ days traffic : Bool, offerOf t planKind =
          { kind := .mixed, mystery := true, hasDays := days, hasTraffic := traffic
            days := minDays pool } ∧ (days = true ∨ traffic = true) ∧
        (traffic = true ↔ ∃ p ∈ pool, 0 < p.trafficBytes) := by
  have htraffic : (pool.any fun p => 0 < p.trafficBytes) = true ↔
      ∃ p ∈ pool, 0 < p.trafficBytes := by
    simp
  rw [offerOf, ht]
  dsimp only
  by_cases hnone : (pool.any fun p => 0 < p.expireDays) = false ∧
      (pool.any fun p => 0 < p.trafficBytes) = false
  · left
    rw [if_pos hnone]
    refine ⟨rfl, fun p hp => ?_⟩
    have hdays := any_eq_false.mp hnone.1 p hp
    have hbytes := any_eq_false.mp hnone.2 p hp
    simp only [decide_eq_true_eq, Nat.pos_iff_ne_zero, not_not] at hdays hbytes
    exact ⟨hdays, hbytes⟩
  · right
    rw [if_neg hnone]
    refine ⟨_, _, rfl, ?_, htraffic⟩
    by_contra h
    push Not at h
    exact hnone ⟨Bool.eq_false_iff.mpr h.1, Bool.eq_false_iff.mpr h.2⟩

/-- Where a mystery card can land: on no subscription that has ended, and on a live one if a
prize of the pool gives traffic. -/
theorem mem_mystery_options (ht : t.rewards = .mystery pool) {planKind : Option PlanKind}
    {allowChange : Bool} (h : o ∈ placementOptions (offerOf t planKind) cands allowChange) :
    ∃ c ∈ cands, o.subscriptionId = some c.subscriptionId ∧ c.state ≠ .ended ∧
      ((∃ p ∈ pool, 0 < p.trafficBytes) → c.state = .live) := by
  rcases offerOf_mystery ht planKind with ⟨hoffer, -⟩ | ⟨days, traffic, hoffer, hneeds, htraffic⟩
  · rw [hoffer] at h
    cases h
  · rw [hoffer] at h
    rw [← htraffic]
    cases days with
    | true =>
      cases traffic with
      | true =>
        obtain ⟨c, hc, hid, hstate⟩ := mem_daysOptions h
        obtain ⟨hc, hlive⟩ := mem_filterState.mp hc
        exact ⟨c, hc, hid, hstate, fun _ => hlive⟩
      | false =>
        obtain ⟨c, hc, hid, hstate⟩ := mem_daysOptions h
        exact ⟨c, hc, hid, hstate, fun h => by cases h⟩
    | false =>
      cases traffic with
      | true =>
        obtain ⟨c, hc, hid, hlive⟩ := mem_trafficOptions h
        exact ⟨c, hc, hid, by simp [hlive], fun _ => hlive⟩
      | false => simp at hneeds

end Pandora.Giftcards
