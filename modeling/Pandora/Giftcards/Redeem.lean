import Pandora.Database.Table
import Pandora.Giftcards.Placement
import Pandora.Ledger.Post

/-!
# Redeeming a card

`Redeem` is one transaction.  It looks up the code, checks the template, the user and the
choice of the user, marks the code as used, gives what the card gives, and writes down what it
gave.  A failure at any point leaves the code unused.

The parts are apart here: `examine` is every check, `accept` adds the mark on the code, and
`finish` is what follows, of which the draw of a mystery card is the first step.

The catalogue, the value of a subscription and the methods of the subscription module that a plan
card calls come with the environment.
-/

namespace Pandora.Giftcards

open Money Database Ledger Tx
open Subscriptions (Entitlement PlanKind)

/-! ## Tables -/

/-- The states of a code. -/
inductive CodeStatus
  | unused | used | disabled | expired
  deriving DecidableEq

/-- A row of `gift_card_codes`. -/
structure Code where
  id : UUID
  templateId : UUID
  hash : ℕ
  status : CodeStatus
  expiresAt : Option Time
  usedBy : Option (UUID × Time)

/-- What a plan card did. -/
inductive PlanMode
  | new | renewed | changed | stacked

/-- What became of the days of a card. -/
inductive DaysGiven
  | none
  | skipped (days : ℕ)
  | extended (days : ℕ) (until_ : Time)

/-- What became of the traffic of a card. -/
inductive TrafficGiven
  | none
  | skipped (bytes : ℕ)
  | added (bytes : ℕ)

/-- `granted`: what was given. -/
structure Granted where
  prizeLabel : String := ""
  balance : ℚ := 0
  ledgerTxn : Option UUID := none
  days : DaysGiven := .none
  reset : Bool := false
  traffic : TrafficGiven := .none
  plan : Option (UUID × PlanMode) := none
  subscriptionId : Option UUID := none
  refund : ℚ := 0

/-- The days that were given. -/
def DaysGiven.count : DaysGiven → ℕ
  | .extended days _ => days
  | _ => 0

/-- The traffic that was given. -/
def TrafficGiven.count : TrafficGiven → ℕ
  | .added bytes => bytes
  | _ => 0

/-- A row of `gift_card_redemptions`; what was not given is zero here and `NULL` there. -/
structure Redemption where
  codeId : UUID
  templateId : UUID
  userId : UUID
  redeemedAt : Time
  granted : Granted

/-- The tables that redeeming a card touches. -/
structure State where
  codes : List Code
  templates : List Template
  redemptions : List Redemption
  subs : List Entitlement
  subIds : (subs.map (·.id)).Nodup
  ledger : Ledger.State

/-- Why a card is refused. -/
inductive Error
  | unauthorized
  | forbidden
  | codeUnusable
  | accountDeleted
  | notFound
  | templateInactive
  | conditionUnavailable
  | condition (text : String)
  | limitReached (most : ℕ)
  | choice (e : ChoiceError)
  | noPlacement
  | noTrafficTarget
  | planUnavailable
  | priceArchived
  | renewArchived
  | noWeight
  | badAmount
  | ledger (e : Ledger.Error)
  | subscription (e : Subscriptions.Error)
  | database (constraint : String)
  | foreign (text : String)
  deriving DecidableEq

/-- A transaction of this module. -/
abbrev Action (α : Type) : Type := Tx State Error α

inductive PlanStatus
  | draft | active | archived
  deriving DecidableEq

/-- A plan of the catalogue. -/
structure Plan where
  id : UUID
  kind : PlanKind
  status : PlanStatus
  currentVersionId : Option UUID

/-- A price of the catalogue. -/
structure Price where
  active : Bool
  interval : Interval
  intervalCount : ℤ
  validityDays : Option ℕ

/-- `planPrep`: the subscription that was locked, and what is left of its value. -/
structure PlanPrep where
  plan : Plan
  subId : Option UUID
  value : ℚ
  price : PriceSnapshot

/-- Where a card lands. -/
structure Place where
  /-- The option that was chosen, where the card needs one. -/
  landing : Option Choosable
  /-- The subscription it lands on is permanent. -/
  permanent : Bool
  prep : Option PlanPrep

/-- What has been settled when the code is marked as used. -/
structure Ticket extends Place where
  userId : UUID
  codeId : UUID
  template : Template

/-- What a redemption learns from elsewhere, and the number drawn.  `now` is the clock of the
services, `clock` that of the machine. -/
structure Env where
  caller : Option Principal
  now : Time
  clock : Time
  hash : String → ℕ
  isDeleted : UUID → Except Error Bool
  ledger : Ledger.Env
  hasPaidOrder : Option (UUID → Except Error Bool)
  plansById : UUID → Except Error (Option Plan)
  pricesById : UUID → Except Error (Option Price)
  /-- `RemainingValue`, where the module that values a subscription is there. -/
  valuer : Option (UUID → Time → Except Error ℚ)
  /-- `Provision`, for a user. -/
  provision : UUID → PlanPrep → Except Subscriptions.Error Entitlement
  /-- `Renew`, `Stack` and `ChangePlan`. -/
  changed : PlanMode → PlanPrep → Entitlement → Except Subscriptions.Error Entitlement
  random : ℕ
  audit : Except Error Unit
  emit : Except Error Unit
  complete : Except Error Unit

/-- The user 7 redeems, and nothing fails. -/
def Env.sample : Env where
  caller := some ⟨7, .portal⟩
  now := 0
  clock := 0
  hash := fun text => if text = "AAAAAAAA" then 1 else 2
  isDeleted := fun _ => .ok false
  ledger := ⟨fun _ => true, fun _ => false, true, true⟩
  hasPaidOrder := none
  plansById := fun _ => .ok none
  pricesById := fun _ => .ok none
  valuer := none
  provision := fun _ _ => .error .notFound
  changed := fun _ _ => .ok
  random := 0
  audit := .ok ()
  emit := .ok ()
  complete := .ok ()

/-- `RedeemInput`. -/
structure Input where
  code : String
  choice : Option Choice

/-! ## Up to the mark on the code -/

def minCodeLen : ℕ := 8

def maxCodeLen : ℕ := 32

def normalizeCode (code : String) : Option String :=
  let code := String.ofList ((Text.trimSpace code.toList).map Text.upperASCII)
  if Text.matchesClass (fun c => ('A' ≤ c && c ≤ 'Z') || ('0' ≤ c && c ≤ '9')) minCodeLen maxCodeLen
      code then some code
  else none

def portalUser (env : Env) : Except Error UUID :=
  match env.caller with
  | none => .error .unauthorized
  | some p =>
    if p.userId = UUID.nil then .error .unauthorized
    else if p.audience ≠ .portal then .error .forbidden
    else .ok p.userId

/-- A row after `UpdateCodeStatus`. -/
def Code.marked (id : UUID) (old new : CodeStatus) (usedBy : Option (UUID × Time)) (c : Code) :
    Code :=
  if c.id = id ∧ c.status = old then { c with status := new, usedBy := usedBy } else c

/-- `UpdateCodeStatus`; the answer is whether a row had the old status. -/
def updateCodeStatus (id : UUID) (old new : CodeStatus) (usedBy : Option (UUID × Time)) :
    Action Bool := do
  let s ← read
  write fun s => { s with codes := s.codes.map (Code.marked id old new usedBy) }
  pure (decide (∃ c ∈ s.codes, c.id = id ∧ c.status = old))

theorem updateCodeStatus_ok {id : UUID} {old new : CodeStatus} {usedBy : Option (UUID × Time)}
    {moved : Bool} {s s' : State} (h : updateCodeStatus id old new usedBy s = .ok (moved, s')) :
    s' = { s with codes := s.codes.map (Code.marked id old new usedBy) } ∧
      (moved = true ↔ ∃ c ∈ s.codes, c.id = id ∧ c.status = old) := by
  simp only [updateCodeStatus, bind_ok, read_ok, write_ok, pure_ok] at h
  obtain ⟨_, _, ⟨rfl, rfl⟩, _, _, rfl, rfl, rfl⟩ := h
  exact ⟨rfl, decide_eq_true_iff⟩

def checkConditions (env : Env) (user : UUID) (t : Template) : Except Error Unit :=
  if t.newUserOnly = true ∨ t.paidUserOnly = true then
    match env.hasPaidOrder with
    | none => .error .conditionUnavailable
    | some hasPaidOrder => do
      let paid ← hasPaidOrder user
      ensure (¬(t.newUserOnly = true ∧ paid = true)) (.condition "这张卡只能新用户使用")
      ensure (¬(t.paidUserOnly = true ∧ paid = false)) (.condition "这张卡需要有过付费记录才能使用")
  else .ok ()

def checkLimits (s : State) (user : UUID) (t : Template) : Except Error Unit :=
  ensure (t.maxUsePerUser = 0 ∨
      (s.redemptions.countP fun r => r.userId = user ∧ r.templateId = t.id) < t.maxUsePerUser)
    (.limitReached t.maxUsePerUser)

/-- `cardPlan`, where the card is a plan card. -/
def cardPlan (env : Env) (t : Template) : Except Error (Option Plan) :=
  match t.rewards with
  | .plan none _ => .error .planUnavailable
  | .plan (some planId) _ => do
    let plan ← env.plansById planId
    ensure (plan.isSome = true) .planUnavailable
    pure plan
  | _ => .ok none

/-- `offer.noTargetErr`. -/
def Offer.noTarget (o : Offer) : Error :=
  if o.kind = .traffic ∨
      (o.kind = .mixed ∧ o.hasTraffic = true ∧ o.hasDays = false ∧ o.hasReset = false) then
    .noTrafficTarget
  else .noPlacement

def permanentIn (cands : List Candidate) (opt : Choosable) : Bool :=
  ((cands.find? fun c => opt.subscriptionId = some c.subscriptionId).map (·.permanent)).getD false

/-- Where the card lands, from the subscriptions as they are now, and whether that one is
permanent. -/
def landing (env : Env) (s : State) (user : UUID) (o : Offer) (choice : Option Choice) :
    Except Error (Option Choosable × Bool) :=
  if o.kind = .none then .ok (none, false)
  else
    let cands := candidatesOf env.clock env.now user s.subs
    match resolveChoice choice (placementOptions o cands env.valuer.isSome) with
    | .error e => .error (.choice e)
    | .ok none => .error o.noTarget
    | .ok (some opt) =>
      .ok (some opt, permanentIn cands opt)

/-- The subscription of a user. -/
def State.sub (s : State) (user id : UUID) : Option Entitlement :=
  s.subs.find? fun m => m.id = id ∧ m.userId = user

def planFor (plan : Plan) : Except Error Unit :=
  ensure (plan.status = .active ∧ plan.currentVersionId ≠ none) .planUnavailable

/-- `Lock`, of the subscription that was chosen. -/
def lockChosen (s : State) (user : UUID) (opt : Choosable) : Except Error Entitlement :=
  match opt.subscriptionId with
  | none => .error (.choice .stale)
  | some id => match s.sub user id with
    | none => .error (.subscription .notFound)
    | some m => .ok m

def preparePlanTarget (env : Env) (s : State) (user planId : UUID) (plan : Plan) (opt : Choosable) :
    Except Error (Option UUID × ℚ) :=
  match opt.use with
  | .new => do
    planFor plan
    pure (none, 0)
  | .renew => do
    let m ← lockChosen s user opt
    ensure (m.planId = planId ∧ plan.kind = .subscription) (.choice .stale)
    ensure (plan.status ≠ .archived) .renewArchived
    pure (some m.id, 0)
  | .stack => do
    let m ← lockChosen s user opt
    ensure (m.planId = planId ∧ plan.kind = .oneTime) (.choice .stale)
    planFor plan
    pure (some m.id, 0)
  | .change => match env.valuer with
    | none => .error (.choice .stale)
    | some remainingValue => do
      let m ← lockChosen s user opt
      ensure (m.planId ≠ planId) (.choice .stale)
      let value ← remainingValue m.id env.now
      ensure (Check (max value 0)) .badAmount
      planFor plan
      pure (some m.id, max value 0)
  | .extendDays | .resetTraffic | .addTraffic => .error (.choice .stale)

/-- `giftPrice`: nothing has been paid. -/
def giftPrice (env : Env) : Option UUID → Except Error PriceSnapshot
  | none => .error .planUnavailable
  | some id => do
    match ← env.pricesById id with
    | some ⟨true, interval, count, days⟩ => pure ⟨some id, 0, interval, count, days⟩
    | _ => .error .priceArchived

/-- `preparePlan`, for a plan card that has been placed. -/
def preparePlan (env : Env) (s : State) (user : UUID) (t : Template) (plan : Option Plan)
    (place : Option Choosable) : Except Error (Option PlanPrep) :=
  match t.rewards, plan, place with
  | .plan none _, _, some _ => .error .noPlacement
  | .plan (some planId) priceId, some plan, some opt => do
    let (subId, value) ← preparePlanTarget env s user planId plan opt
    let price ← giftPrice env priceId
    pure (some ⟨plan, subId, value, price⟩)
  | _, _, _ => .ok none

/-- The checks between the limits and the mark. -/
def settlePlace (env : Env) (s : State) (user : UUID) (t : Template) (choice : Option Choice) :
    Except Error Place := do
  let plan ← cardPlan env t
  let (opt, permanent) ← landing env s user (offerOf t (plan.map (·.kind))) choice
  let prep ← preparePlan env s user t plan opt
  pure ⟨opt, permanent, prep⟩

/-- The checks from the template on. -/
def examineCard (env : Env) (input : Input) (user : UUID) (c : Code) (s : State) :
    Except Error (Code ⊕ Ticket) :=
  match s.templates.find? (·.id = c.templateId) with
  | none => .error .notFound
  | some t => do
    ensure (t.status = .active) .templateInactive
    checkConditions env user t
    checkLimits s user t
    let place ← settlePlace env s user t input.choice
    pure (.inr ⟨place, user, c.id, t⟩)

/-- The checks of the code; one that has expired is no error yet. -/
def examineCode (env : Env) (input : Input) (user : UUID) (s : State) (code : String) :
    Except Error (Code ⊕ Ticket) :=
  match s.codes.find? (·.hash = env.hash code) with
  | none => .error .codeUnusable
  | some c =>
    if c.status ≠ .unused then .error .codeUnusable
    else if ∃ e ∈ c.expiresAt, e ≤ env.now then .ok (.inl c)
    else examineCard env input user c s

/-- The checks of `Redeem`, in their order. -/
def examine (env : Env) (input : Input) (s : State) : Except Error (Code ⊕ Ticket) := do
  let user ← portalUser env
  match normalizeCode input.code with
  | none => .error .codeUnusable
  | some code => do
    let deleted ← env.isDeleted user
    ensure (deleted = false) .accountDeleted
    examineCode env input user s code

/-- The mark on the code. -/
def mark (env : Env) (k : Ticket) : Action Unit := do
  let moved ← updateCodeStatus k.codeId .unused .used (some (k.userId, env.now))
  require (moved = true) .codeUnusable

/-- What became of a code before anything is given. -/
inductive Admission
  | expired
  | admitted (k : Ticket)

/-- The mark on the code.  An expired code is marked as that, and this is kept. -/
def admission (env : Env) : Code ⊕ Ticket → Action Admission
  | .inl c => do
    let _ ← updateCodeStatus c.id .unused .expired none
    pure .expired
  | .inr k => do
    mark env k
    pure (.admitted k)

/-- The checks and the mark. -/
def accept (env : Env) (input : Input) : Action Admission := do
  let s ← read
  let x ← ofExcept (examine env input s)
  admission env x

/-! ## What is given -/

/-- `drawPrize`, for the number drawn; the last prize stands for the draw beyond the others. -/
def drawPrize (random : ℕ) (pool : List Prize) : Except Error Prize :=
  if totalWeight pool = 0 then .error .noWeight
  else
    match pickPrize pool (random % totalWeight pool), pool.getLast? with
    | some p, _ => .ok p
    | none, some last => .ok last
    | none, none => .error .noWeight

/-- The posting of the balance of a card. -/
def giftPosting (k : Ticket) (balance : ℚ) : Posting where
  kind := .giftCardBalance
  sourceType := sourceGiftCardCode
  sourceId := k.codeId
  memo := "礼品卡兑换：" ++ k.template.name
  legs := [debit (platformAccount .platformPromoExpense refGift) balance,
    credit (userAccount .userBalance k.userId) balance]

/-- A posting. -/
def post (env : Env) (p : Posting) : Action UUID :=
  (mapError .ledger (postGeneral env.ledger p)).zoom State.ledger fun s l => { s with ledger := l }

/-- The balance. -/
def grantBalance (env : Env) (k : Ticket) (balance : ℚ) : Action (Option UUID) :=
  if 0 < balance then some <$> post env (giftPosting k balance) else pure none

/-- The row of a subscription is written; its key and its user stay. -/
def State.putSub (s : State) (id : UUID) (m : Entitlement) : State :=
  { s with
    subs := s.subs.map fun x =>
      if x.id = id then { m with id := x.id, userId := x.userId } else x
    subIds := nodup_map_update s.subIds fun x => by split_ifs <;> rfl }

/-- A method of the subscription module on one subscription of a user (`lockOwned`). -/
def onSub (user id : UUID) (f : Entitlement → Except Subscriptions.Error Entitlement) :
    Action Entitlement := do
  let s ← read
  let m ← ofOption (s.sub user id) (.subscription .notFound)
  let m' ← ofExcept ((f m).mapError .subscription)
  write fun s => s.putSub id m'
  pure m'

/-- The days.  A permanent subscription has no use for them. -/
def grantDays (env : Env) (k : Ticket) (subId : UUID) (days : ℕ) : Action DaysGiven :=
  if days = 0 then pure .none
  else if k.permanent = true then pure (.skipped days)
  else do
    let m ← onSub k.userId subId fun m => m.extend env.now days
    pure (.extended days m.periodEnd)

/-- The reset. -/
def grantReset (env : Env) (k : Ticket) (subId : UUID) (reset : Bool) : Action Unit :=
  if reset = true then do
    let _ ← onSub k.userId subId fun m => m.resetTraffic env.now k.template.name
  else pure ()

/-- The traffic.  A mystery card skips it where there is no limit. -/
def grantTraffic (env : Env) (k : Ticket) (mystery : Bool) (subId : UUID) (bytes : ℕ) :
    Action TrafficGiven :=
  if bytes = 0 then pure .none
  else do
    let given ← attempt (onSub k.userId subId fun m => m.grantBonus env.now bytes k.template.name)
    match given with
    | .ok _ => pure (.added bytes)
    | .error e =>
      if e = .subscription .unlimited ∧ mystery = true then pure (.skipped bytes) else fail e

/-- What needs a subscription, on the one that was chosen. -/
def grantOn (env : Env) (k : Ticket) (mystery : Bool) (p : Prize) (reset : Bool) (subId : UUID) :
    Action (DaysGiven × TrafficGiven) := do
  let days ← grantDays env k subId p.expireDays
  grantReset env k subId reset
  let traffic ← grantTraffic env k mystery subId p.trafficBytes
  pure (days, traffic)

/-- The reward needs a subscription. -/
def Prize.NeedsSub (p : Prize) (reset : Bool) : Prop :=
  0 < p.expireDays ∨ reset = true ∨ 0 < p.trafficBytes

instance (p : Prize) (reset : Bool) : Decidable (p.NeedsSub reset) :=
  inferInstanceAs (Decidable (_ ∨ _ ∨ _))

/-- What follows the balance. -/
def grantRest (env : Env) (k : Ticket) (mystery : Bool) (p : Prize) (reset : Bool)
    (given : Granted) : Action Granted :=
  match k.landing.bind (·.subscriptionId) with
  | some id =>
    if p.NeedsSub reset then do
      let (days, traffic) ← grantOn env k mystery p reset id
      pure { given with days, reset, traffic, subscriptionId := some id }
    else pure given
  | none => pure given

/-- `grant`, for a reward that is known. -/
def grantReward (env : Env) (k : Ticket) (mystery : Bool) (p : Prize) (reset : Bool) :
    Action Granted := do
  require (p.NeedsSub reset → k.landing.bind (·.subscriptionId) ≠ none) .noPlacement
  let txn ← grantBalance env k p.balance
  grantRest env k mystery p reset
    { prizeLabel := if mystery = true then p.label else ""
      balance := if 0 < p.balance then p.balance else 0
      ledgerTxn := txn }

/-- A subscription is opened. -/
def addSub (x : Except Subscriptions.Error Entitlement) : Action Entitlement := do
  let m ← ofExcept (x.mapError .subscription)
  fun s =>
    if h : ∀ x ∈ s.subs, x.id ≠ m.id then
      .ok (m, { s with subs := s.subs ++ [m], subIds := nodup_map_append s.subIds h })
    else .error (.database "subscriptions_pkey")

/-- The posting of what was left of the subscription that a plan card has changed. -/
def refundPosting (k : Ticket) (value : ℚ) : Posting where
  kind := .planChangeRefund
  sourceType := sourceGiftCardCode
  sourceId := k.codeId
  memo := "套餐卡换套餐，原套餐剩余价值退回"
  legs := [debit (platformAccount .platformRevenue refMain) value,
    credit (userAccount .userBalance k.userId) value]

def grantPlan (env : Env) (k : Ticket) (planId : Option UUID) : Action Granted :=
  match planId, k.landing, k.prep with
  | some planId, some opt, some prep =>
    let change (mode : PlanMode) : Action Granted := do
      let m ← onSub k.userId (prep.subId.getD UUID.nil) (env.changed mode prep)
      pure { plan := some (planId, mode), subscriptionId := some m.id }
    match opt.use with
    | .new => do
      let m ← addSub (env.provision k.userId prep)
      pure { plan := some (planId, .new), subscriptionId := some m.id }
    | .renew => change .renewed
    | .stack => change .stacked
    | .change => do
      let given ← change .changed
      if 0 < prep.value then do
        let _ ← post env (refundPosting k prep.value)
        pure { given with refund := prep.value }
      else pure given
    | .extendDays | .resetTraffic | .addTraffic => fail (.choice .stale)
  | _, _, _ => fail .noPlacement

def grant (env : Env) (k : Ticket) : Action Granted :=
  match k.template.rewards with
  | .plan planId _ => grantPlan env k planId
  | .general balance trafficBytes expireDays resetQuota =>
    grantReward env k false ⟨"", 0, balance, trafficBytes, expireDays⟩ resetQuota
  | .mystery pool => do
    let p ← ofExcept (drawPrize env.random pool)
    grantReward env k true p false

/-! ## What is written down -/

/-- The `CHECK`s of `gift_card_redemptions` on what was given. -/
structure Granted.Recorded (g : Granted) : Prop where
  label : g.prizeLabel.toList.length ≤ 100
  balance : 0 ≤ g.balance ∧ Check g.balance ∧ Fits g.balance
  ledger : 0 < g.balance ↔ g.ledgerTxn ≠ none
  days : g.days.count ≤ 3650
  traffic : g.traffic.count ≤ Subscriptions.maxInt64
  refund : 0 ≤ g.refund ∧ Check g.refund ∧ Fits g.refund

instance (g : Granted) : Decidable g.Recorded :=
  decidable_of_iff (g.prizeLabel.toList.length ≤ 100 ∧
      (0 ≤ g.balance ∧ Check g.balance ∧ Fits g.balance) ∧ (0 < g.balance ↔ g.ledgerTxn ≠ none) ∧
      g.days.count ≤ 3650 ∧ g.traffic.count ≤ Subscriptions.maxInt64 ∧
      0 ≤ g.refund ∧ Check g.refund ∧ Fits g.refund)
    ⟨fun h => ⟨h.1, h.2.1, h.2.2.1, h.2.2.2.1, h.2.2.2.2.1, h.2.2.2.2.2⟩,
      fun h => ⟨h.label, h.balance, h.ledger, h.days, h.traffic, h.refund⟩⟩

/-- `InsertRedemption`: one for each code. -/
def insertRedemption (r : Redemption) : Action Unit := do
  let s ← read
  require r.granted.Recorded (.database "gift_card_redemptions")
  require (∀ x ∈ s.redemptions, x.codeId ≠ r.codeId) (.database "gift_card_redemptions_code_key")
  write fun s => { s with redemptions := s.redemptions ++ [r] }

/-- `money.ToCents` succeeds: the cents fit 64 bits. -/
def CentsFit (d : ℚ) : Prop := Check d ∧ -2 ^ 63 ≤ d * 100 ∧ d * 100 ≤ 2 ^ 63 - 1

instance (d : ℚ) : Decidable (CentsFit d) := inferInstanceAs (Decidable (_ ∧ _ ∧ _))

/-- `pluginGranted`: amounts are told to plugins in cents. -/
def pluginGranted (g : Granted) : Except Error Unit :=
  ensure ((0 < g.balance → CentsFit g.balance) ∧ (0 < g.refund → CentsFit g.refund)) .badAmount

/-- The draw, what it gives, and the records of it. -/
def finish (env : Env) (k : Ticket) : Action Granted := do
  let g ← grant env k
  insertRedemption ⟨k.codeId, k.template.id, k.userId, env.now, g⟩
  ofExcept env.audit
  ofExcept (pluginGranted g)
  ofExcept env.emit
  ofExcept env.complete
  pure g

/-- `Redeem`, the transaction; an expired code has no answer but the mark it leaves. -/
def redeem (env : Env) (input : Input) : Action (Option Granted) := do
  match ← accept env input with
  | .expired => pure none
  | .admitted k => do
    let g ← finish env k
    pure (some g)

/-- The transaction commits. -/
def commits (env : Env) (input : Input) (s : State) : Bool :=
  match redeem env input s with
  | .ok _ => true
  | .error _ => false

end Pandora.Giftcards
