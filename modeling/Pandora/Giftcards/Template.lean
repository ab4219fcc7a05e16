import Pandora.Foundation.Text
import Pandora.Identifiers
import Pandora.Money

/-!
# Templates of gift cards

What a card gives is said by its template: balance, traffic, days and a reset, all at once
(`general`); a period of a plan (`plan`); or one prize of a pool, drawn when the card is
redeemed (`mystery`).  `validateRewards` is the check that every template has passed.
-/

namespace Pandora.Giftcards

open Money List Nat

/-- A prize of a pool; zero means that nothing of the kind is given. -/
structure Prize where
  label : String
  weight : ℕ
  balance : ℚ
  trafficBytes : ℕ
  expireDays : ℕ
  deriving DecidableEq

/-- What a card gives, by its type. -/
inductive Rewards
  | general (balance : ℚ) (trafficBytes expireDays : ℕ) (resetQuota : Bool)
  | plan (planId priceId : Option UUID)
  | mystery (pool : List Prize)

/-! ## The rules -/

def maxNameRunes : ℕ := 120

def maxPrizeLabelRunes : ℕ := 100

def maxPrizes : ℕ := 50

def minPrizes : ℕ := 2

def maxPrizeWeight : ℕ := 1000000

def maxExpireDays : ℕ := 3650

def maxTrafficBytes : ℕ := 2 ^ 50

/-- `validateText`: white space at the ends does not count, and there is no `NUL`. -/
def validateText (s : String) (least most : ℕ) : Option String :=
  let runes := Text.trimSpace s.toList
  if least ≤ runes.length ∧ runes.length ≤ most ∧ '\x00' ∉ runes then some (String.ofList runes)
  else none

/-- The checks of one prize, in the order they are made; `i` is its place in the pool. -/
def validatePrize (i : ℕ) (p : Prize) : Option String :=
  let nth := "第 " ++ toString (i + 1) ++ " 个奖品"
  if validateText p.label 1 maxPrizeLabelRunes = none then
    some (nth ++ "缺少名称或名称超过 100 字 —— 用户中奖后要看到它")
  else if p.weight = 0 ∨ maxPrizeWeight < p.weight then
    some (nth ++ "的权重必须在 1 到 1000000 之间（权重为 0 等于永远抽不到，不如直接删掉）")
  else if p.balance < 0 then some (nth ++ "的数值不能为负")
  else if ¬0 < p.balance ∧ p.trafficBytes = 0 ∧ p.expireDays = 0 then some (nth ++ "什么都不送")
  else if ¬Check p.balance then some (nth ++ "的余额最多两位小数")
  else if maxTrafficBytes < p.trafficBytes ∨ maxExpireDays < p.expireDays then
    some (nth ++ "的流量不能超过 1 PiB、天数不能超过 3650")
  else none

/-- The prizes of a pool, from the one at place `i` on; the first complaint is the answer. -/
def validatePool : ℕ → List Prize → Option String
  | _, [] => none
  | i, p :: pool => (validatePrize i p).orElse fun _ => validatePool (i + 1) pool

/-- `validateRewards`; no answer means that the rewards are accepted. -/
def validateRewards : Rewards → Option String
  | .general balance trafficBytes expireDays resetQuota =>
    if balance < 0 then some "奖励数值不能为负"
    else if ¬0 < balance ∧ trafficBytes = 0 ∧ expireDays = 0 ∧ resetQuota = false then
      some "通用卡至少要送一样东西：余额、流量、延长到期或重置流量"
    else if ¬Check balance then some "余额最多两位小数"
    else if maxTrafficBytes < trafficBytes then some "流量不能超过 1 PiB"
    else if maxExpireDays < expireDays then some "延长天数不能超过 3650 天"
    else none
  | .plan planId priceId =>
    if planId.getD UUID.nil = UUID.nil then some "套餐卡必须指定套餐"
    else if priceId.getD UUID.nil = UUID.nil then
      some "套餐卡必须选一档价格：订阅套餐选一个周期，一次性套餐选它的价格"
    else none
  | .mystery pool =>
    if pool.length < minPrizes then some "盲盒至少要有 2 个奖品，否则它就是一张普通卡"
    else if maxPrizes < pool.length then some "盲盒奖品不能超过 50 个"
    else validatePool 0 pool

/-- The states of a template. -/
inductive TemplateStatus
  | active | paused | archived
  deriving DecidableEq

/-- A template, which was checked when it was saved (`normalizeTemplate`). -/
structure Template where
  id : UUID
  name : String
  status : TemplateStatus
  rewards : Rewards
  newUserOnly : Bool
  paidUserOnly : Bool
  maxUsePerUser : ℕ
  named : validateText name 1 maxNameRunes = some name
  accepted : validateRewards rewards = none

/-- What an accepted prize is. -/
structure Prize.Valid (p : Prize) : Prop where
  label : ∃ s, validateText p.label 1 maxPrizeLabelRunes = some s
  weight : 0 < p.weight
  balance : 0 ≤ p.balance
  gives : 0 < p.balance ∨ 0 < p.trafficBytes ∨ 0 < p.expireDays
  places : Check p.balance
  traffic : p.trafficBytes ≤ maxTrafficBytes
  days : p.expireDays ≤ maxExpireDays

variable {p : Prize} {pool : List Prize} {pick i : ℕ}

theorem validatePrize_none (h : validatePrize i p = none) : p.Valid := by
  simp only [validatePrize] at h
  split_ifs at h with hlabel hweight hneg hgives hplaces hmost
  push Not at hweight hneg hmost
  exact {
    label := Option.ne_none_iff_exists'.mp hlabel
    weight := pos_of_ne_zero hweight.1
    balance := hneg
    gives := by
      by_contra hnone
      push Not at hnone
      exact hgives ⟨not_lt.mpr hnone.1, le_zero.mp hnone.2.1, le_zero.mp hnone.2.2⟩
    places := hplaces
    traffic := hmost.1
    days := hmost.2 }

theorem validatePool_none (h : validatePool i pool = none) : ∀ p ∈ pool, p.Valid := by
  induction pool generalizing i with
  | nil => simp
  | cons p pool ih =>
    rw [validatePool] at h
    cases hp : validatePrize i p with
    | some => rw [hp] at h; cases h
    | none =>
      rw [hp] at h
      exact forall_mem_cons.mpr ⟨validatePrize_none hp, ih h⟩

theorem validateRewards_mystery
    (h : validateRewards (.mystery pool) = none) : pool ≠ [] ∧ ∀ p ∈ pool, p.Valid := by
  rw [validateRewards] at h
  split_ifs at h with hleast hmost
  refine ⟨?_, validatePool_none h⟩
  rintro rfl
  exact hleast (by decide)

/-! ## The draw -/

/-- `drawPrize`, for the number that was drawn. -/
def pickPrize : List Prize → ℕ → Option Prize
  | [], _ => none
  | p :: pool, pick => if pick < p.weight then some p else pickPrize pool (pick - p.weight)

/-- The sum of the weights. -/
def totalWeight (pool : List Prize) : ℕ := (pool.map (·.weight)).sum

theorem pickPrize_mem (h : pickPrize pool pick = some p) : p ∈ pool := by
  induction pool generalizing pick with
  | nil => cases h
  | cons q pool ih =>
    rw [pickPrize] at h
    split_ifs at h
    · cases h
      exact mem_cons_self
    · exact mem_cons_of_mem q (ih h)

theorem exists_pickPrize (h : pick < totalWeight pool) : ∃ p, pickPrize pool pick = some p := by
  induction pool generalizing pick with
  | nil => exact absurd h (not_lt_zero pick)
  | cons q pool ih =>
    rw [pickPrize]
    split_ifs with hq
    · exact ⟨q, rfl⟩
    · refine ih ?_
      simp only [totalWeight, map_cons, sum_cons] at h ⊢
      omega

theorem exists_pick (hp : p ∈ pool) (hweight : 0 < p.weight) :
    ∃ pick < totalWeight pool, pickPrize pool pick = some p := by
  induction pool with
  | nil => cases hp
  | cons q pool ih =>
    simp only [totalWeight, map_cons, sum_cons]
    rcases mem_cons.mp hp with rfl | hp
    · exact ⟨0, by omega, by rw [pickPrize, if_pos hweight]⟩
    · obtain ⟨pick, hlt, hpick⟩ := ih hp
      unfold totalWeight at hlt
      refine ⟨q.weight + pick, by omega, ?_⟩
      rw [pickPrize, if_neg (by omega), Nat.add_sub_cancel_left]
      exact hpick

end Pandora.Giftcards
