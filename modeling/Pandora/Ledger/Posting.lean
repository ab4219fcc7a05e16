import Pandora.Foundation.Check
import Pandora.Foundation.Text
import Pandora.Ledger.Types
import Mathlib.Data.List.Sort

/-!
# Postings: what is accepted, and what it does to balances

This file has no database in it.  It checks a posting (`validatePosting`), and
computes, from the balances of the accounts it touches, the balances after it
(`nextBalances`).

Two facts are carried out of here.

* `validatePosting_ok`: an accepted posting has well-formed legs and equal debit
  and credit totals.  This is the only place where double entry is enforced by
  the program, and later results about the books as a whole rest on it.
* `nextBalances_ok`: if the new balances come out, then every leg's account was
  among the locked ones, the new balance of each is the old one plus
  `legDelta`, and no user-owned account ends below zero.

`legDelta legs ref` is the total signed effect of the legs on one account.  It
is the specification of the loop that applies them one at a time.
-/

namespace Pandora.Ledger

open Money Text List Function Except

/-! ## Checking a posting -/

/-- A lower-case letter or an underscore. -/
def sourceTypeChar (c : Char) : Bool := ('a' ≤ c && c ≤ 'z') || c == '_'

/-- The pattern `^[a-z_]{1,32}$`. -/
def sourceTypePattern (s : String) : Bool := matchesClass sourceTypeChar 1 32 s

/-- The shape and the amount of one leg.  The answer is the text of the first
check that fails. -/
def validateLeg (leg : Leg) : Except String Unit := do
  let ref := leg.account
  ensure (ref.type.valid = true) "科目类型不合法"
  if ref.type.userOwned then
    ensure (ref.userId ≠ UUID.nil) "用户类科目必须指定用户"
    ensure (ref.ref = "") "用户类科目不能带 owner_ref"
  else
    ensure (ref.userId = UUID.nil) "平台类科目不能指定用户"
    ensure (ref.ref ≠ "") "平台类科目必须指定 owner_ref"
    ensure (ref.ref.utf8ByteSize ≤ 64) "owner_ref 过长"
  ensure (leg.direction = .debit ∨ leg.direction = .credit) "分录方向不合法"
  ensure (0 < leg.amount) "分录金额必须大于 0"
  ensure (Check leg.amount) "金额超过 2 位小数"

/-- The amounts on one side. -/
def sideTotal (d : Direction) (legs : List Leg) : ℚ :=
  (legs.map fun leg => if leg.direction = d then leg.amount else 0).sum

/-- The first leg that fails its check, with its position. -/
def validateLegs (i : ℕ) : List Leg → Except Error Unit
  | [] => .ok ()
  | leg :: legs =>
    match validateLeg leg with
    | .error e => .error (.invalidPosting ("分录 " ++ toString i ++ ": " ++ e))
    | .ok () => validateLegs (i + 1) legs

/-- `validatePosting`.  A memo is a Lean string, so it is valid UTF-8 by
construction; the source refuses a memo that is not, before anything is
written. -/
def validatePosting (p : Posting) : Except Error Unit := do
  ensure (p.kind.valid = true) (.invalidPosting "交易类型不合法")
  ensure (p.sourceType = "" ↔ p.sourceId = UUID.nil) (.invalidPosting "来源类型与来源 ID 必须成对出现")
  ensure (p.sourceType = "" ∨ sourceTypePattern p.sourceType = true) (.invalidPosting "来源类型格式不合法")
  ensure ('\x00' ∉ p.memo.toList) (.invalidPosting "备注不能包含 NUL")
  ensure (p.memo.length ≤ 500) (.invalidPosting "备注超过 500 字")
  ensure (p.kind = .balanceAdjusted → 5 ≤ (trimSpace p.memo.toList).length)
    (.invalidPosting "人工调账的备注去掉首尾空白后至少 5 个字")
  ensure (2 ≤ p.legs.length) (.invalidPosting "至少需要两条分录")
  validateLegs 0 p.legs
  ensure (sideTotal .debit p.legs = sideTotal .credit p.legs) (.invalidPosting "借贷不平")

/-- A reference that names an account: a registered type, and an owner of the
shape that the type asks for. -/
structure AccountRef.WellFormed (ref : AccountRef) : Prop where
  valid : ref.type.valid = true
  owner : ref.type.userOwned = true → ref.userId ≠ UUID.nil ∧ ref.ref = ""
  platform : ref.type.userOwned = false → ref.userId = UUID.nil ∧ ref.ref ≠ ""

/-- What an accepted leg is: a well-formed account, a side, and a positive amount
in cents. -/
structure Leg.WellFormed (leg : Leg) : Prop where
  account : leg.account.WellFormed
  side : leg.direction = .debit ∨ leg.direction = .credit
  pos : 0 < leg.amount
  cents : Check leg.amount

theorem validateLeg_ok {leg : Leg} (h : validateLeg leg = .ok ()) : leg.WellFormed := by
  simp only [validateLeg, except_bind_eq_ok, ensure_eq_ok, exists_const] at h
  obtain ⟨hvalid, howner⟩ := h
  split_ifs at howner with ho
  · simp only [except_bind_eq_ok, ensure_eq_ok, exists_const] at howner
    obtain ⟨huser, href, hside, hpos, hcents⟩ := howner
    exact ⟨⟨hvalid, fun _ => ⟨huser, href⟩, fun hn => absurd ho (by simp [hn])⟩, hside, hpos,
      hcents⟩
  · simp only [except_bind_eq_ok, ensure_eq_ok, exists_const] at howner
    obtain ⟨huser, href, -, hside, hpos, hcents⟩ := howner
    exact ⟨⟨hvalid, fun hy => absurd hy ho, fun _ => ⟨huser, href⟩⟩, hside, hpos, hcents⟩

variable {legs : List Leg} {accounts : Locked} {ref : AccountRef} {out : List (UUID × ℚ)}
  {refs : List AccountRef}

theorem validateLegs_eq_ok {i : ℕ} :
    validateLegs i legs = .ok () ↔ ∀ leg ∈ legs, validateLeg leg = .ok () := by
  induction legs generalizing i with
  | nil => simp [validateLegs]
  | cons leg legs ih =>
    rw [validateLegs, forall_mem_cons]
    cases validateLeg leg with
    | error => simp
    | ok => simp [ih]

/-- What an accepted posting is. -/
structure Posting.WellFormed (p : Posting) : Prop where
  valid : p.kind.valid = true
  source : p.sourceType = "" ↔ p.sourceId = UUID.nil
  legs : ∀ leg ∈ p.legs, leg.WellFormed
  two : 2 ≤ p.legs.length
  balanced : sideTotal .debit p.legs = sideTotal .credit p.legs

/-- **An accepted posting is balanced**, and each of its legs is well formed. -/
theorem validatePosting_ok {p : Posting} (h : validatePosting p = .ok ()) : p.WellFormed := by
  simp only [validatePosting, except_bind_eq_ok, ensure_eq_ok, exists_const] at h
  obtain ⟨hkind, hsource, -, -, -, -, htwo, u, hlegs, hbal⟩ := h
  exact ⟨hkind, hsource, fun leg hleg => validateLeg_ok (validateLegs_eq_ok.mp hlegs leg hleg),
    htwo, hbal⟩

/-! ## The effect on balances -/

/-- The signed effect of one leg: positive on the account's normal side. -/
def signedDelta (t : AccountType) (d : Direction) (amount : ℚ) : ℚ :=
  if t.debitNormal then
    if d = .debit then amount else -amount
  else
    if d = .credit then amount else -amount

/-- An account row that is locked: its identifier, type and balance. -/
structure LockedAccount where
  id : UUID
  type : AccountType
  balance : ℚ

/-- The zero value of the source's record, which a lookup in a map that lacks
the key returns. -/
instance : Inhabited LockedAccount := ⟨⟨UUID.nil, .unregistered "", 0⟩⟩

/-- The map from references to locked accounts. -/
abbrev Locked : Type := AccountRef → Option LockedAccount

/-- The balance of a locked account. -/
def Locked.balance (accounts : Locked) (ref : AccountRef) : ℚ :=
  ((accounts ref).getD default).balance

/-- The first loop of `nextBalances`: apply the legs in order to the working
balances. -/
def applyLegs (accounts : Locked) (work : AccountRef → ℚ) :
    List Leg → Except Error (AccountRef → ℚ)
  | [] => .ok work
  | leg :: legs =>
    match accounts leg.account with
    | none => .error (.invalidPosting "分录引用了未锁定的科目")
    | some acc =>
      applyLegs accounts (update work leg.account
        (work leg.account + signedDelta acc.type leg.direction leg.amount)) legs

/-- The second loop of `nextBalances`: the accounts that changed, each once, with
the refusal to overdraw a user. -/
def changedBalances (accounts : Locked) (work : AccountRef → ℚ) :
    List AccountRef → Except Error (List (UUID × ℚ))
  | [] => .ok []
  | ref :: refs =>
    let acc := (accounts ref).getD default
    if acc.type.userOwned ∧ work ref < 0 then .error .insufficientBalance
    else
      match changedBalances accounts work refs with
      | .error e => .error e
      | .ok out => .ok ((acc.id, work ref) :: out)

/-- The new balances, by account identifier. -/
def nextBalances (accounts : Locked) (legs : List Leg) : Except Error (List (UUID × ℚ)) :=
  match applyLegs accounts accounts.balance legs with
  | .error e => .error e
  | .ok work => changedBalances accounts work (legs.map Leg.account).dedup

/-- The order in which accounts are locked: by type, then owner, then text. -/
def AccountRef.before (a b : AccountRef) : Prop :=
  if a.type ≠ b.type then a.type.name < b.type.name
  else if a.userId ≠ b.userId then a.userId < b.userId
  else a.ref < b.ref

instance : DecidableRel AccountRef.before := fun a b => by
  unfold AccountRef.before
  infer_instance

/-- References without repetition, in locking order. -/
def sortedRefs (refs : List AccountRef) : List AccountRef :=
  refs.dedup.insertionSort fun a b => ¬b.before a

/-- The accounts of a posting, in locking order. -/
def accountKeys (legs : List Leg) : List AccountRef := sortedRefs (legs.map Leg.account)

@[simp] theorem mem_sortedRefs : ref ∈ sortedRefs refs ↔ ref ∈ refs := by
  simp [sortedRefs]

@[simp] theorem mem_accountKeys : ref ∈ accountKeys legs ↔ ∃ leg ∈ legs, leg.account = ref := by
  simp [accountKeys]

/-! ## What the two loops compute -/

/-- The total signed effect of the legs on one account. -/
def legDelta (legs : List Leg) (ref : AccountRef) : ℚ :=
  (legs.map fun leg =>
    if leg.account = ref then signedDelta ref.type leg.direction leg.amount else 0).sum

@[simp] theorem legDelta_nil (ref : AccountRef) : legDelta [] ref = 0 := rfl

theorem legDelta_cons (leg : Leg) (legs : List Leg) (ref : AccountRef) :
    legDelta (leg :: legs) ref =
      (if leg.account = ref then signedDelta ref.type leg.direction leg.amount else 0) +
        legDelta legs ref := by
  simp [legDelta]

theorem legDelta_append (legs more : List Leg) (ref : AccountRef) :
    legDelta (legs ++ more) ref = legDelta legs ref + legDelta more ref := by
  simp [legDelta]

theorem legDelta_eq_zero (h : ∀ leg ∈ legs, leg.account ≠ ref) : legDelta legs ref = 0 := by
  refine sum_eq_zero fun x hx => ?_
  obtain ⟨leg, hmem, rfl⟩ := mem_map.mp hx
  rw [if_neg (h leg hmem)]

theorem check_legDelta (h : ∀ leg ∈ legs, Check leg.amount) : Check (legDelta legs ref) := by
  refine Check.list_sum fun x hx => ?_
  obtain ⟨leg, hmem, rfl⟩ := mem_map.mp hx
  have hcents := h leg hmem
  unfold signedDelta
  split_ifs <;> first | exact hcents | exact hcents.neg | exact check_zero

/-- The map gives every account under its own type. -/
def Locked.Typed (accounts : Locked) : Prop :=
  ∀ ref acc, accounts ref = some acc → acc.type = ref.type

theorem applyLegs_ok (ht : accounts.Typed)
    {work work' : AccountRef → ℚ} (h : applyLegs accounts work legs = .ok work') :
    (∀ leg ∈ legs, ∃ acc, accounts leg.account = some acc) ∧
      ∀ ref, work' ref = work ref + legDelta legs ref := by
  induction legs generalizing work with
  | nil =>
    simp only [applyLegs, ok.injEq] at h
    subst h
    simp
  | cons leg legs ih =>
    rw [applyLegs] at h
    cases hacc : accounts leg.account with
    | none => simp [hacc] at h
    | some acc =>
      rw [hacc] at h
      obtain ⟨hlocked, hwork⟩ := ih h
      refine ⟨?_, fun ref => ?_⟩
      · exact forall_mem_cons.mpr ⟨⟨acc, hacc⟩, hlocked⟩
      · rw [hwork ref, legDelta_cons]
        by_cases hr : leg.account = ref
        · subst hr
          rw [update_self, if_pos rfl, ht _ _ hacc]
          ring
        · rw [update_of_ne (Ne.symm hr), if_neg hr]
          ring

theorem changedBalances_ok {work : AccountRef → ℚ}
    (h : changedBalances accounts work refs = .ok out) :
    out = refs.map (fun ref => (((accounts ref).getD default).id, work ref)) ∧
      ∀ ref ∈ refs, ((accounts ref).getD default).type.userOwned = true → 0 ≤ work ref := by
  induction refs generalizing out with
  | nil =>
    simp only [changedBalances, ok.injEq] at h
    subst h
    simp
  | cons ref refs ih =>
    rw [changedBalances] at h
    split_ifs at h with hneg
    cases hrest : changedBalances accounts work refs with
    | error => simp [hrest] at h
    | ok =>
      rw [hrest] at h
      simp only [ok.injEq] at h
      obtain ⟨hmap, hnonneg⟩ := ih hrest
      refine ⟨by rw [← h, hmap, map_cons], fun ref' hmem ho => ?_⟩
      rcases mem_cons.mp hmem with rfl | hmem
      · by_contra hlt
        exact hneg ⟨ho, not_le.mp hlt⟩
      · exact hnonneg ref' hmem ho

/-- **What `nextBalances` returns.**  Every leg names a locked account; the
balances are the old ones plus the effect of the legs; no user's account is
overdrawn. -/
theorem nextBalances_ok (ht : accounts.Typed) (h : nextBalances accounts legs = .ok out) :
    (∀ leg ∈ legs, ∃ acc, accounts leg.account = some acc) ∧
    out = (legs.map Leg.account).dedup.map (fun ref =>
      (((accounts ref).getD default).id, accounts.balance ref + legDelta legs ref)) ∧
    ∀ leg ∈ legs, leg.account.type.userOwned = true →
      0 ≤ accounts.balance leg.account + legDelta legs leg.account := by
  unfold nextBalances at h
  cases hwork : applyLegs accounts accounts.balance legs with
  | error => simp [hwork] at h
  | ok =>
    rw [hwork] at h
    obtain ⟨hlocked, hvalue⟩ := applyLegs_ok ht hwork
    obtain ⟨hout, hnonneg⟩ := changedBalances_ok h
    refine ⟨hlocked, ?_, fun leg hmem ho => ?_⟩
    · rw [hout]
      exact map_congr_left fun ref _ => by rw [hvalue ref]
    · obtain ⟨acc, hacc⟩ := hlocked leg hmem
      have hmem' : leg.account ∈ (legs.map Leg.account).dedup :=
        mem_dedup.mpr (mem_map_of_mem hmem)
      have := hnonneg leg.account hmem' (by rw [hacc, Option.getD_some, ht _ _ hacc]; exact ho)
      rwa [hvalue leg.account] at this

end Pandora.Ledger
