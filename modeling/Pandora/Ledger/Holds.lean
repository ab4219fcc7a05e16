import Pandora.Ledger.Journal

/-!
# Frozen balances, order settlement and manual adjustments

The kinds of posting that `Post` refuses have their own methods, and these are
they.  An order that is partly paid from the user's balance freezes that part
when it is placed (`holdForOrder`), and either takes it when the order is paid
(`postOrderPaid`) or gives it back when the order is cancelled or expires
(`releaseOrderHold`).  An order paid from the balance alone freezes and takes in
one step (`captureFromBalance`).  An administrator may add to or take from a
balance (`adjustBalance`).

Each method that succeeds makes at most two postings and changes at most one
hold; the `_spec` theorems say which.
-/

namespace Pandora.Ledger

open Money Database Text Tx

/-! ## Freezing -/

/-- The input of `HoldForOrder` and `CaptureFromBalance`. -/
structure HoldInput where
  orderId : UUID
  userId : UUID
  amount : ℚ

def validateHoldInput (input : HoldInput) : Except Error Unit := do
  ensure (input.orderId ≠ UUID.nil ∧ input.userId ≠ UUID.nil) (.invalidPosting "订单或用户不能为空")
  ensure (0 < input.amount) (.invalidPosting "冻结金额必须大于 0")
  ensure (Check input.amount) (.invalidPosting "金额超过 2 位小数")

/-- From the user's balance to the frozen one. -/
def holdPosting (input : HoldInput) : Posting where
  kind := .balanceHold
  sourceType := sourceOrder
  sourceId := input.orderId
  legs := [debit (userAccount .userBalance input.userId) input.amount,
    credit (userAccount .userBalanceHold input.userId) input.amount]

/-- `holdForOrder`, inside the caller's transaction. -/
def holdForOrderTx (env : Env) (input : HoldInput) : Tx State Error Hold := do
  let s ← read
  require (s.holdByOrder input.orderId = none) .holdExists
  let txnId ← mapError (fun e => if e = .duplicatePosting then .holdExists else e)
    (postChecked env (holdPosting input))
  insertHold input.orderId input.userId input.amount txnId

def holdForOrder (env : Env) (input : HoldInput) : Tx State Error Hold := do
  ofExcept (validateHoldInput input)
  holdForOrderTx env input

/-! ## Releasing -/

/-- From the frozen balance back to the user's. -/
def releasePosting (orderId : UUID) (h : Hold) (memo : String) : Posting where
  kind := .balanceRelease
  sourceType := sourceOrder
  sourceId := orderId
  memo := memo
  legs := [debit (userAccount .userBalanceHold h.userId) h.amount,
    credit (userAccount .userBalance h.userId) h.amount]

/-- `ReleaseOrderHold`.  The answer says whether a hold was released. -/
def releaseOrderHold (env : Env) (orderId : UUID) (memo : String) : Tx State Error Bool := do
  let s ← read
  match s.holdByOrder orderId with
  | none => pure false
  | some h =>
    match h.status with
    | .released => pure false
    | .captured => fail .holdCaptured
    | .held => do
      let txnId ← postChecked env (releasePosting orderId h memo)
      let ok ← markHoldReleased h.id txnId
      require (ok = true) (.holdStateChanged "ledger: 释放冻结时状态已变")
      pure true

/-! ## Settling an order -/

/-- The input of `PostOrderPaid`.  The part paid from the balance is
`total - paid`, and must be what is frozen for the order.  What the channel
collected is `paid + surcharge`. -/
structure OrderPaid where
  orderId : UUID
  userId : UUID
  total : ℚ
  paid : ℚ
  fee : ℚ
  surcharge : ℚ
  provider : String

/-- One amount of an `OrderPaid`, with the name it has in the refusal. -/
def checkAmount (label : String) (d : ℚ) : Except Error Unit := do
  ensure (0 ≤ d) (.invalidPosting (label ++ ": 金额不能为负"))
  ensure (Check d) (.invalidPosting (label ++ ": 金额超过 2 位小数"))

def validateOrderPaid (p : OrderPaid) : Except Error Unit := do
  ensure (p.orderId ≠ UUID.nil ∧ p.userId ≠ UUID.nil) (.invalidPosting "订单或用户不能为空")
  checkAmount "订单总额" p.total
  checkAmount "渠道实收" p.paid
  checkAmount "渠道手续费" p.fee
  checkAmount "用户手续费" p.surcharge
  ensure (p.paid ≤ p.total) (.invalidPosting "渠道实收不能超过订单总额")
  ensure (p.fee ≤ p.paid + p.surcharge) (.invalidPosting "渠道手续费不能超过渠道实收")
  ensure (0 < p.surcharge → 0 < p.paid) (.invalidPosting "只有渠道收款才能带用户手续费")
  ensure (0 < p.paid + p.surcharge → p.provider ≠ "") (.invalidPosting "有渠道实收时必须指定渠道代码")
  ensure (0 < p.paid + p.surcharge → p.provider.utf8ByteSize ≤ 64) (.invalidPosting "渠道代码过长")

/-- A leg that is only written when its amount is positive. -/
def legIfPositive (leg : Leg) : List Leg := if 0 < leg.amount then [leg] else []

def orderPaidLegs (p : OrderPaid) (applied : ℚ) : List Leg :=
  legIfPositive (debit (platformAccount .channelCash p.provider) (p.paid + p.surcharge - p.fee)) ++
  legIfPositive (debit (platformAccount .platformFeeExpense p.provider) p.fee) ++
  legIfPositive (debit (userAccount .userBalanceHold p.userId) applied) ++
  [credit (platformAccount .platformRevenue refMain) p.total] ++
  legIfPositive (credit (platformAccount .platformRevenue refSurcharge) p.surcharge)

/-- The settlement of an order. -/
def orderPaidPosting (p : OrderPaid) (applied : ℚ) : Posting where
  kind := .orderPaid
  sourceType := sourceOrder
  sourceId := p.orderId
  legs := orderPaidLegs p applied

/-- The hold of the order must be the part paid from the balance. -/
def checkHold (p : OrderPaid) (applied : ℚ) (hold : Option Hold) : Except Error Unit :=
  if 0 < applied then
    match hold with
    | none => .error (.invalidPosting "有余额抵扣但没有冻结记录")
    | some h => do
      ensure (h.status ≠ .released) .holdReleased
      ensure (h.status = .held) (.invalidPosting "冻结状态不是 held")
      ensure (h.amount = applied) (.invalidPosting "冻结金额与余额抵扣不一致")
      ensure (h.userId = p.userId) (.invalidPosting "冻结用户与订单用户不一致")
  else
    ensure (∀ h ∈ hold, h.status ≠ .held) (.invalidPosting "有 held 冻结但未使用余额抵扣")

/-- Take the frozen balance, if the order used any. -/
def captureHold (applied : ℚ) (hold : Option Hold) (txnId : UUID) : Tx State Error Unit :=
  if 0 < applied then do
    let ok ← markHoldCaptured ((hold.map Hold.id).getD UUID.nil) txnId
    require (ok = true) (.holdStateChanged "ledger: 扣款冻结时状态已变")
  else pure ()

/-- `postOrderPaid`, inside the caller's transaction.  An order with nothing to
book gets no transaction. -/
def postOrderPaidTx (env : Env) (p : OrderPaid) : Tx State Error UUID := do
  let applied := p.total - p.paid
  let s ← read
  let hold := s.holdByOrder p.orderId
  require (∀ h ∈ hold, h.status ≠ .captured) .duplicatePosting
  ofExcept (checkHold p applied hold)
  if p.total = 0 then pure UUID.nil
  else do
    let txnId ← postChecked env (orderPaidPosting p applied)
    captureHold applied hold txnId
    pure txnId

def postOrderPaid (env : Env) (p : OrderPaid) : Tx State Error UUID := do
  ofExcept (validateOrderPaid p)
  postOrderPaidTx env p

/-- `CaptureFromBalance`: freeze and take at once. -/
def captureFromBalance (env : Env) (input : HoldInput) : Tx State Error (Hold × UUID) := do
  ofExcept (validateHoldInput input)
  let _ ← lockAccounts env [userAccount .userBalance input.userId,
    userAccount .userBalanceHold input.userId, platformAccount .platformRevenue refMain]
  let h ← holdForOrderTx env input
  let txnId ← postOrderPaidTx env
    ⟨input.orderId, input.userId, input.amount, 0, 0, 0, ""⟩
  pure ({ h with status := .captured, captureTxnId := some txnId }, txnId)

/-! ## Manual adjustments -/

/-- The input of `AdjustBalance`: positive adds, negative takes. -/
structure Adjustment where
  userId : UUID
  amount : ℚ
  reason : String

/-- The refusal of a reason that is not a text of 5 to 500 characters. -/
def reasonError : Error := .invalidField "reason" "请写清调整原因，5 到 500 个字"

/-- `normalizeAdjustment`: the reason without surrounding space. -/
def normalizeAdjustment (a : Adjustment) : Except Error String := do
  ensure (a.amount ≠ 0) (.validationFailed "调整金额不能为零")
  ensure (Check a.amount) (.invalidField "amount" "金额最多两位小数")
  let reason := trimSpace a.reason.toList
  ensure ('\x00' ∉ reason) reasonError
  ensure (5 ≤ reason.length ∧ reason.length ≤ 500) reasonError
  pure (String.ofList reason)

/-- The adjustment as a posting against the suspense account. -/
def adjustPosting (a : Adjustment) (reason : String) : Posting where
  kind := .balanceAdjusted
  sourceType := sourceUser
  sourceId := a.userId
  memo := reason
  legs :=
    if 0 < a.amount then
      [debit (platformAccount .suspense refManualAdjust) |a.amount|,
        credit (userAccount .userBalance a.userId) |a.amount|]
    else
      [debit (userAccount .userBalance a.userId) |a.amount|,
        credit (platformAccount .suspense refManualAdjust) |a.amount|]

/-- `AdjustBalance`.  The answer is the balance after, and the transaction. -/
def adjustBalance (env : Env) (caller : Option Principal) (a : Adjustment) :
    Tx State Error (ℚ × UUID) := do
  require (∃ p ∈ caller, p.userId ≠ UUID.nil) .unauthorized
  require (∀ p ∈ caller, p.audience = .admin) .forbidden
  require (a.userId ≠ UUID.nil) .userNotFound
  let reason ← ofExcept (normalizeAdjustment a)
  require (env.accountStates = true) (.portMissing "ledger: AccountStates 未装配")
  require (0 < a.amount → env.isDeleted a.userId = false) (.conflict "账号已注销")
  let txnId ← mapError
    (fun e => if e.isInsufficientBalance then .conflict "余额不足，无法扣减这么多" else e)
    (postChecked env (adjustPosting a reason))
  let s ← read
  require (env.auditOk = true) .auditFailed
  pure (s.balance (userAccount .userBalance a.userId), txnId)

/-! ## What each method did -/

variable {s s' : State} {orderId id : UUID} {env : Env} {input : HoldInput} {hold : Hold}

theorem State.holdByOrder_eq_some {h : Hold}
    (hfind : s.holdByOrder orderId = some h) : h ∈ s.holds ∧ h.orderId = orderId :=
  ⟨List.mem_of_find?_eq_some hfind, by simpa using List.find?_some hfind⟩

theorem State.holdByOrder_eq_none :
    s.holdByOrder orderId = none ↔ ∀ h ∈ s.holds, h.orderId ≠ orderId := by
  simp [State.holdByOrder]

/-- The change of one hold, as the statement makes it. -/
def updateHold (id : UUID) (change : Hold → Hold) (h : Hold) : Hold :=
  if h.id = id ∧ h.status = .held then change h else h

/-- The change made by `MarkHoldCaptured`. -/
def Hold.capture (txnId : UUID) (h : Hold) : Hold :=
  { h with status := .captured, captureTxnId := some txnId }

/-- The change made by `MarkHoldReleased`. -/
def Hold.release (txnId : UUID) (h : Hold) : Hold :=
  { h with status := .released, releaseTxnId := some txnId }

theorem markHold_ok {change : Hold → Hold} {ok : Bool} (h : markHold id change s = .ok (ok, s')) :
    s' = { s with holds := s.holds.map (updateHold id change) } := by
  simp only [markHold, bind_ok, read_ok, write_ok, pure_ok] at h
  obtain ⟨_, _, ⟨rfl, rfl⟩, _, _, rfl, -, rfl⟩ := h
  rfl

theorem insertHold_ok {userId : UUID} {amount : ℚ} {txnId : UUID}
    (h : insertHold orderId userId amount txnId s = .ok (hold, s')) :
    hold = ⟨s.nextId, orderId, userId, amount, .held, txnId, none, none⟩ ∧
      s' = { s with holds := s.holds ++ [hold], nextId := s.nextId + 1 } := by
  simp only [insertHold, bind_ok, read_ok, require_ok, write_ok, pure_ok] at h
  obtain ⟨_, _, ⟨-, rfl⟩, _, _, ⟨rfl, rfl⟩, _, _, ⟨-, rfl⟩, _, _, rfl, rfl, rfl⟩ := h
  exact ⟨rfl, rfl⟩

/-- **Freezing**: the order had no hold; one posting, one new hold. -/
theorem holdForOrderTx_spec (hs : s.Sound) (h : holdForOrderTx env input s = .ok (hold, s')) :
    s.holdByOrder input.orderId = none ∧ s.nextId ≤ hold.id ∧ hold.id < s'.nextId ∧
      hold = ⟨hold.id, input.orderId, input.userId, input.amount, .held, hold.holdTxnId, none,
        none⟩ ∧ PostSpec (holdPosting input) s hold.holdTxnId (s.holds ++ [hold]) s' := by
  simp only [holdForOrderTx, bind_ok, read_ok, require_ok, mapError_ok] at h
  obtain ⟨_, _, ⟨rfl, rfl⟩, _, _, ⟨hnone, rfl⟩, txnId, s₁, hpost, hins⟩ := h
  have hspec := postChecked_spec hs hpost
  obtain ⟨rfl, rfl⟩ := insertHold_ok hins
  refine ⟨hnone, hspec.nextId.le, Nat.lt_succ_self _, rfl, ?_⟩
  rw [← hspec.holds]
  exact hspec.setHolds _ (Nat.le_succ s₁.nextId)

theorem validateHoldInput_ok (h : validateHoldInput input = .ok ()) :
    input.orderId ≠ UUID.nil ∧ input.userId ≠ UUID.nil ∧ 0 < input.amount := by
  simp only [validateHoldInput, except_bind_eq_ok, ensure_eq_ok, exists_const] at h
  exact ⟨h.1.1, h.1.2, h.2.1⟩

/-- **Releasing**: either the order has nothing frozen and nothing happens, or its
hold is given back. -/
theorem releaseOrderHold_spec {memo : String} {released : Bool} (hs : s.Sound)
    (h : releaseOrderHold env orderId memo s = .ok (released, s')) :
    (released = false ∧ s' = s ∧ ∀ hold ∈ s.holdByOrder orderId, hold.status = .released) ∨
    (released = true ∧ ∃ hold txnId, s.holdByOrder orderId = some hold ∧ hold.status = .held ∧
      PostSpec (releasePosting orderId hold memo) s txnId
        (s.holds.map (updateHold hold.id (Hold.release txnId))) s') := by
  rw [releaseOrderHold, bind_ok] at h
  obtain ⟨_, _, hread, h⟩ := h
  obtain ⟨rfl, rfl⟩ := read_ok.mp hread
  cases hfind : s.holdByOrder orderId with
  | none =>
    rw [hfind, pure_ok] at h
    exact Or.inl ⟨h.1.symm, h.2.symm, by simp⟩
  | some hold =>
    rw [hfind] at h
    cases hstatus : hold.status with
    | released =>
      simp only [hstatus, pure_ok] at h
      exact Or.inl ⟨h.1.symm, h.2.symm, by simp [hstatus]⟩
    | captured =>
      simp only [hstatus, fail_ok] at h
    | held =>
      simp only [hstatus, bind_ok, require_ok, pure_ok] at h
      obtain ⟨txnId, s₁, hpost, ok, s₂, hmark, _, _, ⟨-, rfl⟩, rfl, rfl⟩ := h
      have hspec := postChecked_spec hs hpost
      rw [markHold_ok hmark, hspec.holds]
      exact Or.inr ⟨rfl, hold, txnId, rfl, hstatus, hspec.setHolds _ le_rfl⟩

/-- **Settling**: nothing to book; or booked without a hold; or booked, and the
hold taken. -/
theorem postOrderPaidTx_spec {p : OrderPaid}
    (hs : s.Sound) (h : postOrderPaidTx env p s = .ok (id, s')) :
    (∀ hold ∈ s.holdByOrder p.orderId, hold.status ≠ .captured) ∧ ((p.total = 0 ∧ s' = s ∧
        (¬0 < p.total - p.paid → ∀ hold ∈ s.holdByOrder p.orderId, hold.status ≠ .held)) ∨
      (p.total ≠ 0 ∧ ¬0 < p.total - p.paid ∧
        (∀ hold ∈ s.holdByOrder p.orderId, hold.status ≠ .held) ∧
        PostSpec (orderPaidPosting p (p.total - p.paid)) s id s.holds s') ∨
      (p.total ≠ 0 ∧ 0 < p.total - p.paid ∧ ∃ hold, s.holdByOrder p.orderId = some hold ∧
        hold.status = .held ∧ hold.amount = p.total - p.paid ∧ hold.userId = p.userId ∧
        PostSpec (orderPaidPosting p (p.total - p.paid)) s id
          (s.holds.map (updateHold hold.id (Hold.capture id))) s')) := by
  simp only [postOrderPaidTx, bind_ok, read_ok, require_ok, ofExcept_ok, ite_ok] at h
  obtain ⟨_, _, ⟨rfl, rfl⟩, _, _, ⟨hcaptured, rfl⟩, _, _, ⟨hcheck, rfl⟩, h⟩ := h
  refine ⟨hcaptured, ?_⟩
  have hnotheld : ¬0 < p.total - p.paid →
      ∀ hold ∈ s.holdByOrder p.orderId, hold.status ≠ .held := by
    intro hn
    unfold checkHold at hcheck
    rwa [if_neg hn, ensure_eq_ok] at hcheck
  rcases h with ⟨hzero, h⟩ | ⟨hne, txnId, s₁, hpost, _, s₂, hcapture, h⟩
  · rw [pure_ok] at h
    exact Or.inl ⟨hzero, h.2.symm, hnotheld⟩
  · obtain ⟨rfl, rfl⟩ := pure_ok.mp h
    have hspec := postChecked_spec hs hpost
    by_cases hpos : 0 < p.total - p.paid
    · unfold checkHold at hcheck
      rw [if_pos hpos] at hcheck
      cases hfind : s.holdByOrder p.orderId with
      | none => simp [hfind] at hcheck
      | some hold =>
        rw [hfind] at hcheck hcapture
        simp only [except_bind_eq_ok, ensure_eq_ok, exists_const] at hcheck
        obtain ⟨-, hheld, hamount, huser⟩ := hcheck
        rw [captureHold, if_pos hpos] at hcapture
        simp only [bind_ok, require_ok] at hcapture
        obtain ⟨ok, s₃, hmark, -, rfl⟩ := hcapture
        rw [markHold_ok hmark, hspec.holds]
        exact Or.inr (Or.inr ⟨hne, hpos, hold, rfl, hheld, hamount, huser, hspec.setHolds _ le_rfl⟩)
    · rw [captureHold, if_neg hpos, pure_ok] at hcapture
      rw [← hcapture.2]
      exact Or.inr (Or.inl ⟨hne, hpos, hnotheld hpos, hspec⟩)

/-- **Freezing and taking at once**: the two methods in sequence, from a state that
differs from the first only in empty accounts. -/
theorem captureFromBalance_spec
    {r : Hold × UUID} (h : captureFromBalance env input s = .ok (r, s')) :
    validateHoldInput input = .ok () ∧ ∃ s₀ hold s₁, Opened s s₀ ∧
      holdForOrderTx env input s₀ = .ok (hold, s₁) ∧
      postOrderPaidTx env ⟨input.orderId, input.userId, input.amount, 0, 0, 0, ""⟩ s₁ =
        .ok (r.2, s') ∧
      r.1 = { hold with status := .captured, captureTxnId := some r.2 } := by
  simp only [captureFromBalance, bind_ok, ofExcept_ok, pure_ok] at h
  obtain ⟨_, _, ⟨hvalid, rfl⟩, _, s₀, hlock, hold, s₁, hhold, txnId, s₂, hpaid, rfl, rfl⟩ := h
  exact ⟨hvalid, s₀, hold, s₁, (lockAccounts_ok hlock).1, hhold, hpaid, rfl⟩

theorem adjustBalance_spec {caller : Option Principal} {a : Adjustment}
    {r : ℚ × UUID} (hs : s.Sound) (h : adjustBalance env caller a s = .ok (r, s')) :
    ∃ reason, PostSpec (adjustPosting a reason) s r.2 s.holds s' := by
  simp only [adjustBalance, bind_ok, read_ok, require_ok, ofExcept_ok, mapError_ok, pure_ok] at h
  obtain ⟨_, _, ⟨-, rfl⟩, _, _, ⟨-, rfl⟩, _, _, ⟨-, rfl⟩, reason, _, ⟨-, rfl⟩, _, _, ⟨-, rfl⟩,
    _, _, ⟨-, rfl⟩, txnId, s₁, hpost, _, _, ⟨rfl, rfl⟩, _, _, ⟨-, rfl⟩, rfl, rfl⟩ := h
  exact ⟨reason, postChecked_spec hs hpost⟩

end Pandora.Ledger
