import Pandora.Ledger.Holds

/-!
# Runs of the ledger

The six public methods as calls, and the books after any sequence of them.

A call comes with an environment of its own --- which users exist and which have
deleted their account, whether the audit row can be written --- because all of
that may change between calls, and nothing is assumed about it.  So a run is any
finite sequence of calls with arbitrary arguments, each taking effect as one
transaction or not at all.
-/

namespace Pandora.Ledger

open Money Database Tx

/-- A call of one of the ledger's public methods. -/
inductive Call
  | post (p : Posting)
  | holdForOrder (input : HoldInput)
  | releaseOrderHold (orderId : UUID) (memo : String)
  | captureFromBalance (input : HoldInput)
  | postOrderPaid (p : OrderPaid)
  | adjustBalance (caller : Option Principal) (a : Adjustment)

/-- What a call answers. -/
inductive Reply
  | txn (id : UUID)
  | hold (h : Hold)
  | released (b : Bool)
  | captured (h : Hold) (id : UUID)
  | adjusted (balance : ℚ) (id : UUID)

/-- The method behind a call. -/
def exec (c : Env × Call) : Tx State Error Reply :=
  match c.2 with
  | .post p => do return .txn (← Ledger.postGeneral c.1 p)
  | .holdForOrder input => do return .hold (← Ledger.holdForOrder c.1 input)
  | .releaseOrderHold orderId memo => do
    return .released (← Ledger.releaseOrderHold c.1 orderId memo)
  | .captureFromBalance input => do
    let r ← Ledger.captureFromBalance c.1 input
    return .captured r.1 r.2
  | .postOrderPaid p => do return .txn (← Ledger.postOrderPaid c.1 p)
  | .adjustBalance caller a => do
    let r ← Ledger.adjustBalance c.1 caller a
    return .adjusted r.1 r.2

/-- The ledger after the calls, from a new installation. -/
def runCalls (calls : List (Env × Call)) : State := Tx.run exec State.empty calls

/-! ## What any call can do

One inversion for all six methods.  Whatever invariant is proved about the
ledger, its step is a case analysis on this. -/

/-- The changes a committed call can make.  General postings are restricted by
`P`; a run that makes only some of them is then a case of the same analysis. -/
inductive Change (P : Posting → Prop) : State → State → Prop
  | opened {s s' : State} : Opened s s' → Change P s s'
  | posted {s s' : State} {p : Posting} {id : UUID} : P p → p.kind.dedicated = false →
      PostSpec p s id s.holds s' → Change P s s'
  | adjusted {s s' : State} {a : Adjustment} {reason : String} {id : UUID} :
      PostSpec (adjustPosting a reason) s id s.holds s' → Change P s s'
  | held {s s' : State} {input : HoldInput} {hold : Hold} : validateHoldInput input = .ok () →
      s.holdByOrder input.orderId = none → s.nextId ≤ hold.id → hold.id < s'.nextId →
      hold = ⟨hold.id, input.orderId, input.userId, input.amount, .held, hold.holdTxnId, none,
        none⟩ →
      PostSpec (holdPosting input) s hold.holdTxnId (s.holds ++ [hold]) s' → Change P s s'
  | released {s s' : State} {orderId : UUID} {memo : String} {hold : Hold} {id : UUID} :
      s.holdByOrder orderId = some hold → hold.status = .held →
      PostSpec (releasePosting orderId hold memo) s id
        (s.holds.map (updateHold hold.id (Hold.release id))) s' → Change P s s'
  | settled {s s' : State} {p : OrderPaid} {id : UUID} : ¬0 < p.total - p.paid →
      PostSpec (orderPaidPosting p (p.total - p.paid)) s id s.holds s' → Change P s s'
  | captured {s s' : State} {p : OrderPaid} {hold : Hold} {id : UUID} :
      s.holdByOrder p.orderId = some hold → hold.status = .held → 0 < p.total - p.paid →
      hold.amount = p.total - p.paid → hold.userId = p.userId →
      PostSpec (orderPaidPosting p (p.total - p.paid)) s id
        (s.holds.map (updateHold hold.id (Hold.capture id))) s' → Change P s s'

/-- Finitely many changes. -/
abbrev Changes (P : Posting → Prop) : State → State → Prop := Relation.ReflTransGen (Change P)

variable {P : Posting → Prop}

variable {s s' : State} {env : Env} {input : HoldInput} {id : UUID} {hold : Hold} {p : OrderPaid}

theorem Change.sound (h : Change P s s') (hs : s.Sound) : s'.Sound := by
  cases h with
  | opened h => exact hs.opened h
  | posted _ _ h | adjusted h | held _ _ _ _ _ h | released _ _ h | settled _ h
  | captured _ _ _ _ _ h => exact h.sound

section

variable (hs : s.Sound)
include hs

theorem postOrderPaidTx_changes (h : postOrderPaidTx env p s = .ok (id, s')) : Changes P s s' := by
  obtain ⟨-, ⟨-, rfl, -⟩ | ⟨-, hpos, -, h⟩ | ⟨-, hpos, hold, hfind, hheld, hamount, huser, h⟩⟩ :=
    postOrderPaidTx_spec hs h
  · exact .refl
  · exact .single (.settled hpos h)
  · exact .single (.captured hfind hheld hpos hamount huser h)

theorem holdForOrderTx_change (hvalid : validateHoldInput input = .ok ())
    (h : holdForOrderTx env input s = .ok (hold, s')) : Change P s s' := by
  obtain ⟨hnone, hge, hlt, heq, hspec⟩ := holdForOrderTx_spec hs h
  exact .held hvalid hnone hge hlt heq hspec

theorem captureFromBalance_changes {r : Hold × UUID}
    (h : captureFromBalance env input s = .ok (r, s')) : Changes P s s' := by
  obtain ⟨hvalid, s₀, hold, s₁, hopen, hhold, hpaid, -⟩ := captureFromBalance_spec h
  have hs₀ := hs.opened hopen
  have hchange : Change P s₀ s₁ := holdForOrderTx_change hs₀ hvalid hhold
  exact ((Relation.ReflTransGen.single (.opened hopen)).tail hchange).trans
    (postOrderPaidTx_changes (hchange.sound hs₀) hpaid)

theorem releaseOrderHold_changes {orderId : UUID} {memo : String} {released : Bool}
    (h : releaseOrderHold env orderId memo s = .ok (released, s')) : Changes P s s' := by
  rcases releaseOrderHold_spec hs h with ⟨-, rfl, -⟩ | ⟨-, hold, id, hfind, hheld, hspec⟩
  · exact .refl
  · exact .single (.released hfind hheld hspec)

theorem postGeneral_changes {p : Posting}
    (hp : P p) (h : postGeneral env p s = .ok (id, s')) : Changes P s s' := by
  obtain ⟨hded, hspec⟩ := postGeneral_spec hs h
  exact .single (.posted hp hded hspec)

theorem holdForOrder_changes (h : holdForOrder env input s = .ok (hold, s')) : Changes P s s' := by
  simp only [holdForOrder, bind_ok, ofExcept_ok] at h
  obtain ⟨_, _, ⟨hvalid, rfl⟩, h⟩ := h
  exact .single (holdForOrderTx_change hs hvalid h)

theorem postOrderPaid_changes (h : postOrderPaid env p s = .ok (id, s')) : Changes P s s' := by
  simp only [postOrderPaid, bind_ok, ofExcept_ok] at h
  obtain ⟨_, _, ⟨-, rfl⟩, h⟩ := h
  exact postOrderPaidTx_changes hs h

theorem adjustBalance_changes {caller : Option Principal} {a : Adjustment} {r : ℚ × UUID}
 (h : adjustBalance env caller a s = .ok (r, s')) : Changes P s s' := by
  obtain ⟨reason, hspec⟩ := adjustBalance_spec hs h
  exact .single (.adjusted hspec)

theorem exec_changes {c : Env × Call} {r : Reply}
    (hP : ∀ p, c.2 = .post p → P p) (h : exec c s = .ok (r, s')) : Changes P s s' := by
  obtain ⟨env, call⟩ := c
  cases call with
  | post p =>
    obtain ⟨_, h⟩ := of_bind_pure h
    exact postGeneral_changes hs (hP p rfl) h
  | holdForOrder =>
    obtain ⟨_, h⟩ := of_bind_pure h
    exact holdForOrder_changes hs h
  | releaseOrderHold =>
    obtain ⟨_, h⟩ := of_bind_pure h
    exact releaseOrderHold_changes hs h
  | captureFromBalance =>
    obtain ⟨_, h⟩ := of_bind_pure h
    exact captureFromBalance_changes hs h
  | postOrderPaid =>
    obtain ⟨_, h⟩ := of_bind_pure h
    exact postOrderPaid_changes hs h
  | adjustBalance =>
    obtain ⟨_, h⟩ := of_bind_pure h
    exact adjustBalance_changes hs h

end

theorem Changes.sound (h : Changes P s s') (hs : s.Sound) : s'.Sound := by
  induction h with
  | refl => exact hs
  | tail _ hstep ih => exact hstep.sound ih

theorem forEach_postGeneral_changes {ι : Type} {p : ι → Posting} (hp : ∀ a, P (p a))
    {l : List ι} {u : Unit} (hs : s.Sound)
    (h : Tx.forEach (fun a => do let _ ← postGeneral env (p a)) l s = .ok (u, s')) :
    Changes P s s' := by
  induction l generalizing s with
  | nil =>
    rw [forEach_nil] at h
    rw [h]
  | cons a l ih =>
    simp only [forEach_cons, bind_ok, pure_ok] at h
    obtain ⟨_, ⟨id, s₁, hpost, -, rfl⟩, h⟩ := h
    have hfirst : Changes P s s₁ := postGeneral_changes hs (hp a) hpost
    exact hfirst.trans (ih (hfirst.sound hs) h)

theorem preserves_sound (c : Env × Call) : Tx.Preserves State.Sound (exec c) :=
  fun _ _ _ hs h => Changes.sound (P := fun _ => True) (exec_changes hs (fun _ _ => trivial) h) hs

theorem runCalls_sound (calls : List (Env × Call)) : (runCalls calls).Sound :=
  run_invariant State.sound_empty fun c _ => preserves_sound c

/-- **The books stay correct.**  After any sequence of calls from a new
installation: every cached balance is the signed total of the account's entries;
debits equal credits in every transaction and in the ledger as a whole; no
user's account is negative; every amount and every balance is in cents; and a
further call that answers with an error leaves the ledger as it is. -/
theorem books_stay_correct (calls : List (Env × Call)) :
    (∀ a ∈ (runCalls calls).accounts, a.balance = (runCalls calls).accountTotal a) ∧
    ((∀ t ∈ (runCalls calls).transactions,
        (runCalls calls).txnSide t.id .debit = (runCalls calls).txnSide t.id .credit) ∧
      (runCalls calls).ledgerSide .debit = (runCalls calls).ledgerSide .credit) ∧
    (∀ a ∈ (runCalls calls).accounts, a.key.type.userOwned = true → 0 ≤ a.balance) ∧
    ((∀ e ∈ (runCalls calls).entries, Check e.amount) ∧
      ∀ a ∈ (runCalls calls).accounts, Check a.balance) ∧
    ∀ (c : Env × Call) (e : Error), exec c (runCalls calls) = .error e →
      runCalls (calls ++ [c]) = runCalls calls := by
  have hs := runCalls_sound calls
  refine ⟨hs.booked, ⟨hs.balanced, hs.ledgerBalanced⟩, hs.nonneg,
    ⟨fun e he => (hs.entryCents e he).2, hs.balanceCents⟩, fun c e h => ?_⟩
  have hcommit : (exec c).commit (runCalls calls) = runCalls calls := commit_of_error h
  rw [runCalls, run_append, run_cons, run_nil]
  exact hcommit

end Pandora.Ledger
