import Pandora.Payments.Interleaving

/-!
# Every payment once, in one place

The result about the module: whatever notifications arrive, however their transactions
overlap, and whatever happens to the orders meanwhile, a payment reference is recorded
once, and the money of a recorded payment is in exactly one place.
-/

namespace Pandora.Payments

open Money Database Tx
open Ledger hiding Env State Error Call
open Orders hiding Error exec runCalls

/-! ## An order that does not take the money -/

/-- No order was touched: not its row, its line, its reservation, its coupon, its frozen
balance or its subscription; and nothing was settled. -/
structure NothingTaken (s s' : State) : Prop where
  orders : s'.orders = s.orders
  items : s'.items = s.items
  reservations : s'.reservations = s.reservations
  promo : s'.promo = s.promo
  effects : s'.effects = s.effects
  settlements : s'.settlements = s.settlements
  holds : s'.ledger.holds = s.ledger.holds

theorem NothingTaken.refl (s : State) : NothingTaken s s := ⟨rfl, rfl, rfl, rfl, rfl, rfl, rfl⟩

theorem NothingTaken.trans {s₁ s₂ s₃ : State} (h : NothingTaken s₁ s₂) (h' : NothingTaken s₂ s₃) :
    NothingTaken s₁ s₃ :=
  ⟨h'.orders.trans h.orders, h'.items.trans h.items, h'.reservations.trans h.reservations,
    h'.promo.trans h.promo, h'.effects.trans h.effects, h'.settlements.trans h.settlements,
    h'.holds.trans h.holds⟩

instance : Std.Refl NothingTaken := ⟨NothingTaken.refl⟩

instance : IsTrans State NothingTaken := ⟨fun _ _ _ => NothingTaken.trans⟩

/-- A transaction that touches no order. -/
abbrev Untaken {α : Type} (m : Action α) : Prop :=
  Tx.Relates (fun s => s.ledger.Kept) NothingTaken m

theorem untaken_update {f : Tables → Tables} : Untaken (update f) :=
  .write fun _ hs => ⟨hs, rfl, rfl, rfl, rfl, rfl, rfl, rfl⟩

theorem untaken_newId : Untaken newId :=
  .bind .read fun _ => .bind (.write fun _ hs => ⟨hs, rfl, rfl, rfl, rfl, rfl, rfl, rfl⟩)
    fun _ => .pure

theorem untaken_post {env : Ledger.Env} {p : Posting} (hp : p.Unfrozen) :
    Untaken (onLedger (postGeneral env p)) := by
  intro s id s' hs h
  obtain ⟨l, hpost, rfl⟩ := onLedger_ok.mp h
  obtain ⟨-, hspec⟩ := postGeneral_spec hs.sound hpost
  exact ⟨(postGeneral_changes hs.sound hp hpost).kept hs, rfl, rfl, rfl, rfl, rfl, rfl, hspec.holds⟩

variable {intent : Option Intent}

theorem untaken_markIntentSucceeded : Untaken (markIntentSucceeded intent) := by
  cases intent with
  | none => exact .pure
  | some => exact .ite untaken_update .pure

variable {env : Env} {e : Orders.Error} {f : Flight}

theorem untaken_quarantine {evId : UUID} {p : Payment}
    {kind : CaseKind} {status : Status} : Untaken (quarantine env evId intent p kind status) :=
  .bind (untaken_post unfrozen_suspensePosting) fun _ => .bind untaken_newId fun _ =>
    .bind (.bind .require fun _ => .bind .read fun _ => .bind .require fun _ =>
      untaken_update) fun _ =>
    .bind untaken_markIntentSucceeded fun _ => .bind untaken_update fun _ =>
    .bind .ofExcept fun _ => .pure

/-- What follows from an error of `SettlePayment` touches no order. -/
theorem untaken_afterSettle (hook : Hook) (input : RecordInput) (evId : UUID)
    (target : Target) (p : Payment) (e : Orders.Error) :
    Untaken (afterSettle env hook input evId target p (.error e)) := by
  by_cases hnp : ∃ kind st, e = .notPayable kind st
  · obtain ⟨kind, st, rfl⟩ := hnp
    by_cases hkind : kind = .archivedPlan
    · subst hkind
      exact .bind .require fun _ => .pure
    · rw [afterSettle_notPayable hkind]
      exact .bind (.bind .require fun _ =>
        .bind untaken_quarantine fun _ => .pure)
        fun _ => .bind .ofExcept fun _ => .pure
  · rw [afterSettle_error fun kind st heq => hnp ⟨kind, st, heq⟩]
    exact .fail

/-- The flight inserts its payment, and `SettlePayment` answers this error. -/
def Flight.Refused (f : Flight) (env : Env) (db : State) (e : Orders.Error) : Prop :=
  ∃ s, insertPayment (f.target.payment f.input db.nextId)
      { f.own db with nextId := db.nextId + 1 } = .ok ((), s) ∧
    settlePayment env (f.target.payment f.input db.nextId).settleInput s = .error e

instance (db : State) : Decidable (f.Refused env db e) :=
  match hinsert : insertPayment (f.target.payment f.input db.nextId)
      { f.own db with nextId := db.nextId + 1 } with
  | .error _ => .isFalse <| by
    rintro ⟨s, hs, -⟩
    cases hinsert.symm.trans hs
  | .ok ((), s) =>
    match hsettle : settlePayment env (f.target.payment f.input db.nextId).settleInput s with
    | .error e' => decidable_of_iff (e' = e) <| by
      simp [Flight.Refused, hinsert, hsettle]
    | .ok _ => .isFalse <| by
      simp [Flight.Refused, hinsert, hsettle]

theorem Flight.Refused.collect {db : State}
    (h : f.Refused env db e) {out : RecordResult ⊕ Payment} {s' : State}
    (hc : Payments.collect env f.hook f.input f.event.id f.target (f.own db) = .ok (out, s')) :
    ∃ s, NothingTaken db s ∧ s.ledger = db.ledger ∧
      afterSettle env f.hook f.input f.event.id f.target (f.target.payment f.input db.nextId)
        (.error e) s = .ok (out, s') := by
  obtain ⟨s, hinsert, hsettle⟩ := h
  have hsame : NothingTaken db s ∧ s.ledger = db.ledger := by
    simp only [insertPayment, update, bind_ok, require_ok, read_ok, write_ok] at hinsert
    obtain ⟨_, _, ⟨-, rfl⟩, _, _, ⟨rfl, rfl⟩, _, _, ⟨-, rfl⟩, _, _, ⟨-, rfl⟩, rfl⟩ := hinsert
    exact ⟨⟨rfl, rfl, rfl, rfl, rfl, rfl, rfl⟩, rfl⟩
  have hnew : (f.own db).payment.paymentByRef f.input.provider.id f.input.ref = none := by
    simp only [insertPayment, bind_ok, require_ok, read_ok] at hinsert
    obtain ⟨_, _, ⟨-, rfl⟩, _, _, ⟨rfl, rfl⟩, _, _, ⟨-, rfl⟩, _, _, ⟨hkey, -⟩, -⟩ := hinsert
    refine List.find?_eq_none.mpr fun x hx hxkey => hkey (List.mem_map.mpr ⟨x, hx, ?_⟩)
    exact of_decide_eq_true hxkey
  simp only [Payments.collect, bind_ok, require_ok, read_ok] at hc
  obtain ⟨_, _, ⟨-, rfl⟩, _, _, ⟨rfl, rfl⟩, hc⟩ := hc
  simp only [hnew, settleNew, newId, bind_ok, read_ok, write_ok, pure_ok] at hc
  obtain ⟨_, _, ⟨_, _, ⟨rfl, rfl⟩, _, _, rfl, rfl, rfl⟩, _, s₁, hinsert', answer, s₂,
    hattempt, hc⟩ := hc
  have heq := hinsert'.symm.trans hinsert
  simp only [Except.ok.injEq, Prod.mk.injEq, true_and] at heq
  subst heq
  refine ⟨s₁, hsame.1, hsame.2, ?_⟩
  rcases attempt_ok.mp hattempt with ⟨u, -, hok⟩ | ⟨e', rfl, herror, rfl⟩
  · exact absurd (hok.symm.trans hsettle) (by simp)
  · have he : e' = e := Except.error.inj (herror.symm.trans hsettle)
    rw [← he]
    exact hc

/-- **A refused settlement leaves nothing behind.**  If the order does not take the money
no order is touched; any other error undoes the whole transaction. -/
theorem Config.advance_refused {c : Config} (hc : c.Inv) {n : ℕ} (hf : c.flights[n]? = some f)
    (hp : f.payment = none) (h : f.Refused env c.db e) : NothingTaken c.db (c.advance env n).db ∧
      ((∀ kind st, e ≠ .notPayable kind st) → (c.advance env n).db = c.db) := by
  unfold Config.advance
  simp only [hf, hp]
  split_ifs with hlock
  · exact ⟨.refl _, fun _ => rfl⟩
  · unfold Flight.collect
    cases hcollect : Payments.collect env f.hook f.input f.event.id f.target (f.own c.db) with
    | error => exact ⟨.refl _, fun _ => rfl⟩
    | ok r =>
      obtain ⟨out, s'⟩ := r
      obtain ⟨s, hsame, hledger, hafter⟩ := h.collect hcollect
      have hkept : s.ledger.Kept := by
        rw [hledger]
        exact hc.kept
      have htaken := (untaken_afterSettle _ _ _ _ _ e hkept hafter).2
      refine ⟨?_, fun he => ?_⟩
      · cases out with
        | inl => exact hsame.trans htaken
        | inr => exact ⟨rfl, rfl, rfl, rfl, rfl, rfl, rfl⟩
      · rw [afterSettle_error he, fail_ok] at hafter
        exact hafter.elim

/-! ## The order module's view of an archived plan -/

theorem neutral_settleArchived (env : Env) (evId : UUID) (target : Target) (p : Payment)
    (status : Status) : Neutral (settleArchived env evId target p status) := by
  have hupdate : ∀ f, Neutral (update f) := fun f =>
    neutral_write (fun _ => rfl) (fun _ => rfl) (fun _ => rfl) (fun _ => rfl) (fun _ => rfl)
      fun _ => le_rfl
  have hnewId : Neutral newId :=
    .bind .read fun _ => .bind (neutral_write (fun _ => rfl) (fun _ => rfl) (fun _ => rfl)
      (fun _ => rfl) (fun _ => rfl) fun _ => Nat.le_succ _) fun _ => .pure
  have hmark : Neutral (markIntentSucceeded target.intent) := by
    cases target.intent with
    | none => exact .pure
    | some => exact .ite (hupdate _) .pure
  have hquarantine : Neutral (quarantine env evId target.intent p .archivedPlan status) :=
    .bind (neutral_post unfrozen_suspensePosting (by simp [suspensePosting])) fun _ =>
      .bind hnewId fun _ => .bind (.bind .require fun _ => .bind .read fun _ =>
        .bind .require fun _ => hupdate _) fun _ =>
      .bind hmark fun _ => .bind (hupdate _) fun _ => .bind .ofExcept fun _ => .pure
  exact .bind hquarantine fun c => .bind .require fun _ =>
    .bind (neutral_post unfrozen_appliedPosting (by simp [appliedPosting])) fun _ =>
      .bind (.bind .read fun _ => .bind (hupdate _) fun _ => .pure) fun _ =>
      .bind .require fun _ => .ofExcept

/-- The callback that the payment module hands to `CloseArchivedOrder`. -/
def archivedSettlement (env : Env) (evId : UUID) (target : Target) (p : Payment) :
    ArchivedSettlement :=
  ⟨settleArchived env evId target p, neutral_settleArchived env evId target p⟩

/-! ## The result -/

/-- **Every payment is recorded once, and its money is in one place.**  After any
interleaving of notifications, queries and receipts with the other transactions: no
provider's reference has two payments; each payment carries the surcharge of its intent,
or none, and its money settled one order, or is in one case in suspense, or went through
one case to the balance of the user, the ledger recording what the channel collected; and
a settlement that was refused left nothing behind. -/
theorem payments_land_once (labels : List Label) :
    ((runLabels labels).db.payment.payments.map Payment.key).Nodup ∧
    (∀ p ∈ (runLabels labels).db.payment.payments,
      (runLabels labels).db.payment.Charges p ∧ Lands (runLabels labels).db p) ∧
    ∀ env n f e, (runLabels labels).flights[n]? = some f → f.payment = none →
      f.Refused env (runLabels labels).db e →
      NothingTaken (runLabels labels).db ((runLabels labels).next (.advance env n)).db ∧
      ((∀ kind st, e ≠ .notPayable kind st) →
        ((runLabels labels).next (.advance env n)).db = (runLabels labels).db) := by
  have hinv : (runLabels labels).Inv := inv_empty.run labels
  refine ⟨?_, fun p hp => ⟨hinv.filed.charges p hp, hinv.filed.lands p hp⟩,
    fun env n f e hf hp h => Config.advance_refused hinv hf hp h⟩
  have hkeys := hinv.keys
  rw [Config.payments, List.map_append] at hkeys
  exact hkeys.of_append_left

/-- For a top-up of 10 a receipt of 9 comes. -/
def shortReceipt : List Label :=
  [.order .sample (.createTopup 5 10) rfl,
    .receive ⟨⟨7, "epay", false⟩, "e1", .succeeded, "r1", "", some ⟨1, 5⟩, 9, 0, true, false⟩
      fun _ => .ok ()]

theorem short_receipt_leaves_nothing :
    (∃ f ∈ (runLabels shortReceipt).flights[0]?, f.payment = none ∧
      f.Refused .sample (runLabels shortReceipt).db .amountMismatch) ∧
      ((runLabels shortReceipt).next (.advance .sample 0)).db = (runLabels shortReceipt).db := by
  have hrefused : ∃ f ∈ (runLabels shortReceipt).flights[0]?, f.payment = none ∧
      f.Refused .sample (runLabels shortReceipt).db .amountMismatch := by decide +kernel
  obtain ⟨f, hf, hnone, h⟩ := hrefused
  exact ⟨⟨f, hf, hnone, h⟩,
    ((payments_land_once shortReceipt).2.2 .sample 0 f _ hf hnone h).2 (by simp)⟩

end Pandora.Payments
