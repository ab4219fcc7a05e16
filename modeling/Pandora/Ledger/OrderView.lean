import Pandora.Ledger.Sources

/-!
# The ledger as an order sees it

An order looks at the ledger through one question --- what is held for me --- and
writes to it through six methods.  Each of these, when it succeeds, answers the
question differently for one order at most, and appends to the journal.
`OrderStep` says so, and the modules above use nothing else of the ledger.
-/

namespace Pandora.Ledger

open Money Database Tx List Posting State Changes

/-- The invariants of the ledger. -/
structure State.Kept (s : State) : Prop where
  sound : s.Sound
  frozen : s.Frozen
  once : s.OncePerSource

theorem State.kept_empty : empty.Kept :=
  ⟨sound_empty, frozen_empty, fun _ _ _ _ _ => Nat.zero_le 1⟩

variable {s s' : State} {env : Env} {input : HoldInput} {orderId id : UUID} {p : OrderPaid}

theorem Changes.kept (h : Changes Unfrozen s s') (hs : s.Kept) : s'.Kept :=
  ⟨sound h hs.sound, frozen h hs.sound hs.frozen,
    oncePerSource h hs.sound hs.once⟩

/-- The ledger after a method that concerns the order `j`: its hold is `hold`, those of
other orders are as before, and `new` was posted. -/
structure OrderStep (s s' : State) (j : UUID) (hold : Option Hold) (new : List Record) : Prop where
  kept : s'.Kept
  holds : ∀ i, s'.holdByOrder i = if i = j then hold else s.holdByOrder i
  journal : s'.journal = s.journal ++ new

theorem holdByOrder_congr (h : s'.holds = s.holds) (i : UUID) :
    s'.holdByOrder i = s.holdByOrder i := by
  unfold holdByOrder
  rw [h]

theorem orderStep_of_holds {new : List Record} (hk : s'.Kept) (hh : s'.holds = s.holds)
    (hj : s'.journal = s.journal ++ new) (j : UUID) : OrderStep s s' j (s.holdByOrder j) new := by
  refine ⟨hk, fun i => ?_, hj⟩
  rw [holdByOrder_congr hh]
  by_cases hi : i = j
  · rw [if_pos hi, hi]
  · rw [if_neg hi]

theorem holdByOrder_append {h : Hold} (hh : s'.holds = s.holds ++ [h])
    (hnone : s.holdByOrder h.orderId = none) (i : UUID) :
    s'.holdByOrder i = if i = h.orderId then some h else s.holdByOrder i := by
  unfold holdByOrder at hnone ⊢
  rw [hh]
  exact find?_append_key hnone i

theorem State.Frozen.holdByOrder_close (hf : s.Frozen) {h : Hold} {change : Hold → Hold}
    (hchange : Closes change) (hfind : s.holdByOrder orderId = some h) (hheld : h.status = .held)
    (hh : s'.holds = s.holds.map (updateHold h.id change)) (i : UUID) :
    s'.holdByOrder i = if i = orderId then some (change h) else s.holdByOrder i := by
  obtain ⟨hmem, rfl⟩ := holdByOrder_eq_some hfind
  have hkey : ∀ x, (updateHold h.id change x).orderId = x.orderId :=
    fun x => (becomes_updateHold hchange x).orderId
  unfold holdByOrder at hfind ⊢
  rw [hh]
  by_cases hi : i = h.orderId
  · rw [if_pos hi, find?_map_update hkey, hi, hfind, Option.map_some]
    exact congrArg some (if_pos ⟨rfl, hheld⟩)
  · rw [if_neg hi]
    exact find?_map_local hf.ids hmem hkey (localTo_updateHold _ h change) hi

/-! ## The methods -/

theorem postGeneral_step {p : Posting} (hs : s.Kept)
    (hp : p.Unfrozen) (h : postGeneral env p s = .ok (id, s')) (j : UUID) :
    OrderStep s s' j (s.holdByOrder j) [⟨id, p⟩] := by
  obtain ⟨hded, hspec⟩ := postGeneral_spec hs.sound h
  have hchange : Changes Unfrozen s s' := .single (.posted hp hded hspec)
  exact orderStep_of_holds (hchange.kept hs) hspec.holds hspec.journal j

theorem holdForOrder_step {hold : Hold}
    (hs : s.Kept) (h : holdForOrder env input s = .ok (hold, s')) :
    s.holdByOrder input.orderId = none ∧ hold.amount = input.amount ∧
      hold.userId = input.userId ∧ hold.status = .held ∧
      OrderStep s s' input.orderId (some hold) [⟨hold.holdTxnId, holdPosting input⟩] := by
  simp only [holdForOrder, bind_ok, ofExcept_ok] at h
  obtain ⟨_, _, ⟨hvalid, rfl⟩, h⟩ := h
  have hchange : Changes Unfrozen s s' :=
    .single (holdForOrderTx_change hs.sound hvalid h)
  obtain ⟨hnone, -, -, heq, hspec⟩ := holdForOrderTx_spec hs.sound h
  have horder : hold.orderId = input.orderId := by rw [heq]
  refine ⟨hnone, by rw [heq], by rw [heq], by rw [heq], hchange.kept hs, fun i => ?_, hspec.journal⟩
  rw [← horder] at hnone ⊢
  exact holdByOrder_append hspec.holds hnone i

theorem releaseOrderHold_step {memo : String}
    (hs : s.Kept) (h : releaseOrderHold env orderId memo s = .ok (true, s')) :
    ∃ hold id, s.holdByOrder orderId = some hold ∧ hold.status = .held ∧
      OrderStep s s' orderId (some (hold.release id)) [⟨id, releasePosting orderId hold memo⟩] := by
  have hchange : Changes Unfrozen s s' := releaseOrderHold_changes hs.sound h
  rcases releaseOrderHold_spec hs.sound h with ⟨hfalse, -, -⟩ | ⟨-, hold, id, hfind, hheld, hspec⟩
  · exact absurd hfalse (by simp)
  · exact ⟨hold, id, hfind, hheld, hchange.kept hs,
      hs.frozen.holdByOrder_close (closes_release id) hfind hheld hspec.holds, hspec.journal⟩

theorem validateOrderPaid_ok (h : validateOrderPaid p = .ok ()) :
    0 ≤ p.fee ∧ 0 ≤ p.surcharge ∧ p.paid ≤ p.total ∧ p.fee ≤ p.paid + p.surcharge := by
  simp only [validateOrderPaid, checkAmount, except_bind_eq_ok, ensure_eq_ok, exists_const] at h
  obtain ⟨-, -, -, ⟨hfee, -⟩, ⟨hsurcharge, -⟩, hpaid, hle, -⟩ := h
  exact ⟨hfee, hsurcharge, hpaid, hle⟩

theorem postOrderPaid_step (hs : s.Kept)
    (hpaid : 0 < p.paid) (h : postOrderPaid env p s = .ok (id, s')) : validateOrderPaid p = .ok () ∧
    ((p.total = p.paid ∧ (∀ hold ∈ s.holdByOrder p.orderId, hold.status = .released) ∧
        OrderStep s s' p.orderId (s.holdByOrder p.orderId)
          [⟨id, orderPaidPosting p (p.total - p.paid)⟩]) ∨
      (p.paid < p.total ∧ ∃ hold, s.holdByOrder p.orderId = some hold ∧ hold.status = .held ∧
        hold.amount = p.total - p.paid ∧ hold.userId = p.userId ∧
        OrderStep s s' p.orderId (some (hold.capture id))
          [⟨id, orderPaidPosting p (p.total - p.paid)⟩])) := by
  simp only [postOrderPaid, bind_ok, ofExcept_ok] at h
  obtain ⟨_, _, ⟨hvalid, rfl⟩, h⟩ := h
  refine ⟨hvalid, ?_⟩
  have hchange : Changes Unfrozen s s' := postOrderPaidTx_changes hs.sound h
  have hle : p.paid ≤ p.total := (validateOrderPaid_ok hvalid).2.2.1
  obtain ⟨hcaptured, ⟨hzero, -, -⟩ | ⟨-, hpos, hnotheld, hspec⟩ |
    ⟨-, hpos, hold, hfind, hheld, hamount, huser, hspec⟩⟩ := postOrderPaidTx_spec hs.sound h
  · exact absurd hzero (hpaid.trans_le hle).ne'
  · refine Or.inl ⟨le_antisymm (sub_nonpos.mp (not_lt.mp hpos)) hle, fun hold hmem => ?_,
      orderStep_of_holds (hchange.kept hs) hspec.holds hspec.journal p.orderId⟩
    cases hst : hold.status with
    | held => exact absurd hst (hnotheld hold hmem)
    | captured => exact absurd hst (hcaptured hold hmem)
    | released => rfl
  · exact Or.inr ⟨sub_pos.mp hpos, hold, hfind, hheld, hamount, huser, hchange.kept hs,
      hs.frozen.holdByOrder_close closes_capture hfind hheld hspec.holds, hspec.journal⟩

theorem captureFromBalance_step {r : Hold × UUID}
    (hs : s.Kept) (h : captureFromBalance env input s = .ok (r, s')) :
    s.holdByOrder input.orderId = none ∧ r.1.amount = input.amount ∧ r.1.userId = input.userId ∧
      r.1.status = .captured ∧
      OrderStep s s' input.orderId (some r.1) [⟨r.1.holdTxnId, holdPosting input⟩,
        ⟨r.2, orderPaidPosting ⟨input.orderId, input.userId, input.amount, 0, 0, 0, ""⟩
          input.amount⟩] := by
  have hchange : Changes Unfrozen s s' := captureFromBalance_changes hs.sound h
  obtain ⟨hvalid, s₀, hold, s₁, hopen, hhold, hpaid, hr⟩ := captureFromBalance_spec h
  have hopened : Changes Unfrozen s s₀ := .single (.opened hopen)
  have hs₀ : s₀.Kept := hopened.kept hs
  have hstep : holdForOrder env input s₀ = .ok (hold, s₁) := by
    simp only [holdForOrder, bind_ok, ofExcept_ok]
    exact ⟨(), s₀, ⟨hvalid, rfl⟩, hhold⟩
  obtain ⟨hnone, hamount, huser, hstatus, hview⟩ := holdForOrder_step hs₀ hstep
  have hpos := (validateHoldInput_ok hvalid).2.2
  have hself : s₁.holdByOrder input.orderId = some hold := by rw [hview.holds, if_pos rfl]
  obtain ⟨-, ⟨hzero, -, -⟩ | ⟨-, hnot, -, -⟩ | ⟨-, -, hold', hfind, hheld, -, -, hspec⟩⟩ :=
    postOrderPaidTx_spec hview.kept.sound hpaid
  · exact absurd hzero hpos.ne'
  · exact absurd hnot (by simpa using hpos)
  · have hsame : hold' = hold := by
      have hfind' : s₁.holdByOrder input.orderId = some hold' := hfind
      rw [hself, Option.some.injEq] at hfind'
      exact hfind'.symm
    subst hsame
    have hclose := hview.kept.frozen.holdByOrder_close closes_capture hself hheld hspec.holds
    rw [holdByOrder_congr hopen.holds] at hnone
    refine ⟨hnone, by rw [hr]; exact hamount, by rw [hr]; exact huser, by rw [hr],
      hchange.kept hs, fun i => ?_, ?_⟩
    · rw [hclose, hview.holds, holdByOrder_congr hopen.holds, hr]
      by_cases hi : i = input.orderId
      · rw [if_pos hi, if_pos hi]
        rfl
      · rw [if_neg hi, if_neg hi, if_neg hi]
    · rw [hspec.journal, hview.journal, hopen.journal hs.sound, hr, append_assoc]
      simp

theorem forEach_postGeneral_step {ι : Type} {p : ι → Posting}
    (hp : ∀ a, (p a).Unfrozen) {l : List ι} {u : Unit} (hs : s.Kept)
    (h : Tx.forEach (fun a => do let _ ← postGeneral env (p a)) l s = .ok (u, s')) (j : UUID) :
    ∃ new, OrderStep s s' j (s.holdByOrder j) new ∧ ∀ r ∈ new, ∃ a, r.posting = p a := by
  induction l generalizing s with
  | nil =>
    rw [forEach_nil] at h
    subst h
    exact ⟨[], orderStep_of_holds hs rfl (append_nil _).symm j, by simp⟩
  | cons a l ih =>
    simp only [forEach_cons, bind_ok, pure_ok] at h
    obtain ⟨s₁, ⟨id, _, hpost, -, rfl⟩, h⟩ := h
    have hstep := postGeneral_step hs (hp a) hpost j
    obtain ⟨new, hrest, hnew⟩ := ih hstep.kept h
    refine ⟨⟨id, p a⟩ :: new, ⟨hrest.kept, fun i => ?_, ?_⟩, ?_⟩
    · rw [hrest.holds]
      by_cases hi : i = j
      · rw [if_pos hi, if_pos hi, hstep.holds, if_pos rfl]
      · rw [if_neg hi, if_neg hi, hstep.holds, if_neg hi]
    · rw [hrest.journal, hstep.journal, append_assoc]
      rfl
    · exact forall_mem_cons.mpr ⟨⟨a, rfl⟩, hnew⟩

end Pandora.Ledger
