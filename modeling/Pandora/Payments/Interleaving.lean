import Pandora.Payments.Filed

/-!
# Notifications that overlap

Two transactions of `recordPaymentTx` may be open at once, and order transactions commit
in between.  A transaction that has found its target is a `Flight`: what it wrote so far,
its event and perhaps its payment, only it can see (`Flight.own`), until it commits or is
dropped.  Between its parts the tables change; what it goes on with, the intent it read, is
a snapshot.

Two things keep flights apart.  An event waits for a flight that is inserting the same key,
and a flight waits for another that holds the lock of the same payment reference.  A label
that has to wait does nothing.
-/

namespace Pandora.Payments

open Money Database List Tx Option Orders Tables
open Ledger hiding Env State Error Call
open Orders hiding Error exec runCalls

/-- A transaction that found its target; the payment is there if it waits for its third
part. -/
structure Flight where
  input : RecordInput
  hook : Hook
  event : Event
  target : Target
  payment : Option Payment

open Flight

/-- The committed tables, and the transactions that are open. -/
structure Config where
  db : State
  flights : List Flight

/-- The tables as a flight sees them. -/
def Flight.own (f : Flight) (s : State) : State :=
  { s with
    payment := { s.payment with
      events := s.payment.events ++ [f.event]
      payments := s.payment.payments ++ f.payment.toList } }

/-- The key a flight has locked: that of its payment, once it is inserted. -/
def Flight.lock (f : Flight) : Option (UUID × String) := f.payment.map Payment.key

/-- The key of the event that an input inserts. -/
def RecordInput.eventKey (input : RecordInput) (s : State) : UUID × String :=
  (input.provider.id,
    if input.signatureVerified = true then input.event else "unverified:" ++ toString s.nextId)

/-- The first part.  It commits if there is nothing to collect. -/
def Config.receive (c : Config) (input : RecordInput) (hook : Hook) : Config :=
  if ∃ f ∈ c.flights, f.event.key = input.eventKey c.db then c
  else
    match Payments.receive input c.db with
    | .error _ => c
    | .ok (.inl _, s) => { c with db := s }
    | .ok (.inr (e, target), s) =>
      ⟨{ c.db with nextId := s.nextId }, ⟨input, hook, e, target, none⟩ :: c.flights⟩

/-- The second part of one flight, the others given. -/
def Flight.collect (f : Flight) (env : Env) (db : State) (rest : List Flight) : Config :=
  match Payments.collect env f.hook f.input f.event.id f.target (f.own db) with
  | .error _ => ⟨db, rest⟩
  | .ok (.inl _, s) => ⟨s, rest⟩
  | .ok (.inr p, s) => ⟨{ db with nextId := s.nextId }, { f with payment := some p } :: rest⟩

/-- The third part. -/
def Flight.close (f : Flight) (env : Env) (p : Payment) (db : State)
    (rest : List Flight) : Config :=
  match closeArchived env f.hook f.event.id f.target p (f.own db) with
  | .error _ => ⟨db, rest⟩
  | .ok (_, s) => ⟨s, rest⟩

/-- The next part of the flight at a position. -/
def Config.advance (c : Config) (env : Env) (n : ℕ) : Config :=
  match c.flights[n]? with
  | none => c
  | some f =>
    match f.payment with
    | some p => f.close env p c.db (c.flights.eraseIdx n)
    | none =>
      if some (f.input.provider.id, f.input.ref) ∈ (c.flights.eraseIdx n).map Flight.lock then c
      else f.collect env c.db (c.flights.eraseIdx n)

/-- What the user, or the channel's answer, does to an intent: its order and its surcharge
stay. -/
structure IntentChange where
  change : Intent → Intent
  keeps : ∀ i : Intent, i.Keeps (change i)

/-- The calls of the order module that are not made on behalf of a payment. -/
def isElsewhere : Call → Bool
  | .settlePayment _ => false
  | .closeArchivedOrder _ _ => false
  | _ => true

/-- What may happen next. -/
inductive Label
  | receive (input : RecordInput) (hook : Hook)
  | advance (env : Env) (n : ℕ)
  /-- The process dies, or the database gives up. -/
  | abort (n : ℕ)
  | order (env : Env) (call : Call) (h : isElsewhere call = true)
  | openIntent (i : Intent)
  | changeIntents (change : IntentChange)

/-- `InsertIntent`, with the checks of the table. -/
def openIntent (i : Intent) : Action Unit := do
  let s ← Tx.read
  Tx.require (0 < i.amount ∧ 0 ≤ i.surchargeAmount ∧ i.surchargeAmount < i.amount ∧
      ∀ x ∈ s.payment.intents, (x.providerId, x.outTradeNo) ≠ (i.providerId, i.outTradeNo))
    (.payment (.database "payment_intents"))
  let id ← newId
  update fun t => { t with intents := t.intents ++ [{ i with id := id }] }

/-- One step. -/
def Config.next (c : Config) : Label → Config
  | .receive input hook => c.receive input hook
  | .advance env n => c.advance env n
  | .abort n => { c with flights := c.flights.eraseIdx n }
  | .order env call _ => { c with db := Tx.commit (Orders.exec (env, call)) c.db }
  | .openIntent i => { c with db := Tx.commit (openIntent i) c.db }
  | .changeIntents change =>
    { c with db := Tx.commit (update fun t =>
      { t with intents := t.intents.map change.change }) c.db }

/-- The configuration after the labels, from a new installation. -/
def runLabels (labels : List Label) : Config := labels.foldl Config.next ⟨Orders.State.empty, []⟩

/-! ## A flight on its own -/

theorem Flight.own_calm (f : Flight) (s : State) : Calm s (f.own s) :=
  ⟨rfl, .refl .refl _, rfl, .refl _, le_rfl⟩

variable {f : Flight} {input : RecordInput} {t : Tables} {env : Env} {c : Config} {target : Target}
  {rest : List Flight} {p : Payment} {db s : State}

theorem Flight.own_frame (hf : f.payment = none) (s : State) : Frame s (f.own s) := by
  refine ⟨f.own_calm s, ?_⟩
  show s.payment.payments ++ f.payment.toList = _
  rw [hf]
  exact append_nil _

/-- What `receive` leaves behind when it found a target is the flight. -/
theorem receive_inr {s' : State} {e : Event}
    (h : Payments.receive input s = .ok (.inr (e, target), s')) (hook : Hook) :
    s.payment.targetOf input = .ok target ∧
      s' = (mk input hook e target none).own { s with nextId := s'.nextId } := by
  simp only [receive, ite_ok, bind_ok, pure_ok, reduceCtorEq, false_and, and_false,
    exists_false, false_or] at h
  obtain ⟨-, h⟩ := h
  simp only [receiveSigned, newId, insertEvent, update, seenBefore, noteEvent, findTarget, bind_ok,
    mapError_ok, ofExcept_ok, read_ok, write_ok, ite_ok, pure_ok] at h
  obtain ⟨_, _, ⟨-, rfl⟩, id, _, ⟨_, _, ⟨rfl, rfl⟩, _, _, rfl, rfl, rfl⟩, inserted, s₁,
    hinsert, h⟩ := h
  rcases h with ⟨-, _, _, -, hout, -⟩ | ⟨hins, ⟨-, _, _, -, hout, -⟩ | ⟨-, h⟩⟩
  · cases hout
  · cases hout
  · obtain ⟨_, _, ⟨-, rfl⟩, _, _, ⟨rfl, rfl⟩, _, _, ⟨htarget, rfl⟩, hout, rfl⟩ := h
    cases hout
    obtain ⟨_, _, ⟨rfl, rfl⟩, ⟨-, rfl, -⟩ | ⟨-, _, _, rfl, -, rfl⟩⟩ := hinsert
    · exact absurd rfl hins
    · refine ⟨htarget, ?_⟩
      rw [own, toList_none, append_nil]

theorem framed_insertEvent (e : Event) : Framed (insertEvent e) :=
  .bind .read fun _ => .ite .pure (.bind (framed_update (fun _ => rfl) (fun _ => rfl)
    fun _ => .refl .refl _) fun _ => .pure)

theorem framed_receive (input : RecordInput) : Framed (Payments.receive input) := by
  have hunverified : Framed (recordUnverified input) :=
    .bind framed_newId fun _ => .bind (framed_insertEvent _) fun _ =>
      .ite (.bind framed_finishEvent fun _ => .pure) .pure
  have hfind : ∀ id, Framed (findTarget input id) := fun id =>
    .bind (.mapError .ofExcept) fun _ => .bind .read fun _ =>
      .bind (.mapError .ofExcept) fun _ => .pure
  refine .ite (.bind hunverified fun _ => .pure) ?_
  exact .bind (.mapError .ofExcept) fun _ => .bind framed_newId fun _ =>
    .bind (framed_insertEvent _) fun _ => .ite (.bind .read fun _ => .pure)
      (.ite (.bind framed_finishEvent fun _ => .pure) (hfind _))

theorem framed_openIntent (i : Intent) : Framed (openIntent i) := by
  refine .bind .read fun _ => .bind .require fun _ => .bind framed_newId fun id => ?_
  refine framed_update (fun _ => rfl) (fun _ => rfl) fun t x hx => ?_
  exact ⟨x, mem_append_left _ hx, .refl x⟩

theorem framed_exec (env : Env) {call : Call} (h : isElsewhere call = true) :
    Framed (exec (env, call)) := by
  cases call with
  | settlePayment | closeArchivedOrder => cases h
  | place d => exact .bind framed_place fun _ => .pure
  | createTopup userId amount => exact .bind framed_createTopup fun _ => .pure
  | cancel caller input => exact .bind framed_cancel fun _ => .pure
  | expireOne id => exact .bind framed_expireOne fun _ => .pure
  | cancelUserPending userId => exact framed_cancelUserPending
  | createCoupon | setCouponStatus => exact framed_onPromo
  | post p =>
    refine framed_onLedger fun l u l' hl h => ?_
    obtain ⟨_, h⟩ := of_bind_pure h
    have hforeign : p.posting.kind ∉ lateKinds := fun hlate => p.foreign (mem_cons_of_mem _ hlate)
    exact postGeneral_changes hl ⟨p.unfrozen, hforeign⟩ h
  | adjustBalance =>
    refine framed_onLedger fun l u l' hl h => ?_
    obtain ⟨_, h⟩ := of_bind_pure h
    exact adjustBalance_changes hl h

/-! ## The invariant -/

/-- The intent of a target is in the table, perhaps with another status by now. -/
def Tables.Knows (t : Tables) (target : Target) : Prop :=
  ∀ it ∈ target.intent, it.orderId = target.orderId ∧ ∃ i ∈ t.intents, it.Keeps i

theorem Tables.Knows.evolve {t' : Tables}
    (h : Evolves Intent.Keeps t.intents t'.intents) (ht : t.Knows target) : t'.Knows target := by
  intro it hit
  obtain ⟨horder, i, hi, hkeeps⟩ := ht it hit
  obtain ⟨i', hi', hkeeps'⟩ := h i hi
  exact ⟨horder, i', hi', hkeeps.trans _ _ _ hkeeps'⟩

theorem Tables.knows_targetOf (h : t.targetOf input = .ok target) : t.Knows target := by
  intro it hit
  unfold targetOf at h
  cases hoffline : input.offline with
  | some =>
    simp only [hoffline, Except.ok.injEq] at h
    rw [← h] at hit
    cases hit
  | none =>
    cases hfind : t.intentByOutTradeNo input.provider.id (trim input.outTradeNo) with
    | none => simp [hoffline, hfind] at h
    | some =>
      simp only [hoffline, hfind, except_bind_eq_ok, ensure_eq_ok, except_pure_eq_ok] at h
      obtain ⟨_, -, _, -, rfl⟩ := h
      cases hit
      exact ⟨rfl, it, mem_of_find?_eq_some hfind, .refl it⟩

theorem Tables.Knows.charges (h : t.Knows target)
    (input : RecordInput) (id : UUID) : t.Charges (target.payment input id) := by
  unfold Charges
  cases hintent : target.intent with
  | none => simp [Target.payment, Target.surcharge, hintent]
  | some it =>
    obtain ⟨horder, i, hi, hkeeps⟩ := h it hintent
    simp only [Target.payment, Target.surcharge, hintent, map_some, getD_some]
    exact ⟨i, hi, hkeeps.id, hkeeps.orderId.trans horder, hkeeps.surchargeAmount⟩

/-- The payments, those included that are not committed yet. -/
def Config.payments (c : Config) : List Payment :=
  c.db.payment.payments ++ c.flights.filterMap Flight.payment

/-- A flight may go on: its target is known, and its payment is the one for the target. -/
structure Flight.Ready (f : Flight) (t : Tables) : Prop where
  knows : t.Knows f.target
  payment : ∀ p ∈ f.payment, p.Shaped ∧ ∃ id, p = f.target.payment f.input id

/-- The invariant of every configuration. -/
structure Config.Inv (c : Config) : Prop where
  kept : c.db.ledger.Kept
  filed : Filed c.db
  keys : (c.payments.map Payment.key).Nodup
  ids : (c.payments.map Payment.id).Nodup
  fresh : ∀ p ∈ c.payments, p.id < c.db.nextId
  ready : ∀ f ∈ c.flights, f.Ready c.db.payment

theorem inv_empty : (Config.mk State.empty []).Inv where
  kept := State.base_empty.ledger
  filed := filed_empty
  keys := nodup_nil
  ids := nodup_nil
  fresh _ h := absurd h not_mem_nil
  ready _ h := absurd h not_mem_nil

namespace Config.Inv

variable {fs : List Flight}

theorem perm (h : (Config.mk db fs).Inv) {fs' : List Flight} (hp : fs.Perm fs') :
    (Config.mk db fs').Inv := by
  have hall : (Config.mk db fs).payments.Perm (Config.mk db fs').payments :=
    (hp.filterMap payment).append_left _
  exact ⟨h.kept, h.filed, (hall.map _).nodup_iff.mp h.keys, (hall.map _).nodup_iff.mp h.ids,
    fun p hmem => h.fresh p (hall.mem_iff.mpr hmem), fun f hf => h.ready f (hp.mem_iff.mpr hf)⟩

theorem drop (h : (Config.mk db (f :: rest)).Inv) : (Config.mk db rest).Inv := by
  have hsub : (Config.mk db rest).payments.Sublist (Config.mk db (f :: rest)).payments :=
    ((sublist_cons_self f rest).filterMap _).append_left _
  exact ⟨h.kept, h.filed, h.keys.sublist (hsub.map _), h.ids.sublist (hsub.map _),
    fun p hp => h.fresh p (hsub.subset hp), fun g hg => h.ready g (mem_cons_of_mem f hg)⟩

theorem ready_of_evolves (h : (Config.mk db fs).Inv)
    (hintents : Evolves Intent.Keeps db.payment.intents s.payment.intents) :
    ∀ f ∈ fs, f.Ready s.payment :=
  fun f hf => ⟨(h.ready f hf).knows.evolve hintents, (h.ready f hf).payment⟩

theorem frame (h : (Config.mk db fs).Inv) (hf : Frame db s) (hs : s.ledger.Kept) :
    (Config.mk s fs).Inv := by
  have hall : (Config.mk s fs).payments = (Config.mk db fs).payments :=
    congrArg (· ++ _) hf.payments
  refine ⟨hs, h.filed.frame hf hs, by rw [hall]; exact h.keys, by rw [hall]; exact h.ids, ?_,
    h.ready_of_evolves hf.intents⟩
  rw [hall]
  exact fun p hp => (h.fresh p hp).trans_le hf.nextId

theorem landed (h : (Config.mk db (f :: rest)).Inv) (hp : f.payment = some p)
    (hs : s.ledger.Kept) (hpayments : s.payment.payments = db.payment.payments ++ [p])
    (hl : Landed db s p) : (Config.mk s rest).Inv := by
  have hall : (Config.mk s rest).payments = (Config.mk db (f :: rest)).payments := by
    unfold Config.payments
    rw [hpayments, filterMap_cons_some hp, append_assoc]
    rfl
  obtain ⟨hshaped, id, hid⟩ := (h.ready f mem_cons_self).payment p hp
  have hcharges : db.payment.Charges p := by
    rw [hid]
    exact (h.ready f mem_cons_self).knows.charges f.input id
  have hnew : ∀ x ∈ db.payment.payments, x.id ≠ p.id := by
    have hids := h.ids
    rw [Config.payments, filterMap_cons_some hp, map_append, nodup_append] at hids
    exact fun x hx => hids.2.2 _ (mem_map_of_mem hx) _ (mem_map_of_mem mem_cons_self)
  refine ⟨hs, h.filed.landed hnew hpayments hl hs hshaped hcharges, by rw [hall]; exact h.keys,
    by rw [hall]; exact h.ids, ?_, h.drop.ready_of_evolves hl.intents⟩
  rw [hall]
  exact fun q hq => (h.fresh q hq).trans_le hl.nextId

theorem park (h : (Config.mk db (f :: rest)).Inv) {id : UUID}
    (hid : db.nextId ≤ id) (hshaped : (f.target.payment f.input id).Shaped)
    (hnew : (f.target.payment f.input id).key ∉ db.payment.payments.map Payment.key)
    (hlock : some (f.target.payment f.input id).key ∉ rest.map lock) :
    (Config.mk { db with nextId := id + 1 }
      ({ f with payment := some (f.target.payment f.input id) } :: rest)).Inv := by
  have hold := h.drop
  -- the new payment stands between the committed ones and those of the other flights
  have hkeys : ∀ x ∈ (Config.mk db rest).payments, x.key ≠ (f.target.payment f.input id).key := by
    intro x hx heq
    rcases mem_append.mp hx with hx | hx
    · exact hnew (heq ▸ mem_map_of_mem hx)
    · obtain ⟨g, hg, hgx⟩ := mem_filterMap.mp hx
      refine hlock (mem_map.mpr ⟨g, hg, ?_⟩)
      rw [lock, hgx, map_some, heq]
  have hids : ∀ x ∈ (Config.mk db rest).payments, x.id ≠ id :=
    fun x hx => ((hold.fresh x hx).trans_le hid).ne
  have hall : (Config.mk { db with nextId := id + 1 }
      ({ f with payment := some (f.target.payment f.input id) } :: rest)).payments.Perm
      (f.target.payment f.input id :: (Config.mk db rest).payments) := by
    show (db.payment.payments ++ List.filterMap payment (_ :: rest)).Perm _
    rw [filterMap_cons_some (f := payment) rfl]
    exact perm_middle
  have hframe : Frame db { db with nextId := id + 1 } :=
    ⟨⟨rfl, .refl .refl _, rfl, .refl _, Nat.le_succ_of_le hid⟩, rfl⟩
  refine ⟨h.kept, h.filed.frame hframe h.kept, ?_, ?_, fun x hx => ?_, fun g hg => ?_⟩
  · rw [(hall.map Payment.key).nodup_iff]
    exact nodup_map_cons hold.keys hkeys
  · rw [(hall.map Payment.id).nodup_iff]
    exact nodup_map_cons hold.ids hids
  · rcases mem_cons.mp (hall.mem_iff.mp hx) with rfl | hx
    · exact Nat.lt_succ_self id
    · exact Nat.lt_succ_of_lt ((hold.fresh x hx).trans_le hid)
  · rcases mem_cons.mp hg with rfl | hg
    · refine ⟨(h.ready f mem_cons_self).knows, fun p hp => ?_⟩
      cases hp
      exact ⟨hshaped, id, rfl⟩
    · exact hold.ready g hg

end Config.Inv

/-! ## Every step keeps it -/

namespace Config.Inv

theorem collect (h : (Config.mk db (f :: rest)).Inv) (hf : f.payment = none)
    (hlock : some (f.input.provider.id, f.input.ref) ∉ rest.map lock) :
    (f.collect env db rest).Inv := by
  unfold Flight.collect
  cases hc : Payments.collect env f.hook f.input f.event.id f.target (f.own db) with
  | error => exact h.drop
  | ok r =>
    obtain ⟨out, s⟩ := r
    have hpayments : (f.own db).payment.payments = db.payment.payments := (own_frame hf db).payments
    obtain ⟨hs, hcases⟩ := collect_cases (s := f.own db) h.kept hc
    rcases hcases with ⟨r, rfl, hframe⟩ | ⟨r, rfl, hrecorded⟩ | ⟨rfl, hshaped, hnew, rfl⟩
    · exact h.drop.frame (IsTrans.trans _ _ _ (own_frame hf db) hframe) hs
    · have hnew := hrecorded.new
      rw [hpayments] at hnew
      have hpark := h.park le_rfl hrecorded.shaped hnew hlock
      refine hpark.landed rfl hs (hrecorded.payments.trans (by rw [hpayments]; rfl)) ?_
      exact hrecorded.landed.within ⟨rfl, .refl .refl _, rfl, .refl _, le_rfl⟩ (.refl s)
    · rw [hpayments] at hnew
      exact h.park le_rfl hshaped hnew hlock

theorem close
    (h : (Config.mk db (f :: rest)).Inv) (hf : f.payment = some p) :
    (f.close env p db rest).Inv := by
  unfold Flight.close
  cases hc : closeArchived env f.hook f.event.id f.target p (f.own db) with
  | error => exact h.drop
  | ok r =>
    obtain ⟨r, s⟩ := r
    obtain ⟨hs, hpayments, hlanded⟩ :=
      closeArchived_landed (s := f.own db) h.kept h.filed.caseFresh hc
    refine h.landed hf hs (hpayments.trans ?_) (hlanded.within (f.own_calm db) (.refl s))
    show db.payment.payments ++ f.payment.toList = _
    rw [hf]
    rfl

section

variable (h : c.Inv)
include h

theorem advance (env : Env) (n : ℕ) : (c.advance env n).Inv := by
  unfold Config.advance
  cases hn : c.flights[n]? with
  | none => exact h
  | some f =>
    obtain ⟨hlt, hget⟩ := List.getElem?_eq_some_iff.mp hn
    have hperm : c.flights.Perm (f :: c.flights.eraseIdx n) :=
      hget ▸ (getElem_cons_eraseIdx_perm hlt).symm
    have hfront : (Config.mk c.db (f :: c.flights.eraseIdx n)).Inv := h.perm hperm
    cases hp : f.payment with
    | some =>
      simp only [hp]
      exact hfront.close hp
    | none =>
      simp only [hp]
      split_ifs with hlock
      · exact h
      · exact hfront.collect hp hlock

theorem receive (input : RecordInput) (hook : Hook) : (c.receive input hook).Inv := by
  unfold Config.receive
  split_ifs with hwait
  · exact h
  · cases hr : Payments.receive input c.db with
    | error => exact h
    | ok r =>
      obtain ⟨out, s⟩ := r
      obtain ⟨hs, hframe⟩ := framed_receive input h.kept hr
      cases out with
      | inl => exact h.frame hframe hs
      | inr found =>
        obtain ⟨e, target⟩ := found
        have htarget := knows_targetOf (receive_inr hr hook).1
        have hbase : (Config.mk { c.db with nextId := s.nextId } c.flights).Inv :=
          h.frame ⟨⟨rfl, .refl .refl _, rfl, .refl _, hframe.nextId⟩, rfl⟩ h.kept
        refine { hbase with ready := fun f hf => ?_ }
        rcases mem_cons.mp hf with rfl | hf
        · exact ⟨htarget, fun p hp => absurd hp (by simp)⟩
        · exact hbase.ready f hf

theorem commit {α : Type} {m : Action α} (hm : Framed m) :
    (Config.mk (Tx.commit m c.db) c.flights).Inv := by
  unfold Tx.commit
  cases hr : m c.db with
  | error => exact h
  | ok =>
    obtain ⟨hs, hframe⟩ := hm h.kept hr
    exact h.frame hframe hs

theorem abort (n : ℕ) : (Config.mk c.db (c.flights.eraseIdx n)).Inv := by
  by_cases hlt : n < c.flights.length
  · have hperm := (getElem_cons_eraseIdx_perm hlt).symm
    exact Config.Inv.drop (h.perm hperm)
  · rw [eraseIdx_of_length_le (not_lt.mp hlt)]
    exact h

theorem next (label : Label) : (c.next label).Inv := by
  cases label with
  | receive input hook => exact h.receive input hook
  | advance env n => exact h.advance env n
  | abort n => exact h.abort n
  | order env call hcall => exact h.commit (framed_exec env hcall)
  | openIntent i => exact h.commit (framed_openIntent i)
  | changeIntents change =>
    refine h.commit (framed_update (fun _ => rfl) (fun _ => rfl) fun t i hi => ?_)
    exact ⟨change.change i, mem_map_of_mem hi, change.keeps i⟩

theorem run (labels : List Label) : (labels.foldl Config.next c).Inv :=
  Runs.run_invariant (fun _ l hc => hc.next l) labels h

end

end Config.Inv

/-! ## A transaction that nothing interrupts -/

/-- The parts of a flight, one after the other, are `recordPaymentTx`. -/
theorem record_alone (hc : c.Inv) (hidle : c.flights = []) {hook : Hook}
    {r : RecordResult} (h : recordPaymentTx env hook input c.db = .ok (r, s)) :
    ∃ labels : List Label, labels.foldl Config.next c = ⟨s, []⟩ := by
  obtain ⟨db, flights⟩ := c
  subst hidle
  simp only [recordPaymentTx, bind_ok] at h
  obtain ⟨found, s₁, hreceive, h⟩ := h
  cases found with
  | inl =>
    simp only [pure_ok] at h
    obtain ⟨-, rfl⟩ := h
    refine ⟨[.receive input hook], ?_⟩
    simp [Config.next, Config.receive, hreceive]
  | inr found =>
    obtain ⟨e, target⟩ := found
    simp only [bind_ok] at h
    obtain ⟨out, s₂, hcollect, h⟩ := h
    have hown := (receive_inr hreceive hook).2
    obtain ⟨hs₁, -⟩ := framed_receive input hc.kept hreceive
    have hfirst : (Config.mk db []).next (.receive input hook) =
        ⟨{ db with nextId := s₁.nextId }, [⟨input, hook, e, target, none⟩]⟩ := by
      simp [Config.next, Config.receive, hreceive]
    cases out with
    | inl =>
      simp only [pure_ok] at h
      obtain ⟨-, rfl⟩ := h
      refine ⟨[.receive input hook, .advance env 0], ?_⟩
      rw [foldl_cons, hfirst]
      simp [Config.next, Config.advance, Flight.collect, ← hown, hcollect]
    | inr p =>
      obtain ⟨-, ⟨_, hout, -⟩ | ⟨_, hout, -⟩ | ⟨hout, -, -, hs₂⟩⟩ := collect_cases hs₁ hcollect
      · cases hout
      · cases hout
      · refine ⟨[.receive input hook, .advance env 0, .advance env 0], ?_⟩
        have hsecond : ((Config.mk db []).next (.receive input hook)).next (.advance env 0) =
            ⟨{ db with nextId := s₂.nextId }, [⟨input, hook, e, target, some p⟩]⟩ := by
          rw [hfirst]
          simp [Config.next, Config.advance, Flight.collect, ← hown, hcollect]
        have hown₂ : (Flight.mk input hook e target (some p)).own { db with nextId := s₂.nextId } =
            s₂ := by
          cases hout
          rw [hs₂, hown]
          simp [Flight.own]
        rw [foldl_cons, foldl_cons, hsecond]
        simp [Config.next, Config.advance, Flight.close, hown₂, h]

end Pandora.Payments
