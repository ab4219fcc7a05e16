import Pandora.Dataplane.ReplayFilter

/-!
# Requests that come again

A Shadowsocks 2022 request and a VMess request carry a time stamp, and are only accepted while the
clock is near it; a `replayFilter` keeps what has been accepted for as long as that lasts.  But the
stamp is compared with the clock in whole seconds, and for VMess up to ten seconds before the filter
is asked.  So a request can be accepted a little longer than it is kept, and passes twice.

It passes once where the filter is asked no later after the stamp, in real time, than the stamp may
be away from the clock.
-/

namespace Pandora.Dataplane.Replays

open List Runs ReplayFilter Option Prod
open Time (zeroTime)

variable {κ ν : Type}

/-- The stamp is near the clock, `Time.Unix` in whole seconds. -/
def Near (w now stamp : ℤ) : Prop := now / 1000000000 - w ≤ stamp ∧ stamp ≤ now / 1000000000 + w

instance (w now stamp : ℤ) : Decidable (Near w now stamp) := inferInstanceAs (Decidable (_ ∧ _))

/-- A request whose stamp was near the clock, and that is held against the filter. -/
structure Attempt (κ : Type) where
  key : κ
  stamp : ℤ
  /-- When the stamp was compared. -/
  checked : ℤ
  /-- When the filter was asked. -/
  asked : ℤ

/-- A filter, and the keys and stamps of what has passed it. -/
structure Gate (κ : Type) where
  watched : Watched κ
  served : List (κ × ℤ) := []

variable [DecidableEq κ]

/-- `acceptSalt`, `acceptAuthID`. -/
def Gate.accept (g : Gate κ) (a : Attempt κ) : Gate κ where
  watched := ReplayFilter.next g.watched (a.key, a.asked)
  served := if (g.watched.filter.check a.key a.asked).1 then (a.key, a.stamp) :: g.served
    else g.served

/-- A connection that is not refused before is held against the filter. -/
def Gate.serve (g : Gate κ) (request : Option (Attempt κ)) : Gate κ := request.elim g g.accept

/-- The clock goes on, no generation is full, and the stamp is compared before the filter is
asked. -/
def Ordered (t₀ : ℤ) (g : Gate κ) (request : Option (Attempt κ)) : Prop :=
  ∀ a ∈ request, Timely t₀ g.watched (a.key, a.asked) ∧ a.checked ≤ a.asked

instance (t₀ : ℤ) (g : Gate κ) (request : Option (Attempt κ)) : Decidable (Ordered t₀ g request) :=
  inferInstanceAs (Decidable (∀ a ∈ request, _))

/-! ## What has passed -/

section Passed

variable {w p t₀ : ℤ} {g : Gate κ} {a : Attempt κ}

/-- What has passed is in the filter since the clock was near its stamp. -/
structure Passed (w p t₀ : ℤ) (g : Gate κ) : Prop where
  inv : Inv 3 p t₀ g.watched
  since : ∀ x stamp, (x, stamp) ∈ g.served →
    ∃ t, (x, t) ∈ g.watched.passed ∧ (stamp - w) * 1000000000 ≤ t

variable (h : Passed w p t₀ g) (hzero : zeroTime < t₀) (hp : 0 < p)
  (htimely : Timely t₀ g.watched (a.key, a.asked))
include h hzero hp htimely

theorem Passed.accept (hnear : Near w a.checked a.stamp) (hle : a.checked ≤ a.asked) :
    Passed w p t₀ (g.accept a) := by
  refine ⟨h.inv.next (by decide) hp hzero htimely, fun x st hx => ?_⟩
  simp only [Gate.accept, ReplayFilter.next] at hx ⊢
  split_ifs at hx ⊢
  · obtain ⟨rfl, rfl⟩ | hx := (mem_cons.mp hx).imp_left Prod.mk.inj
    · have := hnear.2
      exact ⟨a.asked, mem_cons_self, by omega⟩
    · obtain ⟨t, ht, hst⟩ := h.since x st hx
      exact ⟨t, mem_cons_of_mem _ ht, hst⟩
  · exact h.since x st hx

/-- What has passed does not pass again, as long as its stamp may be near the clock. -/
theorem Passed.rejects (hw : w * 1000000000 ≤ p) {stamp : ℤ} (hserved : (a.key, stamp) ∈ g.served)
    (hin : a.asked ≤ (stamp + w) * 1000000000) : (g.accept a).served = g.served := by
  obtain ⟨t, ht, hst⟩ := h.since _ _ hserved
  have hcheck := (h.inv.check (by decide) hp hzero htimely.1.1 htimely.1.2 a.key).1 t ht
    (by push_cast; omega)
  rw [Gate.accept, hcheck]
  rfl

end Passed

omit [DecidableEq κ] in
theorem passed_start {w p t₀ : ℤ} {m : ℕ} : Passed w p t₀ (⟨start p 3 m t₀, []⟩ : Gate κ) :=
  ⟨.inr ⟨rfl, rfl, rfl, le_rfl, rfl⟩, nofun⟩

theorem served_accept (g : Gate κ) (a : Attempt κ) :
    (g.accept a).served = g.served ∨ (g.accept a).served = (a.key, a.stamp) :: g.served := by
  simp only [Gate.accept]
  split_ifs
  · exact .inr rfl
  · exact .inl rfl

/-! ## Shadowsocks 2022 -/

/-- A connection, as far as its salt, and the stamp if the user is found and the header opens. -/
structure Connection (κ : Type) where
  salt : κ
  header : Option ℤ
  checked : ℤ
  asked : ℤ

/-- `readRequest`, up to `acceptSalt`. -/
def Connection.readRequest (c : Connection κ) : Option (Attempt κ) :=
  (c.header.filter (Near 30 c.checked ·)).map (⟨c.salt, ·, c.checked, c.asked⟩)

def Gate.serveSS (g : Gate κ) (c : Connection κ) : Gate κ := g.serve c.readRequest

/-- `sharedSS2022SaltFilter`. -/
def sharedSalts (t₀ : ℤ) : Gate κ := ⟨start (30 * 1000000000) 3 (2 ^ 17) t₀, []⟩

/-- **A Shadowsocks 2022 request passes once**, in all runs in which the filter is asked no later
than thirty seconds of real time after the stamp. -/
theorem salt_passes_once {t₀ : ℤ} (hzero : zeroTime < t₀) {connections : List (Connection κ)}
    (h : Along Gate.serveSS (fun g c => Ordered t₀ g c.readRequest ∧
      ∀ a ∈ c.readRequest, a.asked ≤ (a.stamp + 30) * 1000000000) (sharedSalts t₀) connections) :
    (connections.foldl Gate.serveSS (sharedSalts t₀)).served.Nodup := by
  refine (h.invariant (I := fun g => Passed 30 (30 * 1000000000) t₀ g ∧ g.served.Nodup)
    (fun g c hg hc => ?_) ⟨passed_start, nodup_nil⟩).2
  unfold Gate.serveSS
  cases hreq : c.readRequest with
  | none => exact hg
  | some a =>
    obtain ⟨hordered, hin⟩ := hc
    obtain ⟨htimely, hle⟩ := hordered a hreq
    obtain ⟨stamp, hstamp, rfl⟩ := map_eq_some_iff.mp hreq
    have hnear : Near 30 c.checked stamp := of_decide_eq_true (mem_filter_iff.mp hstamp).2
    refine ⟨hg.1.accept hzero (by decide) htimely hnear hle, ?_⟩
    by_cases hserved : (c.salt, stamp) ∈ g.served
    · exact (hg.1.rejects hzero (by decide) htimely (by decide) hserved (hin _ hreq)).symm ▸ hg.2
    · exact (served_accept g _).elim (· ▸ hg.2) (· ▸ nodup_cons.mpr ⟨hserved, hg.2⟩)

theorem salt_rejected_at_the_end :
    let connections : List (Connection ℕ) := [⟨1, some 60, 30000000000, 30000000000⟩,
      ⟨1, some 60, 90000000000, 90000000000⟩]
    (connections.foldl Gate.serveSS (sharedSalts 0)).served.Nodup :=
  salt_passes_once (show zeroTime < 0 by decide) (by decide +kernel)

/-- The generation of half a second is forgotten at half past ninety, when the stamp `60` is still
near. -/
theorem salt_passes_twice :
    let connections : List (Connection ℕ) := [⟨0, some 0, 500000000, 500000000⟩,
      ⟨1, some 60, 30000000000, 30000000000⟩, ⟨1, some 60, 90500000000, 90500000000⟩]
    Along Gate.serveSS (fun g c => Ordered 0 g c.readRequest) (sharedSalts 0) connections ∧
      ¬ (connections.foldl Gate.serveSS (sharedSalts 0)).served.Nodup := by
  decide +kernel

/-! ## VMess -/

/-- A connection: the auth id, the users it is tried with, and whether the rest of the header comes
in time and opens. -/
structure Request (κ ν : Type) where
  authId : κ
  candidates : List ν
  complete : Bool
  checked : ℤ
  asked : ℤ

/-- `readVMessRequestWithCandidates`, where `opens` gives the stamp if the checksum is right under
the key of a user. -/
def Request.readRequest (opens : ν → κ → Option ℤ) (r : Request κ ν) : Option (Attempt κ) :=
  if r.complete then
    (r.candidates.findSome? fun u => (opens u r.authId).filter (Near 120 r.checked ·)).map
      (⟨r.authId, ·, r.checked, r.asked⟩)
  else none

def Gate.serveVMess (opens : ν → κ → Option ℤ) (g : Gate κ) (r : Request κ ν) : Gate κ :=
  g.serve (r.readRequest opens)

/-- The filter of `acceptAuthID`. -/
def authIds (t₀ : ℤ) : Gate κ := ⟨start (120 * 1000000000) 3 (2 ^ 16) t₀, []⟩

/-- **A VMess auth id passes once**, in all runs in which the filter is asked no later than two
minutes of real time after any stamp that the auth id may have. -/
theorem authId_passes_once {opens : ν → κ → Option ℤ} {t₀ : ℤ} (hzero : zeroTime < t₀)
    {requests : List (Request κ ν)}
    (h : Along (Gate.serveVMess opens) (fun g r => Ordered t₀ g (r.readRequest opens) ∧
      ∀ a ∈ r.readRequest opens, ∀ u, ∀ stamp ∈ opens u a.key, a.asked ≤ (stamp + 120) * 1000000000)
      (authIds t₀) requests) :
    ((requests.foldl (Gate.serveVMess opens) (authIds t₀)).served.map fst).Nodup := by
  refine (h.invariant (I := fun g => (Passed 120 (120 * 1000000000) t₀ g ∧
    ∀ x ∈ g.served, ∃ u, x.2 ∈ opens u x.1) ∧ (g.served.map fst).Nodup) (fun g r hg hr => ?_)
    ⟨⟨passed_start, nofun⟩, nodup_nil⟩).2
  unfold Gate.serveVMess
  cases hreq : r.readRequest opens with
  | none => exact hg
  | some a =>
    obtain ⟨hordered, hin⟩ := hr
    obtain ⟨htimely, hle⟩ := hordered a hreq
    have hin := hin a hreq
    rw [Request.readRequest, ite_none_right_eq_some] at hreq
    obtain ⟨stamp, hstamp, rfl⟩ := map_eq_some_iff.mp hreq.2
    obtain ⟨u, -, hu⟩ := exists_of_findSome?_eq_some hstamp
    obtain ⟨hopens, hnear⟩ := mem_filter_iff.mp hu
    obtain ⟨⟨hpassed, hstamps⟩, honce⟩ := hg
    have hpassed' := hpassed.accept hzero (by decide) htimely (of_decide_eq_true hnear) hle
    by_cases hserved : ∃ stamp, (r.authId, stamp) ∈ g.served
    · obtain ⟨stamp', hserved⟩ := hserved
      obtain ⟨u', hu'⟩ := hstamps _ hserved
      have hsame := hpassed.rejects hzero (by decide) htimely (by decide) hserved
        (hin u' stamp' hu')
      exact ⟨⟨hpassed', hsame.symm ▸ hstamps⟩, hsame.symm ▸ honce⟩
    · rcases served_accept g ⟨r.authId, stamp, r.checked, r.asked⟩ with hsame | hmore
      · exact ⟨⟨hpassed', hsame.symm ▸ hstamps⟩, hsame.symm ▸ honce⟩
      · refine ⟨⟨hpassed', hmore.symm ▸ forall_mem_cons.mpr ⟨⟨u, hopens⟩, hstamps⟩⟩, ?_⟩
        refine hmore.symm ▸ nodup_cons.mpr ⟨fun hmem => hserved ?_, honce⟩
        obtain ⟨⟨x, st⟩, hx, rfl⟩ := mem_map.mp hmem
        exact ⟨st, hx⟩

theorem authId_rejected_at_the_end :
    let requests : List (Request ℕ (Fin 1)) := [⟨1, [0], true, 1110000000000, 1115000000000⟩,
      ⟨1, [0], true, 1345000000000, 1350000000000⟩]
    ((requests.foldl (Gate.serveVMess fun _ _ => some 1230) (authIds 0)).served.map fst).Nodup :=
  authId_passes_once (show zeroTime < 0 by decide) (by decide +kernel)

/-- The generation of `996` is forgotten at `1356`, six seconds after the stamp `1230` was near. -/
theorem authId_passes_twice :
    let opens : Unit → ℕ → Option ℤ := fun _ id => some (if id = 0 then 1000 else 1230)
    let requests : List (Request ℕ Unit) := [⟨0, [()], true, 996000000000, 996000000000⟩,
      ⟨1, [()], true, 1110000000000, 1115000000000⟩, ⟨1, [()], true, 1350000000000, 1356000000000⟩]
    Along (Gate.serveVMess opens) (fun g r => Ordered 0 g (r.readRequest opens) ∧
        r.asked ≤ r.checked + 10 * 1000000000) (authIds 0) requests ∧
      ¬ ((requests.foldl (Gate.serveVMess opens) (authIds 0)).served.map fst).Nodup := by
  decide +kernel

end Pandora.Dataplane.Replays
