import Mathlib.Data.List.Induction
import Pandora.Foundation.Clock
import Pandora.Traffic.Conservation

/-!
# The connections of the users of an inbound

Every adapter has one such table.  A connection that has been authenticated is registered under
the number of its user, so that it can be closed when the user is removed, and counts its bytes on
the counter of the user while they pass.  A counter is found through the table, and is an object
of its own: who has found it keeps it.  It is taken out of the table when the bytes are collected
and nobody holds it.

What happens under the lock of the table is one function here.  `UserSessions.counterLocked_cases`
says what looking up a counter can do.
-/

namespace Pandora.Dataplane

open List Function

open Traffic (Direction UserTraffic i64)

structure UserCounter where
  up : ℤ := 0
  down : ℤ := 0
  refs : ℤ := 0

namespace UserCounter

def bytes (d : Direction) (c : UserCounter) : ℤ :=
  match d with
  | .upload => c.up
  | .download => c.down

/-- `Add`, of one direction. -/
def add (d : Direction) (n : ℤ) (c : UserCounter) : UserCounter :=
  match d with
  | .upload => { c with up := i64 (c.up + n) }
  | .download => { c with down := i64 (c.down + n) }

/-- What is left by `Swap(0)`, of one direction. -/
def clear (d : Direction) (c : UserCounter) : UserCounter :=
  match d with
  | .upload => { c with up := 0 }
  | .download => { c with down := 0 }

@[simp] theorem refs_add (d : Direction) (n : ℤ) (c : UserCounter) : (c.add d n).refs = c.refs := by
  cases d <;> rfl

@[simp] theorem refs_clear (d : Direction) (c : UserCounter) : (c.clear d).refs = c.refs := by
  cases d <;> rfl

theorem bytes_add (d d' : Direction) (n : ℤ) (c : UserCounter) :
    (c.add d n).bytes d' = if d' = d then i64 (c.bytes d + n) else c.bytes d' := by
  cases d <;> cases d' <;> rfl

theorem bytes_clear (d d' : Direction) (c : UserCounter) :
    (c.clear d).bytes d' = if d' = d then 0 else c.bytes d' := by
  cases d <;> cases d' <;> rfl

end UserCounter

/-- An entry of `traffic`: where the counter of a user is. -/
structure Slot where
  id : ℤ
  counter : ℕ
  deriving DecidableEq

/-- `revocation`, with the user it is of. -/
structure Revocation where
  key : ℤ
  seq : ℕ
  time : Time

/-- Who holds a counter: a `userSession`, or who has called `retain`. -/
structure Handle where
  number : ℕ
  id : ℤ
  counter : ℕ
  deriving DecidableEq

/-- `userSessions`, and the counters that have been made. -/
structure UserSessions where
  seq : ℕ := 0
  conns : List Handle := []
  traffic : Keyed Slot.id := ∅
  revoked : Keyed Revocation.key := ∅
  live : ℤ := 0
  counters : ℕ → UserCounter := fun _ => {}
  /-- How many counters there are. -/
  made : ℕ := 0
  /-- How many handles there are. -/
  issued : ℕ := 0

open UserSessions

namespace UserSessions

def epoch (s : UserSessions) : ℕ := s.seq

/-- Something is done to one counter. -/
def onCounter (s : UserSessions) (c : ℕ) (f : UserCounter → UserCounter) : UserSessions :=
  { s with counters := update s.counters c (f (s.counters c)) }

/-- A new counter for a user. -/
def withCounter (s : UserSessions) (id : ℤ) : UserSessions :=
  { s with
    traffic := s.traffic.put ⟨id, s.made⟩
    counters := update s.counters s.made {}
    made := s.made + 1 }

def counterLocked (s : UserSessions) (id : ℤ) : UserSessions × ℕ :=
  match s.traffic.get id with
  | some slot => (s, slot.counter)
  | none => (s.withCounter id, s.made)

/-- `retain`, and the part of `open` that it shares. -/
def retain (s : UserSessions) (id : ℤ) : UserSessions × Handle :=
  let (s, c) := s.counterLocked id
  ({ s.onCounter c fun x => { x with refs := x.refs + 1 } with issued := s.issued + 1 },
    ⟨s.issued, id, c⟩)

/-- The user has been revoked since the epoch. -/
def RevokedSince (s : UserSessions) (id : ℤ) (epoch : ℕ) : Prop :=
  ∃ r ∈ s.revoked.get id, epoch < r.seq

instance (s : UserSessions) (id : ℤ) (epoch : ℕ) : Decidable (s.RevokedSince id epoch) :=
  match h : s.revoked.get id with
  | none => .isFalse fun ⟨_, hr, _⟩ => by rw [h] at hr; cases hr
  | some r => decidable_of_iff (epoch < r.seq)
      ⟨fun hlt => ⟨r, h, hlt⟩, fun ⟨r', hr', hlt⟩ => by rw [h] at hr'; cases hr'; exact hlt⟩

/-- `open`. -/
def openSession (s : UserSessions) (id : ℤ) (epoch : ℕ) : Option (UserSessions × Handle) :=
  if s.RevokedSince id epoch then none
  else
    let (s, h) := s.retain id
    some ({ s with conns := h :: s.conns, live := s.live + 1 }, h)

def release (s : UserSessions) (h : Handle) : UserSessions :=
  s.onCounter h.counter fun x => { x with refs := x.refs - 1 }

/-- `close`, the first time. -/
def close (s : UserSessions) (h : Handle) : UserSessions :=
  { s.release h with
    conns := s.conns.erase h
    live := if h ∈ s.conns then s.live - 1 else s.live }

def revokedKeep : ℤ := 2 * 60 * 1000000000

/-- One user of `revoke`; the sessions that are to be closed are the second part. -/
def revokeOne (now : Time) (p : UserSessions × List Handle) (key : ℤ) :
    UserSessions × List Handle :=
  let mine := p.1.conns.filter fun h => h.id = key
  ({ p.1 with
      seq := p.1.seq + 1
      revoked := p.1.revoked.put ⟨key, p.1.seq + 1, now⟩
      live := p.1.live - mine.length
      conns := p.1.conns.filter fun h => h.id ≠ key },
    p.2 ++ mine)

/-- Marks that nobody needs any more are taken out, if there are many. -/
def prune (now : Time) (s : UserSessions) : UserSessions :=
  if 1024 < s.revoked.values.length then
    { s with
      revoked := s.revoked.eraseAll
        ((s.revoked.values.filter fun r => revokedKeep < Time.sub now r.time).map (·.key)) }
  else s

/-- The part of `revoke` under the lock. -/
def revoke (s : UserSessions) (ids : List ℤ) (now : Time) : UserSessions × List Handle :=
  if ids = [] then (s, [])
  else
    let (s, victims) := ids.foldl (revokeOne now) (s, [])
    (s.prune now, victims)

theorem counters_onCounter {s : UserSessions} {c c' : ℕ} {f : UserCounter → UserCounter} :
    (s.onCounter c f).counters c' = if c' = c then f (s.counters c) else s.counters c' := by
  show update s.counters c (f (s.counters c)) c' = _
  rw [update_apply]

theorem counterLocked_cases (s : UserSessions) (id : ℤ) :
    (∃ slot, s.traffic.get id = some slot ∧ s.counterLocked id = (s, slot.counter)) ∨
      (s.traffic.get id = none ∧ s.counterLocked id = (s.withCounter id, s.made)) := by
  unfold counterLocked
  cases h : s.traffic.get id with
  | none => exact .inr ⟨rfl, rfl⟩
  | some slot => exact .inl ⟨slot, rfl, rfl⟩

theorem revoke_counters (s : UserSessions) (ids : List ℤ) (now : Time) :
    (s.revoke ids now).1.traffic = s.traffic ∧ (s.revoke ids now).1.counters = s.counters ∧
      (s.revoke ids now).1.made = s.made := by
  have hfold : ∀ (ids : List ℤ) (p : UserSessions × List Handle),
      (ids.foldl (revokeOne now) p).1.traffic = p.1.traffic ∧
        (ids.foldl (revokeOne now) p).1.counters = p.1.counters ∧
        (ids.foldl (revokeOne now) p).1.made = p.1.made := by
    intro ids
    induction ids with
    | nil => exact fun p => ⟨rfl, rfl, rfl⟩
    | cons key ids ih => exact fun p => ih (revokeOne now p key)
  have hprune : ∀ s : UserSessions, (s.prune now).traffic = s.traffic ∧
      (s.prune now).counters = s.counters ∧ (s.prune now).made = s.made := by
    intro s
    unfold prune
    split_ifs <;> exact ⟨rfl, rfl, rfl⟩
  unfold revoke
  split_ifs with h
  · exact ⟨rfl, rfl, rfl⟩
  · obtain ⟨htraffic, hcounters, hmade⟩ := hfold ids (s, [])
    obtain ⟨htraffic', hcounters', hmade'⟩ := hprune (ids.foldl (revokeOne now) (s, [])).1
    exact ⟨htraffic'.trans htraffic, hcounters'.trans hcounters, hmade'.trans hmade⟩

theorem retain_frame (s : UserSessions) (id : ℤ) :
    (s.retain id).2.id = id ∧ (s.retain id).2.number = s.issued ∧
      (s.retain id).1.issued = s.issued + 1 ∧ (s.retain id).1.conns = s.conns ∧
      (s.retain id).1.live = s.live ∧ (s.retain id).1.seq = s.seq ∧
      (s.retain id).1.revoked = s.revoked := by
  unfold retain
  rcases s.counterLocked_cases id with ⟨slot, -, heq⟩ | ⟨-, heq⟩ <;> rw [heq] <;>
    exact ⟨rfl, rfl, rfl, rfl, rfl, rfl, rfl⟩

theorem openSession_cases (s : UserSessions) (id : ℤ) (epoch : ℕ) :
    (s.RevokedSince id epoch ∧ s.openSession id epoch = none) ∨
      ∃ s' h, ¬s.RevokedSince id epoch ∧ s.openSession id epoch = some (s', h) ∧
        h.id = id ∧ h.number = s.issued ∧ s'.issued = s.issued + 1 ∧ s'.conns = h :: s.conns ∧
        s'.live = s.live + 1 ∧ s'.seq = s.seq ∧ s'.revoked = s.revoked := by
  by_cases hr : s.RevokedSince id epoch
  · exact .inl ⟨hr, if_pos hr⟩
  · obtain ⟨hid, hnumber, hissued, hconns, hlive, hseq, hrevoked⟩ := s.retain_frame id
    refine .inr ⟨{ (s.retain id).1 with
      conns := (s.retain id).2 :: (s.retain id).1.conns, live := (s.retain id).1.live + 1 },
      (s.retain id).2, hr, if_neg hr, hid, hnumber, hissued, ?_, ?_, hseq, hrevoked⟩
    · rw [hconns]
    · rw [hlive]

/-- What `revoke` does to the connections and to the marks. -/
structure Revoked (s : UserSessions) (ids : List ℤ) (now : Time) (s' : UserSessions)
    (victims : List Handle) : Prop where
  conns : ∀ h, h ∈ s'.conns ↔ h ∈ s.conns ∧ h.id ∉ ids
  victims : ∀ h, h ∈ victims ↔ h ∈ s.conns ∧ h.id ∈ ids
  live : s'.live - s'.conns.length = s.live - s.conns.length
  issued : s'.issued = s.issued
  seq : s.seq ≤ s'.seq
  marked : ∀ key ∈ ids, ∃ n, s'.revoked.get key = some ⟨key, n, now⟩ ∧ s.seq < n ∧ n ≤ s'.seq
  stayed : ∀ key ∉ ids, ∀ r, s'.revoked.get key = some r → s.revoked.get key = some r
  kept : ∀ key ∉ ids, ∀ r, s.revoked.get key = some r →
    s'.revoked.get key = some r ∨ revokedKeep < Time.sub now r.time

/-- Before the marks are looked through, none of them is gone. -/
structure Marking (s : UserSessions) (ids : List ℤ) (now : Time) (s' : UserSessions)
    (victims : List Handle) : Prop extends Revoked s ids now s' victims where
  same : ∀ key ∉ ids, s'.revoked.get key = s.revoked.get key

theorem marking_refl (s : UserSessions) (now : Time) : Marking s [] now s [] where
  conns _ := ⟨fun hh => ⟨hh, not_mem_nil⟩, And.left⟩
  victims _ := ⟨fun hh => absurd hh not_mem_nil, fun hh => absurd hh.2 not_mem_nil⟩
  live := rfl
  issued := rfl
  seq := le_rfl
  marked _ hkey := absurd hkey not_mem_nil
  stayed _ _ _ := id
  kept _ _ _ := .inl
  same _ _ := rfl

theorem Marking.revokeOne {s s' : UserSessions} {ids : List ℤ} {now : Time}
    {victims : List Handle} (hm : Marking s ids now s' victims) (key : ℤ) :
    Marking s (ids ++ [key]) now (revokeOne now (s', victims) key).1
      (revokeOne now (s', victims) key).2 := by
  have hget : ∀ k, (s'.revoked.put ⟨key, s'.seq + 1, now⟩).get k =
      if key = k then some ⟨key, s'.seq + 1, now⟩ else s'.revoked.get k := fun k =>
    Keyed.get_put
  have hsame : ∀ k ∉ ids ++ [key],
      (s'.revoked.put ⟨key, s'.seq + 1, now⟩).get k = s.revoked.get k := by
    intro k hk
    rw [mem_append, mem_singleton, not_or] at hk
    rw [hget, if_neg fun h => hk.2 h.symm, hm.same k hk.1]
  refine ⟨⟨?_, ?_, ?_, hm.issued, hm.seq.trans (Nat.le_succ _), ?_, ?_, ?_⟩, hsame⟩
  · intro h
    show h ∈ s'.conns.filter (fun h => decide (h.id ≠ key)) ↔ _
    rw [mem_filter, hm.conns, mem_append, mem_singleton, not_or, and_assoc, decide_eq_true_iff]
  · intro h
    show h ∈ victims ++ s'.conns.filter (fun h => decide (h.id = key)) ↔ _
    rw [mem_append, mem_filter, hm.victims, hm.conns, mem_append, mem_singleton, decide_eq_true_iff]
    tauto
  · have hlive := hm.live
    have hlength : (s'.conns.filter fun h => decide (h.id ≠ key)).length +
        (s'.conns.filter fun h => decide (h.id = key)).length = s'.conns.length := by
      rw [← countP_eq_length_filter, ← countP_eq_length_filter,
        length_eq_countP_add_countP (fun h : Handle => decide (h.id = key)), add_comm]
      simp
    show s'.live - ((s'.conns.filter fun h => decide (h.id = key)).length : ℤ) -
      ((s'.conns.filter fun h => decide (h.id ≠ key)).length : ℤ) = _
    omega
  · intro k hk
    have hseq := hm.seq
    by_cases hkey : key = k
    · subst hkey
      exact ⟨s'.seq + 1, (hget key).trans (if_pos rfl), by omega, le_rfl⟩
    · have hin : k ∈ ids := by
        rcases mem_append.mp hk with hin | hin
        · exact hin
        · exact absurd (mem_singleton.mp hin).symm hkey
      obtain ⟨n, hn, hlt, hle⟩ := hm.marked k hin
      exact ⟨n, ((hget k).trans (if_neg hkey)).trans hn, hlt, hle.trans (Nat.le_succ _)⟩
  · exact fun k hk r hr => (hsame k hk).symm.trans hr
  · exact fun k hk r hr => .inl ((hsame k hk).trans hr)

theorem marking_foldl (s : UserSessions) (ids : List ℤ) (now : Time) :
    Marking s ids now (ids.foldl (revokeOne now) (s, [])).1
      (ids.foldl (revokeOne now) (s, [])).2 := by
  induction ids using List.reverseRecOn with
  | nil => exact marking_refl s now
  | append_singleton ids key ih =>
    rw [foldl_append]
    exact ih.revokeOne key

theorem get_prune (s : UserSessions) (now : Time) (key : ℤ) :
    (s.prune now).revoked.get key = s.revoked.get key ∨
      ∃ r, s.revoked.get key = some r ∧ revokedKeep < Time.sub now r.time ∧
        (s.prune now).revoked.get key = none := by
  unfold prune
  split_ifs with hmany
  · rw [Keyed.get_eraseAll]
    split_ifs with hold
    · obtain ⟨r, hr, rfl⟩ := mem_map.mp hold
      obtain ⟨hr, hage⟩ := mem_filter.mp hr
      exact .inr ⟨r, Keyed.mem_values.mp hr, of_decide_eq_true hage, rfl⟩
    · exact .inl rfl
  · exact .inl rfl

theorem revoked_revoke (s : UserSessions) (ids : List ℤ) (now : Time) :
    Revoked s ids now (s.revoke ids now).1 (s.revoke ids now).2 := by
  unfold revoke
  split_ifs with hids
  · subst hids
    exact (marking_refl s now).toRevoked
  · have hm := marking_foldl s ids now
    generalize ids.foldl (revokeOne now) (s, []) = p at hm
    have hframe : (p.1.prune now).conns = p.1.conns ∧ (p.1.prune now).live = p.1.live ∧
        (p.1.prune now).issued = p.1.issued ∧ (p.1.prune now).seq = p.1.seq := by
      unfold prune
      split_ifs <;> exact ⟨rfl, rfl, rfl, rfl⟩
    obtain ⟨hconns, hlive, hissued, hseq⟩ := hframe
    refine ⟨?_, hm.victims, ?_, hissued.trans hm.issued, hseq ▸ hm.seq, ?_, ?_, ?_⟩
    · rw [hconns]
      exact hm.conns
    · rw [hconns, hlive]
      exact hm.live
    · intro key hkey
      obtain ⟨n, hn, hlt, hle⟩ := hm.marked key hkey
      refine ⟨n, ?_, hlt, hseq ▸ hle⟩
      rcases p.1.get_prune now key with hsame | ⟨r, hr, hage, -⟩
      · exact hsame.trans hn
      · -- A mark made just now is not old.
        cases hn.symm.trans hr
        rw [Time.sub_of_fits (by simp [Duration.least]) (by simp [Duration.most]), sub_self] at hage
        exact absurd hage (by decide)
    · intro key hkey r hr
      rcases p.1.get_prune now key with hsame | ⟨-, -, -, hnone⟩
      · exact hm.stayed key hkey r (hsame ▸ hr)
      · rw [hnone] at hr
        cases hr
    · intro key hkey r hr
      have hbefore : p.1.revoked.get key = some r := (hm.same key hkey).trans hr
      rcases p.1.get_prune now key with hsame | ⟨r', hr', hage, -⟩
      · exact .inl (hsame.trans hbefore)
      · cases hbefore.symm.trans hr'
        exact .inr hage

end UserSessions

end Pandora.Dataplane
