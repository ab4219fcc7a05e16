import Mathlib.Algebra.Order.Ring.Int
import Mathlib.Data.List.Nodup
import Mathlib.Logic.Function.Basic
import Pandora.Foundation.Runs

/-!
# The registry of connections that are drained

A connection that has failed to authenticate is read on until its peer closes it.  `drainRegistry`
has these connections twice, in one queue and in one queue for each source, the oldest first in
both.  Where a source or the table has no place left, a registration evicts the oldest entry.

The queue of a source is always the part of the queue of all that is of the source.  No queue is
longer than it may be, so each loop of `register` runs once at most, and only one of the two does.
-/

namespace Pandora.Dataplane.Drains

open List Function

/-- `drainEntry`; its address is the number of entries that were made before it. -/
structure Entry where
  ptr : ℕ
  conn : ℕ
  source : String
  deriving DecidableEq

/-- `drainRegistry` and `drainActive`, and what has become of the entries. -/
structure Registry where
  all : List Entry := []
  bySource : String → Option (List Entry) := fun _ => none
  active : ℤ := 0
  /-- The entries that have `evicted` set, and the connections that were closed for it. -/
  evicted : List Entry := []
  closed : List ℕ := []
  /-- How many entries have been made, and those that `unregister` has taken out. -/
  made : ℕ := 0
  released : List Entry := []

namespace Registry

/-- The queue of a source; a source that is not in the map has none. -/
def queue (r : Registry) (source : String) : List Entry := (r.bySource source).getD []

/-- A queue as the map keeps it: not at all if it is empty. -/
def nonempty : List Entry → Option (List Entry)
  | [] => none
  | queue => some queue

def removeLocked (r : Registry) (e : Entry) : Registry :=
  { r with
    all := r.all.erase e
    bySource := update r.bySource e.source
      ((r.bySource e.source).bind fun queue => nonempty (queue.erase e))
    active := r.active - 1 }

/-- `evictLocked`; the connection is closed when the lock has been given back. -/
def evictLocked (r : Registry) (e : Entry) : Registry :=
  { r.removeLocked e with evicted := r.evicted ++ [e], closed := r.closed ++ [e.conn] }

def unregister (r : Registry) (e : Entry) : Registry :=
  if e ∈ r.evicted then r else { r.removeLocked e with released := r.released ++ [e] }

/-- A loop of `register`: the front of a queue is evicted while there is no place in it. -/
def evictWhile (q : Registry → List Entry) (most : ℤ) : ℕ → Registry → Registry
  | 0, r => r
  | n + 1, r => match q r with
    | [] => r
    | e :: rest => if most ≤ (e :: rest).length then evictWhile q most n (r.evictLocked e) else r

/-- The map has a queue for the source, a new one if there was none. -/
def newQueue (r : Registry) (source : String) : Registry :=
  { r with bySource := update r.bySource source (some (r.queue source)) }

def pushBack (r : Registry) (e : Entry) : Registry :=
  { r with
    all := r.all ++ [e]
    bySource := update r.bySource e.source (some (r.queue e.source ++ [e]))
    active := r.active + 1
    made := r.made + 1 }

def register (r : Registry) (maxAll maxSource : ℤ) (conn : ℕ) (source : String) : Registry :=
  if maxAll ≤ 0 ∨ maxSource ≤ 0 then r
  else
    let r₁ := r.newQueue source
    -- A queue that has been emptied is no longer in the map, as one that was never there.
    let r₂ := evictWhile (·.queue source) maxSource (r₁.queue source).length r₁
    let r₃ := evictWhile (·.all) maxAll r₂.all.length r₂
    (r₃.newQueue source).pushBack ⟨r.made, conn, source⟩

/-- The oldest entry of the source, if that has no place left; otherwise the oldest of all, if the
table has none. -/
def evictees (r : Registry) (maxAll maxSource : ℤ) (source : String) : List Entry :=
  if maxSource ≤ (r.queue source).length then (r.queue source).take 1
  else if maxAll ≤ r.all.length then r.all.take 1 else []

end Registry

open Registry

inductive Label
  /-- A connection is registered. -/
  | register (conn : ℕ) (source : String)
  /-- The owner of an entry unregisters it, who has not done so before. -/
  | unregister (e : Entry)

def next (maxAll maxSource : ℤ) (r : Registry) : Label → Registry
  | .register conn source => r.register maxAll maxSource conn source
  | .unregister e => if e ∈ r.all ∨ e ∈ r.evicted then r.unregister e else r

/-- The queues agree and are not too long, and every entry is in them or has left once.  In the
middle of `register` the queue of the source `new` may be empty. -/
structure Sound (G S : ℤ) (new : Option String) (r : Registry) : Prop where
  queues : ∀ source, r.queue source = r.all.filter (·.source = source)
  active : r.active = r.all.length
  ordered : r.all.Pairwise (·.ptr < ·.ptr)
  once : (r.all ++ (r.evicted ++ r.released)).map (·.ptr) ~ range r.made
  closed : r.closed = r.evicted.map (·.conn)
  short : r.all.length ≤ G
  shortSource : ∀ source, (r.queue source).length ≤ S
  kept : ∀ source, r.bySource source = some [] → new = some source

/-- An entry has left both of its queues, and its connection has not been closed. -/
structure Left (r : Registry) (e : Entry) (r' : Registry) : Prop where
  all : r'.all = r.all.erase e
  out : e ∉ r'.all
  outSource : e ∉ r'.queue e.source
  active : r'.active = r.active - 1
  released : r'.released = r.released ++ [e]
  closed : r'.closed = r.closed

variable {r : Registry} {e : Entry} {source : String} {G S : ℤ} {new : Option String}

theorem queue_removeLocked : (r.removeLocked e).queue source =
    if source = e.source then (r.queue source).erase e else r.queue source := by
  unfold Registry.queue removeLocked
  dsimp only
  split_ifs with hs
  · rw [hs, update_self]
    cases r.bySource e.source with
    | none => rfl
    | some queue =>
      show (nonempty (queue.erase e)).getD [] = queue.erase e
      cases queue.erase e <;> rfl
  · rw [update_of_ne hs]

theorem length_queue_removeLocked :
    ((r.removeLocked e).queue source).length ≤ (r.queue source).length := by
  rw [queue_removeLocked]
  split_ifs
  · exact erase_sublist.length_le
  · exact le_rfl

theorem queue_update (queue : List Entry) (s : String) :
    (update r.bySource source (some queue) s).getD [] = if s = source then queue
      else r.queue s := by
  rw [update_apply]
  split_ifs <;> rfl

theorem queue_newQueue (s : String) : (r.newQueue source).queue s = r.queue s := by
  refine (queue_update _ s).trans (ite_eq_right_iff.mpr ?_)
  rintro rfl
  rfl

namespace Sound

section

variable (h : Sound G S new r)
include h

theorem remove (he : e ∈ r.all) {evicted released : List Entry} {closed : List ℕ}
    (hleft : evicted ++ released ~ e :: (r.evicted ++ r.released))
    (hclosed : closed = evicted.map (·.conn)) : Sound G S new
      { r.removeLocked e with evicted := evicted, released := released, closed := closed } where
  queues source := by
    show (r.removeLocked e).queue source = (r.all.erase e).filter _
    rw [queue_removeLocked, h.queues, ← erase_filter]
    split_ifs with hs
    · rfl
    · exact (erase_of_not_mem fun hin => hs (of_decide_eq_true (mem_filter.mp hin).2).symm).symm
  active := by
    have hpos := length_pos_of_mem he
    show r.active - 1 = ((r.all.erase e).length : ℤ)
    rw [h.active, length_erase_of_mem he]
    omega
  ordered := h.ordered.sublist erase_sublist
  once := by
    refine Perm.trans (Perm.map _ ?_) h.once
    calc
      r.all.erase e ++ (evicted ++ released) ~ r.all.erase e ++ e :: (r.evicted ++ r.released) :=
        hleft.append_left _
      _ ~ e :: r.all.erase e ++ (r.evicted ++ r.released) := perm_middle
      _ ~ r.all ++ (r.evicted ++ r.released) := (perm_cons_erase he).symm.append_right _
  closed := hclosed
  short := (Int.ofNat_le.mpr erase_sublist.length_le).trans h.short
  shortSource source := (Int.ofNat_le.mpr length_queue_removeLocked).trans (h.shortSource source)
  kept source hempty := by
    change update r.bySource e.source _ source = some [] at hempty
    rw [update_apply] at hempty
    split_ifs at hempty
    · obtain ⟨queue, -, hqueue⟩ := Option.bind_eq_some_iff.mp hempty
      cases hq : queue.erase e <;> simp [nonempty, hq] at hqueue
    · exact h.kept source hempty

theorem evictLocked (he : e ∈ r.all) : Sound G S new (r.evictLocked e) := by
  refine h.remove he ?_ ?_
  · rw [append_assoc]
    exact perm_middle
  · rw [h.closed, map_append]
    rfl

theorem newQueue (hnew : ∀ s, new = some s → s = source) :
    Sound G S (some source) (r.newQueue source) where
  __ := h
  queues s := (queue_newQueue s).trans (h.queues s)
  shortSource s := queue_newQueue (r := r) s ▸ h.shortSource s
  kept s hempty := by
    by_contra hs
    have hne : s ≠ source := fun heq => hs (congrArg some heq.symm)
    exact hne (hnew s (h.kept s ((update_of_ne hne _ _).symm.trans hempty)))

end

theorem pushBack (h : Sound G S (some e.source) r) (hptr : e.ptr = r.made)
    (hroom : r.all.length < G) (hplace : (r.queue e.source).length < S) :
    Sound G S none (r.pushBack e) where
  queues source := by
    refine (queue_update _ source).trans ?_
    show _ = (r.all ++ [e]).filter _
    rw [filter_append, ← h.queues]
    split_ifs with hs
    · simp [hs]
    · simp [Ne.symm hs]
  active := by
    show r.active + 1 = ((r.all ++ [e]).length : ℤ)
    rw [h.active, length_append]
    rfl
  ordered := by
    refine pairwise_append.mpr ⟨h.ordered, pairwise_singleton _ _, fun x hx y hy => ?_⟩
    have hin : x.ptr ∈ range r.made := h.once.mem_iff.mp (mem_map_of_mem (mem_append_left _ hx))
    rw [mem_singleton.mp hy, hptr]
    exact mem_range.mp hin
  once := by
    show (r.all ++ [e] ++ (r.evicted ++ r.released)).map _ ~ range (r.made + 1)
    rw [append_assoc, range_succ]
    refine (perm_middle.map _).trans ((h.once.cons e.ptr).trans ?_)
    exact hptr ▸ (perm_append_singleton _ _).symm
  closed := h.closed
  short := by
    show ((r.all ++ [e]).length : ℤ) ≤ G
    rw [length_append, length_singleton]
    omega
  shortSource source := by
    have hshort := h.shortSource source
    rw [show (r.pushBack e).queue source = _ from queue_update _ source]
    split_ifs
    · rw [length_append, length_singleton]
      omega
    · exact hshort
  kept source hempty := by
    change update r.bySource e.source _ source = some [] at hempty
    rw [update_apply] at hempty
    split_ifs at hempty with hs
    · simp at hempty
    · exact absurd (Option.some.inj (h.kept source hempty)).symm hs

theorem place (h : Sound G S (some source) r) (hroom : r.all.length < G)
    (hplace : (r.queue source).length < S) (conn : ℕ) :
    Sound G S none ((r.newQueue source).pushBack ⟨r.made, conn, source⟩) := by
  refine (h.newQueue fun _ hs => (Option.some.inj hs).symm).pushBack rfl hroom ?_
  rw [queue_newQueue]
  exact hplace

end Sound

/-! ## Registration -/

section Loop

variable {q : Registry → List Entry} {most : ℤ}

theorem evictWhile_of_lt (hlt : (q r).length < most) (n : ℕ) : evictWhile q most n r = r := by
  cases n with
  | zero => rfl
  | succ n =>
    rw [evictWhile]
    cases hq : q r with
    | nil => rfl
    | cons x rest =>
      rw [hq] at hlt
      exact if_neg (not_le.mpr hlt)

theorem evictWhile_of_room {rest : List Entry} (hq : q r = e :: rest) (hfull : most ≤ (q r).length)
    (hroom : (q (r.evictLocked e)).length < most) :
    evictWhile q most (q r).length r = r.evictLocked e := by
  rw [hq] at hfull ⊢
  rw [length_cons, evictWhile]
  simp only [hq, if_pos hfull]
  exact evictWhile_of_lt hroom _

end Loop

namespace Sound

/-- **One registration** evicts one entry at most. -/
theorem register (h : Sound G S none r) (hall : 1 ≤ G) (hsource : 1 ≤ S) (conn : ℕ)
    (source : String) : Sound G S none (r.register G S conn source) ∧
      (r.register G S conn source).evicted = r.evicted ++ r.evictees G S source := by
  have hq : (r.newQueue source).queue source = r.queue source := queue_newQueue _
  have h₁ : Sound G S (some source) (r.newQueue source) := h.newQueue nofun
  have hleft : ∀ x ∈ r.all, ((r.all.erase x).length : ℤ) < G := fun x hx => by
    have hshort := h.short
    rw [length_erase_of_mem hx]
    omega
  unfold Registry.register evictees
  rw [if_neg (by omega)]
  dsimp only
  split_ifs with hfull hfullAll
  · obtain ⟨x, rest, hx⟩ := exists_cons_of_length_pos (Int.natCast_pos.mp (hsource.trans hfull))
    have hmem : x ∈ r.queue source := hx ▸ mem_cons_self
    rw [h.queues, mem_filter, decide_eq_true_eq] at hmem
    have hplace : (((r.newQueue source).evictLocked x).queue source).length < S := by
      have hshort := h.shortSource source
      rw [show ((r.newQueue source).evictLocked x).queue source = _ from queue_removeLocked,
        if_pos hmem.2.symm, hq, hx, erase_cons_head]
      rw [hx, length_cons] at hshort
      omega
    rw [evictWhile_of_room (q := (·.queue source)) (hq.trans hx) (hq ▸ hfull) hplace,
      evictWhile_of_lt (q := (·.all)) (hleft x hmem.1), hx]
    exact ⟨(h₁.evictLocked hmem.1).place (hleft x hmem.1) hplace conn, rfl⟩
  · rw [evictWhile_of_lt (q := (·.queue source)) (hq ▸ not_le.mp hfull)]
    obtain ⟨x, rest, hx⟩ := exists_cons_of_length_pos (Int.natCast_pos.mp (hall.trans hfullAll))
    have hmem : x ∈ r.all := hx ▸ mem_cons_self
    have hplace : (((r.newQueue source).evictLocked x).queue source).length < S :=
      (Int.ofNat_le.mpr length_queue_removeLocked).trans_lt (hq ▸ not_le.mp hfull)
    rw [evictWhile_of_room (q := (·.all)) (r := r.newQueue source) hx hfullAll (hleft x hmem), hx]
    exact ⟨(h₁.evictLocked hmem).place (hleft x hmem) hplace conn, rfl⟩
  · rw [evictWhile_of_lt (q := (·.queue source)) (hq ▸ not_le.mp hfull),
      evictWhile_of_lt (q := (·.all)) (r := r.newQueue source) (not_le.mp hfullAll), append_nil]
    exact ⟨h₁.place (not_le.mp hfullAll) (hq ▸ not_le.mp hfull) conn, rfl⟩

theorem next (h : Sound G S none r) (hall : 1 ≤ G) (hsource : 1 ≤ S) (l : Label) :
    Sound G S none (next G S r l) := by
  cases l with
  | register conn source => exact (h.register hall hsource conn source).1
  | unregister e =>
    simp only [Drains.next, Registry.unregister]
    split_ifs with howned hevicted
    · exact h
    · refine h.remove (howned.resolve_right hevicted) ?_ h.closed
      rw [← append_assoc]
      exact perm_append_singleton _ _
    · exact h

theorem not_mem_evicted (h : Sound G S new r) (he : e ∈ r.all) :
    e ∉ r.evicted ∧ e ∉ r.all.erase e := by
  have hnodup := (h.once.nodup_iff.mpr nodup_range).of_map
  rw [nodup_append', disjoint_append_right] at hnodup
  obtain ⟨hall, -, hevicted, -⟩ := hnodup
  exact ⟨hevicted he, hall.not_mem_erase⟩

theorem unregister (h : Sound G S new r) (he : e ∈ r.all) :
    Left r e (Drains.next G S r (.unregister e)) := by
  obtain ⟨hevicted, hout⟩ := h.not_mem_evicted he
  have hqueue : (r.removeLocked e).queue e.source =
      (r.all.erase e).filter (·.source = e.source) := by
    rw [queue_removeLocked, if_pos rfl, h.queues, ← erase_filter]
  rw [Drains.next, if_pos (.inl he), Registry.unregister, if_neg hevicted]
  exact ⟨rfl, hout, fun hin => hout (mem_filter.mp (hqueue ▸ hin)).1, rfl, rfl, rfl⟩

end Sound

/-- **The registry stays sound**, however calls come.  The queues agree, none is longer than it may
be, and none is kept that is empty; every entry that was made is still in them or has left once, and
those that were evicted had their connections closed.  A registration evicts the oldest entry of its
source if the source is full, the oldest of all if only the table is, and otherwise none; so it
evicts no entry of another source while the table is not full.  An entry that is unregistered leaves
both of its queues, and one that was evicted before is not counted again. -/
theorem drains_sound (hall : 1 ≤ G) (hsource : 1 ≤ S) (labels : List Label) :
    let r := labels.foldl (next G S) {}
    Sound G S none r ∧
    (∀ conn source,
      (r.register G S conn source).evicted = r.evicted ++ r.evictees G S source ∧
      (r.all.length < G → ∀ e ∈ r.evictees G S source, e.source = source)) ∧
    (∀ e ∈ r.all, Left r e (next G S r (.unregister e))) ∧
    ∀ e ∈ r.evicted, next G S r (.unregister e) = r := by
  intro r
  have hempty : Sound G S none {} :=
    ⟨fun _ => rfl, rfl, .nil, .nil, rfl, Int.le_of_lt hall, fun _ => Int.le_of_lt hsource, nofun⟩
  have hr : Sound G S none r :=
    Runs.run_invariant (fun _ l h => h.next hall hsource l) labels hempty
  refine ⟨hr, fun conn source => ⟨(hr.register hall hsource conn source).2, fun hroom e he => ?_⟩,
    fun _ => hr.unregister, fun e he => (if_pos (.inr he)).trans (if_pos he)⟩
  unfold evictees at he
  split_ifs at he with hfull hfullAll
  · have hin := mem_of_mem_take he
    rw [hr.queues] at hin
    exact of_decide_eq_true (mem_filter.mp hin).2
  · exact absurd hfullAll (not_le.mpr hroom)
  · cases he

/-- Two connections of one source, of which it may have one, and two more, of which one leaves. -/
def fourConns : List Label :=
  [.register 10 "a", .register 11 "a", .register 12 "b", .register 13 "c", .unregister ⟨2, 12, "b"⟩,
    .unregister ⟨0, 10, "a"⟩]

theorem fourConns_sound :
    let r := fourConns.foldl (next 2 1) {}
    r.closed = [10, 11] ∧ r.released = [⟨2, 12, "b"⟩] ∧ r.all = [⟨3, 13, "c"⟩] ∧ Sound 2 1 none r ∧
      (next 2 1 r (.unregister ⟨3, 13, "c"⟩)).active = 0 := by
  obtain ⟨hsound, -, hleaves, -⟩ := drains_sound (G := 2) (S := 1) (by decide) (by decide) fourConns
  refine ⟨by decide +kernel, by decide +kernel, by decide +kernel, hsound, ?_⟩
  exact (hleaves _ (by decide +kernel)).active.trans (by decide +kernel)

end Pandora.Dataplane.Drains
