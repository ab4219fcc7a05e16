import Pandora.Traffic.Buffer
import Mathlib.Algebra.BigOperators.Group.List.Basic

/-!
# What the buffer holds

Nothing that is given to the buffer disappears: it is pending, or sent, or among what the buffer
sheds for want of room (`Buffer.shed`), up to multiples of `2 ^ 64`, where a number of 64 bits
begins again.  `Buffer.addEntry_total` and `Buffer.seal_held` say so of each direction of each
user; the lemmas on sizes say that there is room.
-/

namespace Pandora.Traffic

open List Keyed Option Int Buffer

inductive Direction
  | upload | download
  deriving DecidableEq

def Entry.bytes {ν : Type} (d : Direction) (e : Entry ν) : ℕ :=
  match d with
  | .upload => e.upload
  | .download => e.download

/-- The bytes of one user of one node in one direction. -/
def total (d : Direction) (k : String × ℤ) (l : List (Entry String)) : ℕ :=
  ((l.filter fun e => e.key = k).map (·.bytes d)).sum

section Total

variable {d : Direction} {k : String × ℤ} {e : Entry String} {l l' : List (Entry String)}

@[simp] theorem total_nil : total d k [] = 0 := rfl

theorem total_cons : total d k (e :: l) = (if e.key = k then e.bytes d else 0) + total d k l := by
  unfold total
  by_cases h : e.key = k
  · rw [if_pos h, filter_cons_of_pos (by simpa using h), map_cons, sum_cons]
  · rw [if_neg h, filter_cons_of_neg (by simpa using h), zero_add]

theorem total_append : total d k (l ++ l') = total d k l + total d k l' := by
  unfold total
  rw [filter_append, map_append, sum_append]

theorem total_perm (h : l.Perm l') : total d k l = total d k l' :=
  ((h.filter _).map _).sum_eq

end Total

/-! ## Adding -/

/-- What the buffer sheds when an entry is added: the report, or the entry. -/
def Buffer.shed (b : Buffer) (e : Entry String) : List (Entry String) :=
  if e.upload = 0 ∧ e.download = 0 then []
  else
    match b.pending.get e.key with
    | some _ => []
    | none =>
      if b.size < maxBufferedTrafficUsers then []
      else if b.inflight.isSome then b.sent
      else [e]

/-- All that the buffer holds. -/
def Buffer.held (b : Buffer) : List (Entry String) := b.sent ++ b.pending.values

theorem Buffer.size_eq (b : Buffer) : b.size = b.held.length := by
  rw [size, held, length_append, add_comm]

/-- What one round of `add` leaves. -/
inductive Buffer.Added (b : Buffer) (e : Entry String) : Buffer → List (Entry String) → Prop
  | nothing (hzero : e.upload = 0 ∧ e.download = 0) : b.Added e b []
  | merged (cur : Entry String) (rest : List (Entry String)) (b' : Buffer) (hkey : cur.key = e.key)
      (hbefore : b.held.Perm (cur :: rest)) (hafter : b'.held.Perm (cur.merge e :: rest))
      (hinflight : b'.inflight = b.inflight) (hdropped : b'.droppedBytes = b.droppedBytes) :
      b.Added e b' []
  | opened (b' : Buffer) (hroom : b.size < maxBufferedTrafficUsers)
      (hafter : b'.held.Perm (e :: b.held))
      (hinflight : b'.inflight = b.inflight) (hdropped : b'.droppedBytes = b.droppedBytes) :
      b.Added e b' []
  | replaced (b' : Buffer) (hsome : b.inflight ≠ none)
      (hafter : b'.held.Perm (e :: b.pending.values)) (hinflight : b'.inflight = none)
      (hdropped : b'.droppedBytes = i64 (b.droppedBytes + entriesBytes b.sent)) :
      b.Added e b' b.sent
  | refused (b' : Buffer) (hafter : b'.held = b.held) (hinflight : b'.inflight = b.inflight)
      (hdropped : b'.droppedBytes = i64 (b.droppedBytes + i64 (u64 (e.upload + e.download)))) :
      b.Added e b' [e]

theorem Buffer.added (b : Buffer) (e : Entry String) : b.Added e (b.addEntry e).1 (b.shed e) := by
  unfold addEntry shed
  by_cases hzero : e.upload = 0 ∧ e.download = 0
  · rw [if_pos hzero, if_pos hzero]
    exact .nothing hzero
  · rw [if_neg hzero, if_neg hzero]
    cases hget : b.pending.get e.key with
    | some cur =>
      have hkey : cur.key = e.key := key_of_get hget
      have hbefore := values_of_mem (mem_of_get hget)
      have hafter := values_put b.pending (cur.merge e)
      refine .merged cur (b.sent ++ (b.pending.erase cur.key).values) _ hkey ?_ ?_ rfl rfl
      · exact (hbefore.append_left b.sent).trans perm_middle
      · exact (hafter.append_left b.sent).trans perm_middle
    | none =>
      have hput : (b.pending.put e).values.Perm (e :: b.pending.values) :=
        (values_put b.pending e).trans ((values_erase_of_none hget).cons e)
      split_ifs with hroom hsome
      · refine .opened _ hroom ?_ rfl rfl
        exact (hput.append_left b.sent).trans perm_middle
      · obtain ⟨r, hr⟩ := isSome_iff_exists.mp hsome
        have hsent : b.sent = r.entries := by
          rw [sent, hr]
          rfl
        rw [dropInflight, hr]
        refine .replaced _ (by rw [hr]; exact some_ne_none r) ?_ rfl ?_
        · exact hput
        · rw [hsent]
      · exact .refused _ rfl rfl rfl

/-- **What is given is held or shed**, up to multiples of `2 ^ 64`. -/
theorem Buffer.addEntry_total (b : Buffer) (e : Entry String) (d : Direction) (k : String × ℤ) :
    ∃ wraps, total d k (b.addEntry e).1.held + total d k (b.shed e) + 2 ^ 64 * wraps =
      total d k (e :: b.held) := by
  have hadded := b.added e
  generalize (b.addEntry e).1 = b' at hadded ⊢
  generalize b.shed e = shed at hadded ⊢
  rw [total_cons]
  cases hadded with
  | nothing hzero =>
    refine ⟨0, ?_⟩
    have hbytes : e.bytes d = 0 := by
      cases d
      · exact hzero.1
      · exact hzero.2
    rw [hbytes, ite_self, total_nil]
    omega
  | merged cur rest b' hkey hbefore hafter =>
    rw [total_perm hafter, total_perm hbefore, total_cons, total_cons, total_nil]
    have hmerge : (cur.merge e).bytes d = (cur.bytes d + e.bytes d) % 2 ^ 64 := by
      cases d <;> rfl
    have hsame : (cur.merge e).key = e.key := hkey
    rw [hsame, hkey, hmerge]
    by_cases hk : e.key = k
    · refine ⟨(cur.bytes d + e.bytes d) / 2 ^ 64, ?_⟩
      rw [if_pos hk, if_pos hk, if_pos hk]
      omega
    · refine ⟨0, ?_⟩
      rw [if_neg hk, if_neg hk, if_neg hk]
      omega
  | opened b' hroom hafter =>
    refine ⟨0, ?_⟩
    rw [total_perm hafter, total_cons, total_nil]
    omega
  | replaced b' hsome hafter =>
    refine ⟨0, ?_⟩
    unfold held
    rw [show b'.sent ++ b'.pending.values = b'.held from rfl, total_perm hafter, total_cons,
      total_append]
    omega
  | refused b' hafter =>
    refine ⟨0, ?_⟩
    rw [hafter, total_cons, total_nil]
    omega

theorem Buffer.addEntry_size {b : Buffer} (e : Entry String)
    (hsize : b.size ≤ maxBufferedTrafficUsers) (hsent : b.inflight ≠ none → b.sent ≠ []) :
    (b.addEntry e).1.size ≤ maxBufferedTrafficUsers := by
  have hadded := b.added e
  generalize (b.addEntry e).1 = b' at hadded ⊢
  generalize b.shed e = shed at hadded
  rw [size_eq] at hsize ⊢
  cases hadded with
  | nothing => exact hsize
  | merged cur rest b' _ hbefore hafter =>
    rw [hafter.length_eq, length_cons]
    rw [hbefore.length_eq, length_cons] at hsize
    exact hsize
  | opened b' hroom hafter =>
    rw [hafter.length_eq, length_cons]
    rw [size_eq] at hroom
    omega
  | replaced b' hsome hafter =>
    have hpos : 0 < b.sent.length := length_pos_iff.mpr (hsent hsome)
    rw [held, length_append] at hsize
    rw [hafter.length_eq, length_cons]
    omega
  | refused b' hafter =>
    rw [hafter]
    exact hsize

/-! ## The counter of what is dropped -/

/-- The bytes of a list of entries. -/
def bytesOf (l : List (Entry String)) : ℤ :=
  (l.map fun e => ((e.upload + e.download : ℕ) : ℤ)).sum

theorem i64_add_u64 (a : ℤ) (n : ℕ) : i64 (a + i64 (u64 n)) = i64 (a + n) := by
  unfold i64 u64
  rw [add_bmod_bmod, natCast_emod, add_emod_bmod]

theorem i64_i64_add (a b : ℤ) : i64 (i64 a + b) = i64 (a + b) := bmod_add_bmod

theorem i64_add_foldl (a n : ℤ) (l : List (Entry String)) :
    i64 (a + l.foldl (fun n e => i64 (n + i64 (u64 (e.upload + e.download)))) n) =
      i64 (a + n + bytesOf l) := by
  induction l generalizing n with
  | nil =>
    rw [bytesOf, map_nil, sum_nil, add_zero]
    rfl
  | cons e l ih =>
    rw [foldl_cons, ih, i64_add_u64, add_assoc, add_comm, add_assoc, i64_i64_add]
    unfold bytesOf
    rw [map_cons, sum_cons]
    congr 1
    omega

theorem Buffer.addEntry_dropped (b : Buffer) (e : Entry String)
    (hrange : i64 b.droppedBytes = b.droppedBytes) :
    (b.addEntry e).1.droppedBytes = i64 (b.droppedBytes + bytesOf (b.shed e)) := by
  have hadded := b.added e
  generalize (b.addEntry e).1 = b' at hadded ⊢
  generalize b.shed e = shed at hadded ⊢
  have hnone : i64 (b.droppedBytes + bytesOf []) = b.droppedBytes := by
    rw [show bytesOf [] = 0 from rfl, add_zero, hrange]
  cases hadded with
  | nothing => exact hnone.symm
  | merged cur rest b' _ _ _ _ hdropped | opened b' _ _ _ hdropped =>
    exact hdropped.trans hnone.symm
  | replaced b' _ _ _ hdropped =>
    rw [hdropped]
    rw [entriesBytes, i64_add_foldl, add_zero]
  | refused b' _ _ hdropped =>
    rw [hdropped, i64_add_u64]
    rw [bytesOf, map_cons, map_nil, sum_cons, sum_nil, add_zero]

/-! ## Sealing -/

theorem Buffer.batch_append (b : Buffer) : b.pending.values.Perm (b.batch ++
      (b.pending.values.insertionSort Entry.Before).drop maxTrafficEntriesPerReport) := by
  rw [batch, take_append_drop]
  exact (perm_insertionSort _ _).symm

theorem Buffer.seal_held (b : Buffer) (id : String) : (b.seal id).held.Perm b.held := by
  unfold Buffer.seal
  split_ifs with h
  · exact List.Perm.refl _
  · have hnone : b.inflight = none := not_isSome_iff_eq_none.mp fun hsome => h (.inl hsome)
    have hsent : b.held = b.pending.values := by
      rw [Buffer.held, sent, hnone]
      rfl
    rw [hsent]
    exact ((values_eraseAll b.batch_append).append_left b.batch).trans b.batch_append.symm

theorem Buffer.batch_ne_nil {b : Buffer} (h : b.pending.values ≠ []) : b.batch ≠ [] := by
  intro hnil
  have htake : b.batch.length = min maxTrafficEntriesPerReport b.pending.values.length := by
    rw [batch, length_take, (perm_insertionSort _ _).length_eq]
  have hpos := length_pos_iff.mpr h
  rw [hnil] at htake
  have hmax : maxTrafficEntriesPerReport = 5000 := rfl
  rw [length_nil] at htake
  omega

end Pandora.Traffic
