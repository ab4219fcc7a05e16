import Mathlib.Algebra.Order.BigOperators.Group.List
import Mathlib.Algebra.Order.Group.Nat
import Pandora.Foundation.Clock
import Pandora.Foundation.Runs

/-!
# A key passes once

`replayFilter` keeps the keys it has let pass in generations of one period each, and forgets the
oldest generation when it begins a new one.  So a key is remembered for at least the periods that
are kept but one, and for at most all of them: it is the generation that is forgotten, wherever in
it the key came.

Behind it is one invariant (`Turned`): the first `n` generations hold what was let pass since the
`n`-th last of them began.
-/

namespace Pandora.Dataplane.ReplayFilter

open List Function Runs Int
open Time (zeroTime)

variable {κ : Type}

/-- `replayFilter`, the current generation first.  Times are in nanoseconds since 1970. -/
structure Filter (κ : Type) where
  period : ℤ
  maxPerGen : ℕ
  gens : List (List κ)
  started : ℤ

/-- `newReplayFilter`. -/
def new (period : ℤ) (keep maxPerGen : ℕ) : Filter κ :=
  ⟨period, maxPerGen, replicate (max keep 2) [], zeroTime⟩

/-- `shiftLocked`. -/
def shift (gens : List (List κ)) : List (List κ) := [] :: gens.dropLast

/-- `rotateLocked`. -/
def Filter.rotate (f : Filter κ) (now : ℤ) : Filter κ :=
  if f.started = zeroTime then { f with started := now }
  else if Time.sub now f.started < f.period then f
  else { f with
    gens := shift^[min (Time.sub now f.started / f.period).toNat f.gens.length] f.gens
    started := f.started + Time.sub now f.started / f.period * f.period }

def Filter.Seen (f : Filter κ) (key : κ) : Prop := ∃ g ∈ f.gens, key ∈ g

instance [DecidableEq κ] (f : Filter κ) (key : κ) : Decidable (f.Seen key) :=
  inferInstanceAs (Decidable (∃ g ∈ f.gens, key ∈ g))

/-- A key that has not been seen is written down. -/
def Filter.add (f : Filter κ) (key : κ) (now : ℤ) : Filter κ :=
  if f.maxPerGen ≤ (f.gens.headD []).length then
    { f with gens := (shift f.gens).modifyHead (key :: ·), started := now }
  else { f with gens := f.gens.modifyHead (key :: ·) }

def Filter.check [DecidableEq κ] (f : Filter κ) (key : κ) (now : ℤ) : Bool × Filter κ :=
  if (f.rotate now).Seen key then (false, f.rotate now) else (true, (f.rotate now).add key now)

/-- A filter, the time of its last check, and what it has let pass, and when. -/
structure Watched (κ : Type) where
  filter : Filter κ
  now : ℤ
  passed : List (κ × ℤ) := []

def next [DecidableEq κ] (s : Watched κ) (c : κ × ℤ) : Watched κ where
  filter := (s.filter.check c.1 c.2).2
  now := c.2
  passed := if (s.filter.check c.1 c.2).1 then c :: s.passed else s.passed

/-! ## What is kept -/

section Holds

variable {k : ℕ} {p s s' : ℤ} {gens : List (List κ)} {passed : List (κ × ℤ)}

/-- The generations after `passed`, where the current one began at `s`. -/
structure Holds (k : ℕ) (p : ℤ) (gens : List (List κ)) (s : ℤ) (passed : List (κ × ℤ)) : Prop where
  length : gens.length = k
  early : ∀ x t, (x, t) ∈ passed → t < s + p
  mem : ∀ n ≤ k, ∀ x, (∃ g ∈ gens.take n, x ∈ g) ↔ ∃ t, (x, t) ∈ passed ∧ s + p ≤ t + n * p

theorem take_shift {n : ℕ} (hn : n < gens.length) :
    (shift gens).take (n + 1) = [] :: gens.take n := by
  rw [shift, take_succ_cons, dropLast_eq_take, take_take, min_eq_left (Nat.le_sub_one_of_lt hn)]

theorem length_shift (h : 0 < gens.length) : (shift gens).length = gens.length := by
  rw [shift, length_cons, length_dropLast, Nat.sub_add_cancel h]

section

variable (h : Holds k p gens s passed)
include h

theorem Holds.shift (hk : 0 < k) (hp : 0 < p) : Holds k p (shift gens) (s + p) passed := by
  have hlen := h.length
  refine ⟨by rw [length_shift (by omega), hlen], fun x t ht => ?_, fun n hn x => ?_⟩
  · have := h.early x t ht
    omega
  · cases n with
    | zero =>
      simp only [take_zero, not_mem_nil, false_and, exists_false, false_iff, not_exists, not_and]
      intro t ht
      have := h.early x t ht
      simp
      omega
    | succ n =>
      rw [take_shift (by omega)]
      simp only [mem_cons, exists_eq_or_imp, not_mem_nil, false_or, h.mem n (by omega) x]
      refine exists_congr fun t => and_congr_right fun _ => ?_
      push_cast
      rw [add_mul, one_mul]
      omega

theorem Holds.shifts (hk : 0 < k) (hp : 0 < p) (m : ℕ) :
    Holds k p (ReplayFilter.shift^[m] gens) (s + m * p) passed := by
  induction m with
  | zero => simpa using h
  | succ m ih =>
    rw [iterate_succ_apply']
    have := ih.shift hk hp
    rwa [add_assoc, ← add_one_mul, ← Nat.cast_succ] at this

theorem Holds.later (hp : 0 < p) (hs : s ≤ s')
    (hnone : ∀ x t, (x, t) ∈ passed → t + k * p < s + p) : Holds k p gens s' passed := by
  refine ⟨h.length, fun x t ht => (h.early x t ht).trans_le (by omega), fun n hn x => ?_⟩
  have hle : (n : ℤ) * p ≤ k * p := mul_le_mul_of_nonneg_right (ofNat_le.mpr hn) hp.le
  rw [h.mem n hn x]
  refine exists_congr fun t => and_congr_right fun ht => ?_
  have := hnone x t ht
  constructor <;> intro <;> omega

end

end Holds

/-! ## One check -/

section Check

variable {k m : ℕ} {p t₀ u : ℤ} {f : Filter κ} {passed : List (κ × ℤ)} {s : Watched κ} {x : κ}

/-- The filter at the time of a check: its current generation has begun, and goes on. -/
structure Turned (k : ℕ) (p t₀ : ℤ) (f : Filter κ) (passed : List (κ × ℤ)) (now : ℤ) : Prop where
  holds : Holds k p f.gens f.started passed
  period : f.period = p
  first : t₀ ≤ f.started
  begun : f.started ≤ now
  ends : now < f.started + p

/-- The filter between checks, the first of which is not before `t₀`. -/
def Inv (k : ℕ) (p t₀ : ℤ) (s : Watched κ) : Prop :=
  Turned k p t₀ s.filter s.passed s.now ∨
    s.filter.period = p ∧ s.filter.started = zeroTime ∧ s.passed = [] ∧ t₀ ≤ s.now ∧
      s.filter.gens = replicate k []

theorem holds_replicate (now : ℤ) : Holds k p (replicate k ([] : List κ)) now [] := by
  refine ⟨length_replicate, nofun, fun n hn x => ?_⟩
  simp only [take_replicate, not_mem_nil, false_and, exists_false, iff_false, not_exists, not_and]
  intro g hg
  rw [eq_of_mem_replicate hg]
  exact not_mem_nil

theorem Inv.rotate (h : Inv k p t₀ s) (hk : 0 < k) (hp : 0 < p) (hzero : zeroTime < t₀)
    (hu : s.now ≤ u) (hmax : u < t₀ + 2 ^ 63) : Turned k p t₀ (s.filter.rotate u) s.passed u := by
  unfold Filter.rotate
  rcases h with h | ⟨hperiod, hzero', hpassed, hnow, hgens⟩
  · have hfirst := h.first
    have hbegun := h.begun
    rw [if_neg (by omega), Time.sub_of_fits (by unfold Duration.least; omega)
      (by unfold Duration.most; omega), h.period, h.holds.length]
    split_ifs with hlt
    · exact ⟨h.holds, h.period, hfirst, by omega, by omega⟩
    · -- `q` periods have gone by; of the generations before, no more than there are can be dropped.
      obtain ⟨q, hq⟩ : ∃ q : ℕ, (u - s.filter.started) / p = q :=
        eq_ofNat_of_zero_le (ediv_nonneg (by omega) hp.le)
      have hmul := mul_ediv_self_le (x := u - s.filter.started) hp.ne'
      have hlt' := lt_mul_ediv_self_add (x := u - s.filter.started) hp
      rw [hq, mul_comm] at hmul hlt'
      rw [hq, toNat_natCast]
      refine ⟨?_, rfl, ?_, by dsimp only; omega, by dsimp only; omega⟩
      all_goals dsimp only
      · obtain hle | hle := le_total q k
        · rw [min_eq_left hle]
          exact h.holds.shifts hk hp q
        · rw [min_eq_right hle]
          have hle' : (k : ℤ) * p ≤ q * p := mul_le_mul_of_nonneg_right (ofNat_le.mpr hle) hp.le
          refine (h.holds.shifts hk hp k).later hp (by omega) fun x t ht => ?_
          have := h.holds.early x t ht
          omega
      · have : 0 ≤ (q : ℤ) * p := mul_nonneg (natCast_nonneg q) hp.le
        omega
  · rw [if_pos hzero', hpassed, hgens]
    exact ⟨holds_replicate u, hperiod, by dsimp only; omega, le_rfl, by dsimp only; omega⟩

theorem Turned.seen_iff (h : Turned k p t₀ f passed u) :
    f.Seen x ↔ ∃ t, (x, t) ∈ passed ∧ f.started + p ≤ t + k * p := by
  rw [← h.holds.mem k le_rfl x, ← h.holds.length, take_length]
  rfl

theorem Turned.add (h : Turned k p t₀ f passed u) (hk : 0 < k)
    (hfull : (f.gens.headD []).length < f.maxPerGen) :
    Turned k p t₀ (f.add x u) ((x, u) :: passed) u := by
  have hbegun := h.begun
  have hends := h.ends
  have hlen := h.holds.length
  obtain ⟨g, gens, hgens⟩ : ∃ g gens, f.gens = g :: gens := exists_cons_of_length_pos (hlen ▸ hk)
  rw [Filter.add, if_neg (not_le.mpr hfull)]
  refine ⟨⟨by rw [length_modifyHead, hlen], fun y t ht => ?_, fun n hn y => ?_⟩, h.period,
    h.first, hbegun, hends⟩
  · obtain ⟨rfl, rfl⟩ | ht := (mem_cons.mp ht).imp_left Prod.mk.inj
    · exact hends
    · exact h.holds.early y t ht
  · have hmem := h.holds.mem n hn y
    rw [hgens] at hmem ⊢
    simp only [mem_cons, Prod.mk.injEq, or_and_right, exists_or, ← hmem]
    cases n with
    | zero =>
      simp
      omega
    | succ n =>
      have hle : 0 ≤ (n : ℤ) * p := mul_nonneg (natCast_nonneg n) (by omega)
      simp [or_assoc, add_mul, show f.started + p ≤ u + (n * p + p) by omega]

theorem rotate_gens {Q : List (List κ) → Prop} (hshift : ∀ gens, Q gens → Q (shift gens))
    (h : Q f.gens) : Q (f.rotate u).gens := by
  unfold Filter.rotate
  split_ifs
  · exact h
  · exact h
  · exact Iterate.rec Q h hshift _

theorem rotate_maxPerGen : (f.rotate u).maxPerGen = f.maxPerGen := by
  unfold Filter.rotate
  split_ifs <;> rfl

theorem shift_forall (hm : 0 < m) (gens : List (List κ)) (h : ∀ g ∈ gens, g.length < m) :
    ∀ g ∈ shift gens, g.length < m :=
  forall_mem_cons.mpr ⟨hm, fun g hg => h g (dropLast_subset _ hg)⟩

theorem Inv.length (h : Inv k p t₀ s) : s.filter.gens.length = k := by
  rcases h with h | h
  · exact h.holds.length
  · rw [h.2.2.2.2, length_replicate]

theorem add_maxPerGen : (f.add x u).maxPerGen = f.maxPerGen := by
  unfold Filter.add
  split_ifs <;> rfl

/-- The times of the checks, and room in every generation. -/
def Timely (t₀ : ℤ) (s : Watched κ) (c : κ × ℤ) : Prop :=
  (s.now ≤ c.2 ∧ c.2 < t₀ + 2 ^ 63) ∧ ∀ g ∈ s.filter.gens, g.length < s.filter.maxPerGen

instance (t₀ : ℤ) (s : Watched κ) (c : κ × ℤ) : Decidable (Timely t₀ s c) :=
  inferInstanceAs (Decidable (_ ∧ _))

/-- No generation is over its bound. -/
def Bounded (k m : ℕ) (gens : List (List κ)) : Prop :=
  gens.length = k ∧ ∀ g ∈ gens, g.length < m + 1

theorem Bounded.add (hk : 0 < k) (hm : 0 < m) (hmax : f.maxPerGen = m) (h : Bounded k m f.gens) :
    Bounded k m (f.add x u).gens := by
  obtain ⟨g, gens, hgens⟩ := exists_cons_of_length_pos (h.1 ▸ hk)
  unfold Filter.add
  split_ifs with hfull
  · exact ⟨(length_shift (h.1 ▸ hk)).trans h.1, forall_mem_cons.mpr ⟨Nat.succ_lt_succ hm,
      fun g hg => h.2 g (dropLast_subset _ hg)⟩⟩
  · rw [hgens] at h hfull ⊢
    rw [hmax] at hfull
    exact ⟨h.1, forall_mem_cons.mpr ⟨Nat.succ_lt_succ (not_le.mp hfull), fun g hg =>
      h.2 g (mem_cons_of_mem _ hg)⟩⟩

variable [DecidableEq κ]

theorem next_cases (s : Watched κ) (c : κ × ℤ) : next s c = ⟨s.filter.rotate c.2, c.2, s.passed⟩ ∨
      next s c = ⟨(s.filter.rotate c.2).add c.1 c.2, c.2, c :: s.passed⟩ := by
  by_cases hseen : (s.filter.rotate c.2).Seen c.1
  · exact .inl (by rw [next, Filter.check, if_pos hseen]; rfl)
  · exact .inr (by rw [next, Filter.check, if_neg hseen]; rfl)

theorem Inv.next {c : κ × ℤ} (h : Inv k p t₀ s) (hk : 0 < k) (hp : 0 < p) (hzero : zeroTime < t₀)
    (hc : Timely t₀ s c) : Inv k p t₀ (next s c) := by
  have hturned := h.rotate hk hp hzero hc.1.1 hc.1.2
  left
  rcases next_cases s c with heq | heq <;> rw [heq]
  · exact hturned
  · refine hturned.add hk ?_
    obtain ⟨g₀, hg₀⟩ := exists_mem_of_length_pos (h.length ▸ hk)
    have hroom := rotate_gens (u := c.2) (shift_forall (Nat.zero_lt_of_lt (hc.2 g₀ hg₀))) hc.2
    obtain ⟨g, gens, hgens⟩ := exists_cons_of_length_pos (hturned.holds.length ▸ hk)
    rw [hgens] at hroom ⊢
    rw [rotate_maxPerGen]
    exact hroom g mem_cons_self

theorem Inv.check (h : Inv k p t₀ s) (hk : 0 < k) (hp : 0 < p) (hzero : zeroTime < t₀)
    (hu : s.now ≤ u) (hmax : u < t₀ + 2 ^ 63) (x : κ) :
    (∀ t, (x, t) ∈ s.passed → u ≤ t + (k - 1) * p → (s.filter.check x u).1 = false) ∧
      ((∀ t, (x, t) ∈ s.passed → t + k * p ≤ u) → (s.filter.check x u).1 = true) := by
  have hturned := h.rotate hk hp hzero hu hmax
  have hbegun := hturned.begun
  have hends := hturned.ends
  constructor
  · intro t ht hle
    rw [sub_mul, one_mul] at hle
    rw [Filter.check, if_pos (hturned.seen_iff.mpr ⟨t, ht, by omega⟩)]
  · intro hold
    rw [Filter.check, if_neg]
    intro hseen
    obtain ⟨t, ht, hle⟩ := hturned.seen_iff.mp hseen
    have := hold t ht
    omega

/-! ## Every run -/

def start (period : ℤ) (keep maxPerGen : ℕ) (t₀ : ℤ) : Watched κ :=
  ⟨new period keep maxPerGen, t₀, []⟩

theorem inv_run {period : ℤ} {keep maxPerGen : ℕ} {calls : List (κ × ℤ)} (hp : 0 < period)
    (hzero : zeroTime < t₀) (h : Along next (Timely t₀) (start period keep maxPerGen t₀) calls) :
    Inv (max keep 2) period t₀ (calls.foldl next (start period keep maxPerGen t₀)) :=
  h.invariant (fun _ _ hs hc => hs.next (by omega) hp hzero hc) (.inr ⟨rfl, rfl, rfl, le_rfl, rfl⟩)

theorem bounded_run (period : ℤ) (keep : ℕ) (hm : 0 < m) (calls : List (κ × ℤ)) :
    Bounded (max keep 2) m (calls.foldl next (start period keep m t₀)).filter.gens := by
  have hk : 0 < max keep 2 := by omega
  refine (run_invariant (I := fun s : Watched κ => Bounded (max keep 2) m s.filter.gens ∧
    s.filter.maxPerGen = m) (fun s c hs => ?_) calls ⟨⟨length_replicate, fun g hg => ?_⟩, rfl⟩).1
  · have hrotate : Bounded (max keep 2) m (s.filter.rotate c.2).gens := rotate_gens (fun gens h =>
      ⟨(length_shift (h.1 ▸ hk)).trans h.1, shift_forall (Nat.succ_pos m) gens h.2⟩) hs.1
    have hmax : (s.filter.rotate c.2).maxPerGen = m := rotate_maxPerGen.trans hs.2
    rcases next_cases s c with heq | heq <;> rw [heq]
    · exact ⟨hrotate, hmax⟩
    · exact ⟨hrotate.add hk hm hmax, add_maxPerGen.trans hmax⟩
  · rw [eq_of_mem_replicate hg]
    exact Nat.succ_pos m

/-- **How long a key is kept**, at times that a `Duration` tells apart. -/
theorem filter_retention {period t₀ : ℤ} {m : ℕ} (hp : 0 < period) (hm : 1 ≤ m)
    (hzero : zeroTime < t₀)
    (keep : ℕ) (calls : List (κ × ℤ)) : let s := calls.foldl next (start period keep m t₀)
    (s.filter.gens.map length).sum ≤ max keep 2 * m ∧
    (Along next (Timely t₀) (start period keep m t₀) calls → ∀ x u, s.now ≤ u → u < t₀ + 2 ^ 63 →
      (∀ t, (x, t) ∈ s.passed → u ≤ t + ((max keep 2 : ℕ) - 1) * period →
        (s.filter.check x u).1 = false) ∧
      ((∀ t, (x, t) ∈ s.passed → t + (max keep 2 : ℕ) * period ≤ u) →
        (s.filter.check x u).1 = true)) := by
  have hbound : Bounded (max keep 2) m (calls.foldl next (start period keep m t₀)).filter.gens :=
    bounded_run period keep hm calls
  refine ⟨?_, fun h x u hu hmax => (inv_run hp hzero h).check (by omega) hp hzero hu hmax x⟩
  have hmem : ∀ n ∈ (calls.foldl next (start period keep m t₀)).filter.gens.map length, n ≤ m :=
    forall_mem_map.mpr fun g hg => Nat.le_of_lt_succ (hbound.2 g hg)
  have hsum := sum_le_card_nsmul _ _ hmem
  rwa [length_map, hbound.1] at hsum

theorem rejected_after_one_period :
    (([(0, 0), (1, 9)].foldl next (start 10 2 8 0 : Watched ℕ)).filter.check 1 19).1 = false :=
  ((filter_retention (by decide) (by decide) (by decide) 2 [(0, 0), (1, 9)]).2 (by decide) 1 19
    (by decide) (by decide)).1 9 (by decide) (by decide)

/-- The key `1` passes at `9`, is forgotten and passes again at `20`, and so is rejected at `29`,
which is two periods after `9`.  Where more time has gone by than a `Duration` holds, a key is
forgotten at once. -/
theorem not_retained :
    ((1, 9) ∈ ([(0, 0), (1, 9), (1, 20)].foldl next (start 10 2 8 0 : Watched ℕ)).passed ∧
      (([(0, 0), (1, 9), (1, 20)].foldl next (start 10 2 8 0 : Watched ℕ)).filter.check 1 29).1 =
        false) ∧
    (1, 2 ^ 65) ∈ ([(0, 0), (1, 2 ^ 65)].foldl next (start 10 2 8 0 : Watched ℕ)).passed ∧
      (([(0, 0), (1, 2 ^ 65)].foldl next (start 10 2 8 0 : Watched ℕ)).filter.check 1
        (2 ^ 65 + 1)).1 =
        true := by
  decide +kernel

end Check

end Pandora.Dataplane.ReplayFilter
