import Mathlib.Algebra.BigOperators.Group.List.Basic
import Mathlib.Data.List.Nodup
import Mathlib.Tactic.Abel

/-!
# Tables

A table is a list of rows.  A statement that updates one row is a map over the
list, and the only question anyone asks about it is what it does to a total over
the table: a sum of amounts, or a count of rows in some state.  The answer is
always the same --- the total changes by what the one row contributes after, less
what it contributed before --- and it is proved here once.

`f` is *local* to the row `a` if it leaves every row with another key alone.
-/

namespace Pandora.Database

open List

variable {α κ M : Type} {key : α → κ} {l : List α} {a : α} {f : α → α}

/-- `f` changes no row of the table but the one with the key of `a`. -/
def LocalTo (key : α → κ) (l : List α) (a : α) (f : α → α) : Prop :=
  ∀ x ∈ l, key x ≠ key a → f x = x

theorem eq_of_key (hl : (l.map key).Nodup) {b : α} (ha : a ∈ l)
    (hb : b ∈ l) (h : key a = key b) : a = b :=
  inj_on_of_nodup_map hl ha hb h

theorem forall_mem_update [DecidableEq κ] (hl : (l.map key).Nodup) (ha : a ∈ l) {P : α → Prop}
    (hself : P (f a)) (hother : ∀ x ∈ l, key x ≠ key a → P x) :
    ∀ x ∈ l.map fun x => if key x = key a then f x else x, P x := by
  refine forall_mem_map.mpr fun x hx => ?_
  by_cases h : key x = key a
  · rw [if_pos h, eq_of_key hl hx ha h]
    exact hself
  · rw [if_neg h]
    exact hother x hx h

/-- **Totals under the update of one row.** -/
theorem sum_map_update [AddCommGroup M] (hl : (l.map key).Nodup)
    (ha : a ∈ l) (hf : LocalTo key l a f) (w : α → M) :
    (l.map fun x => w (f x)).sum = (l.map w).sum - w a + w (f a) := by
  induction l with
  | nil => exact absurd ha (by simp)
  | cons b l ih =>
    rw [map_cons, nodup_cons] at hl
    rcases mem_cons.mp ha with rfl | hmem
    · -- the updated row is the head, so the tail is untouched
      have htail : (l.map fun x => w (f x)) = l.map w := by
        refine map_congr_left fun x hx => ?_
        have hne : key x ≠ key a := fun h => hl.1 (h ▸ mem_map_of_mem hx)
        rw [hf x (mem_cons_of_mem _ hx) hne]
      rw [map_cons, sum_cons, htail, map_cons, sum_cons]
      abel
    · have hne : key b ≠ key a := fun h => hl.1 (h ▸ mem_map_of_mem hmem)
      rw [map_cons, sum_cons, hf b mem_cons_self hne,
        ih hl.2 hmem fun x hx => hf x (mem_cons_of_mem _ hx), map_cons, sum_cons]
      abel

theorem countP_map_update (hl : (l.map key).Nodup)
    (ha : a ∈ l) (hf : LocalTo key l a f) (p : α → Prop) [DecidablePred p] :
    ((l.map f).countP p : ℤ) =
      (l.countP p : ℤ) - (if p a then 1 else 0) + (if p (f a) then 1 else 0) := by
  have hcount : ∀ l : List α, (l.countP p : ℤ) =
      (l.map fun x => if p x then (1 : ℤ) else 0).sum := by
    intro l
    induction l with
    | nil => rfl
    | cons x l ih =>
      rw [countP_cons, Nat.cast_add, ih, map_cons, sum_cons]
      by_cases hx : p x <;> simp [hx, add_comm]
  rw [hcount, hcount, map_map]
  exact sum_map_update hl ha hf fun x => if p x then (1 : ℤ) else 0

theorem countP_append_one (p : α → Prop) [DecidablePred p] (l : List α) (a : α) :
    (l ++ [a]).countP p = l.countP p + if p a then 1 else 0 := by
  rw [countP_append, countP_singleton]
  simp

theorem countP_delete_key [DecidableEq κ] (hl : (l.map key).Nodup)
    (ha : a ∈ l) (p : α → Prop) [DecidablePred p] :
    l.countP p = (l.filter fun x => key x ≠ key a).countP p + if p a then 1 else 0 := by
  induction l with
  | nil => cases ha
  | cons x l ih =>
    obtain ⟨hx, hl⟩ := nodup_cons.mp hl
    rw [countP_cons]
    by_cases hkey : key x = key a
    · have hrest : l.filter (fun y => key y ≠ key a) = l := by
        refine filter_eq_self.mpr fun y hy => decide_eq_true fun heq => hx ?_
        exact mem_map.mpr ⟨y, hy, heq.trans hkey.symm⟩
      have hxa : x = a := by
        rcases mem_cons.mp ha with rfl | ha
        · rfl
        · exact absurd (mem_map.mpr ⟨a, ha, hkey.symm⟩) hx
      rw [filter_cons_of_neg (by simp [hkey]), hrest, hxa]
      simp
    · have ha : a ∈ l := (mem_cons.mp ha).resolve_left fun heq => hkey (heq ▸ rfl)
      rw [filter_cons_of_pos (by simp [hkey]), countP_cons, ih hl ha]
      omega

section

variable (hl : (l.map key).Nodup)
include hl

theorem nodup_map_update (hf : ∀ x, key (f x) = key x) : ((l.map f).map key).Nodup := by
  rw [map_map]
  have : key ∘ f = key := funext hf
  rwa [this]

theorem nodup_map_cons (ha : ∀ x ∈ l, key x ≠ key a) : ((a :: l).map key).Nodup := by
  rw [map_cons, nodup_cons]
  refine ⟨fun hmem => ?_, hl⟩
  obtain ⟨x, hx, heq⟩ := mem_map.mp hmem
  exact ha x hx heq

theorem nodup_map_append (ha : ∀ x ∈ l, key x ≠ key a) : ((l ++ [a]).map key).Nodup := by
  rw [map_append, nodup_append]
  refine ⟨hl, by simp, ?_⟩
  intro x hx y hy
  obtain ⟨b, hb, rfl⟩ := mem_map.mp hx
  have hy : y = key a := by simpa using hy
  rw [hy]
  exact ha b hb

end

section

variable [DecidableEq κ]

theorem find?_key (hl : (l.map key).Nodup)
    (ha : a ∈ l) : l.find? (fun x => key x = key a) = some a := by
  cases h : l.find? fun x => key x = key a with
  | none =>
    have := find?_eq_none.mp h a ha
    simp at this
  | some b =>
    have hkey : key b = key a := by simpa using find?_some h
    rw [eq_of_key hl (mem_of_find?_eq_some h) ha hkey]

theorem find?_map_update (hf : ∀ x, key (f x) = key x) (l : List α) (k : κ) :
    (l.map f).find? (fun x => key x = k) = (l.find? fun x => key x = k).map f := by
  rw [find?_map]
  congr 2
  funext x
  simp [hf]

theorem find?_append_key (hnew : l.find? (fun x => key x = key a) = none) (k : κ) :
    (l ++ [a]).find? (fun x => key x = k) =
      if k = key a then some a else l.find? fun x => key x = k := by
  rw [find?_append, find?_singleton]
  by_cases hk : k = key a
  · subst hk
    rw [hnew]
    simp
  · rw [if_neg hk, if_neg (by simpa using Ne.symm hk), Option.or_none]

end

/-- An update of the one row with the key `key₂ a` is not seen by a search for
another row, even if the search is by another key. -/
theorem find?_map_local [DecidableEq κ] {κ₂ : Type} {key₂ : α → κ₂} (hl : (l.map key₂).Nodup)
    (ha : a ∈ l) (hf : ∀ x, key (f x) = key x) (hlocal : LocalTo key₂ l a f) {k : κ}
    (hk : k ≠ key a) : (l.map f).find? (fun x => key x = k) = l.find? fun x => key x = k := by
  rw [find?_map_update hf]
  cases hfind : l.find? fun x => key x = k with
  | none => rfl
  | some b =>
    have hmem := mem_of_find?_eq_some hfind
    have hkey : key b = k := by simpa using find?_some hfind
    have hne : key₂ b ≠ key₂ a := fun h => hk (by rw [← hkey, eq_of_key hl hmem ha h])
    rw [Option.map_some, hlocal b hmem hne]

/-! ## What becomes of rows

Rows are not deleted.  `Evolves R` says of two states of a table, an earlier and
a later one, that every row of the first is still there as a row it is allowed to
have become. -/

/-- Every row of the earlier table is a row of the later one, changed by `R`. -/
def Evolves (R : α → α → Prop) (l l' : List α) : Prop := ∀ x ∈ l, ∃ y ∈ l', R x y

variable {R : α → α → Prop}

theorem Evolves.refl (hR : ∀ x, R x x) (l : List α) : Evolves R l l := fun x hx => ⟨x, hx, hR x⟩

theorem Evolves.trans (hR : ∀ x y z, R x y → R y z → R x z) {l₁ l₂ l₃ : List α}
    (h : Evolves R l₁ l₂) (h' : Evolves R l₂ l₃) : Evolves R l₁ l₃ := by
  intro x hx
  obtain ⟨y, hy, hxy⟩ := h x hx
  obtain ⟨z, hz, hyz⟩ := h' y hy
  exact ⟨z, hz, hR x y z hxy hyz⟩

theorem Evolves.of_subset (hR : ∀ x, R x x) {l' : List α} (h : ∀ x ∈ l, x ∈ l') :
    Evolves R l l' := fun x hx => ⟨x, h x hx, hR x⟩

theorem Evolves.map (hf : ∀ x ∈ l, R x (f x)) :
    Evolves R l (l.map f) := fun x hx => ⟨f x, mem_map_of_mem hx, hf x hx⟩

end Pandora.Database
