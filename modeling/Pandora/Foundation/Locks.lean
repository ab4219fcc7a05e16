import Mathlib.Logic.Function.Basic
import Mathlib.Data.Nat.Notation

/-!
# Row locks

A transaction that locks a row holds it until it ends, and one that asks for a row that another one
holds waits.  Transactions are numbers, and `Locks κ` says who holds what; `κ` is what can be
locked.

What a transaction may rely on is that the rows that it holds stay as they are while others write.
`Spares` says so of a table before and after, and the lemmas on it are for the two kinds of writes:
a map that changes rows which the writer holds, and an insertion.
-/

namespace Pandora

open Function Option

variable {κ α : Type*} {f : α → α}

/-- Who holds what. -/
abbrev Locks (κ : Type*) : Type _ := κ → Option ℕ

namespace Locks

variable (held : Locks κ) {p q : ℕ} {k k' : κ} {ks : List κ}

/-- A transaction need not wait. -/
def Free (p : ℕ) (k : κ) : Prop := held k = none ∨ held k = some p

instance (p : ℕ) (k : κ) : Decidable (held.Free p k) := inferInstanceAs (Decidable (_ ∨ _))

/-- A transaction takes a lock. -/
def take [DecidableEq κ] (p : ℕ) (k : κ) : Locks κ := update held k (some p)

/-- It need not wait for any of some locks. -/
def FreeAll (p : ℕ) (ks : List κ) : Prop := ∀ k ∈ ks, held.Free p k

instance (p : ℕ) (ks : List κ) : Decidable (held.FreeAll p ks) :=
  inferInstanceAs (Decidable (∀ k ∈ ks, held.Free p k))

/-- It takes all of them. -/
def takeAll [DecidableEq κ] (p : ℕ) (ks : List κ) : Locks κ :=
  fun k => if k ∈ ks then some p else held k

/-- A transaction ends. -/
def release (p : ℕ) : Locks κ := fun k => if held k = some p then none else held k

variable {held}

theorem take_self [DecidableEq κ] : held.take p k k = some p := by
  unfold take
  exact update_self ..

theorem Free.holder (hfree : held.Free p k) (h : held k = some q) : q = p := by
  rcases hfree with hnone | hown
  · exact absurd (hnone.symm.trans h) (some_ne_none q).symm
  · exact some.inj (h.symm.trans hown)

theorem take_of_held [DecidableEq κ] (hfree : held.Free p k) (h : held k' = some q) :
    held.take p k k' = some q := by
  unfold take
  by_cases hk : k' = k
  · subst hk
    rw [update_self, hfree.holder h]
  · rw [update_of_ne hk]
    exact h

theorem takeAll_of_mem [DecidableEq κ] (hk : k ∈ ks) : held.takeAll p ks k = some p := if_pos hk

theorem takeAll_of_held [DecidableEq κ] (hfree : k ∈ ks → q = p) (h : held k = some q) :
    held.takeAll p ks k = some q := by
  by_cases hk : k ∈ ks
  · rw [takeAll_of_mem hk, hfree hk]
  · exact (if_neg hk).trans h

theorem release_of_ne (hne : q ≠ p) (h : held k = some q) : held.release p k = some q := by
  rw [release, if_neg fun hp => hne (some.inj (h.symm.trans hp))]
  exact h

/-- The rows that a transaction holds are still there. -/
def Spares (held : Locks κ) (key : α → κ) (q : ℕ) (rows rows' : List α) : Prop :=
  ∀ x ∈ rows, held (key x) = some q → x ∈ rows'

namespace Spares

variable {key : α → κ} {rows rows' rows'' : List α}

theorem refl : held.Spares key q rows rows := fun _ hx _ => hx

theorem trans (h : held.Spares key q rows rows') (h' : held.Spares key q rows' rows'') :
    held.Spares key q rows rows'' := fun x hx hheld => h' x (h x hx hheld) hheld

theorem cons (a : α) : held.Spares key q rows (a :: rows) :=
  fun _ hx _ => List.mem_cons_of_mem a hx

theorem map (hf : ∀ x ∈ rows, f x = x ∨ held (key x) = some p) (hne : q ≠ p) :
    held.Spares key q rows (rows.map f) := by
  intro x hx hheld
  rcases hf x hx with hsame | hp
  · exact List.mem_map.mpr ⟨x, hx, hsame⟩
  · exact absurd (some.inj (hheld.symm.trans hp)) hne

theorem map_row {lock : ℕ → κ} {id : α → ℕ} {i : ℕ} (hi : held (lock i) = some p)
    (hf : ∀ x, id x ≠ i → f x = x) (hne : q ≠ p) :
    held.Spares (fun x => lock (id x)) q rows (rows.map f) := by
  refine .map (fun x _ => ?_) hne
  by_cases hx : id x = i
  · exact .inr (hx ▸ hi)
  · exact .inl (hf x hx)

end Spares

end Locks
end Pandora
