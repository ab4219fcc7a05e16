import Mathlib.Data.List.Basic

/-!
# Runs of a step function

A system that takes one labelled step after another is a function `next : σ → ℓ → σ`; a
label that is not possible in a state leaves it as it is.  A run is a list of labels, and the
state it reaches is `labels.foldl next s`.

`run_invariant` and `run_relation` are the inductions that statements about all runs need.
Some statements are only about runs whose steps meet a condition; `Along` says that they do,
and `Along.invariant` is the induction for these.
-/

namespace Pandora.Runs

variable {σ ℓ : Type*} {next : σ → ℓ → σ} {I : σ → Prop} {s : σ}

theorem run_invariant (step : ∀ s l, I s → I (next s l)) (labels : List ℓ)
    (hs : I s) : I (labels.foldl next s) := by
  induction labels generalizing s with
  | nil => exact hs
  | cons l labels ih => exact ih (step s l hs)

/-- A reflexive and transitive relation that every step keeps, as long as an invariant does,
relates the two ends of a run. -/
theorem run_relation {R : σ → σ → Prop} [Std.Refl R] [IsTrans σ R]
    (step : ∀ s l, I s → I (next s l)) (rel : ∀ s l, I s → R s (next s l)) (labels : List ℓ)
    (hs : I s) : R s (labels.foldl next s) := by
  induction labels generalizing s with
  | nil => exact refl s
  | cons l labels ih => exact IsTrans.trans _ _ _ (rel s l hs) (ih (step s l hs))

/-- Every step of a run meets a condition on the state it is taken in and its label. -/
def Along (next : σ → ℓ → σ) (p : σ → ℓ → Prop) : σ → List ℓ → Prop
  | _, [] => True
  | s, l :: labels => p s l ∧ Along next p (next s l) labels

instance Along.decidable (next : σ → ℓ → σ) (p : σ → ℓ → Prop) [∀ s l, Decidable (p s l)] :
    ∀ s labels, Decidable (Along next p s labels)
  | _, [] => .isTrue trivial
  | s, l :: labels => @instDecidableAnd _ _ _ (Along.decidable next p (next s l) labels)

theorem Along.invariant {p : σ → ℓ → Prop} (step : ∀ s l, I s → p s l → I (next s l))
    {labels : List ℓ} (h : Along next p s labels) (hs : I s) : I (labels.foldl next s) := by
  induction labels generalizing s with
  | nil => exact hs
  | cons l labels ih => exact ih h.2 (step s l hs h.1)

/-! ## Calls side by side

A list of calls, each at its position; `P` says what is known of a call before, `Q` after. -/

section Calls

variable {α : Type*} {P Q : ℕ → α → Prop} {calls : List α}
  (h : ∀ p x, calls[p]? = some x → P p x)
include h

theorem forall_set {p : ℕ} {a : α} (hrest : ∀ q x, q ≠ p → P q x → Q q x) (ha : Q p a) (q : ℕ)
    (x : α) (hx : (calls.set p a)[q]? = some x) : Q q x := by
  by_cases hq : q = p
  · subst hq
    rw [List.getElem?_set_self'] at hx
    obtain ⟨_, -, rfl⟩ := Option.map_eq_some_iff.mp hx
    exact ha
  · rw [List.getElem?_set_ne (Ne.symm hq)] at hx
    exact hrest q x hq (h q x hx)

theorem forall_append {a : α} (hrest : ∀ q x, P q x → Q q x) (ha : ∀ q, Q q a) (q : ℕ) (x : α)
    (hx : (calls ++ [a])[q]? = some x) : Q q x := by
  by_cases hlt : q < calls.length
  · exact hrest q x (h q x ((List.getElem?_append_left hlt).symm.trans hx))
  · rw [List.getElem?_append_right (Nat.le_of_not_lt hlt)] at hx
    obtain rfl := List.mem_singleton.mp (List.mem_of_getElem? hx)
    exact ha q

end Calls

end Pandora.Runs
