import Mathlib.Tactic.Common

/-!
# Checks in sequence

A validator is a list of checks, each with the error it answers if it fails, and
the first failing check decides the answer.  Written with `ensure` in the
`Except` monad it reads in that order, and the two lemmas below turn "the
validator accepted" into the conjunction of its checks.
-/

namespace Pandora

variable {ε α β : Type}

/-- Go on only if `p` holds. -/
def ensure (p : Prop) [Decidable p] (e : ε) : Except ε Unit :=
  if p then .ok () else .error e

@[simp] theorem ensure_eq_ok {p : Prop} [Decidable p] {e : ε} {u : Unit} :
    ensure p e = .ok u ↔ p := by
  unfold ensure
  split <;> simp_all

@[simp] theorem except_bind_eq_ok {x : Except ε α} {f : α → Except ε β} {b : β} :
    x >>= f = .ok b ↔ ∃ a, x = .ok a ∧ f a = .ok b := by
  cases x <;> simp [bind, Except.bind]

@[simp] theorem except_pure_eq_ok {a b : α} : (pure a : Except ε α) = .ok b ↔ a = b := by
  simp [pure, Except.pure]

end Pandora
