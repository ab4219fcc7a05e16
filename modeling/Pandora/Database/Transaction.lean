import Mathlib.Data.Prod.Basic
import Pandora.Foundation.Runs

/-!
# Transactions: a state, an error, and nothing in between

A transaction body reads and writes a state and may fail.  If it fails, none of
its writes survive: the database rolls the state back to where the body began.
`Tx σ ε α` is that and nothing else --- a function from a state to either an
error or a result with a new state --- so that "an operation that returned an
error changed nothing" is a fact about `Tx.commit`, proved once.

Three things are kept apart, because the callers keep them apart.

* `Tx.fail` abandons the body.  There is no way to catch an error and keep the
  writes made before it, except
* `Tx.attempt`, which is a savepoint: the error is returned as a value, and the
  state is the one from before the attempt.
* `Tx.zoom` runs a body over one component of a larger state.  A service that
  owns a few tables is written over those tables, and joins the transaction of
  its caller.

Every primitive has one lemma saying when it succeeds and with what
(`bind_ok`, `require_ok`, ...).  Inverting a body is rewriting with these, which
turns `body s = .ok (a, s')` into the conjunction of the checks it passed and
the writes it made.

The last section is about sequences.  `Tx.run` commits one body after another,
and `run_invariant` is the only induction over runs that a safety property
needs.
-/

namespace Pandora.Database

open List Except

/-- A transaction body over the state `σ`, failing with an `ε` or returning an
`α` and the state it leaves. -/
def Tx (σ ε α : Type) : Type := σ → Except ε (α × σ)

namespace Tx

variable {σ τ ε ε' α β ι : Type} {f : α → Tx σ ε β} {m : Tx σ ε α} {e : ε} {a : α} {s' : σ}
  {r : α × σ} {b : β}

instance : Monad (Tx σ ε) where
  pure a := fun s => .ok (a, s)
  bind m f := fun s =>
    match m s with
    | .ok (a, s') => f a s'
    | .error e => .error e

/-- Abandon the body. -/
def fail (e : ε) : Tx σ ε α := fun _ => .error e

/-- The current state. -/
def read : Tx σ ε σ := fun s => .ok (s, s)

/-- Replace the state. -/
def write (f : σ → σ) : Tx σ ε Unit := fun s => .ok ((), f s)

/-- Go on only if `p` holds. -/
def require (p : Prop) [Decidable p] (e : ε) : Tx σ ε Unit :=
  if p then pure () else fail e

/-- A pure computation that may fail, inside a body. -/
def ofExcept (x : Except ε α) : Tx σ ε α := fun s =>
  match x with
  | .ok a => .ok (a, s)
  | .error e => .error e

/-- A value that may be missing. -/
def ofOption (x : Option α) (e : ε) : Tx σ ε α :=
  match x with
  | some a => pure a
  | none => fail e

/-- Translate the error of a body. -/
def mapError (f : ε → ε') (m : Tx σ ε α) : Tx σ ε' α := fun s =>
  match m s with
  | .ok r => .ok r
  | .error e => .error (f e)

/-- A savepoint.  A failed body is rolled back and its error handed to the
caller, whose own writes stay. -/
def attempt (m : Tx σ ε α) : Tx σ ε (Except ε α) := fun s =>
  match m s with
  | .ok (a, s') => .ok (.ok a, s')
  | .error e => .ok (.error e, s)

/-- Run a body over the component of a larger state that `get` reads and `set`
writes. -/
def zoom (get : τ → σ) (set : τ → σ → τ) (m : Tx σ ε α) : Tx τ ε α := fun t =>
  match m (get t) with
  | .ok (a, s') => .ok (a, set t s')
  | .error e => .error e

/-- Run the bodies of a list one after another. -/
def forEach (f : α → Tx σ ε Unit) : List α → Tx σ ε Unit
  | [] => pure ()
  | a :: l => do
      f a
      forEach f l

/-! ## When a body succeeds -/

@[simp] theorem bind_ok {s : σ} {s₂ : σ} :
    (m >>= f) s = .ok (b, s₂) ↔ ∃ a s₁, m s = .ok (a, s₁) ∧ f a s₁ = .ok (b, s₂) := by
  change (match m s with
    | .ok (a, s') => f a s'
    | .error e => .error e) = _ ↔ _
  cases hm : m s with
  | error => simp
  | ok r =>
    obtain ⟨a, s₁⟩ := r
    simp

@[simp] theorem pure_ok {b : α} {s : σ} : (pure a : Tx σ ε α) s = .ok (b, s') ↔ a = b ∧ s = s' := by
  change ok (a, s) = _ ↔ _
  simp

theorem of_bind_pure {f : α → β} {s : σ}
    (h : (m >>= fun a => pure (f a)) s = .ok (b, s')) : ∃ a, m s = .ok (a, s') := by
  obtain ⟨a, _, hm, heq⟩ := bind_ok.mp h
  exact ⟨a, (pure_ok.mp heq).2 ▸ hm⟩

@[simp] theorem map_ok {g : α → β} {s : σ} :
    (g <$> m) s = .ok (b, s') ↔ ∃ a, m s = .ok (a, s') ∧ g a = b := by
  change (m >>= fun a => pure (g a)) s = _ ↔ _
  simp only [bind_ok, pure_ok]
  constructor
  · rintro ⟨a, s₁, hm, rfl, rfl⟩
    exact ⟨a, hm, rfl⟩
  · rintro ⟨a, hm, rfl⟩
    exact ⟨a, s', hm, rfl, rfl⟩

@[simp] theorem fail_ok {s : σ} : (fail e : Tx σ ε α) s = .ok r ↔ False := by
  simp [fail]

@[simp] theorem read_ok {s a : σ} : (read : Tx σ ε σ) s = .ok (a, s') ↔ s = a ∧ s = s' := by
  simp [read]

variable {u : Unit} {p : Prop} {x : Except ε α} {I : σ → Prop}

@[simp] theorem write_ok {f : σ → σ} {s : σ} :
    (write f : Tx σ ε Unit) s = .ok (u, s') ↔ f s = s' := by
  simp [write]

@[simp] theorem require_ok [Decidable p] {s : σ} :
    (require p e : Tx σ ε Unit) s = .ok (u, s') ↔ p ∧ s = s' := by
  unfold require
  split <;> simp_all

@[simp] theorem ofExcept_ok {s : σ} :
    (ofExcept x : Tx σ ε α) s = .ok (a, s') ↔ x = .ok a ∧ s = s' := by
  cases x <;> simp [ofExcept]

@[simp] theorem ofOption_ok {x : Option α} {s : σ} :
    (ofOption x e : Tx σ ε α) s = .ok (a, s') ↔ x = some a ∧ s = s' := by
  cases x <;> simp [ofOption]

@[simp] theorem mapError_ok {f : ε → ε'} {s : σ} : mapError f m s = .ok r ↔ m s = .ok r := by
  unfold mapError
  cases m s <;> simp

@[simp] theorem ite_ok [Decidable p] {n : Tx σ ε α} {s : σ} :
    (if p then m else n) s = .ok r ↔ (p ∧ m s = .ok r) ∨ (¬p ∧ n s = .ok r) := by
  split <;> simp_all

/-- A savepoint never fails.  Either the body committed to it, or the state is
untouched. -/
@[simp] theorem attempt_ok {s : σ} : attempt m s = .ok (x, s') ↔
      (∃ a, x = .ok a ∧ m s = .ok (a, s')) ∨ (∃ e, x = .error e ∧ m s = .error e ∧ s = s') := by
  unfold attempt
  cases hm : m s with
  | error e =>
    constructor
    · intro h
      simp only [ok.injEq, Prod.mk.injEq] at h
      exact Or.inr ⟨e, h.1.symm, rfl, h.2⟩
    · rintro (⟨a, -, h⟩ | ⟨e', rfl, h, rfl⟩)
      · exact absurd h (by simp)
      · simp only [error.injEq] at h
        rw [h]
  | ok r =>
    obtain ⟨a, s₁⟩ := r
    constructor
    · intro h
      simp only [ok.injEq, Prod.mk.injEq] at h
      exact Or.inl ⟨a, h.1.symm, by rw [h.2]⟩
    · rintro (⟨a', rfl, h⟩ | ⟨e, -, h, -⟩)
      · simp only [ok.injEq, Prod.mk.injEq] at h
        rw [h.1, h.2]
      · exact absurd h (by simp)

@[simp] theorem zoom_ok {get : τ → σ} {set : τ → σ → τ} {t t' : τ} :
    zoom get set m t = .ok (a, t') ↔ ∃ s', m (get t) = .ok (a, s') ∧ set t s' = t' := by
  unfold zoom
  cases hm : m (get t) with
  | error => simp
  | ok r =>
    obtain ⟨b, s₁⟩ := r
    constructor
    · intro h
      simp only [ok.injEq, Prod.mk.injEq] at h
      exact ⟨s₁, by rw [h.1], h.2⟩
    · rintro ⟨s', h, rfl⟩
      simp only [ok.injEq, Prod.mk.injEq] at h
      rw [h.1, h.2]

@[simp] theorem forEach_nil {f : α → Tx σ ε Unit} {s : σ} :
    forEach f [] s = .ok (u, s') ↔ s = s' := by
  simp [forEach]

@[simp] theorem forEach_cons {f : α → Tx σ ε Unit} {l : List α} {s : σ} :
    forEach f (a :: l) s = .ok (u, s') ↔
      ∃ s₁, f a s = .ok ((), s₁) ∧ forEach f l s₁ = .ok (u, s') := by
  rw [forEach, bind_ok]
  exact ⟨fun ⟨_, s₁, h⟩ => ⟨s₁, h⟩, fun ⟨s₁, h⟩ => ⟨(), s₁, h⟩⟩

theorem bind_eq (m : Tx σ ε α) (f : α → Tx σ ε β) (s : σ) : (m >>= f) s =
    match m s with
    | .ok (a, s') => f a s'
    | .error e => .error e := rfl

theorem ofExcept_bind_of_ok (h : x = .ok a) {s : σ} : (ofExcept x >>= f) s = f a s := by
  rw [h]
  rfl

theorem read_bind {f : σ → Tx σ ε β} {s : σ} : (read >>= f) s = f s s := rfl

theorem require_bind_of_pos [Decidable p] (h : p) {f : Unit → Tx σ ε β} {s : σ} :
    (require p e >>= f) s = f () s := by
  rw [require, if_pos h]
  rfl

theorem require_bind_of_neg [Decidable p] (h : ¬p) {f : Unit → Tx σ ε β}
    {s : σ} : (require p e >>= f) s = .error e := by
  rw [require, if_neg h]
  rfl

/-! ## Whether a body succeeds -/

/-- The body returns something. -/
def Succeeds (m : Tx σ ε α) (s : σ) : Prop := ∃ a s', m s = .ok (a, s')

theorem succeeds_bind {s : σ} :
    (m >>= f).Succeeds s ↔ ∃ a s₁, m s = .ok (a, s₁) ∧ (f a).Succeeds s₁ := by
  unfold Succeeds
  simp only [bind_ok]
  constructor
  · rintro ⟨b, s₂, a, s₁, hm, hf⟩
    exact ⟨a, s₁, hm, b, s₂, hf⟩
  · rintro ⟨a, s₁, hm, b, s₂, hf⟩
    exact ⟨b, s₂, a, s₁, hm, hf⟩

@[simp] theorem succeeds_pure {s : σ} : (pure a : Tx σ ε α).Succeeds s :=
  ⟨a, s, rfl⟩

@[simp] theorem succeeds_fail {s : σ} : ¬(fail e : Tx σ ε α).Succeeds s := by
  rintro ⟨a, s', h⟩
  exact fail_ok.mp h

theorem succeeds_require_bind [Decidable p] {f : Unit → Tx σ ε β} {s : σ} :
    (require p e >>= f).Succeeds s ↔ p ∧ (f ()).Succeeds s := by
  rw [succeeds_bind]
  constructor
  · rintro ⟨u, s₁, hrequire, hf⟩
    obtain ⟨hp, rfl⟩ := require_ok.mp hrequire
    exact ⟨hp, hf⟩
  · rintro ⟨hp, hf⟩
    exact ⟨(), s, require_ok.mpr ⟨hp, rfl⟩, hf⟩

theorem succeeds_ofExcept_bind {s : σ} :
    (ofExcept x >>= f).Succeeds s ↔ ∃ a, x = .ok a ∧ (f a).Succeeds s := by
  rw [succeeds_bind]
  constructor
  · rintro ⟨a, s₁, hread, hf⟩
    obtain ⟨hx, rfl⟩ := ofExcept_ok.mp hread
    exact ⟨a, hx, hf⟩
  · rintro ⟨a, hx, hf⟩
    exact ⟨a, s, ofExcept_ok.mpr ⟨hx, rfl⟩, hf⟩

/-! ## Invariants of a body

`Preserves I m` is the part of a Hoare rule that a safety argument uses: from a
state with `I`, whatever `m` returns, it leaves a state with `I`.  A failing
body leaves nothing, so it preserves everything. -/

/-- Every state the body can leave has the invariant, if the state it was
entered with had. -/
def Preserves (I : σ → Prop) (m : Tx σ ε α) : Prop :=
  ∀ ⦃s a s'⦄, I s → m s = .ok (a, s') → I s'

/-! ## What a body does to the state

`Relates I R m` is a rule with two states: from a state with `I`, whatever `m`
returns, it leaves a state with `I` that is related to the first.  For a reflexive and
transitive relation the rule composes, so a body is in it if its statements are. -/

/-- Every state the body can leave has the invariant and is related to the state it was
entered with, if that had the invariant. -/
def Relates (I : σ → Prop) (R : σ → σ → Prop) (m : Tx σ ε α) : Prop :=
  ∀ ⦃s a s'⦄, I s → m s = .ok (a, s') → I s' ∧ R s s'

namespace Relates

variable {R : σ → σ → Prop} {n : Tx σ ε α}

section Reflexive

variable [Std.Refl R]

theorem of_same (h : ∀ ⦃s a s'⦄, m s = .ok (a, s') → s' = s) : Relates I R m := by
  intro s a s' hs hm
  rw [h hm]
  exact ⟨hs, Std.Refl.refl s⟩

theorem pure : Relates I R (Pure.pure a : Tx σ ε α) :=
  of_same fun _ _ _ h => (pure_ok.mp h).2.symm

theorem read : Relates I R (Tx.read : Tx σ ε σ) :=
  of_same fun _ _ _ h => (read_ok.mp h).2.symm

theorem require [Decidable p] : Relates I R (Tx.require p e : Tx σ ε Unit) :=
  of_same fun _ _ _ h => (require_ok.mp h).2.symm

theorem ofExcept : Relates I R (Tx.ofExcept x : Tx σ ε α) :=
  of_same fun _ _ _ h => (ofExcept_ok.mp h).2.symm

theorem ofOption {x : Option α} : Relates I R (Tx.ofOption x e : Tx σ ε α) :=
  of_same fun _ _ _ h => (ofOption_ok.mp h).2.symm

end Reflexive

theorem fail : Relates I R (Tx.fail e : Tx σ ε α) :=
  fun _ _ _ _ h => (fail_ok.mp h).elim

theorem write {g : σ → σ} (h : ∀ ⦃s⦄, I s → I (g s) ∧ R s (g s)) :
    Relates I R (Tx.write g : Tx σ ε Unit) := by
  intro s u s' hs hw
  rw [← write_ok.mp hw]
  exact h hs

theorem ite [Decidable p] (hm : Relates I R m) (hn : Relates I R n) :
    Relates I R (if p then m else n) := by
  split
  · exact hm
  · exact hn

theorem mapError {g : ε → ε'} (hm : Relates I R m) : Relates I R (Tx.mapError g m) :=
  fun _ _ _ hs h => hm hs (mapError_ok.mp h)

theorem bind [IsTrans σ R] (hm : Relates I R m) (hf : ∀ a, Relates I R (f a)) :
    Relates I R (m >>= f) := by
  intro s b s' hs h
  obtain ⟨a, s₁, h₁, h₂⟩ := bind_ok.mp h
  obtain ⟨hs₁, hr₁⟩ := hm hs h₁
  obtain ⟨hs', hr₂⟩ := hf a hs₁ h₂
  exact ⟨hs', IsTrans.trans _ _ _ hr₁ hr₂⟩

theorem forEach [Std.Refl R] [IsTrans σ R] {g : ι → Tx σ ε Unit} (hg : ∀ i, Relates I R (g i))
    (l : List ι) : Relates I R (Tx.forEach g l) := by
  induction l with
  | nil => exact pure
  | cons i l ih => exact (hg i).bind fun _ => ih

end Relates

/-! ## Committing, and runs -/

/-- What the database holds after the body ended: its writes if it returned, the
old state if it failed. -/
def commit (m : Tx σ ε α) (s : σ) : σ :=
  match m s with
  | .ok (_, s') => s'
  | .error _ => s

/-- **A failed transaction changes nothing.** -/
theorem commit_of_error {s : σ} (h : m s = .error e) : commit m s = s := by
  simp [commit, h]

theorem commit_cases (m : Tx σ ε α) (s : σ) :
    (∃ a, m s = .ok (a, commit m s)) ∨ commit m s = s := by
  cases hm : m s with
  | error => exact Or.inr (commit_of_error hm)
  | ok r =>
    obtain ⟨a, s'⟩ := r
    exact Or.inl ⟨a, by simp [commit, hm]⟩

theorem Preserves.commit (hm : Preserves I m) {s : σ} (hs : I s) : I (m.commit s) := by
  rcases commit_cases m s with ⟨a, h⟩ | h
  · exact hm hs h
  · rwa [h]

/-- The state after committing the bodies of a list of calls in order. -/
def run (exec : ι → Tx σ ε α) (s : σ) (calls : List ι) : σ :=
  calls.foldl (fun s c => (exec c).commit s) s

section

variable (exec : ι → Tx σ ε α) (s : σ)
include exec s

@[simp] theorem run_nil : run exec s [] = s := rfl

@[simp] theorem run_cons (c : ι) (calls : List ι) :
    run exec s (c :: calls) = run exec ((exec c).commit s) calls := rfl

theorem run_append (calls more : List ι) :
    run exec s (calls ++ more) = run exec (run exec s calls) more := by
  simp [run, foldl_append]

end

variable {exec : ι → Tx σ ε α} {calls : List ι}

/-- **Invariants of runs.**  What every admissible call preserves holds after
any sequence of admissible calls, so after each of its prefixes. -/
theorem run_invariant {s : σ}
    (hs : I s) (hstep : ∀ c ∈ calls, Preserves I (exec c)) : I (run exec s calls) := by
  induction calls generalizing s with
  | nil => exact hs
  | cons c calls ih =>
    rw [run_cons]
    exact ih ((hstep c mem_cons_self).commit hs)
      fun c' hc' => hstep c' (mem_cons_of_mem _ hc')

/-- A reflexive and transitive relation that holds across every commit holds
across a whole run. -/
theorem run_relation {R : σ → σ → Prop} {s : σ} (hs : I s) (hrefl : ∀ s, R s s)
    (htrans : ∀ s₁ s₂ s₃, R s₁ s₂ → R s₂ s₃ → R s₁ s₃) (hstep : ∀ c, Preserves I (exec c))
    (hrel : ∀ c s a s', I s → exec c s = .ok (a, s') → R s s') : R s (run exec s calls) := by
  have := Std.Refl.mk hrefl
  have := IsTrans.mk htrans
  refine Runs.run_relation (fun s c hs => (hstep c).commit hs) (fun s c hs => ?_) calls hs
  rcases commit_cases (exec c) s with ⟨a, h⟩ | h
  · exact hrel c _ _ _ hs h
  · rw [h]
    exact hrefl s

end Tx

end Pandora.Database
