import Mathlib.Data.List.Basic

/-!
# Programs that may be cut off

A program that acts on durable state takes one step after another, and the machine may stop before
any of them.  What a step does depends on the outside (an operation fails, a clock is read, someone
else has written in between); all of that is one *choice*, and a run of a program is given by the
list of the choices that it meets.  When the list has come to its end the program is cut off, in the
state that it has reached: so what holds of every list holds at every moment of a run.

`Prog.Meets` is the logic: from a state, a program ends only as `Q` says, and is cut off only in
states in which `I` holds.  It has one rule for each way a program is built; `Prog.again` starts a
program over and over, on the state in which it was left.
-/

namespace Pandora.Crash

variable {ε σ α β : Type} {Q : α → σ → Prop}

/-- How a run of a program ends. -/
inductive Ran (ε σ α : Type)
  /-- It is cut off. -/
  | cut (s : σ)
  /-- It returns, and these choices have not been met. -/
  | done (a : α) (s : σ) (rest : List ε)

def Ran.state : Ran ε σ α → σ
  | .cut s => s
  | .done _ s _ => s

def Prog (ε σ α : Type) := σ → List ε → Ran ε σ α

namespace Prog

def bind (p : Prog ε σ α) (f : α → Prog ε σ β) : Prog ε σ β := fun s es =>
  match p s es with
  | .cut s => .cut s
  | .done a s rest => f a s rest

instance : Monad (Prog ε σ) where
  pure a := fun s es => .done a s es
  bind := bind

/-- One step. -/
def step (f : ε → σ → α × σ) : Prog ε σ α
  | s, [] => .cut s
  | s, e :: es => .done (f e s).1 (f e s).2 es

/-- A step is taken again until it returns something. -/
def loop (f : ε → σ → Option α × σ) : Prog ε σ α
  | s, [] => .cut s
  | s, e :: es => match f e s with
    | (some a, s) => .done a s es
    | (none, s) => loop f s es

/-- What is only written down for the sake of a statement: the program cannot be cut off before. -/
def note (f : σ → σ) : Prog ε σ Unit := fun s es => .done () (f s) es

/-- A program is started again and again. -/
def again (p : Prog ε σ α) (s : σ) (es : List ε) : σ := (p s es).state

/-! ## The logic -/

/-- From `s`, the program returns only as `Q` says, and it is cut off only where `I` holds, if all
the choices that it meets are such as `C` says. -/
def Meets (C : ε → Prop) (I : σ → Prop) (p : Prog ε σ α) (s : σ) (Q : α → σ → Prop) : Prop :=
  ∀ es, (∀ e ∈ es, C e) → match p s es with
    | .cut s' => I s'
    | .done a s' rest => Q a s' ∧ ∀ e ∈ rest, C e

variable {C : ε → Prop} {I J : σ → Prop} {s : σ} {p : Prog ε σ α}

theorem meets_pure {a : α} (h : Q a s) :
    Meets C I (pure a : Prog ε σ α) s Q := fun _ hes => ⟨h, hes⟩

theorem meets_note {f : σ → σ} {Q : Unit → σ → Prop} (h : Q () (f s)) :
    Meets C I (note f : Prog ε σ Unit) s Q := fun _ hes => ⟨h, hes⟩

theorem meets_step {f : ε → σ → α × σ} {Q : α → σ → Prop} (hI : I s)
    (h : ∀ e, C e → Q (f e s).1 (f e s).2) : Meets C I (step f) s Q
  | [], _ => hI
  | e :: _, hes => ⟨h e (hes e List.mem_cons_self), fun e he => hes e (List.mem_cons_of_mem _ he)⟩

theorem Meets.bind {f : α → Prog ε σ β} {R : β → σ → Prop}
    (hp : Meets C I p s Q) (hf : ∀ a s, Q a s → Meets C I (f a) s R) : Meets C I (p >>= f) s R := by
  intro es hes
  have hrun := hp es hes
  show match Prog.bind p f s es with
    | .cut s' => I s'
    | .done a s' rest => R a s' ∧ ∀ e ∈ rest, C e
  unfold Prog.bind
  cases h : p s es with
  | cut =>
    rw [h] at hrun
    exact hrun
  | done a s' rest =>
    rw [h] at hrun
    exact hf a s' hrun.1 rest hrun.2

theorem Meets.attempt {δ : Type} {p : Prog ε σ (Except δ α)} {f : Except δ α → Prog ε σ β}
    {Q : Except δ α → σ → Prop} {R : β → σ → Prop} (hp : Meets C I p s Q)
    (herror : ∀ e s, Q (.error e) s → Meets C I (f (.error e)) s R)
    (hok : ∀ a s, Q (.ok a) s → Meets C I (f (.ok a)) s R) : Meets C I (p >>= f) s R := by
  refine hp.bind fun r s hr => ?_
  cases r with
  | error e => exact herror e s hr
  | ok a => exact hok a s hr

theorem Meets.mono {R : α → σ → Prop} (hp : Meets C I p s Q)
    (hI : ∀ s, I s → J s) (hQ : ∀ a s, Q a s → R a s) : Meets C J p s R := by
  intro es hes
  have hrun := hp es hes
  cases h : p s es with
  | cut s' =>
    rw [h] at hrun
    exact hI s' hrun
  | done a s' =>
    rw [h] at hrun
    exact ⟨hQ a s' hrun.1, hrun.2⟩

/-- `J` is kept from one turn of a loop to the next. -/
theorem meets_loop {f : ε → σ → Option α × σ} (hI : ∀ s, J s → I s)
    (h : ∀ e s, C e → J s → match f e s with | (some a, s') => Q a s' | (none, s') => J s')
    (hs : J s) : Meets C I (loop f) s Q := by
  intro es
  induction es generalizing s with
  | nil => exact fun _ => hI s hs
  | cons e es ih =>
    intro hes
    have hturn := h e s (hes e List.mem_cons_self) hs
    have hrest : ∀ e ∈ es, C e := fun e he => hes e (List.mem_cons_of_mem _ he)
    rw [loop]
    rcases hf : f e s with ⟨_ | a, s'⟩
    · rw [hf] at hturn
      exact ih hturn hrest
    · rw [hf] at hturn
      exact ⟨hturn, hrest⟩

theorem Meets.again {es : List ε} (hp : Meets C I p s fun _ => I)
    (hes : ∀ e ∈ es, C e) : I (p.again s es) := by
  have hrun := hp es hes
  unfold Prog.again
  cases h : p s es with
  | cut =>
    rw [h] at hrun
    exact hrun
  | done =>
    rw [h] at hrun
    exact hrun.1

end Prog
end Pandora.Crash
