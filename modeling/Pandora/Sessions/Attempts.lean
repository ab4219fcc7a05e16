import Mathlib.Algebra.Order.Ring.Int
import Pandora.Foundation.Runs

/-!
# Attempts at a password

`Login` and `Reauth` take a slot of a counter in Redis before they check a password, and refuse to
check it above their limit.  A check that passed deletes the counter, a check without a conclusion
gives its slot back, and a failure keeps it.  Checks take any time, and the key of the counter can
expire meanwhile: the next call then begins a new life of the key.

`Release` looks whether the key exists, not which life it is in.  `Own` says that slots are given
back in the life they were taken in; then no life has more failures than the limit.
-/

namespace Pandora.Sessions.Attempts

open List Runs

/-- The calls that check a password of an account, each with a counter of its own. -/
inductive Gate
  | login
  | reauth

def failureThreshold : ℕ := 10

def reauthLimit : ℕ := 5

def Gate.limit : Gate → ℕ
  | .login => failureThreshold
  | .reauth => reauthLimit

/-- What `login` or `VerifyPassword` concludes. -/
inductive Verdict
  | passed
  | counted
  | inconclusive

/-- What became of the slot of a call. -/
inductive Ending
  | reset
  | released
  | kept
  | failed
  deriving DecidableEq

/-- The end of a call, where `answers` says whether Redis executes the command. -/
def Verdict.ending (answers : Bool) : Verdict → Ending
  | .passed => if answers then .reset else .kept
  | .inconclusive => if answers then .released else .kept
  | .counted => .failed

inductive Stage
  | refused
  | checking
  | ended (e : Ending)
  deriving DecidableEq

structure Call where
  /-- The life of the key that the slot was taken in. -/
  life : ℕ
  /-- The slots of that life that had been taken and not released. -/
  met : ℕ
  stage : Stage

structure State where
  key : Option ℤ := none
  /-- The lives that have begun. -/
  lives : ℕ := 0
  calls : List Call := []

open State

/-- The calls of a life with a property. -/
def State.count (p : Stage → Bool) (s : State) (life : ℕ) : ℕ :=
  s.calls.countP fun c => c.life == life && p c.stage

/-- The slots of a life that are taken and not released. -/
def State.slots : State → ℕ → ℕ := State.count (· != .ended .released)

/-- The calls of a life that checked a password and ended as a failure. -/
def State.failures : State → ℕ → ℕ := State.count (· == .ended .failed)

/-- The life that `Incr` finds or begins. -/
def State.life (s : State) : ℕ := if s.key = none then s.lives + 1 else s.lives

/-- `Incr`, and the comparison that follows it. -/
def State.incr (s : State) (limit : ℕ) : State :=
  let n := s.key.getD 0 + 1
  ⟨some n, s.life, s.calls ++ [⟨s.life, s.slots s.life, if limit < n then .refused else .checking⟩]⟩

/-- `Reset` deletes the key, `Release` counts down if it exists. -/
def Ending.apply (key : Option ℤ) : Ending → Option ℤ
  | .reset => none
  | .released => key.map (· - 1)
  | .kept | .failed => key

inductive Label
  | call
  | finish (i : ℕ) (v : Verdict) (answers : Bool)
  | expire

def Gate.next (g : Gate) (s : State) : Label → State
  | .call => s.incr g.limit
  | .finish i v answers => match s.calls[i]? with
    | some ⟨life, met, .checking⟩ =>
      let e := v.ending answers
      ⟨e.apply s.key, s.lives, s.calls.set i ⟨life, met, .ended e⟩⟩
    | _ => s
  | .expire => { s with key := none }

/-- A slot is given back while its life lasts, or when there is no key. -/
def Own (s : State) : Label → Prop
  | .finish i .inconclusive true => ∀ c ∈ s.calls[i]?, s.key = none ∨ c.life = s.lives
  | _ => True

instance (s : State) (l : Label) : Decidable (Own s l) := by
  unfold Own
  split <;> infer_instance

/-! ## Counting -/

variable {s : State} {limit : ℕ} {p q : Stage → Bool} {life : ℕ}

theorem State.count_le (h : ∀ x, p x → q x) : s.count p life ≤ s.count q life :=
  countP_mono_left fun c _ hc => by
    rw [Bool.and_eq_true] at hc ⊢
    exact ⟨hc.1, h c.stage hc.2⟩

theorem State.count_incr : (s.incr limit).count p life = s.count p life +
    if (s.life == life && p (if limit < s.key.getD 0 + 1 then .refused else .checking)) = true
      then 1 else 0 := by
  simp only [count, incr, countP_append, countP_singleton]

theorem State.count_finish {i l m : ℕ} (hc : s.calls[i]? = some ⟨l, m, .checking⟩)
    (hp : p .checking = true) (key : Option ℤ) (e : Ending) (life : ℕ) :
    count p ⟨key, s.lives, s.calls.set i ⟨l, m, .ended e⟩⟩ life +
      (if l = life ∧ p (.ended e) = false then 1 else 0) = s.count p life := by
  have hpos (hl : l = life) : 0 < s.count p life :=
    countP_pos_iff.mpr ⟨_, mem_of_getElem? hc, by simp [hl, hp]⟩
  obtain ⟨hlt, hget⟩ := List.getElem?_eq_some_iff.mp hc
  unfold count at hpos ⊢
  rw [countP_set hlt, hget]
  by_cases hl : l = life
  · cases p (.ended e) <;> simp [hl, hp] <;> have := hpos hl <;> omega
  · simp [hl]

/-- The calls that were let through and have not given their slot back. -/
def Stage.guesses (x : Stage) : Bool := x != .ended .released && x != .refused

/-- The key counts the slots of its life. -/
structure Exact (limit : ℕ) (s : State) : Prop where
  lives : ∀ c ∈ s.calls, c.life ≤ s.lives
  slots : ∀ n ∈ s.key, n = s.slots s.lives
  refused : ∀ c ∈ s.calls, c.stage = .refused → limit ≤ c.met
  guesses : ∀ life, s.count Stage.guesses life ≤ limit

namespace Exact

variable (h : Exact limit s)
include h

theorem getD_eq : s.key.getD 0 = s.slots s.life := by
  unfold life
  split_ifs with hkey
  · have hnone : s.slots (s.lives + 1) = 0 := countP_eq_zero.mpr fun c hc => by
      have := h.lives c hc
      simp
      omega
    rw [hkey, hnone]
    rfl
  · obtain ⟨n, hn⟩ := Option.ne_none_iff_exists'.mp hkey
    rw [hn]
    exact h.slots n hn

theorem failures_le : s.failures life ≤ limit := by
  refine (count_le fun x hx => ?_).trans (h.guesses life)
  rw [beq_iff_eq.mp hx]
  rfl

theorem incr : Exact limit (s.incr limit) := by
  have hlives : s.lives ≤ s.life := by
    unfold State.life
    split_ifs <;> omega
  have hle : s.count Stage.guesses s.life ≤ s.slots s.life :=
    State.count_le fun x hx => (Bool.and_eq_true_iff.mp hx).1
  have hn := h.getD_eq
  refine ⟨forall_mem_append.mpr ⟨fun c hc => (h.lives c hc).trans hlives,
      forall_mem_singleton.mpr le_rfl⟩, ?_, forall_mem_append.mpr ⟨h.refused, ?_⟩, fun life => ?_⟩
  · rintro n ⟨⟩
    unfold State.slots at hn ⊢
    rw [hn, State.count_incr]
    split_ifs <;> simp_all [State.incr]
  · refine forall_mem_singleton.mpr fun hrefused => ?_
    dsimp only at hrefused ⊢
    split_ifs at hrefused with hlt
    omega
  · have hlife := h.guesses life
    rw [State.count_incr]
    split_ifs <;> simp_all [Stage.guesses]
    omega

theorem finish {i l m : ℕ} {e : Ending} (hc : s.calls[i]? = some ⟨l, m, .checking⟩)
    (hown : e = .released → s.key = none ∨ l = s.lives) :
    Exact limit ⟨e.apply s.key, s.lives, s.calls.set i ⟨l, m, .ended e⟩⟩ := by
  refine ⟨fun x hx => ?_, fun n hn => ?_, fun x hx hrefused => ?_, fun life => ?_⟩
  · obtain hx | rfl := mem_or_eq_of_mem_set hx
    · exact h.lives x hx
    · exact h.lives ⟨l, m, .checking⟩ (mem_of_getElem? hc)
  · have hslots := s.count_finish (p := (· != .ended .released)) hc rfl (e.apply s.key) e s.lives
    cases e with
    | reset => cases hn
    | released =>
      obtain ⟨k, hk, rfl⟩ := Option.map_eq_some_iff.mp hn
      obtain hnone | hl := hown rfl
      · exact absurd hk (hnone ▸ nofun)
      · rw [h.slots k hk, State.slots, ← hslots, if_pos ⟨hl, rfl⟩]
        simp
    | kept | failed =>
      rw [h.slots n hn, State.slots, ← hslots]
      simp
  · obtain hx | rfl := mem_or_eq_of_mem_set hx
    · exact h.refused x hx hrefused
    · cases hrefused
  · have hlife := h.guesses life
    have hset := s.count_finish (p := Stage.guesses) hc rfl (e.apply s.key) e life
    omega

end Exact

/-- A call is only refused above the limit, and as long as slots are given back in their own life,
no life has more failures than the limit and the count is not negative. -/
theorem guesses_bounded (g : Gate) {labels : List Label} (h : Along g.next Own {} labels) :
    let s := labels.foldl g.next {}
    (∀ life, s.failures life ≤ g.limit) ∧
      (∀ c ∈ s.calls, c.stage = .refused → g.limit ≤ c.met) ∧ ∀ n ∈ s.key, 0 ≤ n := by
  have hs : Exact g.limit (labels.foldl g.next {}) := by
    refine h.invariant (fun s l hs hown => ?_) ⟨nofun, nofun, nofun, fun _ => Nat.zero_le _⟩
    cases l with
    | call => exact hs.incr
    | expire => exact { hs with slots := nofun }
    | finish i v answers =>
      simp only [Gate.next]
      split
      · rename_i hc
        refine hs.finish hc fun he => ?_
        cases v <;> cases answers <;> cases he
        exact hown _ hc
      · exact hs
  exact ⟨fun _ => hs.failures_le, hs.refused, fun n hn => hs.slots n hn ▸ Int.natCast_nonneg _⟩

/-- Five calls get a slot and the sixth is refused; one slot is given back. -/
def released : List Label := replicate 6 .call ++ [.finish 0 .inconclusive true,
    .finish 1 .counted true]

theorem sample_guesses_bounded : Along Gate.reauth.next Own {} released ∧
    (released.foldl Gate.reauth.next {}).failures 1 = 1 ∧
    (released.foldl Gate.reauth.next {}).key = some 5 ∧
    ∀ life, (released.foldl Gate.reauth.next {}).failures life ≤ reauthLimit :=
  ⟨by decide, by decide, by decide, (guesses_bounded .reauth (by decide)).1⟩

/-- The first call is let in and its key expires.  The calls of the next life fail, then the first
one gives back the slot that it had in the life before. -/
def lateRelease (g : Gate) : List Label :=
  [.call, .expire] ++ (range g.limit).flatMap (fun i => [.call, .finish (i + 1) .counted true]) ++
    [.finish 0 .inconclusive true, .call, .finish (g.limit + 1) .counted true]

/-- The second life of the key has a failure more than the limit, at either call; and with no
failure in between the count gets below zero. -/
theorem late_release : ((lateRelease .login).foldl Gate.login.next {}).failures 2 = 11 ∧
    ((lateRelease .reauth).foldl Gate.reauth.next {}).failures 2 = 6 ∧
    (foldl Gate.login.next {} [.call, .expire, .call, .finish 1 .inconclusive true,
      .finish 0 .inconclusive true]).key = some (-1) := by
  decide

end Pandora.Sessions.Attempts
