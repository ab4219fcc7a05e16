import Pandora.Agent.Users

/-!
# What the node believes to be in the kernel

`applyUsers` and `applyUserDelta` bring the kernel from the roster that the node knows to another
one.  Only when every call has succeeded does the node know the new one; when a call fails, the
node still knows the old roster while the kernel may be somewhere on the way.

`Between` is what the kernel is like then: it has nothing that is in neither of the two rosters,
and everything that is in both.  The same changes, made again, lead from there to the new roster
(`Between.applied`), and so do the changes to any other roster that has the same records as the
new one for all numbers for which that one differs from the old (`Agrees`).
-/

namespace Pandora.Agent

open Keyed

/-! ## Calls -/

/-- Which calls of the kernel fail. -/
structure Calls where
  delUsers : Bool := false
  addUsers : Bool := false
  upsertUsers : Bool := false

/-- `applyKernelUsers`: the table after it, and whether it succeeded.  Calls with nothing to do
are not made. -/
def applyKernelUsers (fails : Calls) (c : Changes) (t : Table) : Table × Bool :=
  if c.removed ≠ [] ∧ fails.delUsers = true then (t, false)
  else if c.added ≠ [] ∧ fails.addUsers = true then (t.eraseAll c.removed, false)
  else if c.updated ≠ [] ∧ fails.upsertUsers = true then
    ((t.eraseAll c.removed).addAll c.added, false)
  else (((t.eraseAll c.removed).addAll c.added).putAll c.updated, true)

/-- Why a roster was not taken. -/
inductive Reason
  | versionMismatch | applyFailed | resync
  deriving DecidableEq

/-- `UsersAck`, with the reason where it is not ok. -/
structure UsersAck where
  version : String
  failure : Option Reason
  deriving DecidableEq

def applyUsers (order : Order) (fails : Calls) (users : List User) (known : Users) (t : Table) :
    Users × Table × Bool :=
  let want := wanted users
  let (t, ok) := applyKernelUsers fails (changesTo order known want) t
  (if ok = true then want else known, t, ok)

def applyUserDelta (fails : Calls) (upserted : List User) (removed : List ℤ) (known : Users)
    (t : Table) : Users × Table × Bool :=
  let next := deltaTargets upserted removed
  let (t, ok) := applyKernelUsers fails (deltaChanges known next) t
  (if ok = true then next.foldl setUser known else known, t, ok)

theorem applyKernelUsers_idle {c : Changes} {t : Table}
    (h : (applyKernelUsers ⟨true, true, true⟩ c t).2 = true) :
    (applyKernelUsers ⟨true, true, true⟩ c t).1 = t := by
  unfold applyKernelUsers at h ⊢
  split_ifs at h ⊢ with hremoved hadded hupdated
  simp only [and_true, ne_eq, not_not] at hremoved hadded hupdated
  rw [hremoved, hadded, hupdated]
  rfl

/-! ## On the way from one roster to another -/

/-- No two numbers have one credential. -/
def Distinct (m : Users) : Prop := ∀ u ∈ m, ∀ v ∈ m, u.uuid = v.uuid → u = v

instance (m : Users) : Decidable (Distinct m) :=
  decidable_of_iff (∀ u ∈ m.values, ∀ v ∈ m.values, u.uuid = v.uuid → u = v) <| by
    simp only [mem_values]
    exact Iff.rfl

/-- The kernel is somewhere between two rosters. -/
structure Between (t : Table) (known want : Users) : Prop where
  only : ∀ u ∈ t, u ∈ known ∨ u ∈ want
  kept : ∀ u ∈ known, u ∈ want → u ∈ t

instance (t : Table) (known want : Users) : Decidable (Between t known want) :=
  decidable_of_iff ((∀ u ∈ t.values, u ∈ known ∨ u ∈ want) ∧
      ∀ u ∈ known.values, u ∈ want → u ∈ t) <| by
    simp only [mem_values]
    exact ⟨fun h => ⟨h.1, h.2⟩, fun h => ⟨h.1, h.2⟩⟩

/-- A roster has the records of `want` for the numbers for which `want` is not as `known`. -/
def Agrees (known want other : Users) : Prop :=
  ∀ id, want.get id ≠ known.get id → other.get id = want.get id

instance (known want other : Users) : Decidable (Agrees known want other) :=
  decidable_of_iff (∀ u ∈ known.values ++ want.values,
      want.get u.id ≠ known.get u.id → other.get u.id = want.get u.id) <| by
    constructor
    · intro h id hne
      cases hwant : want.get id with
      | some u =>
        obtain ⟨hu, rfl⟩ := get_eq_some_iff.mp hwant
        rw [← hwant]
        exact h u (List.mem_append_right _ (mem_values.mpr hu)) hne
      | none =>
        cases hknown : known.get id with
        | none => exact absurd (hwant.trans hknown.symm) hne
        | some u =>
          obtain ⟨hu, rfl⟩ := get_eq_some_iff.mp hknown
          rw [← hwant]
          exact h u (List.mem_append_left _ (mem_values.mpr hu)) hne
    · exact fun h u _ => h u.id

theorem between_self_iff {t : Table} {m : Users} : Between t m m ↔ ∀ u, u ∈ t ↔ u ∈ m := by
  constructor
  · exact fun h u => ⟨fun hu => (h.only u hu).elim (fun h => h) (fun h => h),
      fun hu => h.kept u hu hu⟩
  · exact fun h => ⟨fun u hu => .inl ((h u).mp hu), fun u hu _ => (h u).mpr hu⟩

section Steps

variable {t : Table} {known want other : Users} {c : Changes} {u : User}

theorem agrees_self (known other : Users) : Agrees known known other := fun _ h => absurd rfl h

section

variable (h : Between t known want)
include h

/-- Between two rosters is between the old one and any that agrees with the new one. -/
theorem Between.agrees (ha : Agrees known want other) :
    Between t known other where
  only := by
    intro u hu
    rcases h.only u hu with hu | hu
    · exact .inl hu
    · by_cases hsame : want.get u.id = known.get u.id
      · exact .inl (hsame.symm.trans hu)
      · exact .inr ((ha u.id hsame).trans hu)
  kept := by
    intro u hu hother
    refine h.kept u hu ?_
    by_contra hnot
    have hne : want.get u.id ≠ known.get u.id := fun hsame => hnot (hsame.trans hu)
    exact hnot ((ha u.id hne).symm.trans hother)

theorem Between.removed (hknown : Distinct known)
    (hc : c.Moves known want) : Between (t.eraseAll c.removed) known want where
  only := by
    intro u hu
    rw [mem_iff, get_eraseAll] at hu
    split_ifs at hu
    exact h.only u hu
  kept := by
    intro u hu hwant
    rw [mem_iff, get_eraseAll, if_neg]
    · exact h.kept u hu hwant
    · rw [hc.removed]
      rintro ⟨b, hb, hbu, hnot⟩
      obtain rfl := hknown b hb u hu hbu
      exact hnot ⟨b, hwant, rfl⟩

theorem Between.added (hc : c.Moves known want) :
    Between (t.addAll c.added) known want where
  only := by
    intro u hu
    rcases mem_of_mem_addAll hu with hu | hu
    · exact h.only u hu
    · exact .inr ((hc.added u).mp hu).1
  kept := fun u hu hwant => get_addAll_of_some (h.kept u hu hwant)

/-- What is still there after the first call is wanted, or has another record with the same
credential that is. -/
theorem Between.left (hc : c.Moves known want)
    (hu : u ∈ t.eraseAll c.removed) : u ∈ want ∨ u ∈ known ∧ SameCredential want u := by
  rw [mem_iff, get_eraseAll] at hu
  split_ifs at hu with hout
  rcases h.only u hu with hknown | hwant
  · by_cases hsame : SameCredential want u
    · exact .inr ⟨hknown, hsame⟩
    · exact absurd ((hc.removed _).mpr ⟨u, hknown, rfl, hsame⟩) hout
  · exact .inl hwant

end

section

variable (h : Between t known want) (hknown : Distinct known) (hwant : Distinct want)
  (hc : c.Moves known want)
include h hknown hwant hc

/-- After the second call every wanted user is there whose record is not only to be changed. -/
theorem Between.taken_in (hu : u ∈ want) (hnot : u ∈ known ∨ ¬SameCredential known u) :
    u ∈ (t.eraseAll c.removed).addAll c.added := by
  rcases hnot with hold | hnew
  · exact ((h.removed hknown hc).added hc).kept u hold hu
  · have hadded : u ∈ c.added := (hc.added u).mpr ⟨hu, hnew⟩
    cases hget : (t.eraseAll c.removed).get u.uuid with
    | none =>
      refine get_addAll_of_mem hadded (fun b hb hbu => ?_) hget
      exact hwant b ((hc.added b).mp hb).1 u hu hbu
    | some x =>
      -- another user with the credential would have been taken out
      obtain ⟨hx, hxu⟩ := get_eq_some_iff.mp hget
      have hxeq : x = u := by
        rcases h.left hc hx with hx | ⟨hx, y, hy, hyx⟩
        · exact hwant x hx u hu hxu
        · obtain ⟨hy, hyid⟩ := get_eq_some_iff.mp hy
          obtain rfl := hwant y hy u hu (hyx.trans hxu)
          exact absurd ⟨x, hyid ▸ hx, hxu⟩ hnew
      rw [hxeq] at hget
      exact get_addAll_of_some hget

/-- **The three calls lead to the new roster from anywhere between the two.** -/
theorem Between.applied (u : User) :
    u ∈ ((t.eraseAll c.removed).addAll c.added).putAll c.updated ↔ u ∈ want := by
  have huniq : ∀ b ∈ c.updated, ∀ x ∈ want, b.uuid = x.uuid → b = x := fun b hb x hx =>
    hwant b ((hc.updated b).mp hb).1 x hx
  rw [mem_iff]
  constructor
  · intro hu
    by_cases hin : ∃ b ∈ c.updated, b.uuid = u.uuid
    · obtain ⟨b, hb, hbu⟩ := hin
      have hbwant := ((hc.updated b).mp hb).1
      rw [← hbu, get_putAll_of_mem hb fun x hx hxb =>
        huniq x hx b hbwant hxb] at hu
      exact Option.some.inj hu ▸ hbwant
    · push Not at hin
      rw [get_putAll_of_not_key hin] at hu
      rcases mem_of_mem_addAll hu with hu | hu
      · rcases h.left hc hu with hu | ⟨hold, y, hy, hyu⟩
        · exact hu
        · -- a record with other limits would have been changed
          obtain ⟨hy, hyid⟩ := get_eq_some_iff.mp hy
          by_contra hnot
          have hyu' : u ≠ y := fun heq => hnot (heq ▸ hy)
          have hget : known.get y.id = some u := by rw [hyid]; exact hold
          refine hin y ((hc.updated y).mpr ⟨hy, ⟨u, hget, hyu.symm⟩, fun hynew => ?_⟩) hyu
          exact hyu' (Option.some.inj (hget.symm.trans hynew))
      · exact ((hc.added u).mp hu).1
  · intro hu
    by_cases hchanged : SameCredential known u ∧ u ∉ known
    · exact get_putAll_of_mem ((hc.updated u).mpr ⟨hu, hchanged⟩)
        fun b hb hbu => huniq b hb u hu hbu
    · rw [get_putAll_of_not_key]
      · refine h.taken_in hknown hwant hc hu ?_
        by_cases hold : u ∈ known
        · exact .inl hold
        · exact .inr fun hsame => hchanged ⟨hsame, hold⟩
      · intro b hb hbu
        obtain rfl := huniq b hb u hu hbu
        exact hchanged ((hc.updated b).mp hb).2

theorem Between.applyKernelUsers (fails : Calls) :
    ((applyKernelUsers fails c t).2 = true → ∀ u, u ∈ (applyKernelUsers fails c t).1 ↔ u ∈ want) ∧
      ((applyKernelUsers fails c t).2 = false →
        Between (applyKernelUsers fails c t).1 known want) := by
  have hremoved := h.removed hknown hc
  unfold Agent.applyKernelUsers
  split_ifs
  · exact ⟨fun h => h.elim, fun _ => h⟩
  · exact ⟨fun h => h.elim, fun _ => hremoved⟩
  · exact ⟨fun h => h.elim, fun _ => hremoved.added hc⟩
  · exact ⟨fun _ => h.applied hknown hwant hc, fun h => h.elim⟩

end

end Steps

end Pandora.Agent
