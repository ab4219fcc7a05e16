import Mathlib.Data.List.Induction
import Pandora.Foundation.Keyed

/-!
# The users of a node

A roster comes to a node whole, or as what has changed in it.  The node keeps what it believes
to be in the kernel (`known`, by user number), finds the difference, and hands it to the kernel
in at most three calls: first the credentials to take out, then the users to take in, then those
that only have other limits.  The kernel keeps users by credential.  A call may fail, and then it
has changed nothing; what the calls before it have done stays.

Go goes through a map in no fixed order.  Where the code does, the order is given as an argument
(`Order`).
-/

namespace Pandora.Agent

open List Keyed Option

structure User where
  id : ℤ
  uuid : String
  speedLimit : ℕ := 0
  deviceLimit : ℕ := 0
  deriving DecidableEq

/-- Users by number, as the node keeps them. -/
abbrev Users : Type := Keyed User.id

/-- Users by credential, as the kernel keeps them. -/
abbrev Table : Type := Keyed User.uuid

/-! ## Lists of users -/

/-- The last step of the loops of `normalizeUsers` and `deltaTargets`: a user takes the place of
the one with the same number, or comes last. -/
def place (out : List User) (u : User) : List User :=
  if ∃ x ∈ out, x.id = u.id then out.map fun x => if x.id = u.id then u else x else out ++ [u]

def normalizeUsers (users : List User) : List User :=
  users.foldl (fun out u => if u.uuid = "" then out else place out u) []

def mirrorOf (users : List User) : Users := (∅ : Users).putAll users

/-- The map that `applyUsers` makes of a list. -/
def wanted (users : List User) : Users :=
  users.foldl (fun want u => if u.uuid = "" then want else want.put u) ∅

/-- A list holds the same users as a map. -/
def Holds (out : List User) (m : Users) : Prop := ∀ u, u ∈ out ↔ u ∈ m

variable {l out upserted users : List User} {M m : Users} {u : User} {id : ℤ} {removed : List ℤ}

theorem Holds.place (h : Holds out m) (u : User) : Holds (place out u) (m.put u) := by
  intro x
  rw [Agent.place, mem_put]
  split_ifs with hin
  · obtain ⟨y, hy, hyu⟩ := hin
    rw [List.mem_map]
    constructor
    · rintro ⟨z, hz, rfl⟩
      split_ifs with hzu
      · exact .inl rfl
      · exact .inr ⟨hzu, (h z).mp hz⟩
    · rintro (rfl | ⟨hne, hx⟩)
      · exact ⟨y, hy, if_pos hyu⟩
      · exact ⟨x, (h x).mpr hx, if_neg hne⟩
  · rw [mem_append, mem_singleton]
    constructor
    · rintro (hx | rfl)
      · exact .inr ⟨fun hxu => hin ⟨x, hx, hxu⟩, (h x).mp hx⟩
      · exact .inl rfl
    · rintro (rfl | ⟨-, hx⟩)
      · exact .inr rfl
      · exact .inl ((h x).mpr hx)

theorem Holds.get_mirrorOf (h : Holds out m) (id : ℤ) : (mirrorOf out).get id = m.get id := by
  cases hid : m.get id with
  | none =>
    refine (get_putAll_of_not_key fun u hu hk => ?_).trans (get_empty id)
    have hget : m.get u.id = some u := (h u).mp hu
    rw [hk, hid] at hget
    cases hget
  | some u =>
    obtain ⟨hu, rfl⟩ := get_eq_some_iff.mp hid
    exact get_putAll_of_mem ((h u).mpr hu) fun b hb hk => eq_of_mem ((h b).mp hb) hu hk

theorem holds_nil : Holds [] ∅ := fun u => iff_of_false not_mem_nil (not_mem_empty u)

theorem holds_foldl_place (h : Holds out m) (l : List User) :
    Holds (l.foldl place out) (m.putAll l) := by
  induction l generalizing out m with
  | nil => exact h
  | cons u l ih => exact ih (h.place u)

/-- The users that have a credential. -/
def named (users : List User) : List User := users.filter (·.uuid ≠ "")

theorem normalizeUsers_eq (users : List User) :
    normalizeUsers users = (named users).foldl place [] := by
  simp only [normalizeUsers, named, foldl_filter, decide_eq_true_eq, ne_eq, ite_not]

theorem wanted_eq (users : List User) : wanted users = mirrorOf (named users) := by
  simp only [wanted, mirrorOf, Keyed.putAll, named, foldl_filter, decide_eq_true_eq, ne_eq, ite_not]

theorem holds_normalizeUsers (users : List User) : Holds (normalizeUsers users) (wanted users) := by
  rw [normalizeUsers_eq, wanted_eq]
  exact holds_foldl_place holds_nil _

theorem uuid_ne_of_mem_wanted (hu : u ∈ wanted users) : u.uuid ≠ "" := by
  rw [wanted_eq] at hu
  rcases mem_of_mem_putAll hu with hu | hu
  · exact absurd hu (not_mem_empty u)
  · exact of_decide_eq_true (mem_filter.mp hu).2

theorem mem_mirrorOf_normalizeUsers :
    u ∈ mirrorOf (normalizeUsers users) ↔ u ∈ normalizeUsers users := by
  have hholds := holds_normalizeUsers users
  rw [hholds u, mem_iff, hholds.get_mirrorOf, ← mem_iff]

theorem mem_addAll_empty (hl : ∀ u ∈ l, ∀ v ∈ l, u.uuid = v.uuid → u = v) :
    u ∈ (∅ : Table).addAll l ↔ u ∈ l :=
  ⟨fun hu => (mem_of_mem_addAll hu).resolve_left (not_mem_empty u),
    fun hu => get_addAll_of_mem hu (fun b hb hbu => hl b hb u hu hbu) (get_empty _)⟩

theorem get_wanted_normalizeUsers (users : List User) (id : ℤ) :
    (wanted (normalizeUsers users)).get id = (mirrorOf (normalizeUsers users)).get id := by
  have hnamed : named (normalizeUsers users) = normalizeUsers users := by
    refine filter_eq_self.mpr fun u hu => decide_eq_true ?_
    exact uuid_ne_of_mem_wanted ((holds_normalizeUsers users u).mp hu)
  rw [wanted_eq, hnamed]

theorem mem_wanted_normalizeUsers : u ∈ wanted (normalizeUsers users) ↔
    u ∈ normalizeUsers users := by
  rw [mem_iff, get_wanted_normalizeUsers, ← mem_iff, mem_mirrorOf_normalizeUsers]

/-! ## What has changed -/

/-- The order in which a map is gone through. -/
structure Order where
  apply : List User → List User
  perm : ∀ l, (apply l).Perm l

/-- The order in which the users are listed. -/
def Order.listed : Order := ⟨fun l => l, fun l => List.Perm.refl l⟩

theorem Order.mem (o : Order) : u ∈ o.apply l ↔ u ∈ l := (o.perm l).mem_iff

/-- What the kernel is called with. -/
structure Changes where
  removed : List String
  added : List User
  updated : List User

/-- The number of a user has the credential of this one. -/
def SameCredential (m : Users) (u : User) : Prop := ∃ before ∈ m.get u.id, before.uuid = u.uuid

instance (m : Users) (u : User) : Decidable (SameCredential m u) :=
  inferInstanceAs (Decidable (∃ _ ∈ _, _))

/-- The difference that `applyUsers` finds. -/
def changesTo (order : Order) (known want : Users) : Changes where
  removed := ((order.apply known.values).filter fun before => ¬SameCredential want before).map
    (·.uuid)
  added := (order.apply want.values).filter fun u => ¬SameCredential known u
  updated := (order.apply want.values).filter fun u => SameCredential known u ∧ u ∉ known

/-- `deltaTargets`: one record for each number that a delta is about. -/
def deltaTargets (upserted : List User) (removed : List ℤ) : List User :=
  match removed, upserted with
  | [], [] => []
  | [], [u] => [u]
  | [id], [] => [{ id := id, uuid := "" }]
  | removed, upserted =>
    upserted.foldl place (removed.foldl (fun out id => place out { id := id, uuid := "" }) [])

/-- The difference that `applyUserDelta` finds. -/
def deltaChanges (known : Users) (next : List User) : Changes where
  removed := next.filterMap fun u =>
    (known.get u.id).bind fun before => if before.uuid ≠ u.uuid then some before.uuid else none
  added := next.filter fun u => u.uuid ≠ "" ∧ ¬SameCredential known u
  updated := next.filter fun u => u.uuid ≠ "" ∧ SameCredential known u ∧ u ∉ known

/-- One record of a delta: without a credential there is no such user any more. -/
def setUser (m : Users) (u : User) : Users := if u.uuid = "" then m.erase u.id else m.put u

/-- What a delta makes of a roster: the numbers that are removed go, and the records of it stand
in place of what was there. -/
def patch (m : Users) (upserted : List User) (removed : List ℤ) : Users :=
  upserted.foldl setUser (m.eraseAll removed)

/-! ## What a delta is about -/

theorem get_setUser {u : User} : (setUser m u).get id =
      if u.id = id then (if u.uuid = "" then none else some u) else m.get id := by
  unfold setUser
  by_cases hblank : u.uuid = ""
  · rw [if_pos hblank, if_pos hblank, get_erase]
  · rw [if_neg hblank, if_neg hblank, get_put]

theorem get_foldl_setUser {l : List User} : (l.foldl setUser m).get id =
      match (mirrorOf l).get id with
      | some u => if u.uuid = "" then none else some u
      | none => m.get id := by
  -- the records are taken from the last one
  induction l using List.reverseRecOn with
  | nil => rfl
  | append_singleton l x ih =>
    have hmirror : mirrorOf (l ++ [x]) = (mirrorOf l).put x := by
      rw [mirrorOf, Keyed.putAll, foldl_append]
      rfl
    rw [foldl_append, hmirror, get_put]
    show (setUser (l.foldl setUser m) x).get id = _
    rw [get_setUser]
    by_cases hx : x.id = id
    · rw [if_pos hx, if_pos hx]
    · rw [if_neg hx, if_neg hx]
      exact ih

/-- The record of a number that is removed. -/
def gone (id : ℤ) : User := { id := id, uuid := "" }

theorem deltaTargets_eq :
    deltaTargets upserted removed = (removed.map gone ++ upserted).foldl place [] := by
  rw [foldl_append, foldl_map]
  unfold deltaTargets
  split <;> rfl

theorem holds_deltaTargets (upserted : List User) (removed : List ℤ) :
    Holds (deltaTargets upserted removed) (mirrorOf (removed.map gone ++ upserted)) := by
  rw [deltaTargets_eq]
  exact holds_foldl_place holds_nil _

/-- **The records of a delta do to the roster what the delta says.** -/
theorem get_patch :
    ((deltaTargets upserted removed).foldl setUser m).get id =
      (patch m upserted removed).get id := by
  have herase : m.eraseAll removed = (removed.map gone).foldl setUser m := by
    rw [foldl_map]
    rfl
  unfold patch
  rw [herase, ← foldl_append, get_foldl_setUser, get_foldl_setUser,
    (holds_deltaTargets upserted removed).get_mirrorOf]

/-! ## What the calls are for -/

/-- The changes lead from one roster to another. -/
structure Changes.Moves (c : Changes) (known want : Users) : Prop where
  removed : ∀ x, x ∈ c.removed ↔ ∃ b ∈ known, b.uuid = x ∧ ¬SameCredential want b
  added : ∀ u, u ∈ c.added ↔ u ∈ want ∧ ¬SameCredential known u
  updated : ∀ u, u ∈ c.updated ↔ u ∈ want ∧ SameCredential known u ∧ u ∉ known

theorem changesTo_moves {order : Order} {known want : Users} :
    (changesTo order known want).Moves known want where
  removed := by
    intro x
    simp only [changesTo, List.mem_map, mem_filter, order.mem, mem_values, decide_eq_true_eq]
    constructor
    · rintro ⟨b, ⟨hb, hnot⟩, rfl⟩
      exact ⟨b, hb, rfl, hnot⟩
    · rintro ⟨b, hb, rfl, hnot⟩
      exact ⟨b, ⟨hb, hnot⟩, rfl⟩
  added := by
    intro u
    simp only [changesTo, mem_filter, order.mem, mem_values, decide_eq_true_eq]
  updated := by
    intro u
    simp only [changesTo, mem_filter, order.mem, mem_values, decide_eq_true_eq]

/-- The record of a number in a roster after the records of `next`, in which no two have one
number. -/
theorem get_foldl_setUser_of_mem (h : Holds l M)
    (hu : u ∈ l) : (l.foldl setUser m).get u.id = if u.uuid = "" then none else some u := by
  rw [get_foldl_setUser, h.get_mirrorOf, mem_iff.mp ((h u).mp hu)]

theorem get_foldl_setUser_of_not (h : Holds l M)
    (hid : ∀ u ∈ l, u.id ≠ id) : (l.foldl setUser m).get id = m.get id := by
  have hnone : M.get id = none := by
    cases hget : M.get id with
    | none => rfl
    | some u =>
      obtain ⟨hu, rfl⟩ := get_eq_some_iff.mp hget
      exact absurd rfl (hid u ((h u).mpr hu))
  rw [get_foldl_setUser, h.get_mirrorOf, hnone]

theorem mem_foldl_setUser (h : Holds l M) :
    u ∈ l.foldl setUser m ↔ (u ∈ l ∧ u.uuid ≠ "") ∨ ((∀ x ∈ l, x.id ≠ u.id) ∧ u ∈ m) := by
  rw [mem_iff]
  by_cases hin : ∃ x ∈ l, x.id = u.id
  · obtain ⟨x, hx, hxu⟩ := hin
    rw [← hxu, get_foldl_setUser_of_mem h hx]
    constructor
    · intro hget
      split_ifs at hget with hblank
      obtain rfl := some.inj hget
      exact .inl ⟨hx, hblank⟩
    · rintro (⟨hu, hblank⟩ | ⟨hnot, -⟩)
      · obtain rfl : x = u := eq_of_mem ((h x).mp hx) ((h u).mp hu) hxu
        exact if_neg hblank
      · exact absurd rfl (hnot x hx)
  · push Not at hin
    rw [get_foldl_setUser_of_not h hin]
    constructor
    · exact fun hu => .inr ⟨hin, hu⟩
    · rintro (⟨hu, -⟩ | ⟨-, hu⟩)
      · exact absurd rfl (hin u hu)
      · exact hu

theorem deltaChanges_moves {known : Users} (hnamed : ∀ b ∈ known, b.uuid ≠ "") {next : List User}
    (h : Holds next M) : (deltaChanges known next).Moves known (next.foldl setUser known) where
  removed := by
    intro x
    simp only [deltaChanges, mem_filterMap, bind_eq_some_iff,
      ite_none_right_eq_some, some.injEq]
    constructor
    · rintro ⟨u, hu, b, hb, hne, rfl⟩
      obtain ⟨hb, hid⟩ := get_eq_some_iff.mp hb
      refine ⟨b, hb, rfl, ?_⟩
      rintro ⟨y, hy, hyb⟩
      rw [hid, get_foldl_setUser_of_mem h hu] at hy
      split_ifs at hy
      · cases hy
      · obtain rfl := some.inj hy
        exact hne hyb.symm
    · rintro ⟨b, hb, rfl, hnot⟩
      by_cases hin : ∃ u ∈ next, u.id = b.id
      · obtain ⟨u, hu, hub⟩ := hin
        refine ⟨u, hu, b, hub ▸ hb, fun heq => ?_, rfl⟩
        have hblank : u.uuid ≠ "" := heq ▸ hnamed b hb
        refine hnot ⟨u, ?_, heq.symm⟩
        rw [← hub, get_foldl_setUser_of_mem h hu, if_neg hblank]
        rfl
      · push Not at hin
        refine absurd ⟨b, ?_, rfl⟩ hnot
        rw [get_foldl_setUser_of_not h hin]
        exact hb
  added := by
    intro u
    simp only [deltaChanges, mem_filter, decide_eq_true_eq, mem_foldl_setUser h]
    constructor
    · rintro ⟨hu, hblank, hnot⟩
      exact ⟨.inl ⟨hu, hblank⟩, hnot⟩
    · rintro ⟨⟨hu, hblank⟩ | ⟨-, hu⟩, hnot⟩
      · exact ⟨hu, hblank, hnot⟩
      · exact absurd ⟨u, hu, rfl⟩ hnot
  updated := by
    intro u
    simp only [deltaChanges, mem_filter, decide_eq_true_eq, mem_foldl_setUser h]
    constructor
    · rintro ⟨hu, hblank, hsame, hnew⟩
      exact ⟨.inl ⟨hu, hblank⟩, hsame, hnew⟩
    · rintro ⟨⟨hu, hblank⟩ | ⟨-, hu⟩, hsame, hnew⟩
      · exact ⟨hu, hblank, hsame, hnew⟩
      · exact absurd hu hnew

end Pandora.Agent
