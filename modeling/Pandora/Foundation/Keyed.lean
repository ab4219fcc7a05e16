import Mathlib.Data.List.AList

/-!
# Records by key

A map from keys to records that hold their own key.  `Keyed key` is an association list
together with the fact that every record stands under its key, so what is in it is a set of
records of which no two have the same key.

There are three ways to put a list of records in: `putAll` lets a later record take the place of
an earlier one, `addAll` leaves the one that is there, and `eraseAll` takes keys out.  For each
of them there is one lemma that says what is under a key afterwards.  The lemmas on `values` say
the same of the records as a list, up to its order.
-/

namespace Pandora

open List AList

variable {α κ : Type} [DecidableEq κ] {l : List α}

/-- Records by key. -/
structure Keyed (key : α → κ) where
  rows : AList fun _ : κ => α
  keyed : ∀ {k a}, rows.lookup k = some a → key a = k

namespace Keyed

variable {key : α → κ} {m : Keyed key} {a b : α} {k : κ}

instance : EmptyCollection (Keyed key) := ⟨⟨∅, fun h => by simp at h⟩⟩

instance : Inhabited (Keyed key) := ⟨∅⟩

/-- The record under a key. -/
def get (m : Keyed key) (k : κ) : Option α := m.rows.lookup k

instance : Membership α (Keyed key) := ⟨fun m a => m.get (key a) = some a⟩

instance [DecidableEq α] : DecidableEq (Keyed key) := fun m n =>
  decidable_of_iff (m.rows.entries = n.rows.entries)
    ⟨fun h => by cases m; cases n; congr; exact ext h, fun h => h ▸ rfl⟩

theorem mem_iff : a ∈ m ↔ m.get (key a) = some a := Iff.rfl

instance [DecidableEq α] (a : α) (m : Keyed key) : Decidable (a ∈ m) :=
  inferInstanceAs (Decidable (m.get (key a) = some a))

theorem key_of_get (h : m.get k = some a) : key a = k := m.keyed h

theorem mem_of_get (h : m.get k = some a) : a ∈ m := by
  rw [mem_iff, key_of_get h]
  exact h

theorem get_eq_some_iff : m.get k = some a ↔ a ∈ m ∧ key a = k := by
  constructor
  · exact fun h => ⟨mem_of_get h, key_of_get h⟩
  · rintro ⟨h, rfl⟩
    exact h

theorem eq_of_mem (ha : a ∈ m) (hb : b ∈ m) (h : key a = key b) : a = b := by
  rw [mem_iff, h] at ha
  exact Option.some.inj (ha.symm.trans hb)

@[simp] theorem get_empty (k : κ) : (∅ : Keyed key).get k = none := lookup_empty k

@[simp] theorem not_mem_empty (a : α) : a ∉ (∅ : Keyed key) := by
  rw [mem_iff, get_empty]
  exact Option.some_ne_none a ∘ Eq.symm

/-- The records, in some order. -/
def values (m : Keyed key) : List α := m.rows.entries.map (·.2)

theorem mem_values : a ∈ m.values ↔ a ∈ m := by
  rw [values, mem_map]
  constructor
  · rintro ⟨⟨k, b⟩, hb, rfl⟩
    exact mem_of_get (mem_lookup_iff.mpr hb)
  · intro h
    exact ⟨⟨key a, a⟩, mem_lookup_iff.mp h, rfl⟩

/-! ## One record -/

/-- A record is put in; what was under its key is gone. -/
def put (m : Keyed key) (a : α) : Keyed key where
  rows := m.rows.insert (key a) a
  keyed := by
    intro k b h
    by_cases hk : k = key a
    · subst hk
      rw [lookup_insert] at h
      rw [Option.some.inj h]
    · rw [lookup_insert_ne hk] at h
      exact m.keyed h

/-- What is under a key is taken out. -/
def erase (m : Keyed key) (k : κ) : Keyed key where
  rows := m.rows.erase k
  keyed := by
    intro k' b h
    by_cases hk : k' = k
    · subst hk
      rw [lookup_erase] at h
      cases h
    · rw [lookup_erase_ne hk] at h
      exact m.keyed h

/-- A record is put in where nothing is under its key. -/
def add (m : Keyed key) (a : α) : Keyed key := if m.get (key a) = none then m.put a else m

theorem get_put : (m.put a).get k = if key a = k then some a else m.get k := by
  split_ifs with hk
  · subst hk
    exact lookup_insert m.rows
  · exact lookup_insert_ne fun h => hk h.symm

theorem mem_put : b ∈ m.put a ↔ b = a ∨ key b ≠ key a ∧ b ∈ m := by
  rw [mem_iff, get_put]
  split_ifs with hk
  · constructor
    · exact fun h => .inl (Option.some.inj h).symm
    · rintro (rfl | ⟨hne, -⟩)
      · rfl
      · exact absurd hk.symm hne
  · constructor
    · exact fun h => .inr ⟨fun h => hk h.symm, h⟩
    · rintro (rfl | ⟨-, h⟩)
      · exact absurd rfl hk
      · exact h

theorem forall_mem_put {p : α → Prop} (ha : p a) (h : ∀ b ∈ m, p b) : ∀ b ∈ m.put a, p b := by
  intro b hb
  rcases mem_put.mp hb with rfl | ⟨-, hb⟩
  · exact ha
  · exact h b hb

theorem get_erase {k' : κ} : (m.erase k).get k' = if k = k' then none else m.get k' := by
  split_ifs with hk
  · subst hk
    exact lookup_erase k m.rows
  · exact lookup_erase_ne fun h => hk h.symm

theorem get_add : (m.add a).get k = if key a = k ∧ m.get k = none then some a else m.get k := by
  unfold add
  by_cases hnone : m.get (key a) = none
  · rw [if_pos hnone, get_put]
    by_cases hk : key a = k
    · subst hk
      rw [if_pos rfl, if_pos ⟨rfl, hnone⟩]
    · rw [if_neg hk, if_neg fun h => hk h.1]
  · rw [if_neg hnone, if_neg]
    rintro ⟨rfl, h⟩
    exact hnone h

/-! ## A list of them -/

/-- The records of a list are put in, one after another. -/
def putAll (m : Keyed key) (l : List α) : Keyed key := l.foldl put m

/-- The records of a list are put in where nothing is. -/
def addAll (m : Keyed key) (l : List α) : Keyed key := l.foldl add m

/-- The keys of a list are taken out. -/
def eraseAll (m : Keyed key) (l : List κ) : Keyed key := l.foldl erase m

theorem get_foldl {f : Keyed key → κ → Keyed key} {g : Option α → Option α}
    (hf : ∀ m x, (f m x).get k = if x = k then g (m.get k) else m.get k) (hg : ∀ o, g (g o) = g o)
    (l : List κ) : (l.foldl f m).get k = if k ∈ l then g (m.get k) else m.get k := by
  induction l generalizing m with
  | nil => exact (if_neg not_mem_nil).symm
  | cons x l ih =>
    rw [foldl_cons, ih, hf]
    by_cases hx : x = k
    · rw [if_pos hx, hg, ite_self, if_pos (hx ▸ mem_cons_self)]
    · rw [if_neg hx]
      exact if_congr ⟨mem_cons_of_mem x, fun h => (mem_cons.mp h).resolve_left (Ne.symm hx)⟩ rfl rfl

theorem get_eraseAll {l : List κ} : (m.eraseAll l).get k = if k ∈ l then none else m.get k :=
  get_foldl (g := fun _ => none) (fun _ _ => get_erase) (fun _ => rfl) l

theorem get_putAll_of_not_key (h : ∀ a ∈ l, key a ≠ k) : (m.putAll l).get k = m.get k := by
  induction l generalizing m with
  | nil => rfl
  | cons x l ih =>
    show ((m.put x).putAll l).get k = _
    rw [ih fun a ha => h a (mem_cons_of_mem x ha), get_put, if_neg (h x mem_cons_self)]

theorem get_putAll_of_mem (ha : a ∈ l) (h : ∀ b ∈ l, key b = key a → b = a) :
    (m.putAll l).get (key a) = some a := by
  induction l generalizing m with
  | nil => cases ha
  | cons x l ih =>
    show ((m.put x).putAll l).get (key a) = _
    have hrest : ∀ b ∈ l, key b = key a → b = a := fun b hb => h b (mem_cons_of_mem x hb)
    by_cases hmem : a ∈ l
    · exact ih hmem hrest
    · obtain rfl : a = x := (mem_cons.mp ha).resolve_right hmem
      rw [get_putAll_of_not_key fun b hb hk => hmem (hrest b hb hk ▸ hb), get_put, if_pos rfl]

theorem mem_of_mem_putAll (h : a ∈ m.putAll l) : a ∈ m ∨ a ∈ l := by
  induction l generalizing m with
  | nil => exact .inl h
  | cons x l ih =>
    rcases ih h with h | h
    · rcases mem_put.mp h with rfl | ⟨-, h⟩
      · exact .inr mem_cons_self
      · exact .inl h
    · exact .inr (mem_cons_of_mem x h)

theorem get_addAll_of_some (h : m.get k = some a) : (m.addAll l).get k = some a := by
  induction l generalizing m with
  | nil => exact h
  | cons x l ih =>
    refine ih ?_
    rw [get_add, if_neg fun hx => by rw [h] at hx; cases hx.2]
    exact h

theorem get_addAll_of_mem (ha : a ∈ l) (h : ∀ b ∈ l, key b = key a → b = a)
    (hnone : m.get (key a) = none) : (m.addAll l).get (key a) = some a := by
  induction l generalizing m with
  | nil => cases ha
  | cons x l ih =>
    show ((m.add x).addAll l).get (key a) = _
    by_cases hx : key x = key a
    · obtain rfl : x = a := h x mem_cons_self hx
      refine get_addAll_of_some ?_
      rw [get_add, if_pos ⟨rfl, hnone⟩]
    · have hmem : a ∈ l := (mem_cons.mp ha).resolve_left fun h => hx (by rw [h])
      refine ih hmem (fun b hb => h b (mem_cons_of_mem x hb)) ?_
      rw [get_add, if_neg fun h => hx h.1]
      exact hnone

theorem mem_of_mem_addAll (h : a ∈ m.addAll l) : a ∈ m ∨ a ∈ l := by
  induction l generalizing m with
  | nil => exact .inl h
  | cons x l ih =>
    rcases ih h with h | h
    · rw [mem_iff, get_add] at h
      split_ifs at h with hx
      · obtain rfl := Option.some.inj h
        exact .inr mem_cons_self
      · exact .inl h
    · exact .inr (mem_cons_of_mem x h)

/-! ## The records as a list -/

theorem nodup_map_values (m : Keyed key) : (m.values.map key).Nodup := by
  have hkeys : m.values.map key = m.rows.keys := by
    rw [values, AList.keys, List.keys, map_map]
    refine map_congr_left fun entry hentry => ?_
    exact m.keyed (mem_lookup_iff.mpr hentry)
  rw [hkeys]
  exact m.rows.keys_nodup

theorem nodup_values (m : Keyed key) : m.values.Nodup := m.nodup_map_values.of_map

theorem mem_erase : a ∈ m.erase k ↔ a ∈ m ∧ key a ≠ k := by
  rw [mem_iff, get_erase]
  split_ifs with hk
  · constructor
    · intro h
      cases h
    · exact fun h => absurd hk.symm h.2
  · exact ⟨fun h => ⟨h, fun hka => hk hka.symm⟩, fun h => h.1⟩

theorem mem_eraseAll {l : List κ} : a ∈ m.eraseAll l ↔ a ∈ m ∧ key a ∉ l := by
  rw [mem_iff, get_eraseAll]
  split_ifs with hl
  · constructor
    · intro h
      cases h
    · exact fun h => absurd hl h.2
  · exact ⟨fun h => ⟨h, hl⟩, fun h => h.1⟩

private theorem nodup_cons_erase {m : Keyed key} {a : α} :
    (a :: (m.erase (key a)).values).Nodup := by
  refine nodup_cons.mpr ⟨fun h => ?_, nodup_values _⟩
  exact (mem_erase.mp (mem_values.mp h)).2 rfl

theorem values_put (m : Keyed key) (a : α) :
    (m.put a).values.Perm (a :: (m.erase (key a)).values) := by
  refine (perm_ext_iff_of_nodup (nodup_values _) nodup_cons_erase).mpr fun b => ?_
  rw [mem_values, mem_put, mem_cons, mem_values, mem_erase, and_comm (a := b ∈ m)]

theorem values_of_mem (h : a ∈ m) : m.values.Perm (a :: (m.erase (key a)).values) := by
  refine (perm_ext_iff_of_nodup (nodup_values _) nodup_cons_erase).mpr fun b => ?_
  rw [mem_values, mem_cons, mem_values, mem_erase]
  constructor
  · intro hb
    by_cases hk : key b = key a
    · exact .inl (eq_of_mem hb h hk)
    · exact .inr ⟨hb, hk⟩
  · rintro (rfl | ⟨hb, -⟩)
    · exact h
    · exact hb

theorem values_erase_of_none (h : m.get k = none) : (m.erase k).values.Perm m.values := by
  refine (perm_ext_iff_of_nodup (nodup_values _) (nodup_values _)).mpr fun b => ?_
  rw [mem_values, mem_values, mem_erase]
  refine ⟨fun hb => hb.1, fun hb => ⟨hb, ?_⟩⟩
  rintro rfl
  exact Option.some_ne_none b (hb.symm.trans h)

theorem values_eraseAll {out rest : List α} (h : m.values.Perm (out ++ rest)) :
    (m.eraseAll (out.map key)).values.Perm rest := by
  have hkeys : ((out ++ rest).map key).Nodup := (h.map key).nodup_iff.mp m.nodup_map_values
  rw [map_append, nodup_append'] at hkeys
  refine (perm_ext_iff_of_nodup (nodup_values _) hkeys.2.1.of_map).mpr fun b => ?_
  rw [mem_values, mem_eraseAll, ← mem_values, h.mem_iff, mem_append]
  constructor
  · rintro ⟨hout | hrest, hnot⟩
    · exact absurd (mem_map_of_mem hout) hnot
    · exact hrest
  · intro hrest
    exact ⟨.inr hrest, fun hout => hkeys.2.2 hout (mem_map_of_mem hrest)⟩

end Keyed
end Pandora
