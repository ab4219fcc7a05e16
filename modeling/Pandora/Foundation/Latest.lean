import Mathlib.Data.List.Induction

/-!
# The latest entry of a record

A record grows at its end.  `latest g` is what `g` finds in the last entry in which it finds
anything; what it finds in an entry is the latest until an entry comes in which it finds something
again.
-/

namespace Pandora.Records

open List

variable {α β : Type*} {g : α → Option β}

/-- What `g` finds in the last entry in which it finds anything. -/
def latest (g : α → Option β) (l : List α) : Option β :=
  l.foldl (fun found a => (g a).or found) none

@[simp] theorem latest_nil : latest g [] = none := rfl

@[simp] theorem latest_concat (l : List α) (a : α) :
    latest g (l ++ [a]) = (g a).or (latest g l) := by
  simp [latest]

section

variable {l : List α} {j : ℕ} {a : α} (ha : l[j]? = some a) (hg : (g a).isSome)
include ha hg

theorem exists_latest : ∃ i b, j ≤ i ∧ l[i]? = some b ∧ (g b).isSome ∧ latest g l = g b := by
  induction l using reverseRecOn with
  | nil => simp at ha
  | append_singleton l x ih =>
    cases hx : g x with
    | some =>
      refine ⟨l.length, x, ?_, by simp, by simp [hx], by simp [hx]⟩
      have hlt : j < (l ++ [x]).length := (List.getElem?_eq_some_iff.mp ha).1
      rw [length_append, length_singleton] at hlt
      omega
    | none =>
      have hlt : j < l.length := by
        by_contra hge
        have hlen : j < (l ++ [x]).length := (List.getElem?_eq_some_iff.mp ha).1
        rw [length_append, length_singleton] at hlen
        obtain rfl : j = l.length := by omega
        obtain rfl : x = a := by simpa using ha
        simp [hx] at hg
      rw [getElem?_append_left hlt] at ha
      obtain ⟨i, b, hle, hb, hsome, heq⟩ := ih ha
      have hi : i < l.length := (List.getElem?_eq_some_iff.mp hb).1
      exact ⟨i, b, hle, by rw [getElem?_append_left hi, hb], hsome, by simp [hx, heq]⟩

theorem latest_of_only (honly : ∀ i b, l[i]? = some b → (g b).isSome → i = j) :
    latest g l = g a := by
  obtain ⟨i, b, -, hb, hsome, heq⟩ := exists_latest ha hg
  obtain rfl := honly i b hb hsome
  rw [heq, Option.some.inj (hb.symm.trans ha)]

end

theorem latest_take_append {l l' : List α} {n : ℕ} (hn : n ≤ l.length) :
    latest g ((l ++ l').take n) = latest g (l.take n) := by
  rw [take_append_of_le_length hn]

end Pandora.Records
