import Pandora.Ledger.Frozen

/-!
# Postings by source

A posting names the business object it is about.  The journal only grows, and of most
kinds a source has at most one posting: the unique index of the table says so, and the
method that posts checks it first.
-/

namespace Pandora.Ledger

open Money Database List

/-- A posting of this kind about this source. -/
def Record.Sourced (r : Record) (kind : Kind) (sourceType : String) (sourceId : UUID) : Prop :=
  r.posting.kind = kind ∧ r.posting.sourceType = sourceType ∧ r.posting.sourceId = sourceId

instance (r : Record) (kind : Kind) (sourceType : String) (sourceId : UUID) :
    Decidable (r.Sourced kind sourceType sourceId) := inferInstanceAs (Decidable (_ ∧ _ ∧ _))

/-- The postings of this kind about this source. -/
def sourced (journal : List Record) (kind : Kind) (sourceType : String) (sourceId : UUID) :
    List Record :=
  journal.filter fun r => r.Sourced kind sourceType sourceId

theorem sourced_append (journal new : List Record) (kind : Kind) (sourceType : String)
    (sourceId : UUID) : sourced (journal ++ new) kind sourceType sourceId =
      sourced journal kind sourceType sourceId ++ sourced new kind sourceType sourceId :=
  filter_append _ _

/-- At most one posting per source, of the kinds that have one. -/
def State.OncePerSource (s : State) : Prop :=
  ∀ kind sourceType sourceId, kind.onePerSource = true → sourceType ≠ "" →
    (sourced s.journal kind sourceType sourceId).length ≤ 1

variable {s s' : State}

theorem PostSpec.oncePerSource {p : Posting} {id : UUID} {holds : List Hold}
    (h : PostSpec p s id holds s') (hs : s.OncePerSource) : s'.OncePerSource := by
  intro kind sourceType sourceId hkind htype
  rw [h.journal, sourced_append, length_append]
  by_cases hr : (⟨id, p⟩ : Record).Sourced kind sourceType sourceId
  · -- the posting found none before it
    obtain ⟨rfl, rfl, rfl⟩ := hr
    have hid : p.sourceId ≠ UUID.nil := fun hnil => htype (h.wellFormed.source.mpr hnil)
    have hnone : sourced s.journal p.kind p.sourceType p.sourceId = [] :=
      filter_eq_nil_iff.mpr fun r hr hsrc => h.once hkind hid r hr (of_decide_eq_true hsrc)
    rw [hnone, length_nil, Nat.zero_add]
    exact length_filter_le _ _
  · have hnil : sourced [⟨id, p⟩] kind sourceType sourceId = [] :=
      filter_cons_of_neg (by simpa using hr)
    rw [hnil, length_nil, Nat.add_zero]
    exact hs kind sourceType sourceId hkind htype

variable {P Q : Posting → Prop}

theorem Change.mono (hPQ : ∀ p, P p → Q p) (h : Change P s s') : Change Q s s' := by
  cases h with
  | opened h => exact .opened h
  | posted hp hded h => exact .posted (hPQ _ hp) hded h
  | adjusted h => exact .adjusted h
  | held h₁ h₂ h₃ h₄ h₅ h => exact .held h₁ h₂ h₃ h₄ h₅ h
  | released h₁ h₂ h => exact .released h₁ h₂ h
  | settled h₁ h => exact .settled h₁ h
  | captured h₁ h₂ h₃ h₄ h₅ h => exact .captured h₁ h₂ h₃ h₄ h₅ h

theorem Changes.mono (hPQ : ∀ p, P p → Q p) (h : Changes P s s') : Changes Q s s' :=
  Relation.ReflTransGen.mono (fun _ _ => Change.mono hPQ) s s' h

theorem Change.journal (h : Change P s s') (hs : s.Sound) : s'.journal = s.journal ∨
    ∃ p id holds, (P p ∨ p.kind.dedicated = true) ∧ PostSpec p s id holds s' := by
  cases h with
  | opened h => exact Or.inl (h.journal hs)
  | posted hp _ h => exact Or.inr ⟨_, _, _, Or.inl hp, h⟩
  | adjusted h | held _ _ _ _ _ h | released _ _ h | settled _ h | captured _ _ _ _ _ h =>
    exact Or.inr ⟨_, _, _, Or.inr rfl, h⟩

theorem Change.oncePerSource (h : Change P s s') (hs : s.Sound)
    (ho : s.OncePerSource) : s'.OncePerSource := by
  rcases h.journal hs with hsame | ⟨p, id, holds, -, hspec⟩
  · rw [State.OncePerSource, hsame]
    exact ho
  · exact hspec.oncePerSource ho

/-- **The journal only grows**, by postings that were allowed or have a method of their
own. -/
theorem Changes.journal (h : Changes P s s') (hs : s.Sound) : ∃ new, s'.journal = s.journal ++ new ∧
      ∀ r ∈ new, P r.posting ∨ r.posting.kind.dedicated = true := by
  induction h with
  | refl => exact ⟨[], by simp, by simp⟩
  | tail hall hlast ih =>
    obtain ⟨new, hjournal, hnew⟩ := ih
    rcases hlast.journal (Changes.sound hall hs) with hsame | ⟨p, id, holds, hp, hspec⟩
    · exact ⟨new, hsame.trans hjournal, hnew⟩
    · refine ⟨new ++ [⟨id, p⟩], ?_, forall_mem_append.mpr ⟨hnew, forall_mem_singleton.mpr hp⟩⟩
      rw [hspec.journal, hjournal, append_assoc]

theorem Changes.oncePerSource (h : Changes P s s') (hs : s.Sound)
    (ho : s.OncePerSource) : s'.OncePerSource := by
  induction h with
  | refl => exact ho
  | tail hall hlast ih => exact hlast.oncePerSource (Changes.sound hall hs) ih

end Pandora.Ledger
