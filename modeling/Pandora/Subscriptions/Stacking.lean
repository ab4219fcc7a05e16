import Pandora.Foundation.Runs
import Pandora.Subscriptions.Subscription

/-!
# One-time plans bought again and again

Every purchase adds its days to the end of the subscription, or to now if that is later.  Permanence
is only recognised by an end far away, so days that were bought can make an end that is taken for
permanent; from then on a purchase adds nothing, until the end has come closer.
-/

namespace Pandora.Subscriptions

open Calendar Runs List

/-- A purchase: by the clock of the machine, at the time of the service, and for which price. -/
structure Purchase where
  clock : ℤ
  now : ℤ
  price : PriceSnapshot

namespace Purchase

/-- The end that a purchase makes of another. -/
def stacked (end_ : ℤ) (b : Purchase) : ℤ := stackEnd b.clock end_ b.now b.price

/-- The days of a purchase that is not for ever. -/
def days (b : Purchase) : ℕ := b.price.validityDays.getD 0

/-- A price that is not permanent and passes its check, at a time to the microsecond. -/
structure Finite (b : Purchase) : Prop where
  accepted : validatePrice b.price = .ok ()
  finite : b.price.validityDays ≠ none
  micros : (1000 : ℤ) ∣ b.now

/-- The purchase adds its days. -/
def Adds (end_ : ℤ) (b : Purchase) : Prop := b.stacked end_ = max end_ b.now + b.days * dayLength

instance (end_ : ℤ) (b : Purchase) : Decidable (b.Adds end_) := inferInstanceAs (Decidable (_ = _))

/-- The end is not taken for permanent. -/
def Near (end_ : ℤ) (b : Purchase) : Prop := ¬ IsPermanent b.clock end_

instance (end_ : ℤ) (b : Purchase) : Decidable (b.Near end_) := inferInstanceAs (Decidable (¬ _))

variable {b : Purchase} {end_ : ℤ}

theorem Finite.days_eq (h : b.Finite) : b.price.validityDays = some b.days ∧ 0 < b.days := by
  obtain ⟨n, hn⟩ := Option.ne_none_iff_exists'.mp h.finite
  have hcheck := h.accepted
  unfold validatePrice at hcheck
  simp only [except_bind_eq_ok, ensure_eq_ok, exists_const] at hcheck
  have hpos := (hcheck.1 n hn).2.1
  rw [days, hn]
  exact ⟨rfl, hpos⟩

theorem dvd_stacked (h : (1000 : ℤ) ∣ end_) (b : Purchase) : (1000 : ℤ) ∣ b.stacked end_ := by
  unfold stacked stackEnd
  split_ifs
  · exact h
  · split
    · split_ifs <;> exact Time.dvd_truncate _
    · exact Time.dvd_truncate _

theorem max_lt_added (h : b.Finite) : max end_ b.now < max end_ b.now + b.days * dayLength := by
  have hpos := h.days_eq.2
  unfold dayLength
  omega

theorem adds_iff (hend : (1000 : ℤ) ∣ end_) (h : b.Finite) : b.Adds end_ ↔ b.Near end_ := by
  obtain ⟨hdays, hpos⟩ := h.days_eq
  unfold Adds Near stacked stackEnd
  constructor
  · intro hadds hperm
    rw [if_pos hperm] at hadds
    have hle : end_ ≤ max end_ b.now := le_max_left end_ b.now
    exact absurd (hadds.symm.trans_le hle) (not_le.mpr (max_lt_added h))
  · intro hnear
    have hbase : (1000 : ℤ) ∣ max end_ b.now := by
      rcases max_choice end_ b.now with hmax | hmax <;> rw [hmax]
      · exact hend
      · exact h.micros
    rw [if_neg hnear, hdays]
    dsimp only
    rw [if_pos hpos, addDate_days, Time.truncate_of_dvd (dvd_addDays hbase _)]

theorem foldl_stacked {buys : List Purchase} (hend : (1000 : ℤ) ∣ end_)
    (hbuys : ∀ b ∈ buys, b.Finite) (hnear : Along stacked Near end_ buys)
    (hearly : ∀ b ∈ buys, b.now ≤ end_) :
    buys.foldl stacked end_ = end_ + ((buys.map days).sum : ℕ) * dayLength := by
  induction buys generalizing end_ with
  | nil => simp
  | cons b buys ih =>
    obtain ⟨hb, hbuys⟩ := forall_mem_cons.mp hbuys
    obtain ⟨hb', hearly⟩ := forall_mem_cons.mp hearly
    have hadds : b.stacked end_ = end_ + b.days * dayLength := by
      have h := (adds_iff hend hb).mpr hnear.1
      unfold Adds at h
      rwa [max_eq_left hb'] at h
    have hlater : end_ ≤ b.stacked end_ := by
      rw [hadds]
      unfold dayLength
      omega
    rw [foldl_cons, ih (dvd_stacked hend b) hbuys hnear.2
      fun c hc => (hearly c hc).trans hlater, hadds, map_cons, sum_cons]
    push_cast
    ring

/-- **Purchases add the days that were bought exactly as long as no end they come to is taken for
permanent**; and then their order does not matter. -/
theorem stacks_add_iff {buys : List Purchase} (hend : (1000 : ℤ) ∣ end_)
    (hbuys : ∀ b ∈ buys, b.Finite) : (Along stacked Adds end_ buys ↔ Along stacked Near end_ buys) ∧
    ∀ others : List Purchase, (∀ b ∈ others, b.Finite) → (others.map days).Perm (buys.map days) →
      (∀ b ∈ buys, b.now ≤ end_) → (∀ b ∈ others, b.now ≤ end_) →
      Along stacked Near end_ buys → Along stacked Near end_ others →
      others.foldl stacked end_ = buys.foldl stacked end_ := by
  refine ⟨?_, fun others hothers hperm hearly hearly' hnear hnear' => ?_⟩
  · induction buys generalizing end_ with
    | nil => exact Iff.rfl
    | cons b buys ih =>
      obtain ⟨hb, hbuys⟩ := forall_mem_cons.mp hbuys
      exact and_congr (adds_iff hend hb) (ih (dvd_stacked hend b) hbuys)
  · rw [foldl_stacked hend hothers hnear' hearly', foldl_stacked hend hbuys hnear hearly,
      hperm.sum_eq]

/-- A price for a number of days. -/
def sampleDays (days : ℕ) : PriceSnapshot := ⟨none, 1, .oneTime, 1, some days⟩

theorem stacked_twice :
    Along stacked Adds dayLength [⟨0, 0, sampleDays 3650⟩, ⟨0, 0, sampleDays 1⟩] := by
  refine (stacks_add_iff (by decide) ?_).1.mpr (by decide +kernel)
  intro b hb
  simp only [mem_cons, not_mem_nil, or_false] at hb
  rcases hb with rfl | rfl <;> exact ⟨by decide +kernel, by decide, by decide⟩

theorem stacked_in_vain :
    (∀ b ∈ [Purchase.mk 0 0 (sampleDays 36500), ⟨0, 0, sampleDays 1⟩], b.Finite) ∧
    ¬ Along stacked Adds dayLength [⟨0, 0, sampleDays 36500⟩, ⟨0, 0, sampleDays 1⟩] ∧
    [Purchase.mk 0 0 (sampleDays 36500), ⟨0, 0, sampleDays 1⟩].foldl stacked dayLength ≠
      [Purchase.mk 0 0 (sampleDays 1), ⟨0, 0, sampleDays 36500⟩].foldl stacked dayLength := by
  refine ⟨?_, by decide +kernel, by decide +kernel⟩
  intro b hb
  simp only [mem_cons, not_mem_nil, or_false] at hb
  rcases hb with rfl | rfl <;> exact ⟨by decide +kernel, by decide, by decide⟩

end Purchase
end Pandora.Subscriptions
