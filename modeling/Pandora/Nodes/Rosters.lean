import Mathlib.Data.List.Sort
import Pandora.Foundation.Clock

/-!
# Whose traffic counts on a node

A session with a server remembers, for each node, the last roster that it has sent and the one of
the version before (`sent`, `prevSent`), and when users were taken off (`removed`): reports of a
user's last traffic may still be under way for a while, the grace.  `shiftSent` records a roster
that is sent, and `Has` answers whether a user's traffic counts.

The times in `removed` come from a merge of two lists that are sorted by uid, and entries that are
older than the grace are dropped only when the version changes.  `counts_iff` says that `Has`
answers what the history of the rosters says.
-/

namespace Pandora.Nodes.Rosters

open List Function Time

/-! ## The state -/

/-- `NodeRoster`: the users by their uid, in ascending order, and the digest of them. -/
structure NodeRoster where
  version : String
  uids : List ℤ
  sorted : uids.Pairwise (· < ·)

/-- `rosterState`, without what a roster is compared to before it is sent. -/
structure RosterState where
  latest : Option NodeRoster
  sent : Option NodeRoster := none
  prevSent : Option NodeRoster := none
  removed : ℤ → Option Time := fun _ => none

/-- `sort.Search`, between `i` and `j`. -/
def search (f : ℕ → Bool) (i j : ℕ) : ℕ :=
  if i < j then
    if f ((i + j) / 2) then search f i ((i + j) / 2) else search f ((i + j) / 2 + 1) j
  else i
termination_by j - i

def rosterHas (r : Option NodeRoster) (uid : ℤ) : Bool :=
  match r with
  | none => false
  | some r => r.uids[search (fun k => r.uids[k]?.any (uid ≤ ·)) 0 r.uids.length]? = some uid

/-- `noteRemoved` up to its last loop: whoever is only in the first list is removed now, whoever is
in the second is not. -/
def merge (now : Time) : List ℤ → List ℤ → (ℤ → Option Time) → ℤ → Option Time
  | [], bs, m => bs.foldl (fun m b => update m b none) m
  | a :: as, [], m => merge now as [] (update m a (some now))
  | a :: as, b :: bs, m =>
    if b < a then merge now (a :: as) bs (update m b none)
    else if b = a then merge now as bs (update m b none)
    else merge now as (b :: bs) (update m a (some now))
termination_by as bs => as.length + bs.length

namespace RosterState

variable (st : RosterState) (now : Time) (grace : ℤ)

def noteRemoved (old cur : NodeRoster) : RosterState :=
  { st with
    removed := fun uid =>
      (merge now old.uids cur.uids st.removed uid).filter fun at_ => ¬grace < Time.sub now at_ }

def shiftSent (r : NodeRoster) : RosterState :=
  match st.sent with
  | some s =>
    if s.version ≠ r.version then
      { ({ st with prevSent := some s }).noteRemoved now grace s r with sent := some r }
    else { st with sent := some r }
  | none => { st with sent := some r }

/-- `Session.Has`, for a node that the session knows. -/
def has (uid : ℤ) : Bool :=
  if st.sent.isNone then rosterHas st.latest uid
  else rosterHas st.sent uid || rosterHas st.prevSent uid ||
    (st.removed uid).any fun at_ => Time.sub now at_ ≤ grace

end RosterState

/-! ## The search and the merge -/

theorem search_eq {f : ℕ → Bool} {p i j : ℕ} (hf : ∀ k < j, f k = true ↔ p ≤ k) (hi : i ≤ p)
    (hj : p ≤ j) : search f i j = p := by
  fun_induction search f i j with
  | case1 i j hlt hmid ih =>
    have hle : p ≤ (i + j) / 2 := (hf _ (by omega)).mp hmid
    exact ih (fun k hk => hf k (by omega)) hi hle
  | case2 i j hlt hmid ih =>
    have hgt : ¬p ≤ (i + j) / 2 := fun hle => hmid ((hf _ (by omega)).mpr hle)
    exact ih hf (by omega) hj
  | case3 => omega

variable {uid : ℤ}

theorem rosterHas_iff {r : NodeRoster} : rosterHas (some r) uid = true ↔ uid ∈ r.uids := by
  unfold rosterHas
  rw [decide_eq_true_iff]
  constructor
  · exact mem_of_getElem?
  · intro hmem
    obtain ⟨p, hp, rfl⟩ := getElem_of_mem hmem
    rw [search_eq (p := p) ?_ (Nat.zero_le p) hp.le, getElem?_eq_getElem hp]
    intro k hk
    have hmono := pairwise_iff_getElem.mp r.sorted
    rw [getElem?_eq_getElem hk, Option.any_some, decide_eq_true_iff]
    rcases lt_trichotomy p k with hlt | rfl | hlt
    · exact iff_of_true (hmono p k hp hk hlt).le hlt.le
    · exact iff_of_true le_rfl le_rfl
    · exact iff_of_false (hmono k p hk hp hlt).not_ge hlt.not_ge

variable {m : ℤ → Option Time} {grace : ℤ}

theorem foldl_erase (bs : List ℤ) :
    bs.foldl (fun m b => update m b none) m uid = if uid ∈ bs then none else m uid := by
  induction bs generalizing m with
  | nil => simp
  | cons b bs ih =>
    rw [foldl_cons, ih, update_apply]
    grind

/-- **The merge** sets the time for those that are only in the first list, and takes out those that
are in the second. -/
theorem merge_eq {now : Time} {as bs : List ℤ}
    (ha : as.Pairwise (· < ·)) (hb : bs.Pairwise (· < ·)) :
    merge now as bs m uid = if uid ∈ bs then none else if uid ∈ as then some now else m uid := by
  fun_induction merge now as bs m with
  | case1 bs m => simp [foldl_erase]
  | case2 a as m ih =>
    rw [ih ha.of_cons hb, update_apply]
    grind
  | case3 a as b bs m hlt ih =>
    -- `b` is not in the first list, which begins with more
    have hmore := pairwise_cons.mp ha
    rw [ih ha hb.of_cons, update_apply]
    grind
  | case4 as b bs m hlt ih =>
    have hmore := pairwise_cons.mp ha
    rw [ih ha.of_cons hb.of_cons, update_apply]
    grind
  | case5 a as b bs m hlt hne ih =>
    -- `a` is not in the second
    have hmore := pairwise_cons.mp hb
    rw [ih ha.of_cons hb, update_apply]
    grind

/-! ## The history -/

/-- A roster that was sent, and when. -/
structure Sent where
  roster : NodeRoster
  at_ : Time

variable {history : List Sent}

/-- The state after a history, which has the latest roster first. -/
def after (latest : Option NodeRoster) (grace : ℤ) (history : List Sent) : RosterState :=
  history.foldr (fun e st => st.shiftSent e.at_ grace e.roster) { latest }

/-- The recorded roster of the version before the last one. -/
def previous : List Sent → Option NodeRoster
  | e :: a :: history =>
    if a.roster.version = e.roster.version then previous (a :: history) else some a.roster
  | _ => none

/-- When a user left the recorded roster the last time, if the user has not been added again. -/
def lastRemoval (uid : ℤ) : List Sent → Option Time
  | e :: a :: history =>
    if uid ∈ e.roster.uids then none
    else if uid ∈ a.roster.uids then some e.at_ else lastRemoval uid (a :: history)
  | _ => none

/-- A version is a digest of the users: two rosters of one version have the same. -/
def Digests (history : List Sent) : Prop :=
  history.Pairwise fun e a => a.roster.version = e.roster.version → a.roster.uids = e.roster.uids

instance (history : List Sent) : Decidable (Digests history) :=
  inferInstanceAs (Decidable (history.Pairwise _))

/-! ## What `Has` answers -/

/-- What is noted of a removal is what there is, unless that is older than the grace. -/
def Agrees (grace : ℤ) (now : Time) (noted truth : Option Time) : Prop :=
  noted = truth ∨ noted = none ∧ ∃ t ∈ truth, grace < Time.sub now t

section

variable {now later : Time} {noted truth : Option Time}

section

variable (h : Agrees grace now noted truth)
include h

theorem Agrees.mono (hle : now ≤ later) : Agrees grace later noted truth := by
  rcases h with heq | ⟨hnone, t, ht, hold⟩
  · exact .inl heq
  · exact .inr ⟨hnone, t, ht, hold.trans_le (sub_le_sub hle)⟩

theorem Agrees.filter : Agrees grace now (noted.filter fun t => ¬grace < sub now t) truth := by
  rcases h with rfl | ⟨rfl, hold⟩
  · cases noted with
    | none => exact .inl rfl
    | some t =>
      by_cases hold : grace < sub now t
      · exact .inr ⟨by simp [hold], t, rfl, hold⟩
      · exact .inl (by simp [not_lt.mp hold])
  · exact .inr ⟨rfl, hold⟩

theorem Agrees.any_iff :
    (noted.any fun t => sub now t ≤ grace) = true ↔ ∃ t ∈ truth, sub now t ≤ grace := by
  rcases h with rfl | ⟨rfl, t, ht, hold⟩
  · cases noted <;> simp
  · refine iff_of_false (by simp) ?_
    rintro ⟨u, hu, hle⟩
    obtain rfl : t = u := Option.mem_unique ht hu
    omega

end

end

/-- What the state holds after a history that is not empty. -/
structure Follows (grace : ℤ) (e : Sent) (history : List Sent) (st : RosterState) : Prop where
  sent : st.sent = some e.roster
  prevSent : st.prevSent = previous (e :: history)
  removed : ∀ uid, Agrees grace e.at_ (st.removed uid) (lastRemoval uid (e :: history))

/-- A roster of the same version changes nothing: it has the same users.  Otherwise the merge does
to the times what the new roster does to the removals. -/
theorem Follows.shiftSent {a e : Sent} {st : RosterState}
    (h : Follows grace a history st) (hle : a.at_ ≤ e.at_)
    (hdigest : a.roster.version = e.roster.version → a.roster.uids = e.roster.uids) :
    Follows grace e (a :: history) (st.shiftSent e.at_ grace e.roster) := by
  have hremoved := fun uid => (h.removed uid).mono hle
  unfold RosterState.shiftSent
  simp only [h.sent]
  split_ifs with hversion
  · refine ⟨rfl, by simp [previous, hversion, RosterState.noteRemoved], fun uid => Agrees.filter ?_⟩
    rw [merge_eq a.roster.sorted e.roster.sorted, lastRemoval]
    split_ifs
    · exact .inl rfl
    · exact .inl rfl
    · exact hremoved uid
  · have heq := not_not.mp hversion
    refine ⟨rfl, by simp [previous, heq, h.prevSent], fun uid => ?_⟩
    rw [lastRemoval, ← hdigest heq]
    split_ifs with hmem
    · have hnone : lastRemoval uid (a :: history) = none := by
        cases history <;> simp [lastRemoval, hmem]
      exact hnone ▸ hremoved uid
    · exact hremoved uid

theorem follows_after {latest : Option NodeRoster} {e : Sent}
    (hdigests : Digests (e :: history)) (htimes : (e :: history).Pairwise (·.at_ ≥ ·.at_)) :
    Follows grace e history (after latest grace (e :: history)) := by
  induction history generalizing e with
  | nil => exact ⟨rfl, rfl, fun _ => .inl rfl⟩
  | cons a history ih =>
    have hfollows := ih hdigests.of_cons htimes.of_cons
    exact hfollows.shiftSent (rel_of_pairwise_cons htimes mem_cons_self)
      (rel_of_pairwise_cons hdigests mem_cons_self)

/-- **A user's traffic counts** if and only if the user is in the last roster that was sent, in the
one of the version before, or was removed not longer ago than the grace and not added again. -/
theorem counts_iff {latest : Option NodeRoster} {grace : ℤ} {now : Time} {e : Sent}
    {history : List Sent} (hdigests : Digests (e :: history))
    (htimes : (e :: history).Pairwise (·.at_ ≥ ·.at_)) (hnow : e.at_ ≤ now) (uid : ℤ) :
    (after latest grace (e :: history)).has now grace uid = true ↔
      uid ∈ e.roster.uids ∨ (∃ r ∈ previous (e :: history), uid ∈ r.uids) ∨
        ∃ t ∈ lastRemoval uid (e :: history), Time.sub now t ≤ grace := by
  obtain ⟨hsent, hprev, hremoved⟩ := follows_after hdigests htimes
  have hprevious : rosterHas (previous (e :: history)) uid = true ↔
      ∃ r ∈ previous (e :: history), uid ∈ r.uids := by
    cases previous (e :: history) with
    | none => simp [rosterHas]
    | some r => simp [rosterHas_iff]
  rw [RosterState.has, hsent, hprev, if_neg (by simp), Bool.or_eq_true, Bool.or_eq_true, or_assoc,
    rosterHas_iff, hprevious, ((hremoved uid).mono hnow).any_iff]

/-- User 2 is removed, added again and removed, and the last roster is sent twice. -/
def sampleHistory : List Sent :=
  [⟨⟨"c", [3], by decide⟩, 60⟩, ⟨⟨"c", [3], by decide⟩, 50⟩, ⟨⟨"a", [1, 2], by decide⟩, 40⟩,
    ⟨⟨"b", [1], by decide⟩, 20⟩, ⟨⟨"a", [1, 2], by decide⟩, 10⟩]

theorem sample_counts_iff :
    lastRemoval 2 sampleHistory = some 50 ∧ (after none 30 sampleHistory).has 70 30 2 = true :=
  ⟨by decide, (counts_iff (by decide) (by decide) (by decide) 2).mpr (by decide)⟩

end Pandora.Nodes.Rosters
