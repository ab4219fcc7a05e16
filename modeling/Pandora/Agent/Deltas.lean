import Pandora.Agent.Roster

/-!
# What the panel sends of a roster

The panel sends a node what is new since the roster that it has confirmed, if that is little, and
else all of it.  Messages may be lost, repeated or late: a version is a digest of its users, so a
node takes only deltas from the roster that it has.
-/

namespace Pandora.Agent.Roster

open List Keyed Option Function

/-- `NodeRoster.Users`. -/
structure Listing where
  users : List User
  sorted : users.Pairwise (·.id < ·.id)
  named : ∀ u ∈ users, u.uuid ≠ ""
  distinct : ∀ u ∈ users, ∀ v ∈ users, u.uuid = v.uuid → u = v

/-- `diffRoster`: the records that are new, and the numbers that are no more. -/
def diffRoster : List User → List User → List User × List ℤ
  | [], new => (new, [])
  | a :: old, [] => (diffRoster old []).map id (a.id :: ·)
  | a :: old, b :: new =>
    if a.id < b.id then (diffRoster old (b :: new)).map id (a.id :: ·)
    else if b.id < a.id then (diffRoster (a :: old) new).map (b :: ·) id
    else if a ≠ b then (diffRoster old new).map (b :: ·) id
    else diffRoster old new
termination_by old new => old.length + new.length

/-- What `rosterMessageLocked` finds, and how its message is taken. -/
structure Offer where
  deltas : Bool
  sent : Option String
  (confirmed version : String)
  order : Order
  fails : Calls

def usersDeltaMax : ℕ := 5000

variable (book : String → Listing)

/-- `rosterMessageLocked`, with the users of each version. -/
def rosterMessage (o : Offer) : Label :=
  let users := (book o.version).users
  let full : Label := .full o.version users o.order o.fails
  match o.sent with
  | none => full
  | some sent =>
    let (upserted, removed) := diffRoster (book sent).users users
    let n := upserted.length + removed.length
    if o.deltas = true ∧ o.confirmed ≠ "" ∧ o.confirmed = sent ∧ sent ≠ o.version ∧
        n ≤ usersDeltaMax ∧ n < users.length then
      .delta sent o.version upserted removed o.fails
    else full

/-- An offer is made, and its message is taken. -/
def Config.offered (c : Config) (o : Offer) : Config := next c (rosterMessage book o)

/-- If a roster was left half installed, the one that is offered agrees with it. -/
def Config.Resumes (c : Config) (o : Offer) : Prop :=
  ∀ half ∈ c.tried, Agrees c.known half (wanted (normalizeUsers (book o.version).users))

/-- A version stands for its roster. -/
def Spells (v : String) (roster : Option Users) : Prop := ∀ m ∈ roster, Holds (book v).users m

def Config.Follows (c : Config) : Prop := c.Inv ∧ ∀ v, Spells book v (c.names v)

variable {book} {old new : List User} {m : Users} {c : Config} {o : Offer} (r s : Listing)

theorem mem_diffRoster (hold : old.Pairwise (·.id < ·.id)) (hnew : new.Pairwise (·.id < ·.id)) :
    (∀ u, u ∈ (diffRoster old new).1 ↔ u ∈ new ∧ u ∉ old) ∧
      ∀ id, id ∈ (diffRoster old new).2 ↔ (∃ a ∈ old, a.id = id) ∧ ∀ b ∈ new, b.id ≠ id := by
  -- the smaller of the two heads has no partner in the other list
  fun_induction diffRoster old new <;> simp only [pairwise_cons, Prod.map, id] at * <;> grind

theorem Listing.id_inj : ∀ u ∈ r.users, ∀ v ∈ r.users, u.id = v.id → u = v := by
  have hids : (r.users.map (·.id)).Nodup := pairwise_map.mpr (r.sorted.imp Int.ne_of_lt)
  exact fun _ hu _ hv => inj_on_of_nodup_map hids hu hv

theorem holds_mirrorOf (hnew : new ⊆ r.users) : Holds new (mirrorOf new) := by
  intro u
  constructor
  · exact fun hu => get_putAll_of_mem hu fun b hb => r.id_inj b (hnew hb) u (hnew hu)
  · exact fun hu => (mem_of_mem_putAll hu).resolve_left (not_mem_empty u)

theorem Listing.holds : Holds r.users (mirrorOf (normalizeUsers r.users)) := by
  intro u
  have hall : Agent.named r.users = r.users :=
    filter_eq_self.mpr fun u hu => decide_eq_true (r.named u hu)
  rw [mem_mirrorOf_normalizeUsers, holds_normalizeUsers, wanted_eq, hall,
    holds_mirrorOf r fun _ hu => hu]

theorem Listing.distinct_of_holds (h : Holds r.users m) : Distinct m :=
  fun u hu v hv => r.distinct u ((h u).mpr hu) v ((h v).mpr hv)

theorem Listing.distinct_wanted : Distinct (wanted (normalizeUsers r.users)) := by
  refine r.distinct_of_holds fun u => ?_
  rw [mem_iff, get_wanted_normalizeUsers, ← mem_iff, r.holds u]

/-- **The difference leads from the one roster to the other.** -/
theorem holds_patch (h : Holds r.users m) :
    let d := diffRoster r.users s.users
    Holds s.users (patch m d.1 d.2) := by
  intro d u
  obtain ⟨hup, hrem⟩ := mem_diffRoster r.sorted s.sorted
  rw [patch, mem_foldl_setUser (holds_mirrorOf s fun u hu => ((hup u).mp hu).1), mem_eraseAll,
    ← h u, hrem]
  grind [Listing.id_inj, Listing.named]

theorem Config.Follows.full (h : c.Follows book) (hresumes : c.Resumes book o) :
    (c.full o.version (book o.version).users o.order o.fails).Follows book := by
  refine ⟨h.1.full ⟨(book o.version).distinct_wanted, hresumes⟩,
    (forall_update_iff _ (Spells book)).mpr ⟨?_, fun v _ => h.2 v⟩⟩
  rintro _ ⟨⟩
  exact (book o.version).holds

theorem Config.Follows.delta (h : c.Follows book) {v w : String} {fails : Calls} :
    let d := diffRoster (book v).users (book w).users
    (c.delta v w d.1 d.2 fails).Follows book := by
  refine ⟨h.1.delta ?_, ?_⟩
  · rintro ⟨hsome, rfl⟩
    obtain ⟨-, roster, hroster, hsame⟩ := h.1.sure c.userVersion (.inr ⟨rfl, hsome⟩)
    refine (book w).distinct_of_holds (holds_patch _ _ fun u => ?_)
    rw [h.2 _ roster hroster u, mem_iff, hsame, ← mem_iff]
  · unfold Config.delta
    split_ifs
    · refine (forall_update_iff _ (Spells book)).mpr ⟨fun m hm => ?_, fun v _ => h.2 v⟩
      obtain ⟨roster, hroster, rfl⟩ := map_eq_some_iff.mp hm
      exact holds_patch _ _ (h.2 v roster hroster)
    · exact h.2

theorem Config.Follows.offered (h : c.Follows book) (hresumes : c.Resumes book o) :
    (c.offered book o).Follows book := by
  unfold Config.offered rosterMessage
  cases o.sent with
  | none => exact h.full hresumes
  | some sent =>
    dsimp only
    split_ifs
    · exact h.delta
    · exact h.full hresumes

theorem Config.Follows.accepts (h : c.Follows book) {w : String}
    (hw : c.ack = some ⟨w, none⟩ ∨ (c.userVersion = w ∧ w ≠ "")) (u : User) :
    u ∈ c.table ↔ u ∈ (book w).users := by
  obtain ⟨roster, hroster, haccepts⟩ := h.1.faithful w hw
  rw [haccepts, h.2 w roster hroster]

theorem ack_offered (hconfirmed : o.confirmed = c.userVersion) (hfails : o.fails = {}) :
    (c.offered book o).ack = some ⟨o.version, none⟩ := by
  have hok : ∀ changes t, (applyKernelUsers o.fails changes t).2 = true := by
    simp [applyKernelUsers, hfails]
  unfold Config.offered rosterMessage
  cases o.sent with
  | none => simp [next, Config.full, Config.attempted, applyUsers, hok]
  | some sent =>
    dsimp only
    split_ifs with hdelta
    · obtain ⟨-, hsome, rfl, -⟩ := hdelta
      have htakes : c.Takes o.confirmed := ⟨hconfirmed ▸ hsome, hconfirmed⟩
      simp [next, Config.delta, htakes, Config.attempted, applyUserDelta, hok]
    · simp [next, Config.full, Config.attempted, applyUsers, hok]

/-- **Whatever the panel believes that the node has, and whichever of its messages arrive, what
the node acknowledges or reports is the version of the roster that its kernel accepts.**  If the
panel is right about the version of the node and no call fails, its next roster is installed. -/
theorem messages_deliver_rosters {v : String} {offers : List Offer}
    (h : Runs.Along (Config.offered book) (Config.Resumes book)
      (.installed v (book v).users) offers) :
    let c := offers.foldl (Config.offered book) (.installed v (book v).users)
    (∀ w, c.ack = some ⟨w, none⟩ ∨ (c.userVersion = w ∧ w ≠ "") →
      ∀ u, u ∈ c.table ↔ u ∈ (book w).users) ∧
    ∀ o, c.Resumes book o → o.confirmed = c.userVersion → o.fails = {} →
      ∀ u, u ∈ (c.offered book o).table ↔ u ∈ (book o.version).users := by
  have hfollows := h.invariant (I := Config.Follows book) (fun _ _ hc => hc.offered)
    ⟨Config.inv_installed v (book v).distinct_wanted,
      (forall_update_iff _ (Spells book)).mpr ⟨?_, fun _ _ _ h => absurd h (not_mem_none _)⟩⟩
  · refine ⟨fun _ => hfollows.accepts, fun o hresumes hconfirmed hfails => ?_⟩
    exact (hfollows.offered hresumes).accepts (.inl (ack_offered hconfirmed hfails))
  · rintro _ ⟨⟩
    exact (book v).holds

/-- Two versions of a roster. -/
def sampleBook (v : String) : Listing where
  users := [⟨1, "x", 0, 0⟩, ⟨2, if v = "v1" then "y" else "z", 0, 0⟩]
  sorted := by simp
  named := by split_ifs <;> decide
  distinct := by split_ifs <;> decide

theorem sample_delta_delivered :
    let c := (Config.installed "v1" (sampleBook "v1").users).offered sampleBook
      ⟨true, some "v1", "v1", "v2", .listed, {}⟩
    ∀ u, u ∈ c.table ↔ u ∈ (sampleBook "v2").users :=
  (@messages_deliver_rosters _ "v1" [_] ⟨fun _ h => absurd h (not_mem_none _), trivial⟩).1 "v2"
    (.inl (by decide +kernel))

end Pandora.Agent.Roster
