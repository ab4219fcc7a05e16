import Pandora.Dataplane.Handover

/-!
# No byte is handed over twice

Every entry is somewhere: with its adapter, put aside, in the hands of a thread, or in the report
buffer.  `Config.Kept` says that what an adapter has counted is what is in all these places
together, and `Config.Owned` that an entry goes under the tag of its adapter.  Both hold in all
runs, whatever fails.

`Ran` says all that an operation can do to the entries.
-/

namespace Pandora.Dataplane.Handover

open List Function Keyed Config

open Traffic (Direction)

/-! ## Bytes -/

/-- The bytes of a user that an adapter has counted, in a list of entries. -/
def bytes (a : ℕ) (id : ℤ) (d : Direction) (l : List Entry) : ℕ :=
  (l.map fun e => if e.origin = a ∧ e.id = id then e.bytes d else 0).sum

section Bytes

variable {a : ℕ} {id : ℤ} {d : Direction} {l l' : List Entry}

theorem bytes_cons {e : Entry} :
    bytes a id d (e :: l) = (if e.origin = a ∧ e.id = id then e.bytes d else 0) + bytes a id d l :=
  rfl

theorem bytes_append : bytes a id d (l ++ l') = bytes a id d l + bytes a id d l' := by
  unfold bytes
  rw [map_append, sum_append]

theorem bytes_perm (h : l.Perm l') : bytes a id d l = bytes a id d l' := (h.map _).sum_eq

theorem bytes_eq_zero (h : ∀ e ∈ l, e.origin ≠ a) : bytes a id d l = 0 :=
  sum_eq_zero (forall_mem_map.mpr fun e he => if_neg fun hmine => h e he hmine.1)

end Bytes

/-- The same, of entries with their tags. -/
def tagged (a : ℕ) (id : ℤ) (d : Direction) (l : List (String × Entry)) : ℕ :=
  bytes a id d (l.map (·.2))

variable {traffic : List Entry} {l : List (String × Entry)} {t : String} {op : Op}

section Tagged

variable {a : ℕ} {id : ℤ} {d : Direction} {l' : List (String × Entry)}

theorem tagged_append : tagged a id d (l ++ l') = tagged a id d l + tagged a id d l' := by
  unfold tagged
  rw [map_append, bytes_append]

theorem tagged_put :
    tagged a id d (l ++ traffic.map (t, ·)) = tagged a id d l + bytes a id d traffic := by
  rw [tagged_append]
  unfold tagged
  rw [map_map]
  exact congrArg (fun x => _ + bytes a id d x) (map_id traffic)

theorem tagged_split : tagged a id d l = bytes a id d ((l.filter (·.1 = t)).map (·.2)) +
      tagged a id d (l.filter (·.1 ≠ t)) := by
  have hperm : (l.filter (fun p => decide (p.1 = t)) ++
      l.filter (fun p => !decide (p.1 = t))).Perm l := filter_append_perm _ l
  have hne : (fun p : String × Entry => !decide (p.1 = t)) = fun p => decide (p.1 ≠ t) :=
    funext fun p => (decide_not).symm
  rw [hne] at hperm
  show bytes a id d (l.map (·.2)) = _
  rw [← bytes_perm (hperm.map (·.2)), map_append, bytes_append]
  rfl

theorem tagged_eq_zero (h : ∀ p ∈ l, p.2.origin ≠ a) : tagged a id d l = 0 := by
  refine bytes_eq_zero fun e he => ?_
  obtain ⟨p, hp, rfl⟩ := mem_map.mp he
  exact h p hp

end Tagged

/-- What the operations of a thread carry. -/
def carrying (a : ℕ) (id : ℤ) (d : Direction) (ops : List Op) : ℕ :=
  bytes a id d (ops.flatMap Op.carried)

section Carrying

variable {a : ℕ} {id : ℤ} {d : Direction} {ops ops' : List Op}

@[simp] theorem carrying_nil : carrying a id d [] = 0 := rfl

theorem carrying_append :
    carrying a id d (ops ++ ops') = carrying a id d ops + carrying a id d ops' := by
  unfold carrying
  rw [flatMap_append, bytes_append]

theorem carrying_cons :
    carrying a id d (op :: ops) = bytes a id d op.carried + carrying a id d ops := by
  unfold carrying
  rw [flatMap_cons, bytes_append]

theorem carrying_eq_zero (h : ∀ op ∈ ops, op.carried = []) : carrying a id d ops = 0 :=
  congrArg (bytes a id d) (flatMap_eq_nil_iff.mpr h)

end Carrying

/-- What `SnapshotTraffic` of an adapter would return. -/
def Config.holding (c : Config) (a : ℕ) (id : ℤ) (d : Direction) : ℕ :=
  bytes a id d (c.adapters a).held.values

/-! ## Whose an entry is -/

/-- An entry may go under a tag. -/
def Config.Fits (c : Config) (tag : String) (e : Entry) : Prop :=
  e.origin < c.made ∧ (c.adapters e.origin).tag = tag

/-- An operation is about adapters of its tag, and carries their entries. -/
def Config.Owns (c : Config) : Op → Prop
  | .snapshot id retired a =>
    a < c.made ∧ (c.adapters a).tag = id ∧ ∀ e ∈ retired, c.Fits id e
  | .buffer id traffic => ∀ e ∈ traffic, c.Fits id e
  | .retire tag a phase =>
    a < c.made ∧ (c.adapters a).tag = tag ∧ ∀ e ∈ (Op.retire tag a phase).carried, c.Fits tag e
  | .publish id _ a => a < c.made ∧ (c.adapters a).tag = id
  | .republish id _ a => a < c.made ∧ (c.adapters a).tag = id
  | .discard a _ => a < c.made
  | _ => True

/-- Entries go under the tags of their adapters. -/
structure Config.Owned (c : Config) : Prop where
  retired : ∀ p ∈ c.retired, c.Fits p.1 p.2
  handed : ∀ p ∈ c.handed, c.Fits p.1 p.2
  inbounds : ∀ p ∈ c.inbounds, p.adapter < c.made ∧ (c.adapters p.adapter).tag = p.tag
  held : ∀ a, ∀ e ∈ (c.adapters a).held, e.origin = a
  unmade : ∀ a, c.made ≤ a → (c.adapters a).held = ∅ ∧ (c.adapters a).counted = []

/-- There may be more adapters, and none has another tag. -/
structure Config.Grows (c c' : Config) : Prop where
  made : c.made ≤ c'.made
  tag : ∀ a < c.made, (c'.adapters a).tag = (c.adapters a).tag

variable {c c' : Config} {a : ℕ} {ops : List Op} {tag id : String} {f : Adapter → Adapter}

theorem Config.Grows.fits (h : c.Grows c') {e : Entry} (he : c.Fits tag e) : c'.Fits tag e :=
  ⟨he.1.trans_le h.made, (h.tag _ he.1).trans he.2⟩

theorem Config.Grows.adapter (h : c.Grows c')
    (ha : a < c.made ∧ (c.adapters a).tag = tag) : a < c'.made ∧ (c'.adapters a).tag = tag :=
  ⟨ha.1.trans_le h.made, (h.tag _ ha.1).trans ha.2⟩

theorem Config.Grows.owns (h : c.Grows c') (hop : c.Owns op) : c'.Owns op := by
  cases op with
  | snapshot | retire =>
    exact ⟨(h.adapter ⟨hop.1, hop.2.1⟩).1, (h.adapter ⟨hop.1, hop.2.1⟩).2,
      fun e he => h.fits (hop.2.2 e he)⟩
  | buffer => exact fun e he => h.fits (hop e he)
  | publish | republish => exact h.adapter hop
  | discard => exact Nat.lt_of_lt_of_le hop h.made
  | collect | endTick | configure | install | detach | start | restore | settle | removeUnseen
  | removeNode | delInbound | forget | setOrder => trivial

theorem Config.Owned.moved (hc : c.Owned) (h : c.Grows c')
    (hcounted : ∀ a, (c'.adapters a).counted = (c.adapters a).counted)
    (hheld : ∀ a, (c'.adapters a).held = (c.adapters a).held ∨ (c'.adapters a).held = ∅)
    (hretired : ∀ p ∈ c'.retired, c.Fits p.1 p.2) (hhanded : ∀ p ∈ c'.handed, c.Fits p.1 p.2)
    (hinbounds : ∀ p ∈ c'.inbounds, p.adapter < c.made ∧ (c.adapters p.adapter).tag = p.tag) :
    c'.Owned where
  retired := fun p hp => h.fits (hretired p hp)
  handed := fun p hp => h.fits (hhanded p hp)
  inbounds := fun p hp => h.adapter (hinbounds p hp)
  held := fun a e he => by
    rcases hheld a with heq | hnone
    · exact hc.held a e (heq ▸ he)
    · rw [hnone] at he
      cases he
  unmade := fun a ha => by
    have hnone := hc.unmade a (h.made.trans ha)
    exact ⟨(hheld a).elim (·.trans hnone.1) id, (hcounted a).trans hnone.2⟩

theorem fits_append (hold : ∀ p ∈ l, c.Fits p.1 p.2) (hnew : ∀ e ∈ traffic, c.Fits tag e) :
    ∀ p ∈ l ++ traffic.map (tag, ·), c.Fits p.1 p.2 :=
  forall_mem_append.mpr ⟨hold, forall_mem_map.mpr hnew⟩

/-! ## What an operation does -/

/-- What an operation does to the entries. -/
structure Ran (c : Config) (op : Op) (c' : Config) (ops : List Op) : Prop where
  grows : c.Grows c'
  owned : c'.Owned
  owns : ∀ o ∈ ops, c'.Owns o
  counted : ∀ a, (c'.adapters a).counted = (c.adapters a).counted
  balance : ∀ a id d,
    c'.holding a id d + tagged a id d c'.retired + tagged a id d c'.handed + carrying a id d ops =
      c.holding a id d + tagged a id d c.retired + tagged a id d c.handed + bytes a id d op.carried
  pc : c'.pc = c.pc
  threads : c'.threads = c.threads
  ending : c'.ending = c.ending
  closed : c'.closed = c.closed

/-- Entries, adapters and threads are left as they are. -/
structure Config.Keeps (c c' : Config) : Prop where
  adapters : c'.adapters = c.adapters
  made : c'.made = c.made
  retired : c'.retired = c.retired
  handed : c'.handed = c.handed
  pc : c'.pc = c.pc
  threads : c'.threads = c.threads
  ending : c'.ending = c.ending
  closed : c'.closed = c.closed

theorem Config.Keeps.grows (h : c.Keeps c') : c.Grows c' :=
  ⟨h.made.ge, fun a _ => by rw [h.adapters]⟩

theorem Ran.keeps (hc : c.Owned) (h : c.Keeps c')
    (hinbounds : ∀ p ∈ c'.inbounds, p.adapter < c.made ∧ (c.adapters p.adapter).tag = p.tag)
    (howns : ∀ o ∈ ops, c.Owns o)
    (hcarry : ∀ a id d, carrying a id d ops = bytes a id d op.carried) : Ran c op c' ops where
  __ := h
  grows := h.grows
  owned := hc.moved h.grows (fun a => by rw [h.adapters]) (fun a => .inl (by rw [h.adapters]))
    (h.retired ▸ hc.retired) (h.handed ▸ hc.handed) hinbounds
  owns := fun o ho => h.grows.owns (howns o ho)
  counted := fun a => by rw [h.adapters]
  balance := fun a id d => by
    unfold holding
    rw [h.adapters, h.retired, h.handed, hcarry]

theorem Config.keeps_self (c : Config) : c.Keeps c := by constructor <;> rfl

theorem Ran.next (hc : c.Owned) (howns : ∀ o ∈ ops, c.Owns o)
    (hcarry : ∀ a id d, carrying a id d ops = bytes a id d op.carried) : Ran c op c ops :=
  .keeps hc c.keeps_self hc.inbounds howns hcarry

/-- Nothing else is changed than what the adapters are otherwise. -/
structure Config.Rest (c c' : Config) : Prop where
  made : c'.made = c.made
  inbounds : c'.inbounds = c.inbounds
  retired : c'.retired = c.retired
  handed : c'.handed = c.handed
  pc : c'.pc = c.pc
  threads : c'.threads = c.threads
  ending : c'.ending = c.ending
  closed : c'.closed = c.closed

/-- The adapters have the tags and the entries that they had. -/
def Config.Alike (c c' : Config) : Prop :=
  ∀ b, (c'.adapters b).tag = (c.adapters b).tag ∧
    (c'.adapters b).counted = (c.adapters b).counted ∧ (c'.adapters b).held = (c.adapters b).held

theorem Config.alike_onAdapter (c : Config) (a : ℕ)
    (hf : ∀ x, (f x).tag = x.tag ∧ (f x).counted = x.counted ∧ (f x).held = x.held) :
    c.Alike (c.onAdapter a f) := by
  intro b
  simp only [onAdapter, update_apply]
  split_ifs with hb
  · exact hb ▸ hf _
  · exact ⟨rfl, rfl, rfl⟩

theorem Config.alike_sweep (c : Config) (l : List ℕ) : c.Alike (c.sweep l) := by
  intro b
  simp only [sweep]
  split_ifs <;> exact ⟨rfl, rfl, rfl⟩

/-- Something is done to the adapters besides, and the entries are left where they are. -/
theorem Ran.same {c'' : Config} (h : Ran c op c' ops) (hrest : c'.Rest c'') (hsame : c'.Alike c'') :
    Ran c op c'' ops := by
  have hgrows : c'.Grows c'' := ⟨hrest.made.ge, fun b _ => (hsame b).1⟩
  refine ⟨⟨h.grows.made.trans hgrows.made, fun b hb => (hsame b).1.trans (h.grows.tag b hb)⟩,
    h.owned.moved hgrows (fun b => (hsame b).2.1) (fun b => .inl (hsame b).2.2)
      (hrest.retired ▸ h.owned.retired) (hrest.handed ▸ h.owned.handed)
        (hrest.inbounds ▸ h.owned.inbounds),
    fun o ho => hgrows.owns (h.owns o ho), fun b => (hsame b).2.1.trans (h.counted b),
      fun b id d => ?_,
    hrest.pc.trans h.pc, hrest.threads.trans h.threads, hrest.ending.trans h.ending,
    hrest.closed.trans h.closed⟩
  rw [← h.balance b id d]
  unfold holding
  rw [(hsame b).2.2, hrest.retired, hrest.handed]

theorem Ran.onAdapter (h : Ran c op c' ops) (a : ℕ)
    (hf : ∀ x, (f x).tag = x.tag ∧ (f x).counted = x.counted ∧ (f x).held = x.held) :
    Ran c op (c'.onAdapter a f) ops :=
  h.same (by constructor <;> rfl) (c'.alike_onAdapter a hf)

/-! ### Inbounds -/

theorem Config.keeps_takeInbound (c : Config) (tag : String) : c.Keeps (c.takeInbound tag).1 := by
  unfold takeInbound
  cases c.inbounds.get tag with
  | none | some => constructor <;> rfl

theorem Config.Owned.takeInbound (hc : c.Owned) (tag : String) :
    (∀ p ∈ (c.takeInbound tag).1.inbounds, p ∈ c.inbounds) ∧
      ∀ o ∈ (c.takeInbound tag).2, c.Owns o ∧ o.carried = [] := by
  unfold Config.takeInbound
  cases hget : c.inbounds.get tag with
  | none => exact ⟨fun _ hp => hp, nofun⟩
  | some p =>
    refine ⟨fun q hq => (mem_erase.mp hq).1, fun o ho => ?_⟩
    obtain rfl := mem_singleton.mp ho
    have hp := hc.inbounds p (mem_of_get hget)
    have htag : p.tag = tag := key_of_get hget
    exact ⟨⟨hp.1, hp.2.trans htag, nofun⟩, rfl⟩

theorem Config.Owned.put (hc : c.Owned) (ha : a < c.made ∧ (c.adapters a).tag = tag)
    {m : Keyed Published.tag} (hm : ∀ p ∈ m, p ∈ c.inbounds) :
    ∀ p ∈ m.put ⟨tag, a⟩, p.adapter < c.made ∧ (c.adapters p.adapter).tag = p.tag := by
  exact forall_mem_put ha fun p hp => hc.inbounds p (hm p hp)

theorem Config.startAdapter_made (c : Config) (tag : String) :
    c.made < (c.startAdapter tag).made ∧ ((c.startAdapter tag).adapters c.made).tag = tag := by
  refine ⟨Nat.lt_succ_self _, ?_⟩
  show (update c.adapters c.made _ c.made).tag = tag
  rw [update_self]

theorem Ran.startAdapter (hc : c.Owned) (tag : String)
    (howns : ∀ o ∈ ops, (c.startAdapter tag).Owns o)
    (hcarry : ∀ a id d, carrying a id d ops = bytes a id d op.carried) :
    Ran c op (c.startAdapter tag) ops := by
  have hold : ∀ a, a ≠ c.made → (c.startAdapter tag).adapters a = c.adapters a := fun a ha =>
    update_of_ne ha _ _
  have hnew : (c.startAdapter tag).adapters c.made = { tag := tag } := update_self ..
  have hnone := hc.unmade c.made le_rfl
  -- The new adapter has nothing, and there was nothing where it is now.
  have hsame : ∀ a, ((c.startAdapter tag).adapters a).held = (c.adapters a).held ∧
      ((c.startAdapter tag).adapters a).counted = (c.adapters a).counted := by
    intro a
    by_cases ha : a = c.made
    · rw [ha, hnew, hnone.1, hnone.2]
      exact ⟨rfl, rfl⟩
    · rw [hold a ha]
      exact ⟨rfl, rfl⟩
  have hgrows : c.Grows (c.startAdapter tag) :=
    ⟨Nat.le_succ _, fun a ha => by rw [hold a ha.ne]⟩
  refine ⟨hgrows, hc.moved hgrows (fun a => (hsame a).2) (fun a => .inl (hsame a).1)
    hc.retired hc.handed hc.inbounds, howns, fun a => (hsame a).2, fun a id d => ?_, rfl,
    rfl, rfl, rfl⟩
  rw [holding, (hsame a).1, hcarry]
  rfl

/-! ### Traffic -/

section

variable (hc : c.Owned)
include hc

theorem Ran.entries {retired handed : List (String × Entry)}
    (hretired : ∀ p ∈ retired, c.Fits p.1 p.2)
    (hhanded : ∀ p ∈ handed, c.Fits p.1 p.2) (howns : ∀ o ∈ ops, c.Owns o)
    (htotal : ∀ a id d, tagged a id d retired + tagged a id d handed + carrying a id d ops =
      tagged a id d c.retired + tagged a id d c.handed + bytes a id d op.carried) :
    Ran c op { c with retired := retired, handed := handed } ops := by
  have hgrows : c.Grows { c with retired := retired, handed := handed } := ⟨le_rfl, fun _ _ => rfl⟩
  refine ⟨hgrows, { hc with retired := hretired, handed := hhanded },
    fun o ho => hgrows.owns (howns o ho), fun _ => rfl, fun a id d => ?_, rfl, rfl, rfl, rfl⟩
  have hsame := htotal a id d
  show c.holding a id d + tagged a id d retired + tagged a id d handed + _ = _
  omega

theorem Ran.takeRetired (tag : String) (howns : ∀ o ∈ ops, c.Owns o)
    (hcarry : ∀ a id d, carrying a id d ops =
      bytes a id d op.carried + bytes a id d (c.takeRetired tag).2) :
    Ran c op (c.takeRetired tag).1 ops := by
  refine .entries hc (fun p hp => hc.retired p (mem_filter.mp hp).1) hc.handed howns
    fun a id d => ?_
  have hsplit : tagged a id d c.retired =
      bytes a id d (c.takeRetired tag).2 + tagged a id d (c.takeRetired tag).1.retired :=
    tagged_split
  rw [hcarry, hsplit]
  show tagged a id d (c.takeRetired tag).1.retired + _ + _ = _
  omega

theorem Ran.putRetired (hfits : ∀ e ∈ traffic, c.Fits tag e) (howns : ∀ o ∈ ops, c.Owns o)
    (hcarry : ∀ a id d, carrying a id d ops + bytes a id d traffic = bytes a id d op.carried) :
    Ran c op (c.putRetired tag traffic) ops := by
  refine .entries hc (fits_append hc.retired hfits) hc.handed howns fun a id d => ?_
  rw [tagged_put, ← hcarry]
  omega

theorem Ran.bufferTraffic (hfits : ∀ e ∈ traffic, c.Fits id e) :
    Ran c (.buffer id traffic) (c.bufferTraffic id traffic) [] := by
  refine .entries hc hc.retired (fits_append hc.handed hfits) nofun fun a uid d => ?_
  rw [tagged_put]
  exact (Nat.add_assoc _ _ _).symm

theorem Ran.snapshotTraffic (howns : ∀ o ∈ ops, c.Owns o)
    (hcarry : ∀ b id d, carrying b id d ops =
      bytes b id d op.carried + bytes b id d (c.snapshotTraffic a).2) :
    Ran c op (c.snapshotTraffic a).1 ops := by
  have hself : (c.snapshotTraffic a).1.adapters a = { c.adapters a with held := ∅ } :=
    update_self ..
  have hother : ∀ b, b ≠ a → (c.snapshotTraffic a).1.adapters b = c.adapters b := fun b hb =>
    update_of_ne hb _ _
  have hsame : ∀ b, ((c.snapshotTraffic a).1.adapters b).tag = (c.adapters b).tag ∧
      ((c.snapshotTraffic a).1.adapters b).counted = (c.adapters b).counted ∧
      (((c.snapshotTraffic a).1.adapters b).held = (c.adapters b).held ∨
        ((c.snapshotTraffic a).1.adapters b).held = ∅) := by
    intro b
    by_cases hb : b = a
    · rw [hb, hself]
      exact ⟨rfl, rfl, .inr rfl⟩
    · rw [hother b hb]
      exact ⟨rfl, rfl, .inl rfl⟩
  have hgrows : c.Grows (c.snapshotTraffic a).1 := ⟨le_rfl, fun b _ => (hsame b).1⟩
  refine ⟨hgrows, hc.moved hgrows (fun b => (hsame b).2.1) (fun b => (hsame b).2.2)
    hc.retired hc.handed hc.inbounds, fun o ho => hgrows.owns (howns o ho), fun b => (hsame b).2.1,
    fun b id d => ?_, rfl, rfl, rfl,
    rfl⟩
  · have hmoved : (c.snapshotTraffic a).1.holding b id d +
        bytes b id d (c.snapshotTraffic a).2 = c.holding b id d := by
      unfold holding
      by_cases hba : b = a
      · rw [hba, hself]
        exact Nat.zero_add _
      · rw [hother b hba]
        have hnone : bytes b id d (c.snapshotTraffic a).2 = 0 := by
          refine bytes_eq_zero fun e he => ?_
          rw [hc.held a e (mem_values.mp he)]
          exact Ne.symm hba
        rw [hnone, Nat.add_zero]
    have hretired : (c.snapshotTraffic a).1.retired = c.retired := rfl
    have hhanded : (c.snapshotTraffic a).1.handed = c.handed := rfl
    rw [hcarry, hretired, hhanded]
    omega

theorem Config.Owned.fits_takeRetired (tag : String) :
    ∀ e ∈ (c.takeRetired tag).2, c.Fits tag e := by
  intro e he
  obtain ⟨p, hp, rfl⟩ := mem_map.mp he
  have hfilter := mem_filter.mp hp
  have htag : p.1 = tag := of_decide_eq_true hfilter.2
  exact htag ▸ hc.retired p hfilter.1

theorem Config.Owned.fits_snapshotTraffic
    (ha : a < c.made ∧ (c.adapters a).tag = tag) : ∀ e ∈ (c.snapshotTraffic a).2, c.Fits tag e := by
  intro e he
  have horigin : e.origin = a := hc.held a e (mem_values.mp he)
  exact ⟨horigin ▸ ha.1, horigin ▸ ha.2⟩

end

/-! ### One operation -/

theorem carrying_one {id : ℤ} {d : Direction} : carrying a id d [op] = bytes a id d op.carried := by
  rw [carrying_cons, carrying_nil, Nat.add_zero]

theorem ran_getTraffic (hc : c.Owned) (id : String) :
    Ran c (.collect id) (c.getTraffic id).1 (c.getTraffic id).2 := by
  have hfits := hc.fits_takeRetired id
  simp only [getTraffic]
  have hran : ∀ op : Op, c.Owns op → op.carried = (c.takeRetired id).2 →
      Ran c (.collect id) (c.takeRetired id).1 [op] := by
    intro op howns hcarried
    refine .takeRetired hc id (forall_mem_singleton.mpr howns) fun a uid d => ?_
    rw [carrying_one, hcarried]
    exact (Nat.zero_add _).symm
  cases hget : (c.takeRetired id).1.inbounds.get id with
  | none => exact hran _ hfits rfl
  | some p =>
    have hp := hc.inbounds p (mem_of_get hget)
    have htag : p.tag = id := key_of_get hget
    exact hran _ ⟨hp.1, hp.2.trans htag, hfits⟩ rfl

theorem ran_getLive (hc : c.Owned) {retired : List Entry}
    (ch : Chance) (hop : c.Owns (.snapshot id retired a)) :
    Ran c (.snapshot id retired a) (c.getLive id retired a ch).1 (c.getLive id retired a ch).2 := by
  have hone : ∀ {op : Op}, c.Owns op → ∀ o ∈ [op], c.Owns o := forall_mem_singleton.mpr
  have hbuffer : c.Owns (.buffer id retired) := hop.2.2
  unfold getLive
  cases (c.adapters a).stage with
  | closing => exact .next hc (hone hop) fun _ _ _ => carrying_one
  | abandoned | shut => exact .next hc (hone hbuffer) fun _ _ _ => carrying_one
  | running =>
    split_ifs
    · exact .putRetired hc hop.2.2 nofun fun _ _ _ => Nat.zero_add _
    · have hlive := hc.fits_snapshotTraffic ⟨hop.1, hop.2.1⟩
      refine .snapshotTraffic hc (hone fun e he => ?_) fun b uid d => ?_
      · exact (mem_append.mp he).elim (hop.2.2 e) (hlive e)
      · rw [carrying_one]
        exact bytes_append

theorem ran_retire (hc : c.Owned) {phase : Closing}
    (ch : Chance) (hop : c.Owns (.retire tag a phase)) :
    Ran c (.retire tag a phase) (c.retire tag a ch phase).1 (c.retire tag a ch phase).2 := by
  have hone : ∀ {phase : Closing}, (∀ e ∈ (Op.retire tag a phase).carried, c.Fits tag e) →
      ∀ o ∈ [Op.retire tag a phase], c.Owns o := fun hfits =>
    forall_mem_singleton.mpr ⟨hop.1, hop.2.1, hfits⟩
  cases phase with
  | lock =>
    unfold retire
    cases (c.adapters a).stage with
    | running =>
      have hnext : Ran c (.retire tag a .lock) c [.retire tag a .wait] :=
        .next hc (hone nofun) fun _ _ _ => carrying_one
      exact hnext.onAdapter a (f := fun x => { x with stage := .closing }) fun _ => ⟨rfl, rfl, rfl⟩
    | closing | abandoned | shut => exact .next hc (hone nofun) fun _ _ _ => carrying_one
  | wait =>
    have hnext : Ran c (.retire tag a .wait) c [.retire tag a .snap] :=
      .next hc (hone nofun) fun _ _ _ => carrying_one
    exact hnext.onAdapter a (f := fun x =>
      { x with stage := if ch.timeout then .abandoned else .shut })
      fun _ => ⟨rfl, rfl, rfl⟩
  | snap =>
    simp only [retire]
    split_ifs
    · exact .next hc (hone nofun) fun _ _ _ => carrying_one
    · refine .snapshotTraffic hc (hone (hc.fits_snapshotTraffic ⟨hop.1, hop.2.1⟩)) fun b uid d => ?_
      rw [carrying_one]
      exact (Nat.zero_add _).symm
  | put traffic =>
    have hput : Ran c (.retire tag a (.put traffic)) (c.putRetired tag traffic) [] :=
      .putRetired hc hop.2.2 nofun fun _ _ _ => Nat.zero_add _
    exact hput.onAdapter a (f := fun x => { x with ended := x.ended || x.stage = .shut })
      fun _ => ⟨rfl, rfl, rfl⟩

theorem ran_discard (hc : c.Owned) {waiting : Bool} (ch : Chance)
    (hop : c.Owns (.discard a waiting)) :
    Ran c (.discard a waiting) (c.discard a ch waiting).1 (c.discard a ch waiting).2 := by
  cases waiting with
  | false =>
    have hnext : Ran c (.discard a false) c [.discard a true] :=
      .next hc (forall_mem_singleton.mpr hop) fun _ _ _ => carrying_one
    exact hnext.onAdapter a (f := fun x => { x with stage := .closing }) fun _ => ⟨rfl, rfl, rfl⟩
  | true =>
    have hnext : Ran c (.discard a true) c [] := .next hc nofun fun _ _ _ => rfl
    exact hnext.onAdapter a (f := fun x => { x with
      stage := if ch.timeout then .abandoned else .shut, ended := x.ended || !ch.timeout })
      fun _ => ⟨rfl, rfl, rfl⟩

/-- Operations that own nothing and carry nothing. -/
def Op.Plain : Op → Prop
  | .snapshot .. | .buffer .. | .retire .. | .publish .. | .republish .. | .discard .. => False
  | _ => True

theorem Op.Plain.owns (h : op.Plain) (c : Config) : c.Owns op := by
  cases op <;> trivial

theorem Op.Plain.carried (h : op.Plain) : op.carried = [] := by
  cases op <;> first | rfl | exact h.elim

theorem plain_one {o : Op} (h : o.Plain) : ∀ o' ∈ [o], o'.Plain := forall_mem_singleton.mpr h

theorem Ran.plain (hc : c.Owned) (h : c.Keeps c') (hinbounds : ∀ p ∈ c'.inbounds, p ∈ c.inbounds)
    (hop : op.carried = []) (hops : ∀ o ∈ ops, o.Plain) : Ran c op c' ops := by
  refine .keeps hc h (fun p hp => hc.inbounds p (hinbounds p hp)) (fun o ho => (hops o ho).owns c)
    fun a id d => ?_
  rw [hop]
  exact carrying_eq_zero fun o ho => (hops o ho).carried

theorem Ran.still (hc : c.Owned) (hop : op.carried = []) (hops : ∀ o ∈ ops, o.Plain) :
    Ran c op c ops :=
  .plain hc c.keeps_self (fun _ hp => hp) hop hops

/-- Nothing but the nodes is changed, and plain operations come next. -/
structure Config.Idles (c c' : Config) (ops : List Op) : Prop where
  keeps : c.Keeps c'
  inbounds : c'.inbounds = c.inbounds
  stopped : c'.stopped = c.stopped
  tick : c'.tick = c.tick
  plain : ∀ o ∈ ops, o.Plain

theorem Config.idles_self (c : Config) (hplain : ∀ o ∈ ops, o.Plain) : c.Idles c ops :=
  ⟨c.keeps_self, rfl, rfl, rfl, hplain⟩

theorem Config.idles_nodes (c : Config) (nodes : Keyed Node.id) (hplain : ∀ o ∈ ops, o.Plain) :
    c.Idles { c with nodes := nodes } ops :=
  ⟨(by constructor <;> rfl), rfl, rfl, rfl, hplain⟩

theorem Config.idles_settle (c : Config) (id : String) (ch : Chance) (again : Bool)
    (r : Installed) : c.Idles (c.settle id ch again r).1 (c.settle id ch again r).2 := by
  have hset : ∀ b, c.Idles (c.setStarted id b) [] := by
    intro b
    unfold setStarted
    cases c.nodes.get id with
    | none => exact c.idles_self nofun
    | some => exact c.idles_nodes _ nofun
  cases again with
  | true => cases r <;> exact hset _
  | false => cases r with
    | ok =>
      unfold settle
      cases c.nodes.get id with
      | none => exact c.idles_self nofun
      | some => exact c.idles_nodes _ nofun
    | preserved =>
      simp only [settle]
      split_ifs
      · exact hset _
      · exact c.idles_self nofun
    | failed =>
      unfold settle
      cases c.nodes.get id with
      | none => exact c.idles_self nofun
      | some =>
        refine c.idles_self fun o ho => ?_
        dsimp only at ho
        split_ifs at ho
        · obtain rfl := mem_singleton.mp ho
          trivial
        · cases ho

theorem ran_endTick (hc : c.Owned) :
    Ran c .endTick { c.sweep (c.tick.getD []) with tick := none } [] := by
  have hnext : Ran c .endTick c [] := .next hc nofun fun _ _ _ => rfl
  exact hnext.same (by constructor <;> rfl) (c.alike_sweep _)

theorem Ran.takeInbound (hc : c.Owned) (tag : String) (h : (c.takeInbound tag).1.Keeps c')
    (hinbounds : ∀ p ∈ c'.inbounds, p.adapter < c.made ∧ (c.adapters p.adapter).tag = p.tag)
    (hop : op.carried = []) (hops : ∀ o ∈ ops, o.Plain) :
    Ran c op c' ((c.takeInbound tag).2 ++ ops) := by
  obtain ⟨-, htaken⟩ := hc.takeInbound tag
  have hkeeps := c.keeps_takeInbound tag
  have hall : c.Keeps c' := ⟨h.adapters.trans hkeeps.adapters, h.made.trans hkeeps.made,
    h.retired.trans hkeeps.retired, h.handed.trans hkeeps.handed, h.pc.trans hkeeps.pc,
    h.threads.trans hkeeps.threads, h.ending.trans hkeeps.ending, h.closed.trans hkeeps.closed⟩
  refine .keeps hc hall hinbounds (fun o ho => ?_) fun a id d => ?_
  · exact (mem_append.mp ho).elim (fun ho => (htaken o ho).1) fun ho => (hops o ho).owns c
  · rw [hop]
    refine carrying_eq_zero fun o ho => ?_
    exact (mem_append.mp ho).elim (fun ho => (htaken o ho).2) fun ho => (hops o ho).carried

theorem plain_tick {ids : List String} : ∀ o ∈ ids.map Op.collect ++ [.endTick], o.Plain :=
  forall_mem_append.mpr ⟨forall_mem_map.mpr fun _ _ => trivial, plain_one trivial⟩

/-- The operations of `applyServerConfig`, and of `stopAllForTombstone`. -/
theorem plain_config (ids seen order : List String) :
    ∀ o ∈ ids.map Op.configure ++ [.removeUnseen seen, .setOrder order], o.Plain :=
  forall_mem_append.mpr ⟨forall_mem_map.mpr fun _ _ => trivial,
    forall_mem_cons.mpr ⟨trivial, plain_one trivial⟩⟩

theorem Ran.tooLate (hc : c.Owned) (ha : a < c.made) (id : String) (again : Bool)
    (hop : op.carried = []) : Ran c op c [.discard a false, .settle id again .failed] := by
  refine .next hc (forall_mem_cons.mpr ⟨ha, forall_mem_singleton.mpr trivial⟩) fun _ _ _ => ?_
  rw [hop]
  rfl

/-- The operations about nodes. -/
def Op.ofNodes : Op → Prop
  | .configure .. | .install .. | .settle .. | .removeUnseen .. | .removeNode .. | .forget ..
  | .setOrder .. => True
  | _ => False

theorem idles_exec {c : Config} {ch : Chance} (h : op.ofNodes) :
    c.Idles (c.exec ch op).1 (c.exec ch op).2 := by
  cases op with
  | configure id =>
    simp only [exec]
    have hops : ∀ o ∈ (if ch.skip then [] else [Op.install id false]), o.Plain := by
      split_ifs
      · exact nofun
      · exact plain_one trivial
    cases c.nodes.get id with
    | none => exact c.idles_nodes _ hops
    | some => exact c.idles_self hops
  | install =>
    refine c.idles_self ?_
    simp only [exec]
    split_ifs <;> exact plain_one trivial
  | settle id again r => exact c.idles_settle id ch again r
  | removeUnseen => exact c.idles_self (forall_mem_map.mpr fun _ _ => trivial)
  | removeNode id =>
    simp only [exec]
    cases c.nodes.get id with
    | none => exact c.idles_self nofun
    | some =>
      refine c.idles_self fun o ho => ?_
      dsimp only at ho
      split_ifs at ho
      · exact forall_mem_cons.mpr ⟨trivial, forall_mem_cons.mpr ⟨trivial,
          plain_one (o := .forget id) trivial⟩⟩ o ho
      · exact plain_one (o := .forget id) trivial o ho
  | forget => exact c.idles_nodes _ nofun
  | setOrder => exact ⟨(by constructor <;> rfl), rfl, rfl, rfl, nofun⟩
  | _ => exact h.elim

theorem Ran.ofNodes (hc : c.Owned) (ch : Chance) (h : op.ofNodes) (hop : op.carried = []) :
    Ran c op (c.exec ch op).1 (c.exec ch op).2 :=
  have hidles := idles_exec h
  .plain hc hidles.keeps (fun _ hp => hidles.inbounds ▸ hp) hop hidles.plain

theorem ran_exec (hc : c.Owned) (ch : Chance) (hop : c.Owns op) :
    Ran c op (c.exec ch op).1 (c.exec ch op).2 := by
  cases op with
  | collect id =>
    simp only [exec]
    cases c.nodes.get id with
    | none => exact .still hc rfl nofun
    | some =>
      dsimp only
      split_ifs
      · exact ran_getTraffic hc id
      · exact .still hc rfl nofun
  | snapshot => exact ran_getLive hc ch hop
  | buffer => exact .bufferTraffic hc hop
  | endTick => exact ran_endTick hc
  | detach id =>
    have htaken := (hc.takeInbound id).1
    exact .takeInbound hc id (keeps_self _) (fun p hp => hc.inbounds p (htaken p hp)) rfl
      (plain_one trivial)
  | start id =>
    simp only [exec]
    split_ifs
    · exact .still hc rfl (plain_one trivial)
    · exact .still hc rfl (plain_one trivial)
    · exact .startAdapter hc id (forall_mem_singleton.mpr (c.startAdapter_made id)) fun _ _ _ => rfl
  | publish id again =>
    simp only [exec]
    split_ifs
    · exact .tooLate hc hop.1 id again rfl
    · exact .takeInbound hc id (by constructor <;> rfl)
        (hc.put hop (hc.takeInbound id).1) rfl (plain_one trivial)
  | restore id =>
    simp only [exec]
    split_ifs
    · exact .still hc rfl (plain_one trivial)
    · exact .startAdapter hc id (forall_mem_singleton.mpr (c.startAdapter_made id)) fun _ _ _ => rfl
  | republish id again =>
    simp only [exec]
    split_ifs
    · exact .tooLate hc hop.1 id again rfl
    · exact .keeps hc (by constructor <;> rfl) (hc.put hop fun _ hp => hp)
        (fun o ho => (plain_one (o := .settle id again .preserved) trivial o ho).owns c)
        fun _ _ _ => rfl
  | retire => exact ran_retire hc ch hop
  | discard => exact ran_discard hc ch hop
  | delInbound id =>
    have htaken := (hc.takeInbound id).1
    have hran : Ran c (.delInbound id) (c.takeInbound id).1 ((c.takeInbound id).2 ++ []) :=
      .takeInbound hc id (keeps_self _) (fun p hp => hc.inbounds p (htaken p hp)) rfl nofun
    rw [append_nil] at hran
    exact hran
  | configure | install | settle | removeUnseen | removeNode | forget | setOrder =>
    exact .ofNodes hc ch trivial rfl

/-! ## All runs -/

/-- All that has been counted is somewhere, and goes under the tag of its adapter. -/
structure Config.Kept (c : Config) : Prop where
  owned : c.Owned
  pc : ∀ op ∈ c.pc, c.Owns op
  threads : ∀ op ∈ c.threads.flatten, c.Owns op
  ending : ∀ p ∈ c.ending.traffic, c.Fits p.1 p.2
  balance : ∀ a id d, bytes a id d (c.adapters a).counted =
    c.holding a id d + tagged a id d c.retired + tagged a id d c.handed + carrying a id d c.pc +
      carrying a id d c.threads.flatten + tagged a id d c.ending.traffic
  idle : c.closed = false → c.threads = [] ∧ c.ending = .none

theorem Ran.kept (hc : c.Kept) {c' : Config} (hran : Ran c op c' ops) (pc : List Op)
    (threads : List (List Op))
    (hpc : ∀ o ∈ pc, c'.Owns o) (hthreads : ∀ o ∈ threads.flatten, c'.Owns o)
    (hcarry : ∀ a id d, carrying a id d pc + carrying a id d threads.flatten +
      bytes a id d op.carried = carrying a id d c.pc + carrying a id d c.threads.flatten +
        carrying a id d ops)
    (hidle : c.closed = false → threads = []) : Kept { c' with pc := pc, threads := threads } := by
  have hgrows : c'.Grows { c' with pc := pc, threads := threads } := ⟨le_rfl, fun _ _ => rfl⟩
  refine ⟨{ hran.owned with }, fun o ho => hgrows.owns (hpc o ho),
    fun o ho => hgrows.owns (hthreads o ho), fun p hp => ?_, fun a id d => ?_, fun hopen => ?_⟩
  · have hold : p ∈ c.ending.traffic := by
      rw [← hran.ending]
      exact hp
    exact hran.grows.fits (hc.ending p hold)
  · have hold := hc.balance a id d
    have hstep := hran.balance a id d
    have hmoved := hcarry a id d
    show bytes a id d (c'.adapters a).counted = c'.holding a id d + tagged a id d c'.retired +
      tagged a id d c'.handed + carrying a id d pc + carrying a id d threads.flatten +
      tagged a id d c'.ending.traffic
    rw [hran.counted, hran.ending]
    omega
  · have hopen : c.closed = false := hran.closed.symm.trans hopen
    exact ⟨hidle hopen, hran.ending.trans (hc.idle hopen).2⟩

theorem Config.Kept.execLoop (hc : c.Kept) (ch : Chance) : (c.execLoop ch).Kept := by
  unfold Config.execLoop
  cases hpc : c.pc with
  | nil => exact hc
  | cons op rest =>
    have hin : ∀ o ∈ op :: rest, c.Owns o := fun o ho => hc.pc o (hpc ▸ ho)
    have hran := ran_exec hc.owned ch (hin op mem_cons_self)
    refine hran.kept hc ((c.exec ch op).2 ++ rest) (c.exec ch op).1.threads
      (forall_mem_append.mpr ⟨hran.owns, fun o ho => ?_⟩) (fun o ho => ?_) (fun a id d => ?_)
      fun hopen => hran.threads.trans (hc.idle hopen).1
    · exact hran.grows.owns (hin o (mem_cons_of_mem _ ho))
    · rw [hran.threads] at ho
      exact hran.grows.owns (hc.threads o ho)
    · rw [hpc, hran.threads, carrying_cons, carrying_append]
      omega

section Threads

variable {threads : List (List Op)} {i : ℕ} {old new : List Op}

theorem carrying_set (h : threads[i]? = some old) (new : List Op) (a : ℕ) (id : ℤ) (d : Direction) :
    carrying a id d (threads.set i new).flatten + carrying a id d old =
      carrying a id d threads.flatten + carrying a id d new := by
  induction threads generalizing i with
  | nil => cases h
  | cons t threads ih =>
    cases i with
    | zero =>
      obtain rfl : t = old := Option.some.inj h
      rw [set_cons_zero, flatten_cons, flatten_cons, carrying_append, carrying_append]
      omega
    | succ i =>
      have hrest := ih (i := i) h
      rw [set_cons_succ, flatten_cons, flatten_cons, carrying_append, carrying_append]
      omega

theorem mem_flatten_set (h : op ∈ (threads.set i new).flatten) :
    op ∈ new ∨ op ∈ threads.flatten := by
  obtain ⟨t, ht, hop⟩ := mem_flatten.mp h
  rcases mem_or_eq_of_mem_set ht with ht | rfl
  · exact .inr (mem_flatten.mpr ⟨t, ht, hop⟩)
  · exact .inl hop

theorem mem_flatten_of_get (h : threads[i]? = some old) (hop : op ∈ old) : op ∈ threads.flatten :=
  mem_flatten.mpr ⟨old, mem_of_getElem? h, hop⟩

end Threads

theorem Config.Kept.execThread (hc : c.Kept) (i : ℕ) (ch : Chance) : (c.execThread i ch).Kept := by
  unfold Config.execThread
  cases hi : c.threads[i]? with
  | none => exact hc
  | some ops => cases ops with
    | nil => exact hc
    | cons op rest =>
      have hin : ∀ o ∈ op :: rest, c.Owns o := fun o ho => hc.threads o (mem_flatten_of_get hi ho)
      have hran := ran_exec hc.owned ch (hin op mem_cons_self)
      refine hran.kept hc (c.exec ch op).1.pc
        ((c.exec ch op).1.threads.set i ((c.exec ch op).2 ++ rest))
        (fun o ho => ?_) (fun o ho => ?_) (fun a id d => ?_) fun hopen => ?_
      · rw [hran.pc] at ho
        exact hran.grows.owns (hc.pc o ho)
      · rcases mem_flatten_set ho with ho | ho
        · rcases mem_append.mp ho with ho | ho
          · exact hran.owns o ho
          · exact hran.grows.owns (hin o (mem_cons_of_mem _ ho))
        · rw [hran.threads] at ho
          exact hran.grows.owns (hc.threads o ho)
      · have hset := carrying_set hi ((c.exec ch op).2 ++ rest) a id d
        rw [carrying_cons, carrying_append] at hset
        rw [hran.pc, hran.threads]
        omega
      · -- There are no threads before the core is closed.
        rw [(hc.idle hopen).1] at hi
        cases hi

/-! ### Counting -/

theorem bytes_count {x : Adapter} (hheld : ∀ e ∈ x.held, e.origin = a) (key : ℤ)
    (dir : Direction) (n b : ℕ) (id : ℤ) (d : Direction) :
    bytes b id d (x.count a key dir n).held.values + bytes b id d x.counted =
      bytes b id d x.held.values + bytes b id d (x.count a key dir n).counted := by
  -- The entry that is counted.
  obtain ⟨up, down, hcounted, hput⟩ : ∃ up down,
      (x.count a key dir n).counted = ⟨a, key, up, down⟩ :: x.counted ∧
      (x.count a key dir n).held = x.held.put
        ⟨a, key, ((x.held.get key).getD ⟨a, key, 0, 0⟩).up + up,
        ((x.held.get key).getD ⟨a, key, 0, 0⟩).down + down⟩ := by
    cases dir with
    | upload => exact ⟨n, 0, rfl, rfl⟩
    | download => exact ⟨0, n, rfl, rfl⟩
  rw [hcounted, hput, bytes_cons, bytes_perm (x.held.values_put _), bytes_cons]
  cases hget : x.held.get key with
  | none =>
    rw [bytes_perm (values_erase_of_none hget)]
    cases d <;> simp only [Option.getD_none, Entry.bytes, Nat.zero_add] <;> omega
  | some old =>
    have hkey : old.id = key := key_of_get hget
    have horigin := hheld old (mem_of_get hget)
    have hold : bytes b id d _ = bytes b id d _ := bytes_perm (values_of_mem (mem_of_get hget))
    rw [bytes_cons, horigin, hkey] at hold
    rw [hold]
    cases d <;> simp only [Option.getD_some, Entry.bytes] <;> split_ifs <;> omega

theorem Config.Kept.count (hc : c.Kept) (ha : a < c.made) (key : ℤ)
    (dir : Direction) (n : ℕ) : (c.onAdapter a fun x => x.count a key dir n).Kept := by
  have hself : (c.onAdapter a fun x => x.count a key dir n).adapters a =
      (c.adapters a).count a key dir n :=
    update_self ..
  have hother : ∀ b, b ≠ a → (c.onAdapter a fun x => x.count a key dir n).adapters b =
      c.adapters b :=
    fun b hb => update_of_ne hb _ _
  have hgrows : c.Grows (c.onAdapter a fun x => x.count a key dir n) := by
    refine ⟨le_rfl, fun b _ => ?_⟩
    by_cases hb : b = a
    · rw [hb, hself]
      rfl
    · rw [hother b hb]
  refine ⟨⟨fun p hp => hgrows.fits (hc.owned.retired p hp),
    fun p hp => hgrows.fits (hc.owned.handed p hp),
    fun p hp => hgrows.adapter (hc.owned.inbounds p hp),
    fun b => ?_, fun b hb => ?_⟩, fun o ho => hgrows.owns (hc.pc o ho),
    fun o ho => hgrows.owns (hc.threads o ho), fun p hp => hgrows.fits (hc.ending p hp),
    fun b id d => ?_, hc.idle⟩
  · by_cases hb : b = a
    · rw [hb, hself]
      intro e he
      rcases mem_put.mp he with rfl | ⟨-, he⟩
      · rfl
      · exact hc.owned.held a e he
    · rw [hother b hb]
      exact hc.owned.held b
  · rw [hother b (ha.trans_le hb).ne']
    exact hc.owned.unmade b hb
  · have hold := hc.balance b id d
    show bytes b id d ((c.onAdapter a _).adapters b).counted =
      bytes b id d ((c.onAdapter a _).adapters b).held.values +
      tagged b id d c.retired + tagged b id d c.handed + carrying b id d c.pc +
      carrying b id d c.threads.flatten + tagged b id d c.ending.traffic
    unfold holding at hold
    by_cases hb : b = a
    · subst hb
      have hcount := bytes_count (hc.owned.held b) key dir n b id d
      rw [hself]
      omega
    · rw [hother b hb]
      exact hold

/-! ### Steps -/

section

variable (hc : c.Kept)
include hc

namespace Config.Kept

theorem same (hrest : c.Rest c') (hsame : c.Alike c') : c'.Kept := by
  have hgrows : c.Grows c' := ⟨hrest.made.ge, fun b _ => (hsame b).1⟩
  have hran : Ran c .endTick c [] := .next hc.owned nofun fun _ _ _ => rfl
  have howned := (hran.same hrest hsame).owned
  refine ⟨howned, fun o ho => hgrows.owns (hc.pc o (hrest.pc ▸ ho)),
    fun o ho => hgrows.owns (hc.threads o (hrest.threads ▸ ho)),
    fun p hp => hgrows.fits (hc.ending p (hrest.ending ▸ hp)), fun a id d => ?_, fun hopen => ?_⟩
  · have hold := hc.balance a id d
    unfold holding at hold ⊢
    rw [(hsame a).2.1, (hsame a).2.2, hrest.retired, hrest.handed, hrest.pc, hrest.threads,
      hrest.ending]
    exact hold
  · rw [hrest.threads, hrest.ending]
    exact hc.idle (hrest.closed.symm.trans hopen)

theorem withPc (hpc : c.pc = [])
    (hrest : { c with pc := c'.pc }.Rest c') (hadapters : c'.adapters = c.adapters)
    (hplain : ∀ o ∈ c'.pc, o.Plain) : c'.Kept := by
  have hbegun : Kept { c with pc := c'.pc } := by
    have hgrows : c.Grows { c with pc := c'.pc } := ⟨le_rfl, fun _ _ => rfl⟩
    refine ⟨{ hc.owned with },
      fun o ho => (hplain o ho).owns _, fun o ho => hgrows.owns (hc.threads o ho), hc.ending,
      fun a id d => ?_, hc.idle⟩
    have hold := hc.balance a id d
    rw [hpc] at hold
    rw [carrying_eq_zero fun o ho => (hplain o ho).carried]
    exact hold
  exact hbegun.same hrest fun b => by
    rw [hadapters]
    exact ⟨rfl, rfl, rfl⟩

theorem begin (hplain : ∀ o ∈ ops, o.Plain) : (c.begin ops).Kept := by
  unfold Config.begin
  split_ifs with h
  · exact hc.withPc h.1 (by constructor <;> rfl) rfl hplain
  · exact hc

theorem drain (hopen : c.closed = false) : Kept { c with
      closed := true, ending := .closing
      threads := c.inbounds.values.map fun p => [.retire p.tag p.adapter .lock]
      inbounds := ∅ } := by
  have hthreads : ∀ o ∈ (c.inbounds.values.map fun p => [Op.retire p.tag p.adapter .lock]).flatten,
      c.Owns o ∧ o.carried = [] := by
    intro o ho
    obtain ⟨t, ht, ho⟩ := mem_flatten.mp ho
    obtain ⟨p, hp, rfl⟩ := mem_map.mp ht
    obtain rfl := mem_singleton.mp ho
    have hin := hc.owned.inbounds p (mem_values.mp hp)
    exact ⟨⟨hin.1, hin.2, nofun⟩, rfl⟩
  have hgrows : c.Grows { c with
      closed := true
      ending := .closing
      threads := c.inbounds.values.map fun p => [.retire p.tag p.adapter .lock]
      inbounds := ∅ } := ⟨le_rfl, fun _ _ => rfl⟩
  refine ⟨{ hc.owned with inbounds := nofun },
    fun o ho => hgrows.owns (hc.pc o ho), fun o ho => hgrows.owns (hthreads o ho).1, nofun,
    fun a id d => ?_, nofun⟩
  have hold := hc.balance a id d
  rw [(hc.idle hopen).1, (hc.idle hopen).2] at hold
  rw [carrying_eq_zero fun o ho => (hthreads o ho).2]
  exact hold

/-- What has been handed over, or is about to be, changes hands while the core ends. -/
theorem ended {retired handed : List (String × Entry)} {ending : Ending}
    (hretired : ∀ p ∈ retired, c.Fits p.1 p.2) (hhanded : ∀ p ∈ handed, c.Fits p.1 p.2)
    (hfits : ∀ p ∈ ending.traffic, c.Fits p.1 p.2) (hending : c.ending ≠ .none)
    (htotal : ∀ a id d, tagged a id d retired + tagged a id d handed +
      tagged a id d ending.traffic = tagged a id d c.retired + tagged a id d c.handed +
        tagged a id d c.ending.traffic) :
    Kept { c with retired := retired, handed := handed, ending := ending } := by
  have hgrows : c.Grows { c with retired := retired, handed := handed, ending := ending } :=
    ⟨le_rfl, fun _ _ => rfl⟩
  refine ⟨{ hc.owned with retired := hretired, handed := hhanded },
    fun o ho => hgrows.owns (hc.pc o ho), fun o ho => hgrows.owns (hc.threads o ho), hfits,
    fun a id d => ?_, fun hopen => absurd (hc.idle hopen).2 hending⟩
  have hold := hc.balance a id d
  have hsame := htotal a id d
  show bytes a id d (c.adapters a).counted = c.holding a id d + tagged a id d retired +
    tagged a id d handed + carrying a id d c.pc + carrying a id d c.threads.flatten +
    tagged a id d ending.traffic
  omega

theorem take (hending : c.ending = .closing) :
    Kept { c with ending := .drained c.retired, retired := [] } := by
  refine hc.ended nofun hc.owned.handed hc.owned.retired (by simp [hending]) fun a id d => ?_
  have hnil : tagged a id d [] = 0 := rfl
  rw [hending]
  simp only [Ending.traffic, hnil]
  omega

theorem shutdown {traffic : List (String × Entry)} (hending : c.ending = .drained traffic) :
    Kept { c.sweep c.overNow with handed := c.handed ++ traffic, ending := .finished } := by
  have hfits := hc.ending
  rw [hending] at hfits
  have hmoved : Kept { c with handed := c.handed ++ traffic, ending := .finished } := by
    refine hc.ended hc.owned.retired (fun p hp => ?_) nofun (by simp [hending]) fun a id d => ?_
    · exact (mem_append.mp hp).elim (hc.owned.handed p) (hfits p)
    · have hnil : tagged a id d [] = 0 := rfl
      rw [hending, tagged_append]
      simp only [Ending.traffic, hnil]
      omega
  exact hmoved.same (by constructor <;> rfl) (c.alike_sweep _)

theorem next (l : Label) : (next c l).Kept := by
  cases l with
  | count a id d n =>
    simp only [Handover.next]
    split_ifs with h
    · exact hc.count h.1 id d n
    · exact hc
  | late a =>
    simp only [Handover.next]
    split_ifs
    · exact hc.same (by constructor <;> rfl) (c.alike_onAdapter a fun _ => ⟨rfl, rfl, rfl⟩)
    · exact hc
  | report =>
    simp only [Handover.next]
    split_ifs with h
    · exact hc.withPc h.1 (by constructor <;> rfl) rfl plain_tick
    · exact hc
  | config => exact hc.begin (plain_config _ _ _)
  | retry id =>
    simp only [Handover.next]
    split_ifs
    · exact hc.begin (plain_one (o := .install id false) trivial)
    · exact hc
  | users | stop =>
    simp only [Handover.next]
    split_ifs
    · exact hc.same (by constructor <;> rfl) fun _ => ⟨rfl, rfl, rfl⟩
    · exact hc
  | tombstone => exact hc.begin (plain_config [] _ _)
  | loop ch => exact hc.execLoop ch
  | drain =>
    simp only [Handover.next]
    split_ifs with h
    · exact hc
    · exact hc.drain (Bool.eq_false_of_not_eq_true h)
  | thread i ch => exact hc.execThread i ch
  | take =>
    simp only [Handover.next]
    split
    · next hending =>
      split_ifs
      · exact hc.take hending
      · exact hc
    · exact hc
  | shutdown =>
    simp only [Handover.next]
    split
    · next traffic hending =>
      split_ifs
      · exact hc.shutdown hending
      · exact hc
    · exact hc

end Config.Kept

end

theorem kept_init : Kept {} :=
  ⟨⟨nofun, nofun, nofun, nofun, fun _ _ => ⟨rfl, rfl⟩⟩, nofun, nofun, nofun, fun _ _ _ => rfl,
    fun _ => ⟨rfl, rfl⟩⟩

/-- **Each byte is handed over at most once, and under its own node**, in all runs. -/
structure Config.AtMostOnce (c : Config) : Prop where
  once : ∀ a id d, tagged a id d c.handed ≤ bytes a id d (c.adapters a).counted
  own : ∀ p ∈ c.handed, p.1 = (c.adapters p.2.origin).tag

theorem Config.Kept.atMostOnce (hc : c.Kept) : c.AtMostOnce where
  once := fun a id d => by
    have hbalance := hc.balance a id d
    omega
  own := fun p hp => (hc.owned.handed p hp).2.symm

end Pandora.Dataplane.Handover
