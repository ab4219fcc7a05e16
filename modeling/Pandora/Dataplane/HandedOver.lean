import Pandora.Dataplane.HandedOnce

/-!
# Everything is handed over

Once an inbound has been closed and what it still had has been put aside, the next tick of `report`
takes that, if the node of the inbound is among those that the tick goes through.  A node that has
just been removed is not among them (`removed_too_early`), and one that could not be started again
is not either; what they have left is handed over only when the process ends.

`Config.Clear` says when everything is handed over: every `Close` returns in time, a tick finds the
nodes of all that has been put aside, and the core is not closed in the middle of a change of an
inbound or of a tick.  Then `Config.Complete` holds in every state that is reached.
-/

namespace Pandora.Dataplane.Handover

open List Function Option Bool Config

open Traffic (Direction)

/-! ## What is claimed -/

/-- **Everything is handed over** that was counted by an inbound which has been closed, when a tick
has run since, or `Shutdown`. -/
structure Config.Complete (c : Config) : Prop where
  all : ∀ a, (c.adapters a).swept = true → ∀ id d,
    tagged a id d c.handed = bytes a id d (c.adapters a).counted

/-- An inbound is put in, or a tick ends. -/
def Op.needsOpen : Op → Bool
  | .publish .. | .republish .. | .endTick => true
  | _ => false

/-- An inbound is being closed. -/
def Op.retires : Op → Bool
  | .retire .. => true
  | _ => false

/-- `Close` returns in time, and `SnapshotTraffic` does not fail. -/
def Chance.Calm (ch : Chance) : Prop := ch.timeout = false ∧ ch.snapshotFails = false

instance : DecidablePred Chance.Calm := fun _ => inferInstanceAs (Decidable (_ ∧ _))

/-- The node of a tag has been started. -/
def Config.Started (c : Config) (tag : String) : Prop := ∃ n ∈ c.nodes.get tag, n.started = true

instance (c : Config) (tag : String) : Decidable (c.Started tag) :=
  decidable_of_iff ((c.nodes.get tag).any (·.started) = true) (any_eq_true _ _)

/-- **When this holds.**  Every `Close` returns in time; once the core is being closed, no inbound
is put in and no tick begins or ends; what has been put aside is not taken for `Shutdown` while the
loop is closing an inbound; and when a tick begins, what has been put aside is of nodes that the
tick goes through. -/
def Config.Clear (c : Config) : Label → Prop
  | .report => c.closed = false ∧ ∀ p ∈ c.retired, p.1 ∈ c.order ∧ c.Started p.1
  | .loop ch => ch.Calm ∧ ∀ op ∈ c.pc.head?, op.needsOpen = true → c.closed = false
  | .thread _ ch => ch.Calm
  | .take => ∀ op ∈ c.pc, op.retires = false
  | _ => True

instance (c : Config) : DecidablePred c.Clear
  | .report => inferInstanceAs (Decidable (_ ∧ ∀ p ∈ c.retired, _ ∧ _))
  | .loop _ => inferInstanceAs (Decidable (_ ∧ ∀ op ∈ c.pc.head?, _))
  | .thread _ _ => inferInstanceAs (Decidable (_ ∧ _))
  | .take => inferInstanceAs (Decidable (∀ op ∈ c.pc, _))
  | .count .. | .late .. | .config .. | .retry .. | .users .. | .tombstone | .stop | .drain
  | .shutdown => .isTrue trivial

/-! ## Adapters -/

/-- What becomes of an adapter. -/
structure Adapter.Ages (x y : Adapter) : Prop where
  shut : x.stage = .shut → y.stage = .shut
  held : x.stage = .shut → x.held = ∅ → y.held = ∅
  abandoned : y.stage = .abandoned → x.stage = .abandoned
  ended : y.ended = true → x.ended = true ∨ (y.stage = .shut ∧ y.held = ∅)
  stays : x.ended = true → y.ended = true
  swept : y.swept = x.swept

theorem Adapter.Ages.refl (x : Adapter) : x.Ages x := ⟨id, fun _ h => h, id, .inl, id, rfl⟩

variable {a : ℕ} {c c' : Config} {op o : Op} {ops rest : List Op} {ch : Chance}
  {f : Adapter → Adapter} {id tag : String} {phase : Closing}

theorem ages_onAdapter (h : (c.adapters a).Ages (f (c.adapters a))) (b : ℕ) :
    (c.adapters b).Ages ((c.onAdapter a f).adapters b) := by
  show (c.adapters b).Ages (update c.adapters a _ b)
  rw [update_apply]
  split_ifs with hb
  · rw [hb]
    exact h
  · exact .refl _

theorem beyond_onAdapter (ha : a < c.made) (b : ℕ)
    (hb : c.made ≤ b) : (c.onAdapter a f).adapters b = c.adapters b :=
  update_of_ne (ha.trans_le hb).ne' _ _

/-- An operation that closes an inbound is as far as it says. -/
def Config.Fine (c : Config) : Op → Prop
  | .retire _ a .snap => (c.adapters a).stage = .shut
  | .retire _ a (.put _) => (c.adapters a).stage = .shut ∧ (c.adapters a).held = ∅
  | .discard .. => False
  | _ => True

theorem Config.Fine.mono (h : c.Fine op) (hshut : ∀ a, (c.adapters a).stage = .shut →
    (c'.adapters a).stage = .shut ∧ ((c.adapters a).held = ∅ → (c'.adapters a).held = ∅)) :
    c'.Fine op := by
  cases op with
  | retire tag a phase => cases phase with
    | snap => exact (hshut a h).1
    | put => exact ⟨(hshut a h.1).1, (hshut a h.1).2 h.2⟩
    | lock | wait => trivial
  | discard => exact h
  | snapshot | buffer | publish | republish | collect | endTick | configure | install | detach
  | start | restore | settle | removeUnseen | removeNode | delInbound | forget | setOrder => trivial

/-! ## What an operation does -/

/-- What an operation does, when nothing goes wrong. -/
structure Went (c : Config) (op : Op) (c' : Config) (ops : List Op) : Prop where
  ages : ∀ a, (c.adapters a).Ages (c'.adapters a)
  beyond : ∀ a, c'.made ≤ a → c'.adapters a = c.adapters a
  fine : ∀ o ∈ ops, c'.Fine o
  retired : ∀ p ∈ c'.retired, p ∈ c.retired ∨ op.retires = true
  handed : ∀ a id d, tagged a id d c.handed ≤ tagged a id d c'.handed
  retires : ∀ o ∈ ops, o.retires = true → op.retires = true ∨ c.inbounds ≠ ∅
  inbounds : c.inbounds = ∅ → c'.inbounds = ∅ ∨ op.needsOpen = true
  stopped : c'.stopped = c.stopped
  tick : c'.tick = c.tick

theorem Op.Plain.fine (h : op.Plain) (c : Config) : c.Fine op := by
  cases op <;> trivial

theorem Op.Plain.retires (h : op.Plain) : op.retires = false := by
  cases op <;> first | rfl | exact h.elim

theorem Went.plain (h : c.Keeps c') (hstopped : c'.stopped = c.stopped) (htick : c'.tick = c.tick)
    (hinbounds : c.inbounds = ∅ → c'.inbounds = ∅ ∨ op.needsOpen = true)
    (hplain : ∀ o ∈ ops, o.Plain) : Went c op c' ops where
  ages a := by
    rw [h.adapters]
    exact .refl _
  beyond a _ := by rw [h.adapters]
  fine o ho := (hplain o ho).fine c'
  retired p hp := .inl (h.retired ▸ hp)
  handed a id d := by rw [h.handed]
  retires o ho hretires := by
    rw [(hplain o ho).retires] at hretires
    cases hretires
  inbounds := hinbounds
  stopped := hstopped
  tick := htick

theorem went_self (hplain : ∀ o ∈ ops, o.Plain) : Went c op c ops :=
  .plain c.keeps_self rfl rfl .inl hplain

theorem Config.takeInbound_spec (c : Config) (tag : String) :
    (c.takeInbound tag).1.stopped = c.stopped ∧ (c.takeInbound tag).1.tick = c.tick ∧
      (c.inbounds = ∅ → (c.takeInbound tag).1.inbounds = ∅ ∧ (c.takeInbound tag).2 = []) ∧
      ∀ o ∈ (c.takeInbound tag).2, ∃ a, o = .retire tag a .lock := by
  unfold takeInbound
  cases hget : c.inbounds.get tag with
  | none => exact ⟨rfl, rfl, fun h => ⟨h, rfl⟩, nofun⟩
  | some p =>
    refine ⟨rfl, rfl, fun h => ?_, fun o ho => ⟨p.adapter, mem_singleton.mp ho⟩⟩
    rw [h] at hget
    cases hget

theorem Went.takeInbound (tag : String)
    (h : (c.takeInbound tag).1.Keeps c') (hstopped : c'.stopped = (c.takeInbound tag).1.stopped)
    (htick : c'.tick = (c.takeInbound tag).1.tick)
    (hinbounds : (c.takeInbound tag).1.inbounds = ∅ → c'.inbounds = ∅ ∨ op.needsOpen = true)
    (hplain : ∀ o ∈ ops, o.Plain) : Went c op c' ((c.takeInbound tag).2 ++ ops) := by
  obtain ⟨hs, ht, hempty, htaken⟩ := c.takeInbound_spec tag
  have hkeeps := c.keeps_takeInbound tag
  have hadapters := h.adapters.trans hkeeps.adapters
  refine ⟨fun a => ?_, fun a _ => by rw [hadapters], fun o ho => ?_, fun p hp => .inl ?_,
    fun a id d => ?_, fun o ho hretires => ?_, fun hc => hinbounds (hempty hc).1, hstopped.trans hs,
    htick.trans ht⟩
  · rw [hadapters]
    exact .refl _
  · rcases mem_append.mp ho with ho | ho
    · obtain ⟨a, rfl⟩ := htaken o ho
      trivial
    · exact (hplain o ho).fine c'
  · rw [h.retired, hkeeps.retired] at hp
    exact hp
  · rw [h.handed, hkeeps.handed]
  · refine .inr fun hc => ?_
    rw [(hempty hc).2] at ho
    rw [(hplain o ho).retires] at hretires
    cases hretires

/-- An adapter that has not been made. -/
structure Adapter.Unmade (x : Adapter) : Prop where
  stage : x.stage = .running
  ended : x.ended = false
  swept : x.swept = false

theorem Went.startAdapter (hnew : (c.adapters c.made).Unmade) (tag : String)
    (ho : (c.startAdapter tag).Fine o) (hretires : o.retires = false) :
    Went c op (c.startAdapter tag) [o] := by
  refine ⟨fun a => ?_, fun a ha => ?_, forall_mem_singleton.mpr ho, fun _ => .inl,
    fun _ _ _ => le_rfl, forall_mem_singleton.mpr fun hr => (nomatch hretires.symm.trans hr),
    .inl, rfl, rfl⟩
  · show (c.adapters a).Ages (update c.adapters c.made _ a)
    rw [update_apply]
    split_ifs with ha
    · rw [ha]
      exact ⟨fun h => (nomatch hnew.stage.symm.trans h), fun h => (nomatch hnew.stage.symm.trans h),
        nofun, nofun, fun h => (nomatch hnew.ended.symm.trans h), hnew.swept.symm⟩
    · exact .refl _
  · exact update_of_ne (Nat.lt_of_succ_le ha).ne' _ _

theorem went_getTraffic : Went c (.collect id) (c.getTraffic id).1 (c.getTraffic id).2 := by
  have hretired : ∀ p ∈ (c.takeRetired id).1.retired, p ∈ c.retired := fun p hp =>
    (mem_filter.mp hp).1
  simp only [getTraffic]
  have hwent : ∀ o : Op, (c.takeRetired id).1.Fine o → o.retires = false →
      Went c (.collect id) (c.takeRetired id).1 [o] := fun o hfine hretires =>
    ⟨fun _ => .refl _, fun _ _ => rfl, forall_mem_singleton.mpr hfine,
      fun p hp => .inl (hretired p hp), fun _ _ _ => le_rfl, forall_mem_singleton.mpr
      fun hr => absurd (hretires.symm.trans hr) false_ne_true,
      .inl, rfl, rfl⟩
  cases (c.takeRetired id).1.inbounds.get id with
  | none | some => exact hwent _ trivial rfl

theorem Went.same (hfine : c.Fine o) (hretires : o.retires = true → op.retires = true) :
    Went c op c [o] :=
  ⟨fun _ => .refl _, fun _ _ => rfl, forall_mem_singleton.mpr hfine, fun _ => .inl,
    fun _ _ _ => le_rfl, forall_mem_singleton.mpr fun hr => .inl (hretires hr), .inl, rfl, rfl⟩

theorem Went.onAdapter (ha : a < c.made)
    (hages : (c.adapters a).Ages (f (c.adapters a))) (hfine : (c.onAdapter a f).Fine o)
    (hretires : o.retires = true → op.retires = true) : Went c op (c.onAdapter a f) [o] :=
  ⟨ages_onAdapter hages, beyond_onAdapter ha, forall_mem_singleton.mpr hfine, fun _ => .inl,
    fun _ _ _ => le_rfl, forall_mem_singleton.mpr fun hr => .inl (hretires hr), .inl, rfl, rfl⟩

theorem Went.snapshotTraffic (ha : a < c.made) (hfine : (c.snapshotTraffic a).1.Fine o)
    (hretires : o.retires = true → op.retires = true) : Went c op (c.snapshotTraffic a).1 [o] :=
  .onAdapter (f := fun x => { x with held := ∅ }) ha ⟨id, fun _ _ => rfl, id, .inl, id,
    rfl⟩ hfine hretires

theorem went_getLive {retired : List Entry} (ha : a < c.made) (hch : ch.Calm) :
    Went c (.snapshot id retired a) (c.getLive id retired a ch).1
      (c.getLive id retired a ch).2 := by
  unfold getLive
  cases (c.adapters a).stage with
  | closing | abandoned | shut => exact .same trivial nofun
  | running =>
    rw [hch.2]
    exact .snapshotTraffic ha trivial nofun

theorem went_retire (ha : a < c.made) (hch : ch.Calm) (hfine : c.Fine (.retire tag a phase))
    (hstage : (c.adapters a).stage ≠ .abandoned) :
    Went c (.retire tag a phase) (c.retire tag a ch phase).1 (c.retire tag a ch phase).2 := by
  cases phase with
  | lock =>
    unfold retire
    cases hs : (c.adapters a).stage with
    | running =>
      have hages : (c.adapters a).Ages { c.adapters a with stage := .closing } :=
        ⟨fun h => (by cases hs.symm.trans h), fun h => (by cases hs.symm.trans h),
          (by cases ·), .inl, id, rfl⟩
      exact .onAdapter (f := fun x => { x with stage := .closing }) ha hages trivial id
    | closing => exact .same trivial id
    | abandoned => exact absurd hs hstage
    | shut => exact .same hs id
  | wait =>
    simp only [retire]
    rw [hch.1]
    have hages : (c.adapters a).Ages { c.adapters a with stage := .shut } :=
      ⟨fun _ => rfl, fun _ h => h, (by cases ·), .inl, id, rfl⟩
    refine .onAdapter (f := fun x => { x with stage := .shut }) ha hages ?_ id
    show (update c.adapters a _ a).stage = _
    rw [update_self]
  | snap =>
    rw [retire, hch.2]
    refine .snapshotTraffic ha ?_ id
    show (update c.adapters a _ a).stage = _ ∧ (update c.adapters a _ a).held = _
    rw [update_self]
    exact ⟨hfine, rfl⟩
  | put traffic =>
    refine ⟨fun b => ?_, beyond_onAdapter (c := c.putRetired tag traffic)
        (f := fun x => { x with ended := x.ended || x.stage = .shut }) ha, forall_mem_nil _,
      fun _ _ => .inr rfl, fun _ _ _ => le_rfl, forall_mem_nil _, .inl, rfl, rfl⟩
    exact ages_onAdapter (c := c.putRetired tag traffic) (a := a)
      (f := fun x => { x with ended := x.ended || x.stage = .shut })
      ⟨id, fun _ h => h, id, fun _ => .inr hfine, fun h => or_eq_true_iff.mpr (.inl h), rfl⟩ b

theorem Went.idles (h : c.Idles c' ops) : Went c op c' ops :=
  .plain h.keeps h.stopped h.tick (fun hnone => .inl (h.inbounds.trans hnone)) h.plain

/-- **What an operation does**, when nothing goes wrong.  The end of a tick is apart. -/
theorem went_exec (hch : ch.Calm) (hop : c.Owns op) (hfine : c.Fine op)
    (hstage : ∀ a, (c.adapters a).stage ≠ .abandoned) (hnew : (c.adapters c.made).Unmade)
    (hpublish : op.needsOpen = true → c.closed = false) (htick : op ≠ .endTick) :
    Went c op (c.exec ch op).1 (c.exec ch op).2 := by
  have hopen : op.needsOpen = true → ¬ c.closed = true := by
    intro h
    rw [hpublish h]
    exact false_ne_true
  cases op with
  | collect id =>
    simp only [exec]
    cases c.nodes.get id with
    | none => exact went_self (forall_mem_nil _)
    | some =>
      dsimp only
      split_ifs
      · exact went_getTraffic
      · exact went_self (forall_mem_nil _)
  | snapshot id retired => exact went_getLive hop.1 hch
  | buffer =>
    refine ⟨fun _ => .refl _, fun _ _ => rfl, forall_mem_nil _, fun _ => .inl, fun a uid d => ?_,
      forall_mem_nil _, .inl, rfl, rfl⟩
    show _ ≤ tagged a uid d (c.handed ++ _)
    rw [tagged_append]
    exact Nat.le_add_right _ _
  | endTick => exact absurd rfl htick
  | detach id =>
    exact .takeInbound id (keeps_self _) rfl rfl .inl (plain_one trivial)
  | start id =>
    simp only [exec]
    split_ifs
    · exact went_self (plain_one trivial)
    · exact went_self (plain_one trivial)
    · exact .startAdapter hnew id trivial rfl
  | publish id =>
    simp only [exec]
    rw [if_neg (hopen rfl)]
    exact .takeInbound id (by constructor <;> rfl) rfl rfl (fun _ => .inr rfl) (plain_one trivial)
  | restore id =>
    simp only [exec]
    split_ifs
    · exact went_self (plain_one trivial)
    · exact .startAdapter hnew id trivial rfl
  | republish =>
    simp only [exec]
    rw [if_neg (hopen rfl)]
    exact .plain (by constructor <;> rfl) rfl rfl (fun _ => .inr rfl) (plain_one trivial)
  | retire tag a => exact went_retire hop.1 hch hfine (hstage a)
  | discard => exact hfine.elim
  | delInbound id =>
    have hwent : Went c (.delInbound id) (c.takeInbound id).1 ((c.takeInbound id).2 ++ []) :=
      .takeInbound id (keeps_self _) rfl rfl .inl (forall_mem_nil _)
    rw [append_nil] at hwent
    exact hwent
  | configure | install | settle | removeUnseen | removeNode | forget | setOrder =>
    exact .idles (idles_exec trivial)

/-! ## The invariant -/

/-- In a tick: what the loop has yet to do, and that what was put aside before is yet to be taken,
as long as the core is not being closed. -/
structure Config.InTick (c : Config) (seen : List ℕ) (now : List Op) (ids : List String) :
    Prop where
  pc : c.pc = now ++ (ids.map .collect ++ [.endTick])
  now : now = [] ∨ (∃ id retired a, now = [.snapshot id retired a]) ∨
    ∃ id traffic, now = [.buffer id traffic]
  ended : ∀ a ∈ seen, (c.adapters a).ended = true
  left : c.closed = false → ∀ p ∈ c.retired, p.2.origin ∈ seen → p.1 ∈ ids ∧ c.Started p.1

/-- What holds of the adapters. -/
structure Config.Grown (c : Config) : Prop where
  stage : ∀ a, (c.adapters a).stage ≠ .abandoned
  unmade : ∀ a, c.made ≤ a → (c.adapters a).Unmade
  ended : ∀ a, (c.adapters a).ended = true → (c.adapters a).stage = .shut ∧ (c.adapters a).held = ∅
  swept : ∀ a, (c.adapters a).swept = true → (c.adapters a).stage = .shut ∧
    ∀ id d, bytes a id d (c.adapters a).counted ≤ tagged a id d c.handed

structure Config.Steady (c : Config) : Prop extends c.Grown where
  kept : c.Kept
  pc : ∀ op ∈ c.pc, c.Fine op
  threads : ∀ op ∈ c.threads.flatten, c.Fine op ∧ op.retires = true
  inbounds : c.closed = true → c.inbounds = ∅
  drained : ∀ traffic, c.ending = .drained traffic →
    c.closed = true ∧ c.retired = [] ∧ c.threads.flatten = [] ∧ ∀ op ∈ c.pc, op.retires = false
  stopped : c.stopped = true → c.pc = []
  tick : ∀ seen, c.tick = some seen → ∃ now ids, c.InTick seen now ids

theorem Config.Steady.complete (hc : c.Steady) : c.Complete where
  all := fun a hswept id d =>
    le_antisymm (hc.kept.atMostOnce.once a id d) ((hc.swept a hswept).2 id d)

theorem steady_init : Steady {} where
  kept := kept_init
  stage := fun _ => nofun
  unmade := fun _ _ => ⟨rfl, rfl, rfl⟩
  ended := fun _ => nofun
  swept := fun _ => nofun
  pc := nofun
  threads := nofun
  inbounds := nofun
  drained := fun _ => nofun
  stopped := nofun
  tick := fun _ => nofun

/-- The adapters have become older. -/
structure Config.Aged (c c' : Config) : Prop extends c'.Grown where
  fine : ∀ op, c.Fine op → c'.Fine op
  threads : ∀ op ∈ c.threads.flatten, c'.Fine op ∧ op.retires = true

theorem Config.Steady.aged (hc : c.Steady) (hages : ∀ a, (c.adapters a).Ages (c'.adapters a))
    (hmade : c.made ≤ c'.made) (hbeyond : ∀ a, c'.made ≤ a → c'.adapters a = c.adapters a)
    (hcounted : ∀ a, (c.adapters a).stage = .shut →
      (c'.adapters a).counted = (c.adapters a).counted)
    (hhanded : ∀ a id d, tagged a id d c.handed ≤ tagged a id d c'.handed) : c.Aged c' := by
  have hfine : ∀ op, c.Fine op → c'.Fine op := fun op h => h.mono fun a ha =>
    ⟨(hages a).shut ha, (hages a).held ha⟩
  refine ⟨⟨fun a ha => hc.stage a ((hages a).abandoned ha), fun a ha => ?_, fun a ha => ?_,
    fun a ha => ?_⟩, hfine, fun o ho => (hc.threads o ho).imp_left (hfine o)⟩
  · rw [hbeyond a ha]
    exact hc.unmade a (hmade.trans ha)
  · rcases (hages a).ended ha with hold | hnew
    · obtain ⟨hshut, hheld⟩ := hc.ended a hold
      exact ⟨(hages a).shut hshut, (hages a).held hshut hheld⟩
    · exact hnew
  · rw [(hages a).swept] at ha
    obtain ⟨hshut, hle⟩ := hc.swept a ha
    refine ⟨(hages a).shut hshut, fun id d => ?_⟩
    rw [hcounted a hshut]
    exact (hle id d).trans (hhanded a id d)

/-! ## Steps -/

/-- Only inbounds that are being closed come after an inbound that is being closed. -/
theorem retires_retire {a : ℕ} : ∀ o ∈ (c.retire tag a ch phase).2, o.retires = true := by
  have hone : ∀ {phase : Closing}, ∀ o ∈ [Op.retire tag a phase], o.retires = true :=
    forall_mem_singleton.mpr rfl
  cases phase with
  | lock =>
    unfold retire
    cases (c.adapters a).stage <;> exact hone
  | wait => exact hone
  | snap =>
    simp only [retire]
    split_ifs <;> exact hone
  | put => exact forall_mem_nil _

theorem retires_exec (c : Config) (ch : Chance) (h : op.retires = true) :
    ∀ o ∈ (c.exec ch op).2, o.retires = true := by
  cases op with
  | retire tag a phase => exact retires_retire
  | _ => cases h

theorem Op.needsOpen_of_retires (h : op.retires = true) : op.needsOpen = false := by
  cases op <;> first | rfl | cases h

theorem Config.Steady.no_tick (hc : c.Steady) (hpc : c.pc = []) (seen : List ℕ) :
    c.tick ≠ some seen := by
  intro htick
  obtain ⟨now, ids, htick⟩ := hc.tick seen htick
  have hnil := htick.pc.symm.trans hpc
  rw [append_eq_nil_iff, append_eq_nil_iff] at hnil
  cases hnil.2.2

theorem Config.Steady.closed_of_thread (hc : c.Steady) {i : ℕ} {t : List Op}
    (h : c.threads[i]? = some t) : c.closed = true := by
  rcases eq_false_or_eq_true c.closed with hclosed | hopen
  · exact hclosed
  · rw [(hc.kept.idle hopen).1] at h
    cases h

theorem Config.Steady.goes (hc : c.Steady) (hch : ch.Calm) (howns : c.Owns op) (hop : c.Fine op)
    (hpublish : op.needsOpen = true → c.closed = false) (hend : op ≠ .endTick) :
    let c' := (c.exec ch op).1
    Ran c op c' (c.exec ch op).2 ∧ Went c op c' (c.exec ch op).2 ∧ c.Aged c' ∧
      (c.closed = true → c'.inbounds = ∅) := by
  have hran := ran_exec hc.kept.owned ch howns
  have hwent := went_exec hch howns hop hc.stage (hc.unmade _ le_rfl) hpublish hend
  refine ⟨hran, hwent, hc.aged hwent.ages hran.grows.made hwent.beyond
    (fun a _ => hran.counted a) hwent.handed, fun hclosed => ?_⟩
  refine (hwent.inbounds (hc.inbounds hclosed)).resolve_right fun h => ?_
  rw [hpublish h] at hclosed
  cases hclosed

theorem Config.Steady.execThread (hc : c.Steady) (i : ℕ) (hch : ch.Calm) :
    (c.execThread i ch).Steady := by
  have hkept := hc.kept.execThread i ch
  revert hkept
  unfold Config.execThread
  cases hi : c.threads[i]? with
  | none => exact fun _ => hc
  | some t => cases t with
    | nil => exact fun _ => hc
    | cons op rest =>
      intro hkept
      have hin : ∀ o ∈ op :: rest, o ∈ c.threads.flatten := fun o ho => mem_flatten_of_get hi ho
      have hop := hc.threads op (hin op mem_cons_self)
      have howns := hc.kept.threads op (hin op mem_cons_self)
      have hclosed := hc.closed_of_thread hi
      obtain ⟨hran, hwent, haged, hinbounds⟩ := hc.goes hch howns hop.1
        (fun h => by rw [Op.needsOpen_of_retires hop.2] at h; cases h)
        (by rintro rfl; cases hop.2)
      refine ⟨{ haged with }, hkept,
        fun o ho => haged.fine o (hc.pc o (hran.pc ▸ ho)), fun o ho => ?_,
        fun _ => hinbounds hclosed,
        fun traffic hdrained => ?_, fun hstopped => ?_, fun seen htick => ?_⟩
      · rcases mem_flatten_set ho with ho | ho
        · rcases mem_append.mp ho with ho | ho
          · exact ⟨hwent.fine o ho, retires_exec c ch hop.2 o ho⟩
          · exact haged.threads o (hin o (mem_cons_of_mem _ ho))
        · exact haged.threads o (hran.threads ▸ ho)
      · have hnone := (hc.drained traffic (hran.ending.symm.trans hdrained)).2.2.1
        have hmem := hin op mem_cons_self
        rw [hnone] at hmem
        cases hmem
      · exact hran.pc.trans (hc.stopped (hwent.stopped.symm.trans hstopped))
      · obtain ⟨now, ids, hold⟩ := hc.tick seen (hwent.tick.symm.trans htick)
        refine ⟨now, ids, hran.pc.trans hold.pc, hold.now,
          fun a ha => (hwent.ages a).stays (hold.ended a ha),
          fun hopen => ?_⟩
        have hstill := hopen.symm.trans (hran.closed.trans hclosed)
        cases hstill

/-! ## The tick -/

/-- The operations of a tick other than its end, `rest` being the nodes that it has yet to go
through. -/
structure Config.Ticked (c c' : Config) (ids : List String) (ops rest : List Op)
    (ids' : List String) : Prop where
  pc : ∃ now, ops ++ rest = now ++ (ids'.map Op.collect ++ [.endTick]) ∧
    (now = [] ∨ (∃ id retired a, now = [.snapshot id retired a]) ∨
      ∃ id traffic, now = [.buffer id traffic])
  nodes : c'.nodes = c.nodes
  retired : ∀ p ∈ c'.retired, p ∈ c.retired ∧ (p.1 ∈ ids → c.Started p.1 → p.1 ∈ ids')

theorem ticked_collect {ids : List String} :
    c.Ticked (c.exec ch (.collect id)).1 (id :: ids) (c.exec ch (.collect id)).2
      (ids.map .collect ++ [.endTick]) ids := by
  simp only [exec]
  -- Nothing has been put aside for a node that is gone through without being asked.
  have hskip : ¬ c.Started id →
      c.Ticked c (id :: ids) [] (ids.map .collect ++ [.endTick]) ids := by
    refine fun hid => ⟨⟨[], rfl, .inl rfl⟩, rfl, fun p hp => ⟨hp, fun hmem hstarted => ?_⟩⟩
    rcases mem_cons.mp hmem with heq | hmem
    · exact absurd (heq ▸ hstarted) hid
    · exact hmem
  cases hget : c.nodes.get id with
  | none =>
    refine hskip ?_
    rintro ⟨n, hn, -⟩
    rw [hget] at hn
    cases hn
  | some =>
    dsimp only
    split_ifs with hstarted
    · have hretired : ∀ p ∈ (c.takeRetired id).1.retired,
          p ∈ c.retired ∧ (p.1 ∈ id :: ids → c.Started p.1 → p.1 ∈ ids) := by
        intro p hp
        obtain ⟨hp, hne⟩ := mem_filter.mp hp
        exact ⟨hp, fun hmem _ => (mem_cons.mp hmem).resolve_left (of_decide_eq_true hne)⟩
      simp only [getTraffic]
      cases (c.takeRetired id).1.inbounds.get id with
      | none => exact ⟨⟨[_], rfl, .inr (.inr ⟨_, _, rfl⟩)⟩, rfl, hretired⟩
      | some => exact ⟨⟨[_], rfl, .inr (.inl ⟨_, _, _, rfl⟩)⟩, rfl, hretired⟩
    · refine hskip ?_
      rintro ⟨m, hm, hon⟩
      rw [hget, mem_def, some.injEq] at hm
      rw [← hm] at hon
      exact hstarted hon

theorem ticked_snapshot (hch : ch.Calm) (id : String)
    (retired : List Entry) (a : ℕ) (ids : List String) :
    c.Ticked (c.exec ch (.snapshot id retired a)).1 ids (c.exec ch (.snapshot id retired a)).2
      (ids.map .collect ++ [.endTick]) ids := by
  have hsame : ∀ p ∈ c.retired, p ∈ c.retired ∧ (p.1 ∈ ids → c.Started p.1 → p.1 ∈ ids) :=
    fun p hp => ⟨hp, fun h _ => h⟩
  show c.Ticked (c.getLive id retired a ch).1 ids (c.getLive id retired a ch).2 _ ids
  unfold getLive
  cases (c.adapters a).stage with
  | closing => exact ⟨⟨[_], rfl, .inr (.inl ⟨_, _, _, rfl⟩)⟩, rfl, hsame⟩
  | abandoned | shut => exact ⟨⟨[_], rfl, .inr (.inr ⟨_, _, rfl⟩)⟩, rfl, hsame⟩
  | running =>
    rw [hch.2]
    exact ⟨⟨[_], rfl, .inr (.inr ⟨_, _, rfl⟩)⟩, rfl, hsame⟩

section

variable {seen : List ℕ} {now : List Op} {ids : List String} (h : c.InTick seen now ids)
include h

theorem Config.InTick.ticked (hch : ch.Calm) (hpc : c.pc = op :: rest) (hop : op ≠ .endTick) :
    ∃ ids', c.Ticked (c.exec ch op).1 ids (c.exec ch op).2 rest ids' := by
  have heq := hpc.symm.trans h.pc
  rcases h.now with rfl | ⟨id, retired, a, rfl⟩ | ⟨id, traffic, rfl⟩
  · cases ids with
    | nil =>
      cases heq
      exact absurd rfl hop
    | cons id ids =>
      cases heq
      exact ⟨ids, ticked_collect⟩
  · cases heq
    exact ⟨ids, ticked_snapshot hch id retired a ids⟩
  · cases heq
    exact ⟨ids, ⟨[], rfl, .inl rfl⟩, rfl, fun p hp => ⟨hp, fun hmem _ => hmem⟩⟩

/-- At the end of a tick nothing of the inbounds that were over when it began is left. -/
theorem Config.InTick.at_end (hpc : c.pc = .endTick :: rest) : now = [] ∧ ids = [] ∧ rest = [] := by
  have heq := hpc.symm.trans h.pc
  rcases h.now with rfl | ⟨id, retired, a, rfl⟩ | ⟨id, traffic, rfl⟩
  · cases ids with
    | nil => exact ⟨rfl, rfl, (cons.inj heq).2⟩
    | cons => cases (cons.inj heq).1
  · cases (cons.inj heq).1
  · cases (cons.inj heq).1

end

/-! ## The loop -/

section

variable (hc : c.Steady)
include hc

namespace Config.Steady

theorem withPc (hpc : c.pc = []) (hrest : { c with pc := c'.pc }.Rest c')
    (hadapters : c'.adapters = c.adapters)
    (hplain : ∀ o ∈ c'.pc, o.Plain) (hstopped : c'.stopped = true → c'.pc = [])
    (htick : ∀ seen, c'.tick = some seen → ∃ now ids, c'.InTick seen now ids) : c'.Steady := by
  have hages : ∀ a, (c.adapters a).Ages (c'.adapters a) := by
    intro a
    rw [hadapters]
    exact .refl _
  have haged := hc.aged hages hrest.made.ge (fun a _ => by rw [hadapters])
    (fun a _ => by rw [hadapters]) (fun a id d => by rw [hrest.handed])
  refine ⟨{ haged with }, hc.kept.withPc hpc hrest hadapters hplain,
    fun o ho => (hplain o ho).fine c', fun o ho => haged.threads o (hrest.threads ▸ ho),
    fun hclosed => ?_, fun traffic h => ?_, hstopped, htick⟩
  · rw [hrest.inbounds]
    exact hc.inbounds (hrest.closed.symm.trans hclosed)
  · obtain ⟨hclosed, hretired, hthreads, -⟩ := hc.drained traffic (hrest.ending.symm.trans h)
    refine ⟨hrest.closed.trans hclosed, hrest.retired.trans hretired, ?_,
      fun o ho => (hplain o ho).retires⟩
    rw [hrest.threads]
    exact hthreads

theorem begin (hplain : ∀ o ∈ ops, o.Plain) : (c.begin ops).Steady := by
  unfold Config.begin
  split_ifs with h
  · refine hc.withPc h.1 (by constructor <;> rfl) rfl hplain (fun hstopped => ?_)
      fun seen htick => absurd htick (hc.no_tick h.1 seen)
    rw [show c.stopped = true from hstopped] at h
    cases h.2
  · exact hc

/-- A tick, or `Shutdown`, has handed over all of these. -/
theorem sweep {l : List ℕ}
    (hadapters : c'.adapters = (c.sweep l).adapters)
    (hhanded : ∀ a id d, tagged a id d c.handed ≤ tagged a id d c'.handed)
    (hl : ∀ a ∈ l, (c.adapters a).ended = true ∧
      ∀ id d, bytes a id d (c.adapters a).counted ≤ tagged a id d c'.handed)
    (hmade : c.made ≤ c'.made) : c.Aged c' := by
  have hsweep : ∀ a, c'.adapters a = { c.adapters a with
      swept := (c.adapters a).swept || decide (a ∈ l) } := by
    intro a
    rw [hadapters]
    show (if a ∈ l then _ else _) = _
    split_ifs with ha
    · rw [decide_eq_true ha, Bool.or_true]
    · rw [decide_eq_false ha, Bool.or_false]
  have hfine : ∀ op, c.Fine op → c'.Fine op := by
    refine fun op hop => hop.mono fun a ha => ?_
    rw [hsweep]
    exact ⟨ha, id⟩
  refine ⟨⟨fun a => ?_, fun a ha => ?_, fun a => ?_, fun a => ?_⟩, hfine,
    fun o ho => (hc.threads o ho).imp_left (hfine o)⟩
  · rw [hsweep]
    exact hc.stage a
  · obtain ⟨hstage, hover, hswept⟩ := hc.unmade a (hmade.trans ha)
    have hnot : a ∉ l := by
      intro hmem
      have htrue := (hl a hmem).1
      rw [hover] at htrue
      cases htrue
    rw [hsweep]
    refine ⟨hstage, hover, ?_⟩
    rw [hswept, decide_eq_false hnot]
    rfl
  · rw [hsweep]
    exact hc.ended a
  · rw [hsweep]
    intro hswept
    rcases or_eq_true_iff.mp hswept with hold | hnew
    · obtain ⟨hshut, hle⟩ := hc.swept a hold
      exact ⟨hshut, fun id d => (hle id d).trans (hhanded a id d)⟩
    · obtain ⟨hover, hle⟩ := hl a (of_decide_eq_true hnew)
      exact ⟨(hc.ended a hover).1, hle⟩

theorem settled (hover : (c.adapters a).ended = true)
    (id : ℤ) (d : Direction) (hpc : carrying a id d c.pc = 0)
    (hthreads : carrying a id d c.threads.flatten = 0) (hretired : tagged a id d c.retired = 0) :
    bytes a id d (c.adapters a).counted =
      tagged a id d c.handed + tagged a id d c.ending.traffic := by
  have hbalance := hc.kept.balance a id d
  have hholding : c.holding a id d = 0 := by
    rw [holding, (hc.ended a hover).2]
    rfl
  omega

theorem endTick (hpc : c.pc = .endTick :: rest) (hopen : c.closed = false) (ch : Chance) :
    (c.execLoop ch).Steady := by
  have hkept := hc.kept.execLoop ch
  revert hkept
  rw [execLoop, hpc]
  have hrest : ∀ o ∈ rest, o ∈ c.pc := fun o ho => hpc ▸ mem_cons_of_mem _ ho
  have hstopped : c.stopped = true → rest = [] := by
    intro h
    have hnil := hpc.symm.trans (hc.stopped h)
    cases hnil
  simp only [exec]
  rw [nil_append]
  intro hkept
  obtain ⟨hthreads, hending⟩ := hc.kept.idle hopen
  -- What was put aside before the tick began has been taken, and nothing else is on its way.
  have hl : ∀ a ∈ c.tick.getD [], (c.adapters a).ended = true ∧
      ∀ id d, bytes a id d (c.adapters a).counted ≤ tagged a id d c.handed := by
    intro a ha
    cases htick : c.tick with
    | none =>
      rw [htick] at ha
      cases ha
    | some seen =>
      rw [htick] at ha
      obtain ⟨now, ids, hin⟩ := hc.tick seen htick
      obtain ⟨rfl, rfl, rfl⟩ := hin.at_end hpc
      refine ⟨hin.ended a ha, fun id d => le_of_eq ?_⟩
      have hsettled := hc.settled (hin.ended a ha) id d (by rw [hpc]; rfl)
        (by rw [hthreads]; rfl) (tagged_eq_zero fun p hp horigin => by
          cases (hin.left hopen p hp (horigin ▸ ha)).1)
      rw [hending] at hsettled
      exact hsettled
  have haged := hc.sweep
    (rfl : adapters { c.sweep (c.tick.getD []) with tick := none, pc := rest } = _)
    (fun _ _ _ => le_rfl) hl le_rfl
  refine ⟨{ haged with }, hkept, fun o ho => haged.fine o (hc.pc o (hrest o ho)), haged.threads,
    hc.inbounds, fun traffic h => ?_, hstopped, fun _ h => by cases h⟩
  have hnone := hending.symm.trans (show c.ending = .drained traffic from h)
  cases hnone

theorem execLoop (hch : ch.Calm)
    (hpublish : ∀ op ∈ c.pc.head?, op.needsOpen = true → c.closed = false) :
    (c.execLoop ch).Steady := by
  cases hpc : c.pc with
  | nil =>
    rw [Config.execLoop, hpc]
    exact hc
  | cons op rest =>
    by_cases hend : op = .endTick
    · rw [hend] at hpc
      rw [hpc] at hpublish
      exact hc.endTick hpc (hpublish _ rfl rfl) ch
    · rw [hpc] at hpublish
      have hpublish := hpublish op rfl
      have hkept := hc.kept.execLoop ch
      revert hkept
      rw [Config.execLoop, hpc]
      dsimp only
      intro hkept
      have hin : ∀ o ∈ op :: rest, o ∈ c.pc := fun o ho => hpc ▸ ho
      have hop := hc.pc op (hin op mem_cons_self)
      have howns := hc.kept.pc op (hin op mem_cons_self)
      obtain ⟨hran, hwent, haged, hinbounds⟩ := hc.goes hch howns hop hpublish hend
      refine ⟨{ haged with }, hkept, fun o ho => ?_,
        fun o ho => haged.threads o (hran.threads ▸ ho),
        fun hclosed => hinbounds (hran.closed.symm.trans hclosed), fun traffic hdrained => ?_,
        fun hstopped => ?_, fun seen htick => ?_⟩
      · rcases mem_append.mp ho with ho | ho
        · exact hwent.fine o ho
        · exact haged.fine o (hc.pc o (hin o (mem_cons_of_mem _ ho)))
      · obtain ⟨hclosed, hretired, hthreads, hretires⟩ :=
          hc.drained traffic (hran.ending.symm.trans hdrained)
        have hnot : op.retires ≠ true := by
          rw [hretires op (hin op mem_cons_self)]
          exact false_ne_true
        refine ⟨hran.closed.trans hclosed, eq_nil_iff_forall_not_mem.mpr fun p hp => ?_,
          (congrArg _ hran.threads).trans hthreads, fun o ho => ?_⟩
        · have hold := (hwent.retired p hp).resolve_right hnot
          rw [hretired] at hold
          cases hold
        · rcases mem_append.mp ho with ho | ho
          · refine eq_false_of_not_eq_true fun htrue => ?_
            exact (hwent.retires o ho htrue).elim hnot fun h => h (hc.inbounds hclosed)
          · exact hretires o (hin o (mem_cons_of_mem _ ho))
      · have hnil := hpc.symm.trans (hc.stopped (hwent.stopped.symm.trans hstopped))
        cases hnil
      · obtain ⟨now, ids, hold⟩ := hc.tick seen (hwent.tick.symm.trans htick)
        obtain ⟨ids', ⟨now', hnow, hshape⟩, hnodes, hretired⟩ := hold.ticked hch hpc hend
        refine ⟨now', ids', hnow, hshape, fun a ha => (hwent.ages a).stays (hold.ended a ha),
          fun hopen p hp horigin => ?_⟩
        obtain ⟨hp, hids⟩ := hretired p hp
        obtain ⟨hmem, hstarted⟩ := hold.left (hran.closed.symm.trans hopen) p hp horigin
        exact ⟨hids hmem hstarted, hnodes ▸ hstarted⟩

end Config.Steady

end

/-! ## Whole runs -/

section

variable (hc : c.Steady)
include hc

namespace Config.Steady

theorem count (ha : a < c.made) (hrunning : (c.adapters a).stage ≠ .shut) (id : ℤ) (d : Direction)
    (n : ℕ) : (c.onAdapter a fun x => x.count a id d n).Steady := by
  have hages := ages_onAdapter (c := c) (a := a) (f := fun x => x.count a id d n)
    ⟨fun h => h, fun h => absurd h hrunning, fun h => h, .inl, fun h => h, rfl⟩
  have hcounted : ∀ b, (c.adapters b).stage = .shut →
      ((c.onAdapter a fun x => x.count a id d n).adapters b).counted = (c.adapters b).counted := by
    intro b hb
    have hne : b ≠ a := by
      rintro rfl
      exact hrunning hb
    exact congrArg _ (update_of_ne hne _ _)
  have haged := hc.aged hages le_rfl (beyond_onAdapter ha) hcounted fun _ _ _ => le_rfl
  refine ⟨{ haged with }, hc.kept.count ha id d n, fun o ho => haged.fine o (hc.pc o ho),
    haged.threads, hc.inbounds, hc.drained, hc.stopped, fun seen htick => ?_⟩
  obtain ⟨now, ids, hold⟩ := hc.tick seen htick
  exact ⟨now, ids, { hold with ended := fun b hb => (hages b).stays (hold.ended b hb) }⟩

theorem report (hpc : c.pc = []) (hstopped : c.stopped = false) (hclear : c.Clear .report) :
    Steady { c with pc := c.order.map .collect ++ [.endTick], tick := some c.overNow } := by
  refine hc.withPc hpc (by constructor <;> rfl) rfl plain_tick (fun h => ?_) fun seen hseen => ?_
  · rw [show c.stopped = true from h] at hstopped
    cases hstopped
  · obtain rfl := some.inj hseen
    exact ⟨[], c.order, rfl, .inl rfl, fun a ha => (mem_filter.mp ha).2,
      fun _ p hp _ => hclear.2 p hp⟩

theorem drain (hopen : c.closed = false) : Steady { c with
      closed := true, ending := .closing
      threads := c.inbounds.values.map fun p => [.retire p.tag p.adapter .lock]
      inbounds := ∅ } := by
  refine { hc with
    kept := hc.kept.drain hopen, threads := fun o ho => ?_, inbounds := fun _ => rfl
    drained := fun _ => nofun, tick := fun seen htick => ?_ }
  · obtain ⟨t, ht, ho⟩ := mem_flatten.mp ho
    obtain ⟨p, -, rfl⟩ := mem_map.mp ht
    obtain rfl := mem_singleton.mp ho
    exact ⟨trivial, rfl⟩
  · obtain ⟨now, ids, hold⟩ := hc.tick seen htick
    exact ⟨now, ids, { hold with left := nofun }⟩

/-- What has been put aside is taken for `Shutdown`. -/
theorem take (hending : c.ending = .closing)
    (hthreads : c.threads.flatten = []) (hclear : c.Clear .take) :
    Steady { c with ending := .drained c.retired, retired := [] } := by
  have hclosed : c.closed = true := by
    refine eq_true_of_not_eq_false fun hopen => ?_
    have hnone := (hc.kept.idle hopen).2
    rw [hending] at hnone
    cases hnone
  refine { hc with
    kept := hc.kept.take hending, drained := fun _ _ => ⟨hclosed, rfl, hthreads, hclear⟩
    tick := fun seen htick => ?_ }
  obtain ⟨now, ids, hold⟩ := hc.tick seen htick
  exact ⟨now, ids, { hold with left := fun _ => nofun }⟩

theorem shutdown {traffic : List (String × Entry)}
    (hending : c.ending = .drained traffic) (hstopped : c.stopped = true) :
    Steady { c.sweep c.overNow with handed := c.handed ++ traffic, ending := .finished } := by
  obtain ⟨hclosed, hretired, hthreads, -⟩ := hc.drained traffic hending
  have hpc := hc.stopped hstopped
  have hhanded : ∀ a id d, tagged a id d c.handed ≤ tagged a id d (c.handed ++ traffic) := by
    intro a id d
    rw [tagged_append]
    exact Nat.le_add_right _ _
  have hl : ∀ a ∈ c.overNow, (c.adapters a).ended = true ∧
      ∀ id d, bytes a id d (c.adapters a).counted ≤ tagged a id d (c.handed ++ traffic) := by
    intro a ha
    have hover : (c.adapters a).ended = true := (mem_filter.mp ha).2
    refine ⟨hover, fun id d => le_of_eq ?_⟩
    have hsettled := hc.settled hover id d (by rw [hpc]; rfl) (by rw [hthreads]; rfl)
      (by rw [hretired]; rfl)
    rw [hending] at hsettled
    rw [tagged_append]
    exact hsettled
  have haged := hc.sweep (l := c.overNow) (rfl : adapters
    { c.sweep c.overNow with handed := c.handed ++ traffic, ending := .finished } = _)
    hhanded hl le_rfl
  exact ⟨{ haged with }, hc.kept.shutdown hending, fun o ho => haged.fine o (hc.pc o ho),
    haged.threads, hc.inbounds, fun _ => nofun, hc.stopped,
    fun seen htick => absurd htick (hc.no_tick hpc seen)⟩

theorem next {l : Label} (hclear : c.Clear l) : (next c l).Steady := by
  cases l with
  | count a id d n =>
    simp only [Handover.next]
    split_ifs with h
    · exact hc.count h.1 h.2 id d n
    · exact hc
  | late a =>
    simp only [Handover.next]
    rw [if_neg (hc.stage a)]
    exact hc
  | report =>
    simp only [Handover.next]
    split_ifs with h
    · exact hc.report h.1 h.2 hclear
    · exact hc
  | config => exact hc.begin (plain_config _ _ _)
  | retry id =>
    simp only [Handover.next]
    split_ifs
    · exact hc.begin (plain_one (o := .install id false) trivial)
    · exact hc
  | users =>
    simp only [Handover.next]
    split_ifs with h
    · refine hc.withPc h.1 (by constructor <;> rfl) rfl (fun o ho => ?_)
        (fun _ => h.1) fun seen htick => absurd htick (hc.no_tick h.1 seen)
      rw [show c.pc = [] from h.1] at ho
      cases ho
    · exact hc
  | tombstone => exact hc.begin (plain_config [] _ _)
  | loop => exact hc.execLoop hclear.1 hclear.2
  | stop =>
    simp only [Handover.next]
    split_ifs with h
    · have hkept : Kept { c with stopped := true } :=
        hc.kept.same (by constructor <;> rfl) fun _ => ⟨rfl, rfl, rfl⟩
      exact { hc with
        kept := hkept, stopped := fun _ => h,
          tick := fun seen htick => absurd htick (hc.no_tick h seen) }
    · exact hc
  | drain =>
    simp only [Handover.next]
    split_ifs with h
    · exact hc
    · exact hc.drain (eq_false_of_not_eq_true h)
  | thread i => exact hc.execThread i hclear
  | take =>
    simp only [Handover.next]
    split
    · next hending =>
      split_ifs with hthreads
      · exact hc.take hending hthreads hclear
      · exact hc
    · exact hc
  | shutdown =>
    simp only [Handover.next]
    split
    · next traffic hending =>
      split_ifs with hstopped
      · exact hc.shutdown hending hstopped
      · exact hc
    · exact hc

end Config.Steady

end

/-- **From the inbounds to the report buffer.**  In every run, what is handed over was counted by an
inbound of that node, and no byte is handed over twice.  In a run in which nothing goes wrong, all
that an inbound has ever counted is handed over once it has been closed and a tick, or `Shutdown`,
has run. -/
theorem handed_over (labels : List Label) : (labels.foldl next {}).AtMostOnce ∧
      (Runs.Along next Config.Clear {} labels → (labels.foldl next {}).Complete) := by
  refine ⟨(Runs.run_invariant (I := Config.Kept) (fun _ l hc => hc.next l) labels
    kept_init).atMostOnce, fun hclear => ?_⟩
  exact (hclear.invariant (I := Config.Steady) (fun _ _ h hstep => h.next hstep)
    steady_init).complete

/-- The loop goes on so many times. -/
def goOn (n : ℕ) : List Label := replicate n (.loop {})

/-- The inbound of a node is replaced while it counts; a tick follows. -/
def replaced : List Label :=
  [.config ["n"]] ++ goOn 8 ++ [.count 0 7 .upload 100, .config ["n"]] ++ goOn 4 ++
    [.count 0 7 .upload 20] ++ goOn 8 ++ [.report] ++ goOn 4

theorem replaced_handed_over :
    let c := replaced.foldl next {}
    Runs.Along next Config.Clear {} replaced ∧ c.Complete ∧ (c.adapters 0).swept = true ∧
      tagged 0 7 .upload c.handed = 120 := by
  have hclear : Runs.Along next Config.Clear {} replaced := by decide +kernel
  exact ⟨hclear, (handed_over replaced).2 hclear, by decide +kernel, by decide +kernel⟩

/-- A node is removed; its inbound counts after what it has has been collected, and before it is
closed.  A tick follows. -/
def removed : List Label :=
  [.config ["n"]] ++ goOn 8 ++ [.count 0 7 .upload 100, .config []] ++ goOn 5 ++
    [.count 0 7 .upload 20] ++ goOn 7 ++ [.report] ++ goOn 1

theorem removed_too_early :
    let c := removed.foldl next {}
    (c.adapters 0).stage = .shut ∧ (c.adapters 0).swept = true ∧ c.pc = [] ∧
      bytes 0 7 .upload (c.adapters 0).counted = 120 ∧ tagged 0 7 .upload c.handed = 100 ∧
      c.retired = [("n", ⟨0, 7, 20, 0⟩)] ∧ ¬ c.Complete := by
  have hswept : ((removed.foldl next {}).adapters 0).swept = true := by decide +kernel
  have hcounted : bytes 0 7 .upload ((removed.foldl next {}).adapters 0).counted = 120 := by
    decide +kernel
  have hhanded : tagged 0 7 .upload (removed.foldl next {}).handed = 100 := by decide +kernel
  refine ⟨by decide +kernel, hswept, by decide +kernel, hcounted, hhanded, by decide +kernel,
    fun hcomplete => ?_⟩
  have hall := hcomplete.all 0 hswept 7 .upload
  rw [hcounted, hhanded] at hall
  cases hall

end Pandora.Dataplane.Handover
