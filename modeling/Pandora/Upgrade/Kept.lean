import Pandora.Upgrade.Helper

/-!
# What an upgrade keeps

`Case.Base` holds at every moment of every run of the helper.  Some of it is asked for only in some
runs (`Case`): that the outcome which is written is the true one, when certain operations do not
fail, and that an upgrade which has been confirmed stays, when no marker has been read before the
run.

Most of what the helper does changes only copies of files and what is in the state directory
(`Helper.scratch`).  The rest is the record, the binary that is in place and the copy of the one
before it.
-/

namespace Pandora.Upgrade

open Crash List Helper Except Prog World Touches

/-- The operations whose failure makes a difference do not fail. -/
def Choice.Calm (c : Choice) : Prop :=
  c.fails .installed = none ∧ c.fails .result = none ∧ c.fails .state = none ∧
    c.fails .record = none ∧ Takes c .request fileRequest maxSmallFileBytes

instance : DecidablePred Choice.Calm := fun _ => inferInstanceAs (Decidable (_ ∧ _ ∧ _ ∧ _ ∧ _))

/-- A digest that a manifest lists, which `Check` lets pass. -/
def Helper.Signed (h : Helper) (b : Bytes) : Prop :=
  ∃ manifest sig m art, h.keyring.check manifest sig h.buildSerial h.goarch = .ok (m, art) ∧
    h.sha256 b = art.sha256

/-- Where the helper may write. -/
def Helper.Writable (h : Helper) (p : Path) : Prop :=
  p.dir = h.stateDir ∨ p.dir = h.workDir ∨
    p ∈ [h.binPath, h.prevPath, h.newPath, h.prevPath.tmp, h.newPath.tmp]

/-- What an event says is true. -/
def Event.Holds (h : Helper) : Event → Prop
  | .result r bin job => r.reasonCode ≠ .rollbackFailed → bin = job.before
  | .healthy _ => True
  | .quiet bin job => bin = job.target ∧
      ∃ t, job.target = some (.file t) ∧ job.read = some ⟨job.jobID, h.sha256 t⟩

/-- No marker has been read. -/
def World.Fresh (w : World) : Prop := ∀ m, Event.healthy m ∉ w.notes.log

/-- A marker has been read; what it names is in place, and no result has been written since. -/
def Helper.Confirmed (h : Helper) (w : World) : Prop :=
  ∃ later m earlier b, w.notes.log = later ++ .healthy m :: earlier ∧
    (∀ e ∈ later, ∃ bin job, e = .quiet bin job) ∧ (∀ m', Event.healthy m' ∉ earlier) ∧
    w.files h.binPath = some (.file b) ∧ h.sha256 b = m.sha256

/-- The runs that a statement is about. -/
structure Case where
  h : Helper
  start : World
  /-- Only runs in which the operations that make a difference do not fail. -/
  strict : Prop
  /-- Only runs before which no marker has been read. -/
  once : Prop
  injective : strict → Function.Injective h.sha256

namespace Case

variable (k : Case)

def C (c : Choice) : Prop := k.strict → c.Calm

/-- What may be in place. -/
def Legit (b : Bytes) : Prop := k.start.files k.h.binPath = some (.file b) ∨ k.h.Signed b

/-- The record of the upgrade that goes on; `b` is the binary before it and `t` its target. -/
structure InJob (record : Record) (b t : Bytes) (w : World) : Prop where
  jobID : record.jobID = w.notes.job.jobID
  before : w.notes.job.before = some (.file b)
  target : w.notes.job.target = some (.file t)
  prevSHA : record.prevSHA256 = k.h.sha256 b
  targetSHA : record.targetSHA256 = k.h.sha256 t
  prev : w.files k.h.prevPath = some (.file b)
  bin : w.files k.h.binPath = some (.file b) ∨ w.files k.h.binPath = some (.file t)

structure Base (w : World) : Prop where
  bin : ∃ b, w.files k.h.binPath = some (.file b) ∧ k.Legit b
  prev : w.files k.h.applyingPath ≠ none → ∃ b, w.files k.h.prevPath = some (.file b) ∧ k.Legit b
  outside : ∀ p, ¬ k.h.Writable p → w.files p = k.start.files p
  named : ∀ record, w.files k.h.applyingPath = some (.record record) → record.targetSHA256 ≠ ""
  record : k.strict → w.files k.h.applyingPath ≠ none → ∃ record b t,
    w.files k.h.applyingPath = some (.record record) ∧ k.InJob record b t w
  log : k.strict → ∀ e ∈ w.notes.log, e.Holds k.h
  once : k.once → w.Fresh ∨ k.h.Confirmed w

/-- An upgrade goes on. -/
structure Ready (record : Record) (w : World) : Prop where
  base : k.Base w
  prev : ∃ b, w.files k.h.prevPath = some (.file b) ∧ k.Legit b
  named : record.targetSHA256 ≠ ""
  fresh : k.once → w.Fresh
  job : k.strict → ∃ b t, k.InJob record b t w

end Case

/-! ## Paths -/

variable {p : Path} {record : Record}

namespace Helper

/-- The files that are only copies, and those that are being written. -/
def scratch (h : Helper) : List Path :=
  copied.map h.workFile ++ copied.map (fun name => (h.workFile name).tmp) ++
    [h.applyingPath.tmp, h.newPath, h.newPath.tmp, h.prevPath.tmp]

variable {h : Helper}

theorem bin_own : h.binPath.dir ≠ h.stateDir := h.bin_ne_state

theorem prev_own : h.prevPath.dir ≠ h.stateDir := h.bin_ne_state

theorem new_own : h.newPath.dir ≠ h.stateDir := h.bin_ne_state

theorem work_own (name : String) : (h.workFile name).dir ≠ h.stateDir := h.work_ne_state

theorem ext_ne_work {s name : String} : h.binPath.ext s ≠ h.workFile name := fun heq =>
  h.work_ne_bin (congrArg Path.dir heq).symm

theorem bin_ne_work (name : String) : h.binPath ≠ h.workFile name := fun heq =>
  h.work_ne_bin (congrArg Path.dir heq).symm

theorem prev_ne_work (name : String) : h.prevPath ≠ h.workFile name := ext_ne_work

theorem new_ne_work (name : String) : h.newPath ≠ h.workFile name := ext_ne_work

theorem prev_tmp : h.prevPath.tmp = h.binPath.ext ".prev.tmp" := ext_ext

theorem new_tmp : h.newPath.tmp = h.binPath.ext ".new.tmp" := ext_ext

theorem mem_scratch (hp : p ∈ h.scratch) :
    (∃ name ∈ copied ++ copied.map (· ++ ".tmp") ++ ["applying.tmp"], p = h.workFile name) ∨
      ∃ s ∈ [".new", ".new.tmp", ".prev.tmp"], p = h.binPath.ext s := by
  rw [scratch, new_tmp, prev_tmp] at hp
  rcases mem_append.mp hp with hp | hp
  · refine .inl ?_
    rcases mem_append.mp hp with hp | hp
    · obtain ⟨name, hname, rfl⟩ := mem_map.mp hp
      exact ⟨name, mem_append_left _ (mem_append_left _ hname), rfl⟩
    · obtain ⟨name, hname, rfl⟩ := mem_map.mp hp
      exact ⟨name ++ ".tmp", mem_append_left _ (mem_append_right _
        (mem_map.mpr ⟨name, hname, rfl⟩)), rfl⟩
  · rcases mem_cons.mp hp with rfl | hp
    · exact .inl ⟨"applying.tmp", mem_append_right _ mem_cons_self, rfl⟩
    · refine .inr ?_
      obtain ⟨s, hs, rfl⟩ := mem_map.mp (show p ∈ [".new", ".new.tmp", ".prev.tmp"].map
        h.binPath.ext from hp)
      exact ⟨s, hs, rfl⟩

theorem bin_not_scratch : h.binPath ∉ h.scratch := by
  intro hp
  rcases mem_scratch hp with ⟨name, -, heq⟩ | ⟨s, hs, heq⟩
  · exact bin_ne_work name heq
  · refine ext_ne_self (fun hempty => ?_) heq.symm
    rw [hempty] at hs
    revert hs
    decide

theorem prev_not_scratch : h.prevPath ∉ h.scratch := by
  intro hp
  rcases mem_scratch hp with ⟨name, -, heq⟩ | ⟨s, hs, heq⟩
  · exact ext_ne_work heq
  · rw [← ext_inj.mp heq] at hs
    revert hs
    decide

theorem applying_not_scratch : h.applyingPath ∉ h.scratch := by
  intro hp
  rcases mem_scratch hp with ⟨name, hname, heq⟩ | ⟨s, -, heq⟩
  · rw [← show fileApplying = name from congrArg Path.name heq] at hname
    revert hname
    decide
  · exact ext_ne_work heq.symm

theorem writable_scratch (hp : p ∈ h.scratch) : h.Writable p := by
  rcases mem_scratch hp with ⟨name, -, rfl⟩ | ⟨s, hs, rfl⟩
  · exact .inr (.inl rfl)
  · refine .inr (.inr ?_)
    rw [new_tmp, prev_tmp]
    have hext := mem_map_of_mem (f := h.binPath.ext) hs
    rcases mem_cons.mp hext with heq | hext
    · exact heq ▸ mem_cons_of_mem _ (mem_cons_of_mem _ mem_cons_self)
    · exact mem_cons_of_mem _ (mem_cons_of_mem _ (mem_cons_of_mem _
        ((List.Perm.swap _ _ []).mem_iff.mp hext)))

end Helper

/-! ## What does not matter -/

/-- What is kept when copies are changed, and when the record is removed. -/
structure Helper.Stable (h : Helper) (J : World → Prop) : Prop where
  touches : ∀ {w w'}, J w → h.Touches h.scratch w w' → J w'
  gone : ∀ {w}, J w → J (w.put h.applyingPath none)

namespace Case

variable {k : Case} {w w' : World}

theorem InJob.congr {b t : Bytes} (hjob : k.InJob record b t w)
    (hnotes : w'.notes = w.notes) (hprev : w'.files k.h.prevPath = w.files k.h.prevPath)
    (hbin : w'.files k.h.binPath = w.files k.h.binPath) : k.InJob record b t w' := by
  refine ⟨?_, ?_, ?_, hjob.prevSHA, hjob.targetSHA, hprev.trans hjob.prev, ?_⟩
  · rw [hnotes]
    exact hjob.jobID
  · rw [hnotes]
    exact hjob.before
  · rw [hnotes]
    exact hjob.target
  · rw [hbin]
    exact hjob.bin

theorem fresh_congr (hnotes : w'.notes = w.notes) (hfresh : w.Fresh) : w'.Fresh := by
  rw [Fresh, hnotes]
  exact hfresh

theorem confirmed_congr {h : Helper} (hnotes : w'.notes = w.notes)
    (hbin : w'.files h.binPath = w.files h.binPath) (hw : h.Confirmed w) : h.Confirmed w' := by
  rw [Helper.Confirmed, hnotes, hbin]
  exact hw

theorem Base.congr (hw : k.Base w) (hnotes : w'.notes = w.notes)
    (hprev : w'.files k.h.prevPath = w.files k.h.prevPath)
    (hbin : w'.files k.h.binPath = w.files k.h.binPath)
    (happlying : w'.files k.h.applyingPath = w.files k.h.applyingPath ∨
      w'.files k.h.applyingPath = none)
    (houtside : ∀ p, ¬ k.h.Writable p → w'.files p = w.files p) : k.Base w' := by
  have hthere : w'.files k.h.applyingPath ≠ none → w.files k.h.applyingPath ≠ none ∧
      w'.files k.h.applyingPath = w.files k.h.applyingPath := by
    intro hne
    rcases happlying with heq | hnone
    · exact ⟨heq ▸ hne, heq⟩
    · exact absurd hnone hne
  refine ⟨?_, fun hne => ?_, fun p hp => (houtside p hp).trans (hw.outside p hp),
    fun record hfile => ?_, fun hs hne => ?_, fun hs => ?_, fun ho => ?_⟩
  · rw [hbin]
    exact hw.bin
  · rw [hprev]
    exact hw.prev (hthere hne).1
  · rw [(hthere (by rw [hfile]; exact Option.some_ne_none _)).2] at hfile
    exact hw.named record hfile
  · obtain ⟨record, b, t, hrecord, hjob⟩ := hw.record hs (hthere hne).1
    exact ⟨record, b, t, (hthere hne).2.trans hrecord, hjob.congr hnotes hprev hbin⟩
  · rw [hnotes]
    exact hw.log hs
  · exact (hw.once ho).imp (fresh_congr hnotes) (confirmed_congr hnotes hbin)

theorem base_start {b : Bytes} (hbin : k.start.files k.h.binPath = some (.file b))
    (hrecord : k.start.files k.h.applyingPath = none)
    (hlog : k.strict → ∀ e ∈ k.start.notes.log, e.Holds k.h) (hfresh : k.once → k.start.Fresh) :
    k.Base k.start := by
  refine ⟨⟨b, hbin, .inl hbin⟩, fun hne => absurd hrecord hne, fun _ _ => rfl,
    fun record hfile => ?_, fun _ hne => absurd hrecord hne, hlog, fun ho => .inl (hfresh ho)⟩
  rw [hrecord] at hfile
  cases hfile

theorem stable_base : k.h.Stable k.Base where
  touches := fun hw htouch =>
    hw.congr htouch.notes (htouch.files _ prev_own prev_not_scratch)
      (htouch.files _ bin_own bin_not_scratch)
      (.inl (htouch.files _ (work_own _) applying_not_scratch)) fun p hp =>
        htouch.files p (fun hstate => hp (.inl hstate)) fun hin => hp (writable_scratch hin)
  gone := fun hw =>
    hw.congr rfl (put_of_ne ext_ne_work) (put_of_ne (bin_ne_work _))
      (.inr (Function.update_self ..)) fun _ hp => put_of_ne fun heq => hp (.inr (.inl (heq ▸ rfl)))

theorem stable_and {P : Option Node → Notes → Prop} :
    k.h.Stable fun w => k.Base w ∧ P (w.files k.h.binPath) w.notes where
  touches := fun hw htouch => by
    refine ⟨stable_base.touches hw.1 htouch, ?_⟩
    rw [htouch.notes, htouch.files _ bin_own bin_not_scratch]
    exact hw.2
  gone := fun hw => by
    refine ⟨stable_base.gone hw.1, ?_⟩
    rw [put_of_ne (p := k.h.applyingPath) (bin_ne_work fileApplying)]
    exact hw.2

variable {C : Choice → Prop} {J : World → Prop} {α : Type}

theorem Ready.touches (hw : k.Ready record w)
    (htouch : k.h.Touches k.h.scratch w w') : k.Ready record w' := by
  have hprev := htouch.files _ prev_own prev_not_scratch
  refine ⟨stable_base.touches hw.base htouch, ?_, hw.named,
    fun ho => fresh_congr htouch.notes (hw.fresh ho), fun hs => ?_⟩
  · rw [hprev]
    exact hw.prev
  · obtain ⟨b, t, hjob⟩ := hw.job hs
    exact ⟨b, t, hjob.congr htouch.notes hprev (htouch.files _ bin_own bin_not_scratch)⟩

end Case

namespace Helper

variable {h : Helper} {w : World} {C : Choice → Prop} {J : World → Prop} {α : Type}

theorem meets_scratch {p : H α} (hJ : ∀ {w w'}, J w → h.Touches h.scratch w w' → J w') (hw : J w)
    (hp : Meets C (h.Touches h.scratch w) p w fun _ => h.Touches h.scratch w) :
    Meets C J p w fun _ => J :=
  hp.mono (fun _ => hJ hw) fun _ _ => hJ hw

theorem Stable.remove (hJ : h.Stable J) (hw : J w)
    (hp : p ∈ h.scratch ∨ p = h.applyingPath) : Meets C J (h.remove p) w fun _ => J := by
  have hvisited : ∀ c, J (w.visited h.stateDir c) := fun c => hJ.touches hw (refl.visited c)
  refine (meets_operate hw (fun c _ _ _ => hvisited c) fun c w' _ _ hok => ?_).bind fun _ _ hw' =>
    meets_pure hw'
  obtain rfl := ok.inj hok
  rcases hp with hp | rfl
  · exact hJ.touches (hvisited c) (refl.put (fun _ => hp) none)
  · exact hJ.gone (hvisited c)

theorem Stable.removeAll (hJ : h.Stable J) (ps : List Path)
    (hps : ∀ p ∈ ps, p ∈ h.scratch ∨ p = h.applyingPath) (hw : J w) :
    Meets C J (h.removeAll ps) w fun _ => J := by
  induction ps generalizing w with
  | nil => exact meets_pure hw
  | cons p ps ih =>
    exact (hJ.remove hw (hps p mem_cons_self)).bind fun _ _ hw' =>
      ih (fun q hq => hps q (mem_cons_of_mem _ hq)) hw'

theorem workName_scratch {name : String} (hname : name ∈ workNames) :
    h.workFile name ∈ h.scratch ∨ h.workFile name = h.applyingPath := by
  have hall : ∀ name ∈ workNames, name ∈ copied ∨ (∃ n ∈ copied, name = n ++ ".tmp") ∨
      name = "applying.tmp" ∨ name = fileApplying := by decide
  rcases hall name hname with hcopied | ⟨n, hn, rfl⟩ | rfl | rfl
  · exact .inl (mem_append_left _ (mem_append_left _ (mem_map_of_mem hcopied)))
  · exact .inl (mem_append_left _ (mem_append_right _ (mem_map.mpr ⟨n, hn, rfl⟩)))
  · exact .inl (mem_append_right _ mem_cons_self)
  · exact .inr rfl

theorem Stable.removeWorkArtifacts (hJ : h.Stable J) (hw : J w) :
    Meets C J h.removeWorkArtifacts w fun _ => J := by
  have hvisited : ∀ c, J (w.visited h.stateDir c) := fun c => hJ.touches hw (refl.visited c)
  refine Meets.attempt (Q := fun _ => J)
    (meets_operate hw (fun c _ _ _ => hvisited c) fun c w' _ _ hok => ?_)
    (fun _ _ h₁ => meets_pure h₁) fun _ w₁ h₁ => ?_
  · obtain rfl := ok.inj hok
    exact hvisited c
  refine hJ.removeAll _ (fun p hp => ?_) h₁
  obtain ⟨name, hname, rfl⟩ := mem_map.mp hp
  exact workName_scratch hname

theorem touches_restart {S : List Path} {w₀ : World} (hw : h.Touches S w₀ w) :
    Meets C (h.Touches S w₀) h.restart w fun _ => h.Touches S w₀ :=
  touches_look (fun _ _ _ hok => (ok.inj hok).symm) hw

theorem meets_lstat {Q : Except String Bool → World → Prop} (hJ : J w)
    (hQ : ∀ c r, C c → (∀ there, r = .ok there →
      there = ((w.visited h.stateDir c).files p).isSome) → Q r (w.visited h.stateDir c)) :
    Meets C J (h.lstat p) w Q := by
  refine meets_act hJ fun c hc => ?_
  cases c.fails .file with
  | some => exact hQ c _ hc nofun
  | none => exact hQ c _ hc fun there hthere => (ok.inj hthere).symm

end Helper
end Pandora.Upgrade
