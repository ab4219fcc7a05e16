import Pandora.Upgrade.Kept

/-!
# Every run of the helper keeps it

One lemma for each function of the helper, from `finish` up to `run`: started in a state such as the
function is called in, it ends, and may be cut off, only where `Case.Base` holds.
-/

namespace Pandora.Upgrade.Case

open Crash List Option Helper Prog Meets Touches Event

variable {k : Case} {w : World} {α : Type} {state : Bool}

/-! ## `finish` -/

theorem Base.logged {event : Option Node → Job → Event} (hw : k.Base w)
    (hholds : k.strict → (event (w.files k.h.binPath) w.notes.job).Holds k.h)
    (honce : k.once → (w.Fresh ∧ ∀ bin job m, event bin job ≠ .healthy m) ∨ event = .quiet) :
    k.Base (k.h.logged event w) := by
  refine { hw with
    record := fun hs hne => ?_, log := fun hs => forall_mem_cons.mpr ⟨hholds hs, hw.log hs⟩
    once := fun ho => ?_ }
  · obtain ⟨record, b, t, hrecord, hjob⟩ := hw.record hs hne
    exact ⟨record, b, t, hrecord, { hjob with }⟩
  · have hfresh : w.Fresh → (∀ bin job m, event bin job ≠ .healthy m) →
        (k.h.logged event w).Fresh := by
      intro hfresh hne m hm
      rcases mem_cons.mp hm with heq | hm
      · exact hne _ _ m heq.symm
      · exact hfresh m hm
    rcases honce ho with ⟨hf, hne⟩ | rfl
    · exact .inl (hfresh hf hne)
    · refine (hw.once ho).imp (fun hf => hfresh hf fun _ _ _ => nofun) fun hconfirmed => ?_
      obtain ⟨later, m, earlier, b, hlog, hlater, hearlier, hbin, hsha⟩ := hconfirmed
      refine ⟨.quiet (w.files k.h.binPath) w.notes.job :: later, m, earlier, b, ?_,
        forall_mem_cons.mpr ⟨⟨_, _, rfl⟩, hlater⟩, hearlier, hbin, hsha⟩
      show _ :: w.notes.log = _
      rw [hlog]
      rfl

theorem meets_cleanup {J : World → Prop} (hJ : k.h.Stable J) (state written : Bool)
    (hquiet : written = false → ∀ w, J w → J (k.h.logged .quiet w)) (hw : J w) :
    Meets k.C J (do
      k.h.removeMarkers state
      k.h.removeAll (copied.map k.h.workFile)
      k.h.remove k.h.applyingPath
      note fun w => if written then w else k.h.logged .quiet w
      k.h.removeAll [k.h.newPath, k.h.newPath.tmp, k.h.prevPath.tmp]) w fun _ => J := by
  have hremoveState : ∀ {w name}, J w → Meets k.C J (k.h.removeState name) w fun _ => J :=
    fun hw => meets_scratch hJ.touches hw (touches_removeState .refl)
  have hmarkers : Meets k.C J (k.h.removeMarkers state) w fun _ => J := by
    cases state with
    | false => exact meets_pure hw
    | true =>
      exact (hremoveState hw).bind fun _ _ h₁ => (hremoveState h₁).bind fun _ _ h₂ =>
        meets_pure h₂
  refine hmarkers.bind fun _ _ h₁ => (hJ.removeAll _ (fun p hp => ?_) h₁).bind fun _ _ h₂ =>
    (hJ.remove h₂ (.inr rfl)).bind fun _ w₃ h₃ => bind (Q := fun _ => J)
      (meets_note ?_) fun _ _ h₄ => hJ.removeAll _ (fun p hp => .inl ?_) h₄
  · exact .inl (mem_append_left _ (mem_append_left _ hp))
  · cases written with
    | true => exact h₃
    | false => exact hquiet rfl w₃ h₃
  · exact mem_append_right _ (mem_cons_of_mem _ hp)

theorem finish_some {r : Result} (hw : k.Base w) (hfresh : k.once → w.Fresh)
    (hstate : k.strict → state = true)
    (hr : k.strict → r.reasonCode ≠ .rollbackFailed → w.files k.h.binPath = w.notes.job.before) :
    Meets k.C k.Base (k.h.finish state (some r)) w fun _ => k.Base := by
  -- What the result is about is kept until it has been written.
  let J (w : World) : Prop := k.Base w ∧ (k.once → ∀ m, healthy m ∉ w.notes.log) ∧
    (k.strict → r.reasonCode ≠ .rollbackFailed → w.files k.h.binPath = w.notes.job.before)
  have hJ : k.h.Stable J := stable_and (P := fun bin notes =>
    (k.once → ∀ m, healthy m ∉ notes.log) ∧
      (k.strict → r.reasonCode ≠ .rollbackFailed → bin = notes.job.before))
  have hlogged : ∀ event : Option Node → Job → Event, (∀ bin job m, event bin job ≠ .healthy m) →
      (∀ w, J w → k.strict → (event (w.files k.h.binPath) w.notes.job).Holds k.h) →
      ∀ w, J w → J (k.h.logged event w) := by
    intro event hne hholds w hw
    refine ⟨hw.1.logged (hholds w hw) fun ho => .inl ⟨hw.2.1 ho, hne⟩, fun ho m hm => ?_, hw.2.2⟩
    rcases mem_cons.mp hm with heq | hm
    · exact hne _ _ m heq.symm
    · exact hw.2.1 ho m hm
  refine mono (I := J) (Q := fun _ => J) ?_ (fun _ hw => hw.1) fun _ _ hw => hw.1
  refine bind (Q := fun written w => J w ∧ (written = false → ¬ k.strict)) ?_
    fun written w₁ h₁ => meets_cleanup hJ state written (fun hnot w hw => ?_) h₁.1
  · cases state with
    | false => exact meets_pure ⟨⟨hw, hfresh, hr⟩, fun _ hs => nomatch hstate hs⟩
    | true =>
      refine bind (Q := fun e w => J w ∧ (k.strict → e = .ok ()))
        ((meets_writeState .refl).mono (fun w' ht => hJ.touches ⟨hw, hfresh, hr⟩ ht)
          fun e w' ht => ⟨hJ.touches ⟨hw, hfresh, hr⟩ ht.1, fun hs => ht.2 fun c hc => (hc hs).2.1⟩)
        fun e w₁ h₁ => ?_
      cases e with
      | error => exact meets_pure ⟨h₁.1, fun _ hs => nomatch h₁.2 hs⟩
      | ok _ =>
        refine bind (Q := fun _ => J) (meets_note ?_) fun _ _ h₂ =>
          meets_pure ⟨h₂, nofun⟩
        exact hlogged (.result r) (fun _ _ _ => nofun) (fun w hw hs => hw.2.2 hs) w₁ h₁.1
  · exact hlogged .quiet (fun _ _ _ => nofun) (fun _ _ hs => absurd hs (h₁.2 hnot)) w hw

theorem finish_none (hw : k.Base w)
    (hquiet : k.strict → (quiet (w.files k.h.binPath) w.notes.job).Holds k.h) :
    Meets k.C k.Base (k.h.finish state none) w fun _ => k.Base := by
  let J (w : World) : Prop := k.Base w ∧
    (k.strict → (quiet (w.files k.h.binPath) w.notes.job).Holds k.h)
  have hJ : k.h.Stable J := stable_and (P := fun bin notes =>
    k.strict → (quiet bin notes.job).Holds k.h)
  refine mono (I := J) (Q := fun _ => J) ?_ (fun _ hw => hw.1) fun _ _ hw => hw.1
  exact bind (Q := fun _ => J) (meets_pure ⟨hw, hquiet⟩) fun written w₁ h₁ =>
    meets_cleanup hJ state written (fun _ w hw => ⟨hw.1.logged hw.2 fun _ => .inr rfl, hw.2⟩) h₁

/-! ## The record -/

variable {p : Path} {w' : World} {b d t : Bytes} {record' record : Record} {req : Request}
  {I : World → Prop} {D : Node → Prop} {cur name : String} {art : Artifact}

/-- Where the record is written, nothing else is changed than in the work directory. -/
theorem wrote_files (hwrote : k.h.Wrote k.h.applyingPath D w w')
    (hp : ∀ name, p ≠ k.h.workFile name) (hown : p.dir ≠ k.h.stateDir) :
    w'.files p = w.files p := by
  refine hwrote.touches.files p hown fun hin => ?_
  rcases mem_pair.mp hin with heq | heq <;> exact hp _ heq

theorem Base.wrote (hw : k.Base w) (hfresh : k.once → w.Fresh)
    (hprev : ∃ b, w.files k.h.prevPath = some (.file b) ∧ k.Legit b)
    (hnamed : record.targetSHA256 ≠ "") (hjob : k.strict → ∃ b t, k.InJob record b t w)
    (hwrote : k.h.Wrote k.h.applyingPath (· = .record record) w w') : k.Ready record w' := by
  have hprev' := wrote_files hwrote prev_ne_work prev_own
  have hbin' := wrote_files hwrote bin_ne_work bin_own
  have houtside : ∀ p, ¬ k.h.Writable p → w'.files p = w.files p := fun p hp =>
    wrote_files hwrote (fun name heq => hp (.inr (.inl (heq ▸ rfl)))) fun hstate => hp (.inl hstate)
  have hfresh' : k.once → w'.Fresh := fun ho => fresh_congr hwrote.touches.notes (hfresh ho)
  have hjob' : k.strict → ∃ b t, k.InJob record b t w' := fun hs =>
    let ⟨b, t, hin⟩ := hjob hs
    ⟨b, t, hin.congr hwrote.touches.notes hprev' hbin'⟩
  rw [← hprev'] at hprev
  refine ⟨?_, hprev, hnamed, hfresh', hjob'⟩
  rcases hwrote.dst with hsame | ⟨d, rfl, hnew⟩
  · exact hw.congr hwrote.touches.notes hprev' hbin' (.inl hsame) houtside
  · refine ⟨?_, fun _ => hprev, fun p hp => (houtside p hp).trans (hw.outside p hp),
      fun record' hfile => ?_, fun hs _ => ?_, fun hs => ?_, fun ho => .inl (hfresh' ho)⟩
    · rw [hbin']
      exact hw.bin
    · rw [hnew] at hfile
      rw [← Node.record.inj (some.inj hfile)]
      exact hnamed
    · obtain ⟨b, t, hin⟩ := hjob' hs
      exact ⟨record, b, t, hnew, hin⟩
    · rw [hwrote.touches.notes]
      exact hw.log hs

/-- What is in the record does not change what the upgrade is. -/
structure SameJob (record record' : Record) : Prop where
  jobID : record'.jobID = record.jobID
  prevSHA : record'.prevSHA256 = record.prevSHA256
  targetSHA : record'.targetSHA256 = record.targetSHA256

theorem InJob.same (hjob : k.InJob record b t w)
    (hsame : SameJob record record') : k.InJob record' b t w :=
  ⟨hsame.jobID.trans hjob.jobID, hjob.before, hjob.target, hsame.prevSHA.trans hjob.prevSHA,
    hsame.targetSHA.trans hjob.targetSHA, hjob.prev, hjob.bin⟩

theorem meets_saveRecord (hw : k.Ready record w) (hsame : SameJob record record') :
    Meets k.C k.Base (k.h.saveRecord record') w fun _ w' => k.Ready record' w' ∧
      w'.files k.h.binPath = w.files k.h.binPath := by
  have hjob : k.strict → ∃ b t, k.InJob record' b t w := fun hs =>
    let ⟨b, t, hin⟩ := hw.job hs
    ⟨b, t, hin.same hsame⟩
  have hnamed : record'.targetSHA256 ≠ "" := by
    rw [hsame.targetSHA]
    exact hw.named
  exact (meets_writeFileSync (work_own _) _).mono
    (fun _ hwrote => (hw.base.wrote hw.fresh hw.prev hnamed hjob hwrote).base) fun _ _ hr =>
      ⟨hw.base.wrote hw.fresh hw.prev hnamed hjob hr.1, wrote_files hr.1 bin_ne_work bin_own⟩

/-! ## The binary -/

theorem prev_not_replaced : k.h.prevPath ∉ [k.h.newPath, k.h.binPath] := by
  intro hin
  rcases mem_pair.mp hin with heq | heq
  · exact absurd (ext_inj.mp heq) (by decide)
  · exact ext_ne_self (by decide) heq

theorem work_not_replaced : k.h.workFile name ∉ [k.h.newPath, k.h.binPath] := by
  intro hin
  rcases mem_pair.mp hin with heq | heq
  · exact new_ne_work name heq.symm
  · exact bin_ne_work name heq.symm

section Replaced

variable (htouch : k.h.Touches [k.h.newPath, k.h.binPath] w w')
  (hbin : w'.files k.h.binPath = some (.file d))

include htouch hbin

theorem InJob.replaced (hjob : k.InJob record b t w)
    (hd : d = b ∨ d = t) : k.InJob record b t w' := by
  have hprev := htouch.files _ prev_own prev_not_replaced
  refine ⟨?_, ?_, ?_, hjob.prevSHA, hjob.targetSHA, hprev.trans hjob.prev, ?_⟩
  · rw [htouch.notes]
    exact hjob.jobID
  · rw [htouch.notes]
    exact hjob.before
  · rw [htouch.notes]
    exact hjob.target
  · rw [hbin]
    exact hd.imp (fun heq => by rw [heq]) fun heq => by rw [heq]

theorem Ready.replaced (hw : k.Ready record w) (hlegit : k.Legit d)
    (hjob : k.strict → ∀ record b t, k.InJob record b t w → d = b ∨ d = t) : k.Ready record w' := by
  have happlying : w'.files k.h.applyingPath = w.files k.h.applyingPath :=
    htouch.files _ (work_own _) work_not_replaced
  have hprev : ∃ b, w'.files k.h.prevPath = some (.file b) ∧ k.Legit b := by
    rw [htouch.files _ prev_own prev_not_replaced]
    exact hw.prev
  have hfresh : k.once → w'.Fresh := fun ho => fresh_congr htouch.notes (hw.fresh ho)
  refine ⟨⟨⟨d, hbin, hlegit⟩, fun _ => hprev, fun p hp => ?_,
    fun record hfile => hw.base.named record (happlying ▸ hfile), fun hs hne => ?_, fun hs => ?_,
    fun ho => .inl (hfresh ho)⟩, hprev, hw.named, hfresh, fun hs => ?_⟩
  · refine (htouch.files p (fun hstate => hp (.inl hstate)) fun hin => hp (.inr (.inr ?_))).trans
      (hw.base.outside p hp)
    rcases mem_pair.mp hin with rfl | rfl <;> simp
  · obtain ⟨record, b, t, hrecord, hin⟩ := hw.base.record hs (happlying ▸ hne)
    exact ⟨record, b, t, happlying.trans hrecord, hin.replaced htouch hbin (hjob hs record b t hin)⟩
  · rw [htouch.notes]
    exact hw.base.log hs
  · obtain ⟨b, t, hin⟩ := hw.job hs
    exact ⟨b, t, hin.replaced htouch hbin (hjob hs record b t hin)⟩

end Replaced

theorem meets_digest {Q : String → World → Prop} (hp : p.dir ≠ k.h.stateDir) (hI : I w)
    (hQ : ∀ c sum, (sum = "" ∨ ∃ b, w.files p = some (.file b) ∧ sum = k.h.sha256 b) →
      Q sum (w.visited k.h.stateDir c)) : Meets k.C I (k.h.digest p) w Q := by
  refine bind (Q := fun r w' => Q (r.toOption.getD "") w')
    (meets_sha256File hp hI fun c r hr => ?_) fun r w' h' => ?_
  · cases r with
    | error => exact hQ c "" (.inl rfl)
    | ok sum => exact hQ c sum (.inr (hr sum rfl))
  · cases r with
    | error | ok => exact meets_pure h'

theorem eq_of_sha {c : Bytes} (hs : k.strict) (heq : k.h.sha256 b = k.h.sha256 c) : b = c :=
  k.injective hs heq

theorem Ready.visited (hw : k.Ready record w) (c : Choice) :
    k.Ready record (w.visited k.h.stateDir c) :=
  hw.touches (refl.visited c)

/-- The digest of the binary, or nothing. -/
def Sums (k : Case) (cur : String) (w : World) : Prop :=
  cur = "" ∨ ∃ b, w.files k.h.binPath = some (.file b) ∧ cur = k.h.sha256 b

theorem Sums.visited (h : k.Sums cur w) (c : Choice) : k.Sums cur (w.visited k.h.stateDir c) := by
  rw [Sums, visited_files bin_own]
  exact h

theorem Ready.meets_digest (hw : k.Ready record w) :
    Meets k.C k.Base (k.h.digest k.h.binPath) w fun cur w' => k.Ready record w' ∧ k.Sums cur w' :=
  Case.meets_digest bin_own hw.base fun c _ hsum => ⟨hw.visited c, Sums.visited hsum c⟩

theorem Ready.before_of_sums (hw : k.Ready record w) (hcur : k.Sums cur w)
    (hprev : cur = record.prevSHA256) (hs : k.strict) :
    w.files k.h.binPath = w.notes.job.before := by
  obtain ⟨b', t, hjob⟩ := hw.job hs
  have hsha := hprev.trans hjob.prevSHA
  rcases hcur with hempty | ⟨b, hbin, hsum⟩
  · exact absurd (hsha.symm.trans hempty) (k.h.sha256_ne b')
  · rw [hbin, hjob.before, eq_of_sha hs (hsum.symm.trans hsha)]

theorem mem_scratch_of_new (hp : p ∈ [k.h.newPath, k.h.newPath.tmp]) : p ∈ k.h.scratch := by
  refine mem_append_right _ (mem_cons_of_mem _ ?_)
  rcases mem_pair.mp hp with rfl | rfl <;> simp

theorem prev_not_new : k.h.prevPath ∉ [k.h.newPath, k.h.newPath.tmp] := fun hin =>
  prev_not_scratch (mem_scratch_of_new hin)

theorem meets_restore (hw : k.Ready record w) (detail : String) :
    Meets k.C k.Base (k.h.restore record detail) w fun r w' => k.Base w' ∧
      (k.once → w'.Fresh) ∧ (r = .ok () → k.strict →
        w'.files k.h.binPath = w'.notes.job.before) := by
  refine hw.meets_digest.bind fun cur w₁ ⟨h₁, hcur⟩ => ?_
  have hend : ∀ {w' : World} (e : String), k.Ready record w' →
      Meets k.C k.Base (pure (.error e) : H (Except String Unit)) w' fun r w' => k.Base w' ∧
        (k.once → w'.Fresh) ∧
        (r = .ok () → k.strict → w'.files k.h.binPath = w'.notes.job.before) :=
    fun e h' => meets_pure ⟨h'.base, h'.fresh, nofun⟩
  split_ifs with hprev
  · exact meets_pure ⟨h₁.base, h₁.fresh, fun _ => h₁.before_of_sums hcur hprev⟩
  · refine bind (Q := fun _ => k.Ready record)
      (meets_sha256File prev_own h₁.base fun c _ _ => h₁.visited c) fun r w₂ h₂ => ?_
    cases r with
    | error => exact hend _ h₂
    | ok prevSum =>
      dsimp only
      split_ifs with hsum
      · exact hend _ h₂
      · obtain ⟨d, hd, hlegit⟩ := h₂.prev
        have hready : ∀ w', k.h.Wrote k.h.newPath (fun x => w₂.files k.h.prevPath = some x) w₂ w' →
            k.Ready record w' := fun w' hwrote =>
          h₂.touches (hwrote.touches.mono fun p hp => mem_scratch_of_new hp)
        refine attempt (Q := fun r w' => k.Ready record w' ∧
            w'.files k.h.prevPath = some (.file d) ∧
            (r = .ok () → w'.files k.h.newPath = some (.file d)))
          ((meets_copyFileSync prev_own new_own prev_not_new).mono
            (fun w' hwrote => (hready w' hwrote).base)
            fun r w' hr => ⟨hready w' hr.1, ?_, fun hok => ?_⟩)
          (fun _ _ h₃ => hend _ h₃.1) fun _ w₃ h₃ => ?_
        · rw [hr.1.touches.files _ prev_own prev_not_new]
          exact hd
        · exact (hr.2 hok).trans hd
        obtain ⟨h₃, hd₃, hnew⟩ := h₃
        have hnew := hnew rfl
        -- The copy is of the binary from before.
        have hbefore : k.strict → ∀ record b t, k.InJob record b t w₃ → d = b := by
          intro _ record b t hjob
          have heq := hd₃.symm.trans hjob.prev
          exact Node.file.inj (some.inj heq)
        refine meets_renameSync new_own bin_own (ext_ne_self (by decide))
          hnew h₃.base (fun c _ _ _ => ⟨(h₃.visited c).base, (h₃.visited c).fresh, nofun⟩)
          fun w₄ htouch _ hbin => ?_
        have h₄ : k.Ready record w₄ := h₃.replaced htouch hbin hlegit
          fun hs record b t hjob => .inl (hbefore hs record b t hjob)
        refine ⟨h₄.base, ⟨h₄.base, h₄.fresh, fun _ hs => ?_⟩,
          fun _ _ _ _ => ⟨h₄.base, h₄.fresh, nofun⟩⟩
        obtain ⟨b, t, hjob⟩ := h₃.job hs
        rw [hbin, htouch.notes, hjob.before, hbefore hs record b t hjob]

/-- The binary is the one from before, whether there is a record or not. -/
structure Unchanged (k : Case) (w : World) : Prop where
  base : k.Base w
  fresh : k.once → w.Fresh
  before : k.strict → w.files k.h.binPath = w.notes.job.before

theorem Unchanged.touches (hw : k.Unchanged w)
    (htouch : k.h.Touches k.h.scratch w w') : k.Unchanged w' := by
  refine ⟨stable_base.touches hw.base htouch, fun ho => fresh_congr htouch.notes (hw.fresh ho),
    fun hs => ?_⟩
  rw [htouch.files _ bin_own bin_not_scratch, htouch.notes]
  exact hw.before hs

theorem meets_kept {P : World → Prop} {p : H α} (hbase : ∀ {w}, P w → k.Base w)
    (hP : ∀ {w w'}, P w → k.h.Touches k.h.scratch w w' → P w') (hw : P w)
    (hp : Meets k.C (k.h.Touches k.h.scratch w) p w fun _ => k.h.Touches k.h.scratch w) :
    Meets k.C k.Base p w fun _ => P :=
  (meets_scratch hP hw hp).mono (fun _ => hbase) fun _ _ => id

section

variable (hw : k.Ready record w) (hstate : k.strict → state = true)
  (phase : Phase) (code : Reason) (detail : String) (again : Bool)
include hw hstate phase code detail again

theorem meets_putBack :
    Meets k.C k.Base (k.h.putBack state record phase code detail again) w fun _ => k.Base := by
  refine (meets_restore hw detail).attempt
    (fun _ _ h₁ => finish_some h₁.1 h₁.2.1 hstate fun _ hne => absurd rfl hne) fun _ w₁ h₁ => ?_
  obtain ⟨hbase, hfresh, hok⟩ := h₁
  have hbefore := hok rfl
  cases again with
  | false => exact finish_some hbase hfresh hstate fun hs _ => hbefore hs
  | true =>
    refine (meets_kept Unchanged.base Unchanged.touches ⟨hbase, hfresh, hbefore⟩
      (touches_restart .refl)).attempt
      (fun _ _ h₂ => finish_some h₂.base h₂.fresh hstate fun _ hne => absurd rfl hne)
        fun _ w₂ h₂ => ?_
    exact finish_some h₂.base h₂.fresh hstate fun hs _ => h₂.before hs

theorem meets_rollbackWith :
    Meets k.C k.Base (k.h.rollbackWith state record phase code detail again) w fun _ => k.Base := by
  have hsame : SameJob record (record.rolling phase code detail) := ⟨rfl, rfl, rfl⟩
  refine bind (meets_saveRecord hw hsame) fun _ w₁ h₁ => ?_
  exact (meets_putBack h₁.1 hstate phase code detail again).bind fun _ _ h₂ => meets_pure h₂

end

/-! ## `confirm` -/

/-- The target is in place. -/
structure Placed (k : Case) (record : Record) (w : World) : Prop where
  ready : k.Ready record w
  bin : ∃ b, w.files k.h.binPath = some (.file b) ∧ k.h.sha256 b = record.targetSHA256

section

variable (hw : k.Placed record w)
include hw

theorem Placed.touches (htouch : k.h.Touches k.h.scratch w w') : k.Placed record w' := by
  refine ⟨hw.ready.touches htouch, ?_⟩
  rw [htouch.files _ bin_own bin_not_scratch]
  exact hw.bin

theorem Placed.visited (c : Choice) : k.Placed record (w.visited k.h.stateDir c) :=
  hw.touches (refl.visited c)

theorem Placed.logHealthy :
    k.Base (Helper.logHealthy record w) ∧ (k.strict →
      (quiet ((Helper.logHealthy record w).files k.h.binPath)
        (Helper.logHealthy record w).notes.job).Holds k.h) := by
  obtain ⟨b, hbin, hsha⟩ := hw.bin
  have hbase := hw.ready.base
  have hlog : (Helper.logHealthy record w).notes.log =
      .healthy ⟨record.jobID, record.targetSHA256⟩ :: w.notes.log := rfl
  refine ⟨{ hbase with
    record := fun hs hne => ?_, log := fun hs e he => ?_, once := fun ho => .inr ?_ },
    fun hs => ?_⟩
  · obtain ⟨record', b', t, hrecord, hjob⟩ := hbase.record hs hne
    exact ⟨record', b', t, hrecord, { hjob with }⟩
  · rcases mem_cons.mp he with rfl | he
    · trivial
    · exact hbase.log hs e he
  · refine ⟨[], ⟨record.jobID, record.targetSHA256⟩, w.notes.log, b, hlog, ?_,
      hw.ready.fresh ho, hbin, hsha⟩
    intro e he
    cases he
  · obtain ⟨b', t, hjob⟩ := hw.ready.job hs
    have hbt : b = t := eq_of_sha hs (hsha.trans hjob.targetSHA)
    have hread : (Helper.logHealthy record w).notes.job.read =
        some ⟨record.jobID, record.targetSHA256⟩ := rfl
    refine ⟨?_, t, hjob.target, ?_⟩
    · show w.files k.h.binPath = w.notes.job.target
      rw [hbin, hjob.target, hbt]
    · rw [hread, hjob.jobID, hjob.targetSHA]
      rfl

end

theorem Placed.meets {p : H α} (hw : k.Placed record w)
    (hp : Meets k.C (k.h.Touches k.h.scratch w) p w fun _ => k.h.Touches k.h.scratch w) :
    Meets k.C k.Base p w fun _ => k.Placed record :=
  meets_kept (·.ready.base) Placed.touches hw hp

theorem meets_prepareMarker (hw : k.Placed record w) (state : Bool) :
    Meets k.C k.Base (k.h.prepareMarker state record) w fun _ => k.Placed record := by
  cases state with
  | false => exact meets_pure hw
  | true =>
    refine (hw.meets ((meets_writeState .refl).mono (fun _ => id) fun _ _ ht => ht.1)).attempt
      (fun _ _ h₁ => meets_pure h₁) fun _ w₁ h₁ => ?_
    exact h₁.meets (touches_removeState .refl)

theorem meets_confirm (hw : k.Placed record w) (hstate : k.strict → state = true) (running : Bool) :
    Meets k.C k.Base (k.h.confirm state record running) w fun _ => k.Base := by
  refine (meets_prepareMarker hw state).attempt
    (fun _ _ h₁ => meets_rollbackWith h₁.ready hstate _ _ _ _) fun _ w₁ h₁ => ?_
  refine (h₁.meets (touches_restart .refl)).attempt
    (fun _ _ h₂ => meets_rollbackWith h₂.ready hstate _ _ _ _) fun _ w₂ h₂ => ?_
  -- The target stays in place while the helper waits.
  refine bind (Q := fun waited w => match waited with
      | .healthy => k.Base w ∧
          (k.strict → (quiet (w.files k.h.binPath) w.notes.job).Holds k.h)
      | _ => k.Placed record w)
    (meets_loop (J := k.Placed record) (fun _ hJ => hJ.ready.base) (fun c w _ hJ => ?_) h₂)
    fun waited w₃ h₃ => ?_
  · have hvisited := hJ.visited c
    unfold look
    split_ifs
    · exact hvisited.logHealthy
    · exact hvisited
    · cases c.fails .sleep with
      | some | none => exact hvisited
  · cases waited with
    | healthy => exact (finish_none h₃.1 h₃.2).bind fun _ _ h₄ => meets_pure h₄
    | timeout => exact meets_rollbackWith h₃.ready hstate _ _ _ _
    | cancelled => exact meets_pure h₃.ready.base

/-! ## `install` -/

/-- No upgrade goes on, and the binary is the one from before. -/
structure Idle (k : Case) (w : World) : Prop where
  base : k.Base w
  none : w.files k.h.applyingPath = none
  fresh : k.once → w.Fresh
  before : w.files k.h.binPath = w.notes.job.before

theorem Idle.congr (hw : k.Idle w) (hlog : w'.notes.log = w.notes.log)
    (hbefore : w'.notes.job.before = w.notes.job.before)
    (hbin : w'.files k.h.binPath = w.files k.h.binPath)
    (hnone : w'.files k.h.applyingPath = w.files k.h.applyingPath)
    (houtside : ∀ p, ¬ k.h.Writable p → w'.files p = w.files p) : k.Idle w' := by
  have hnone' := hnone.trans hw.none
  have hfresh : k.once → w'.Fresh := by
    intro ho
    rw [World.Fresh, hlog]
    exact hw.fresh ho
  have hfile : ∀ record, w'.files k.h.applyingPath ≠ some (.record record) := by
    intro record
    rw [hnone']
    exact (some_ne_none _).symm
  refine ⟨⟨?_, fun hne => absurd hnone' hne,
    fun p hp => (houtside p hp).trans (hw.base.outside p hp),
    fun record h' => absurd h' (hfile record), fun _ hne => absurd hnone' hne, fun hs => ?_,
    fun ho => .inl (hfresh ho)⟩, hnone', hfresh, ?_⟩
  · rw [hbin]
    exact hw.base.bin
  · rw [hlog]
    exact hw.base.log hs
  · rw [hbin, hbefore]
    exact hw.before

theorem Idle.touches (hw : k.Idle w) (htouch : k.h.Touches k.h.scratch w w') : k.Idle w' :=
  hw.congr (congrArg _ htouch.notes) (congrArg (fun n => n.job.before) htouch.notes)
    (htouch.files _ bin_own bin_not_scratch)
    (htouch.files _ (work_own _) applying_not_scratch) fun p hp =>
      htouch.files p (fun hstate => hp (.inl hstate)) fun hin => hp (writable_scratch hin)

theorem Idle.visited (hw : k.Idle w) (c : Choice) : k.Idle (w.visited k.h.stateDir c) :=
  hw.touches (refl.visited c)

theorem Idle.unchanged (hw : k.Idle w) : k.Unchanged w := ⟨hw.base, hw.fresh, fun _ => hw.before⟩

theorem meets_fail {code : Reason} {detail : String} (hw : k.Unchanged w) :
    Meets k.C k.Base (k.h.fail req code detail) w fun _ => k.Base :=
  (finish_some hw.base hw.fresh (fun _ => rfl) fun hs _ => hw.before hs).bind fun _ _ h₁ =>
    meets_pure h₁

theorem meets_removeFail {code : Reason} {detail : String} (hw : k.Unchanged w) :
    Meets k.C k.Base (do
      k.h.remove k.h.newPath
      k.h.fail req code detail) w fun _ => k.Base :=
  (meets_kept Unchanged.base Unchanged.touches hw
    (touches_remove .refl fun _ => mem_scratch_of_new mem_cons_self)).bind fun _ _ => meets_fail

/-- What is known while the copies are made. -/
structure Copies (k : Case) (req : Request) (b d : Bytes) (w : World) : Prop where
  idle : k.Idle w
  jobID : w.notes.job.jobID = req.jobID
  target : w.notes.job.target = some (.file d)
  bin : w.files k.h.binPath = some (.file b)
  next : w.files (k.h.workFile fileNext) = some (.file d)

theorem Copies.touches {S : List Path} (hw : k.Copies req b d w) (htouch : k.h.Touches S w w')
    (hbin : k.h.binPath ∉ S) (hwork : ∀ name, k.h.workFile name ∉ S)
    (hS : ∀ p ∈ S, k.h.Writable p) : k.Copies req b d w' := by
  have hbin' := htouch.files _ bin_own hbin
  have hidle := hw.idle.congr (congrArg _ htouch.notes)
    (congrArg (fun n => n.job.before) htouch.notes)
    hbin' (htouch.files _ (work_own _) (hwork _)) fun p hp =>
      htouch.files p (fun hstate => hp (.inl hstate)) fun hin => hp (hS p hin)
  refine ⟨hidle, ?_, ?_, hbin'.trans hw.bin, (htouch.files _ (work_own _) (hwork _)).trans hw.next⟩
  · rw [htouch.notes]
    exact hw.jobID
  · rw [htouch.notes]
    exact hw.target

theorem bin_not_copy {s : String} (hs : s ≠ "" ∧ s ++ ".tmp" ≠ "") :
    k.h.binPath ∉ [k.h.binPath.ext s, (k.h.binPath.ext s).tmp] := by
  intro hin
  rcases mem_pair.mp hin with heq | heq
  · exact ext_ne_self hs.1 heq.symm
  · exact ext_ne_self hs.2 (heq.trans ext_ext).symm

theorem work_not_copy {s : String} :
    k.h.workFile name ∉ [k.h.binPath.ext s, (k.h.binPath.ext s).tmp] := by
  intro hin
  rcases mem_pair.mp hin with heq | heq
  · exact ext_ne_work heq.symm
  · exact ext_ne_work (heq.trans ext_ext).symm

theorem Copies.wrote {s : String} (hs : s = ".prev" ∨ s = ".new") (hw : k.Copies req b d w)
    (hwrote : k.h.Wrote (k.h.binPath.ext s) D w w') : k.Copies req b d w' := by
  have hne : s ≠ "" ∧ s ++ ".tmp" ≠ "" := by rcases hs with rfl | rfl <;> decide
  refine hw.touches hwrote.touches (bin_not_copy hne) (fun _ => work_not_copy)
    fun p hp => .inr (.inr ?_)
  rcases hs with rfl | rfl <;> rcases mem_pair.mp hp with rfl | rfl <;> simp [prevPath, newPath]

theorem meets_clock {Q : ℤ → World → Prop} (hI : I w)
    (hQ : ∀ c now, Q now (w.visited k.h.stateDir c)) : Meets k.C I k.h.clock w Q :=
  meets_act hI fun c _ => hQ c _

/-- The copies have been made. -/
structure Prepared (k : Case) (req : Request) (b d : Bytes) (w : World) : Prop where
  copies : k.Copies req b d w
  prev : w.files k.h.prevPath = some (.file b)
  new : w.files k.h.newPath = some (.file d)

theorem Prepared.visited (hw : k.Prepared req b d w) (c : Choice) :
    k.Prepared req b d (w.visited k.h.stateDir c) :=
  ⟨hw.copies.touches (S := []) (refl.visited c) not_mem_nil
    (fun _ => not_mem_nil) nofun, (visited_files prev_own).trans hw.prev,
    (visited_files new_own).trans hw.new⟩

theorem Prepared.inJob (hw : k.Prepared req b d w)
    (hjobID : record.jobID = req.jobID) (hprev : record.prevSHA256 = k.h.sha256 b)
    (htarget : record.targetSHA256 = k.h.sha256 d) : k.InJob record b d w :=
  ⟨hjobID.trans hw.copies.jobID.symm, hw.copies.idle.before.symm.trans hw.copies.bin,
    hw.copies.target, hprev, htarget, hw.prev, .inl hw.copies.bin⟩

theorem meets_place {prev : String} (hw : k.Prepared req b d w) (hprev : prev = k.h.sha256 b)
    (hsha : k.h.sha256 d = art.sha256) (hb : k.Legit b) (hd : k.Legit d) (now : ℤ) :
    Meets k.C k.Base (k.h.place req art prev now) w fun _ => k.Base := by
  simp only [place]
  generalize hrecord : Record.mk req.jobID art.sha256 prev req.confirmWithinSec now .installing
    false none none "" = record
  have hin : k.InJob record b d w :=
    hw.inJob (by rw [← hrecord]) (by rw [← hrecord]; exact hprev)
      (by rw [← hrecord]; exact hsha.symm)
  have hnamed : record.targetSHA256 ≠ "" := by
    rw [hin.targetSHA]
    exact k.h.sha256_ne d
  have hready : ∀ w', k.h.Wrote k.h.applyingPath (· = .record record) w w' →
      k.Ready record w' := fun _ =>
    hw.copies.idle.base.wrote hw.copies.idle.fresh ⟨b, hw.prev, hb⟩ hnamed fun _ => ⟨b, d, hin⟩
  refine attempt (Q := fun r w' => k.Unchanged w' ∧ k.Ready record w' ∧
      w'.files k.h.newPath = some (.file d))
    ((meets_writeFileSync (work_own _) _).mono
      (fun w' hwrote => (hready w' hwrote).base) fun r w' hr => ?_)
    (fun _ _ h₁ => meets_removeFail h₁.1) fun _ w₁ h₁ => ?_
  · have h' := hready w' hr.1
    refine ⟨⟨h'.base, h'.fresh, fun _ => ?_⟩, h',
      (wrote_files hr.1 new_ne_work new_own).trans hw.new⟩
    rw [wrote_files hr.1 bin_ne_work bin_own, hr.1.touches.notes]
    exact hw.copies.idle.before
  obtain ⟨hun, hready, hnew⟩ := h₁
  refine bind (Q := fun r w' => match r with
      | .error _ => k.Unchanged w'
      | .ok _ => k.Placed record w')
    (meets_renameSync new_own bin_own (ext_ne_self (by decide)) hnew
      hready.base (fun c _ _ _ => hun.touches (refl.visited c)) fun w' htouch _ hbin => ?_)
    fun r w₂ h₂ => ?_
  · have hjob : k.strict → ∀ record' b' t, k.InJob record' b' t w₁ → d = b' ∨ d = t := by
      intro hs record' b' t hin'
      obtain ⟨b₁, t₁, hin₁⟩ := hready.job hs
      have htarget : k.h.sha256 d = k.h.sha256 t₁ := by
        rw [← hin₁.targetSHA, hsha, ← hrecord]
      have ht := hin₁.target.symm.trans hin'.target
      rw [eq_of_sha hs htarget]
      exact .inr (Node.file.inj (some.inj ht))
    have h' := hready.replaced htouch hbin hd hjob
    refine ⟨h'.base, ⟨h', d, hbin, ?_⟩, fun c e hc hfails => ⟨h'.base, h'.fresh, fun hs => ?_⟩⟩
    · rw [← hrecord]
      exact hsha
    · rw [(hc hs).1] at hfails
      cases hfails
  · cases r with
    | error => exact meets_removeFail h₂
    | ok _ =>
      refine (meets_clock h₂.ready.base fun c _ => h₂.visited c).bind fun later w₃ h₃ => ?_
      subst hrecord
      have hsame : SameJob
          ⟨req.jobID, art.sha256, prev, req.confirmWithinSec, now, .installing, false,
            none, none, ""⟩
          ⟨req.jobID, art.sha256, prev, req.confirmWithinSec, later, .installed, false, none,
            none, ""⟩ :=
        ⟨rfl, rfl, rfl⟩
      refine (meets_saveRecord h₃.ready hsame).bind fun _ w₄ h₄ =>
        meets_confirm ⟨h₄.1, ?_⟩ (fun _ => rfl) false
      rw [h₄.2]
      exact h₃.bin

theorem meets_install (hw : k.Idle w) (hjobID : w.notes.job.jobID = req.jobID)
    (hnext : w.files (k.h.workFile fileNext) = some (.file d)) (hsha : k.h.sha256 d = art.sha256)
    (hd : k.Legit d) : Meets k.C k.Base (k.h.install req art) w fun _ => k.Base := by
  obtain ⟨b, hbin, hb⟩ := hw.base.bin
  have hcopies : k.Copies req b d { w with notes.job.target := w.files (k.h.workFile fileNext) } :=
    ⟨hw.congr rfl rfl rfl rfl fun _ _ => rfl, hjobID, hnext, hbin, hnext⟩
  refine bind (Q := fun _ => k.Copies req b d) (meets_note hcopies) fun _ w₁ h₁ => ?_
  refine attempt (Q := fun r w' => k.Copies req b d w' ∧ ∀ s, r = .ok s → s = k.h.sha256 b)
    (meets_sha256File bin_own h₁.idle.base fun c r hr => ⟨?_, fun s hs => ?_⟩)
    (fun _ _ h₂ => meets_fail h₂.1.idle.unchanged) fun prev w₂ h₂ => ?_
  · exact h₁.touches (S := []) (refl.visited c) not_mem_nil (fun _ => not_mem_nil) nofun
  · obtain ⟨b', hb', rfl⟩ := hr s hs
    rw [h₁.bin] at hb'
    rw [Node.file.inj (some.inj hb')]
  have hprev := h₂.2 prev rfl
  replace h₂ := h₂.1
  refine attempt (Q := fun r w' => k.Copies req b d w' ∧
      (r = .ok () → w'.files k.h.prevPath = some (.file b)))
    ((meets_copyFileSync bin_own prev_own (bin_not_copy (by decide))).mono
      (fun w' hwrote => (h₂.wrote (.inl rfl) hwrote).idle.base) fun r w' hr =>
        ⟨h₂.wrote (.inl rfl) hr.1, fun hok => ?_⟩) (fun _ _ h₃ => meets_fail h₃.1.idle.unchanged)
    fun _ w₃ h₃ => ?_
  · exact (hr.2 hok).trans h₂.bin
  obtain ⟨h₃, hprevFile⟩ := h₃
  have hprevFile := hprevFile rfl
  refine attempt (Q := fun r w' => k.Copies req b d w' ∧
      (r = .ok () → k.Prepared req b d w'))
    ((meets_copyFileSync (work_own _) new_own work_not_copy).mono
      (fun w' hwrote => (h₃.wrote (.inr rfl) hwrote).idle.base) fun r w' hr =>
        ⟨h₃.wrote (.inr rfl) hr.1, fun hok => ⟨h₃.wrote (.inr rfl) hr.1, ?_, ?_⟩⟩)
    (fun _ _ h₄ => meets_removeFail h₄.1.idle.unchanged) fun _ w₄ h₄ => ?_
  · rw [hr.1.touches.files _ prev_own prev_not_new]
    exact hprevFile
  · exact (hr.2 hok).trans h₃.next
  have hprepared := h₄.2 rfl
  exact (meets_clock h₄.1.idle.base fun c now => hprepared.visited c).bind fun now w₅ h₅ =>
    meets_place h₅ hprev hsha hb hd now

/-! ## `take`, `resume` and `run` -/

theorem meets_takeRequest {copyErrs : List (String × String)} (hw : k.Idle w) :
    Meets k.C k.Base (k.h.takeRequest req copyErrs) w fun _ => k.Base := by
  -- The notes are of this upgrade from here on.
  have hidle : k.Idle { w with notes.job.jobID := req.jobID } := hw.congr rfl rfl rfl rfl
    fun _ _ => rfl
  refine bind (Q := fun _ w' => k.Idle w' ∧ w'.notes.job.jobID = req.jobID)
    (meets_note ⟨hidle, rfl⟩) fun _ w₁ h₁ => ?_
  have hvisited : ∀ {w' : World} (c : Choice), k.Idle w' ∧ w'.notes.job.jobID = req.jobID →
      k.Idle (w'.visited k.h.stateDir c) ∧ (w'.visited k.h.stateDir c).notes.job.jobID =
        req.jobID :=
    fun c h' => ⟨h'.1.visited c, h'.2⟩
  have hread : ∀ {w' : World} {p : Path}, k.Idle w' ∧ w'.notes.job.jobID = req.jobID →
      Meets k.C k.Base (k.h.readFile .file p) w'
        fun _ w' => k.Idle w' ∧ w'.notes.job.jobID = req.jobID := fun h' =>
    meets_readFile h'.1.base fun c _ _ _ => hvisited c h'
  cases [fileNext, fileManifest, fileSignature].findSome? (fun name => copyErrs.lookup name) with
  | some => exact meets_fail h₁.1.unchanged
  | none =>
    refine (hread h₁).attempt (fun _ _ h₂ => meets_fail h₂.1.unchanged) fun manifest w₂ h₂ => ?_
    refine (hread h₂).attempt (fun _ _ h₃ => meets_fail h₃.1.unchanged) fun sig w₃ h₃ => ?_
    dsimp only
    cases hcheck : k.h.keyring.check manifest sig k.h.buildSerial k.h.goarch with
    | error => exact meets_fail h₃.1.unchanged
    | ok m =>
      obtain ⟨m, art⟩ := m
      refine attempt (Q := fun r w' => (k.Idle w' ∧ w'.notes.job.jobID = req.jobID) ∧
          ∀ s, r = .ok s → ∃ d, w'.files (k.h.workFile fileNext) = some (.file d) ∧
          s = k.h.sha256 d)
        (meets_sha256File (work_own _) h₃.1.base fun c r hr => ⟨hvisited c h₃, ?_⟩)
        (fun _ _ h₄ => meets_fail h₄.1.1.unchanged) fun nextSum w₄ h₄ => ?_
      · intro s hs
        rw [visited_files (work_own _)]
        exact hr s hs
      obtain ⟨d, hd, rfl⟩ := h₄.2 nextSum rfl
      dsimp only
      split_ifs with hsum
      · exact meets_fail h₄.1.1.unchanged
      · have hsha := not_not.mp hsum
        exact meets_install h₄.1.1 h₄.1.2 hd hsha (.inr ⟨manifest, sig, m, art, hcheck, hsha⟩)

theorem mem_scratch_copied (hname : name ∈ copied) :
    k.h.workFile name ∈ k.h.scratch ∧ (k.h.workFile name).tmp ∈ k.h.scratch :=
  ⟨mem_append_left _ (mem_append_left _ (mem_map_of_mem hname)),
    mem_append_left _ (mem_append_right _ (mem_map.mpr ⟨name, hname, rfl⟩))⟩

theorem touches_copyAll {names : List String} {S : List Path} {w₀ : World}
    (hS : ∀ name ∈ names, k.h.workFile name ∈ S ∧ (k.h.workFile name).tmp ∈ S)
    (hw : k.h.Touches S w₀ w) :
    Meets k.C (k.h.Touches S w₀) (k.h.copyAll names) w fun errs w' =>
      k.h.Touches S w₀ w' ∧ ∀ e ∈ errs, e.1 ∈ names := by
  induction names generalizing w with
  | nil => exact meets_pure ⟨hw, forall_mem_nil _⟩
  | cons name names ih =>
    have hmem := hS name mem_cons_self
    have hrest : ∀ {w'}, k.h.Touches S w₀ w' →
        Meets k.C (k.h.Touches S w₀) (k.h.copyAll names) w' fun errs w' =>
          k.h.Touches S w₀ w' ∧ ∀ e ∈ errs, e.1 ∈ name :: names := fun h' =>
      (ih (fun n hn => hS n (mem_cons_of_mem _ hn)) h').mono (fun _ => id) fun _ _ h'' =>
        ⟨h''.1, fun e he => mem_cons_of_mem _ (h''.2 e he)⟩
    refine (meets_copyFromState _ hw hmem.1 hmem.2).attempt (fun e _ h₁ => ?_)
      fun _ w₁ h₁ => hrest h₁.1
    exact (hrest h₁.1).bind fun _ _ h₂ =>
      meets_pure ⟨h₂.1, forall_mem_cons.mpr ⟨mem_cons_self, h₂.2⟩⟩

/-- What is known of the request once the copies have been made. -/
structure Asked (k : Case) (errs : List (String × String)) (w : World) : Prop where
  idle : k.Idle w
  request : k.strict → errs.lookup fileRequest = some notExist ∨
    errs.lookup fileRequest = none ∧ ∃ d, w.files (k.h.workFile fileRequest) = some (.file d)

theorem meets_copies (hw : k.Idle w) : Meets k.C k.Base (k.h.copyAll copied) w k.Asked := by
  let rest := [fileNext, fileManifest, fileSignature]
  let S := rest.map k.h.workFile ++ rest.map fun name => (k.h.workFile name).tmp
  have hS : S ⊆ k.h.scratch := by
    intro p hp
    rcases mem_append.mp hp with hp | hp <;> obtain ⟨name, hname, rfl⟩ := mem_map.mp hp
    · exact (mem_scratch_copied (mem_cons_of_mem _ hname)).1
    · exact (mem_scratch_copied (mem_cons_of_mem _ hname)).2
  have hnames : ∀ name ∈ rest, name ≠ fileRequest ∧ name ++ ".tmp" ≠ fileRequest := by decide
  have hnot : k.h.workFile fileRequest ∉ S := by
    intro hp
    rcases mem_append.mp hp with hp | hp <;> obtain ⟨name, hname, heq⟩ := mem_map.mp hp
    · exact (hnames name hname).1 (congrArg Path.name heq)
    · exact (hnames name hname).2 (congrArg Path.name heq)
  -- The other copies leave the one of the request as it is.
  have hrest : ∀ {w₁}, k.Idle w₁ → Meets k.C k.Base (k.h.copyAll rest) w₁ fun errs w₂ =>
      k.Idle w₂ ∧ errs.lookup fileRequest = none ∧
        w₂.files (k.h.workFile fileRequest) = w₁.files (k.h.workFile fileRequest) := by
    intro w₁ h₁
    refine (touches_copyAll (S := S) (fun name hname => ?_) .refl).mono
      (fun _ ht => (h₁.touches (ht.mono hS)).base)
        fun errs w₂ h₂ => ⟨h₁.touches (h₂.1.mono hS), ?_, ?_⟩
    · exact ⟨mem_append_left _ (mem_map_of_mem hname),
        mem_append_right _ (mem_map.mpr ⟨_, hname, rfl⟩)⟩
    · exact lookup_eq_none_iff.mpr fun e he => bne_iff_ne.mpr (hnames _ (h₂.2 e he)).1.symm
    · exact h₂.1.files _ (work_own _) hnot
  have hmem := mem_scratch_copied (k := k) (show fileRequest ∈ _ by decide)
  refine attempt (Q := fun r w' => k.Idle w' ∧
      (r = .ok () → ∃ d, w'.files (k.h.workFile fileRequest) = some (.file d)) ∧
      (k.strict → r = .ok () ∨ r = .error notExist))
    ((meets_copyFromState _ .refl hmem.1 hmem.2).mono (fun _ ht => (hw.touches ht).base)
      fun r w' hr => ⟨hw.touches hr.1, hr.2.1, fun hs => hr.2.2 fun c hc => (hc hs).2.2.2.2⟩)
    (fun e w₁ h₁ => (hrest h₁.1).bind fun errs w₂ h₂ => meets_pure ⟨h₂.1, fun hs => .inl ?_⟩)
    fun _ w₁ h₁ => (hrest h₁.1).mono (fun _ => id)
      fun errs w₂ h₂ => ⟨h₂.1, fun _ => .inr ⟨h₂.2.1, ?_⟩⟩
  · rw [Except.error.inj ((h₁.2.2 hs).resolve_left nofun)]
    rfl
  · rw [h₂.2.2]
    exact h₁.2.1 rfl

theorem Asked.removeState {errs : List (String × String)} (hw : k.Asked errs w) :
    Meets k.C k.Base (k.h.removeState name) w fun _ => k.Asked errs := by
  have hkeeps : ∀ {w'}, k.h.Touches [] w w' → k.Asked errs w' := by
    refine fun ht => ⟨hw.idle.touches (ht.mono (nil_subset _)), ?_⟩
    rw [ht.files _ (work_own _) not_mem_nil]
    exact hw.request
  exact (touches_removeState .refl).mono (fun _ ht => (hkeeps ht).idle.base) fun _ _ => hkeeps

theorem meets_giveUp {err : Option String} (hw : k.Base w)
    (hstrict : k.strict → err = some notExist) :
    Meets k.C k.Base (k.h.giveUp err) w fun _ => k.Base := by
  refine (stable_base.removeWorkArtifacts hw).bind fun _ w₁ h₁ =>
    bind (Q := fun _ => k.Base) (meets_note ?_) fun _ _ h₂ => meets_pure h₂
  split_ifs with herr
  · exact h₁
  · exact h₁.logged (fun hs => absurd (hstrict hs) herr) fun _ => .inr rfl

theorem meets_take (hw : k.Base w) (hnone : w.files k.h.applyingPath = none)
    (hfresh : k.once → w.Fresh) : Meets k.C k.Base k.h.take w fun _ => k.Base := by
  have hidle : k.Idle { w with notes.job := { before := w.files k.h.binPath } } := by
    refine ⟨⟨hw.bin, fun hne => absurd hnone hne, hw.outside, hw.named,
      fun _ hne => absurd hnone hne, hw.log, fun ho => .inl (hfresh ho)⟩, hnone, hfresh, rfl⟩
  have hclean : ∀ {w' : World} {r : Except String Unit}, k.Idle w' → Meets k.C k.Base (do
      k.h.removeWorkArtifacts
      return r) w' fun _ => k.Base := fun h' =>
    (stable_base.removeWorkArtifacts h'.base).bind fun _ _ h'' => meets_pure h''
  refine bind (Q := fun _ => k.Idle) (meets_note hidle) fun _ w₁ h₁ => ?_
  refine (meets_copies h₁).bind fun errs w₂ h₂ => h₂.removeState.bind fun _ w₃ h₃ =>
    h₃.removeState.bind fun _ w₄ h₄ => h₄.removeState.bind fun _ w₅ h₅ => h₅.removeState.attempt
    (fun _ _ h₆ => hclean h₆.idle) fun _ w₆ h₆ => ?_
  refine bind (Q := fun r w' => k.Idle w' ∧ (k.strict → errs.lookup fileRequest = some notExist ∨
      errs.lookup fileRequest = none ∧ ∃ d, r = .ok d))
    (meets_readFile h₆.idle.base fun c r hc hr => ⟨h₆.idle.visited c, fun hs => ?_⟩)
    fun r w₇ h₇ => ?_
  · refine (h₆.request hs).imp_right (And.imp_right fun ⟨d, hd⟩ => ⟨d, ?_⟩)
    rw [hr (hc hs).2.2.2.2.fails, regular, visited_files (work_own _), hd]
  obtain ⟨hidle, hrequest⟩ := h₇
  cases herr : errs.lookup fileRequest with
  | some =>
    rw [herr] at hrequest
    have hgone := fun hs => (hrequest hs).resolve_right fun h => absurd h.1 nofun
    cases r <;> exact meets_giveUp hidle.base hgone
  | none =>
    rw [herr] at hrequest
    cases r with
    | error =>
      refine meets_giveUp hidle.base fun hs => ?_
      obtain h | ⟨-, d, h⟩ := hrequest hs <;> cases h
    | ok reqData =>
      dsimp only
      cases k.h.decodeRequest reqData with
      | none => exact hclean hidle
      | some => exact meets_takeRequest hidle

theorem meets_healthyOK (hw : k.Placed record w) (state : Bool) :
    Meets k.C k.Base (k.h.healthyOK state record) w fun ok w' => match ok with
      | true => k.Base w' ∧ (k.strict → (quiet (w'.files k.h.binPath) w'.notes.job).Holds k.h)
      | false => k.Ready record w' := by
  unfold healthyOK
  cases state with
  | false => exact meets_pure hw.ready
  | true =>
    rw [if_pos rfl]
    refine meets_act hw.ready.base fun c _ => ?_
    have hvisited := hw.visited c
    split_ifs
    · exact hvisited.logHealthy
    · exact hvisited.ready

theorem meets_saveConfirm (hw : k.Placed record w)
    (hsame : SameJob record record') (hstate : k.strict → state = true) :
    Meets k.C k.Base (do
      let _ ← k.h.saveRecord record'
      k.h.confirm state record' true) w fun _ => k.Base := by
  refine (meets_saveRecord hw.ready hsame).bind fun _ w₁ h₁ =>
    meets_confirm ⟨h₁.1, ?_⟩ hstate true
  rw [h₁.2, hsame.targetSHA]
  exact hw.bin

theorem meets_resume (hw : k.Ready record w) :
    Meets k.C k.Base (k.h.resume record) w fun _ => k.Base := by
  refine bind (Q := fun r w' => k.Ready record w' ∧ (k.strict → r.toBool = true))
    (meets_operate hw.base (fun c e hc herr => ⟨hw.visited c, fun hs => ?_⟩)
      fun c w' _ _ hok => ?_) fun r w₁ h₁ => ?_
  · have hfails := herr.resolve_right nofun
    rw [(hc hs).2.2.1] at hfails
    cases hfails
  · obtain rfl := Except.ok.inj hok
    exact ⟨hw.visited c, fun _ => rfl⟩
  obtain ⟨h₁, hstate⟩ := h₁
  generalize r.toBool = state at hstate
  refine h₁.meets_digest.bind fun cur w₂ h₂ => ?_
  refine bind (Q := fun _ w' => k.Ready record w' ∧ k.Sums cur w')
    (meets_clock h₂.1.base fun c _ => ⟨h₂.1.visited c, h₂.2.visited c⟩) fun now w₃ ⟨h₃, hcur⟩ => ?_
  have hplaced : cur = record.targetSHA256 → k.Placed record w₃ := by
    intro heq
    rcases hcur with hempty | ⟨b, hbin, hsum⟩
    · exact absurd (heq.symm.trans hempty) h₃.named
    · exact ⟨h₃, b, hbin, hsum.symm.trans heq⟩
  cases record.stage with
  | installing =>
    dsimp only
    by_cases htarget : cur = record.targetSHA256
    · rw [if_pos htarget]
      exact meets_saveConfirm (hplaced htarget) ⟨rfl, rfl, rfl⟩ hstate
    · split_ifs with hprev
      · exact (finish_some h₃.base h₃.fresh hstate fun hs _ => h₃.before_of_sums hcur hprev hs).bind
          fun _ _ h₄ => meets_pure h₄
      · exact meets_rollbackWith h₃ hstate _ _ _ _
  | installed =>
    dsimp only
    by_cases htarget : cur ≠ record.targetSHA256
    · rw [if_pos htarget]
      exact meets_rollbackWith h₃ hstate _ _ _ _
    · have hplaced := hplaced (not_not.mp htarget)
      split_ifs with hresumed
      · refine (meets_healthyOK hplaced state).bind fun ok w₄ h₄ => ?_
        cases ok with
        | true => exact (finish_none h₄.1 h₄.2).bind fun _ _ h₅ => meets_pure h₅
        | false => exact meets_rollbackWith h₄ hstate _ _ _ _
      · exact meets_saveConfirm hplaced ⟨rfl, rfl, rfl⟩ hstate
  | rollingBack | unknown => exact meets_rollbackWith h₃ hstate _ _ _ _

theorem meets_loadRecord (hw : k.Base w) (hthere : w.files k.h.applyingPath ≠ none)
    (hfresh : k.once → w.Fresh) :
    Meets k.C k.Base k.h.loadRecord w fun r w' => match r with
      | .ok record => k.Ready record w'
      | .error _ => k.Base w' ∧ (k.once → w'.Fresh) ∧ ¬ k.strict := by
  refine meets_act hw fun c hc => ?_
  have hbase : k.Base (w.visited k.h.stateDir c) :=
    stable_base.touches hw (refl.visited c)
  have hsame : (w.visited k.h.stateDir c).files k.h.applyingPath = w.files k.h.applyingPath :=
    visited_files (work_own _)
  rw [← hsame] at hthere
  cases hfails : c.fails .record with
  | some =>
    refine ⟨hbase, hfresh, fun hs => ?_⟩
    rw [(hc hs).2.2.2.1] at hfails
    cases hfails
  | none =>
    -- What is in the file is a record that has been written there.
    have hstrict : ∀ x, (w.visited k.h.stateDir c).files k.h.applyingPath = some x → k.strict →
        ∃ record b t, x = .record record ∧ k.InJob record b t (w.visited k.h.stateDir c) := by
      intro x hx hs
      obtain ⟨record, b, t, hrecord, hjob⟩ := hbase.record hs hthere
      exact ⟨record, b, t, some.inj (hx.symm.trans hrecord), hjob⟩
    cases hfile : (w.visited k.h.stateDir c).files k.h.applyingPath with
    | none => exact absurd hfile hthere
    | some x => cases x with
      | file | other =>
        refine ⟨hbase, hfresh, fun hs => ?_⟩
        obtain ⟨_, _, _, heq, -⟩ := hstrict _ hfile hs
        cases heq
      | record record =>
        refine ⟨hbase, hbase.prev hthere, hbase.named record hfile, hfresh, fun hs => ?_⟩
        obtain ⟨record', b, t, heq, hjob⟩ := hstrict _ hfile hs
        rw [Node.record.inj heq]
        exact ⟨b, t, hjob⟩

/-- **A run of the helper keeps it**, whether it returns or is cut off. -/
theorem meets_run (hw : k.Base w) (hfresh : k.once → w.Fresh) :
    Meets k.C k.Base k.h.run w fun _ => k.Base := by
  have hlook : ∀ {w' : World}, k.Base w' ∧ (k.once → w'.Fresh) →
      Meets k.C k.Base (k.h.operate .file fun _ w => .ok w) w' fun _ w'' =>
        (k.Base w'' ∧ (k.once → w''.Fresh)) ∧
          w''.files k.h.applyingPath = w'.files k.h.applyingPath := by
    intro w' h'
    have hvisited : ∀ c, (k.Base (w'.visited k.h.stateDir c) ∧
        (k.once → (w'.visited k.h.stateDir c).Fresh)) ∧
        (w'.visited k.h.stateDir c).files k.h.applyingPath = w'.files k.h.applyingPath := fun c =>
      ⟨⟨stable_base.touches h'.1 (refl.visited c), h'.2⟩, visited_files (work_own _)⟩
    refine meets_operate h'.1 (fun c _ _ _ => hvisited c) fun c w'' _ _ hok => ?_
    obtain rfl := Except.ok.inj hok
    exact hvisited c
  refine (hlook ⟨hw, hfresh⟩).attempt (fun _ _ h₁ => meets_pure h₁.1.1) fun _ w₁ h₁ => ?_
  refine bind (Q := fun r w' => (k.Base w' ∧ (k.once → w'.Fresh)) ∧
      ∀ there, r = .ok there → there = (w'.files k.h.applyingPath).isSome)
    (meets_lstat h₁.1.1 fun c r _ hr => ⟨⟨stable_base.touches h₁.1.1 (refl.visited c),
      h₁.1.2⟩, hr⟩) fun r w₂ h₂ => ?_
  obtain ⟨⟨hbase, hfresh⟩, hthere⟩ := h₂
  rcases r with e | _ | _
  · exact meets_pure hbase
  · have hnone : w₂.files k.h.applyingPath = none := by
      have hsome := hthere false rfl
      exact isNone_iff_eq_none.mp (isSome_eq_false_iff.mp hsome.symm)
    refine (hlook ⟨hbase, hfresh⟩).attempt (fun _ _ h₃ => meets_pure h₃.1.1) fun _ w₃ h₃ => ?_
    refine bind (Q := fun _ w' => (k.Base w' ∧ (k.once → w'.Fresh)) ∧
        w'.files k.h.applyingPath = none)
      (meets_lstat h₃.1.1 fun c _ _ _ => ⟨⟨stable_base.touches h₃.1.1 (refl.visited c),
        h₃.1.2⟩, ?_⟩) fun r w₄ h₄ => ?_
    · exact (visited_files (work_own _)).trans (h₃.2.trans hnone)
    rcases r with e | _ | _
    · exact meets_pure h₄.1.1
    · exact meets_pure h₄.1.1
    · exact meets_take h₄.1.1 h₄.2 h₄.1.2
  · have hsome : w₂.files k.h.applyingPath ≠ none :=
      isSome_iff_ne_none.mp (hthere true rfl).symm
    refine (meets_loadRecord hbase hsome hfresh).bind fun r w₃ h₃ => ?_
    cases r with
    | error => exact meets_giveUp h₃.1 fun hs => absurd hs h₃.2.2
    | ok => exact meets_resume h₃

end Pandora.Upgrade.Case
