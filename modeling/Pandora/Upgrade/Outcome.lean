import Pandora.Foundation.Runs
import Pandora.Upgrade.Steps

/-!
# What comes of an upgrade

Three statements about every run of the helper, with any number of restarts, each of which may be
cut off before any of its steps.

* Only releases that are signed and newer are put in place, and nothing is written elsewhere
  (`only_signed_installed`).
* What is reported is true (`outcome_true`), provided that five operations do not fail.  The sync of
  the directory is one of them: when it fails after the binary has been put in place, the upgrade
  is reported as failed and the new binary stays (`sync_failed`).
* An upgrade that has been confirmed stays (`confirmed_stays`), provided that its record has been
  removed before the helper is started again.  The marker of the new process goes before the record
  does, and a helper that finds the record without the marker puts the old binary back
  (`confirmed_lost`).
-/

namespace Pandora.Upgrade

open Crash List Prog

/-! ## A helper -/

/-- An injective digest that gives the release `[2]` a digest of the form that a manifest needs. -/
def sampleSHA (b : Bytes) : String :=
  if b = [2] then String.ofList (replicate 64 'a') else String.ofList ('x' :: b.map Char.ofUInt8)

theorem sampleSHA_ne (b : Bytes) : sampleSHA b ≠ "" := by
  intro hempty
  unfold sampleSHA at hempty
  split_ifs at hempty with hb
  · revert hempty
    decide
  · have hlist := congrArg String.toList hempty
    rw [String.toList_ofList] at hlist
    cases hlist

theorem ofUInt8_injective : Function.Injective Char.ofUInt8 := by
  intro u v huv
  have hval : u.toUInt32 = v.toUInt32 := congrArg Char.val huv
  exact UInt8.toUInt32_inj.mp hval

theorem sampleSHA_injective : Function.Injective sampleSHA := by
  have hhead : ∀ b : Bytes, replicate 64 'a' ≠ 'x' :: b.map Char.ofUInt8 := by
    intro b hlist
    have hchar : some 'a' = some 'x' := congrArg head? hlist
    revert hchar
    decide
  intro b c hbc
  unfold sampleSHA at hbc
  split_ifs at hbc with hb hc hc
  · exact hb.trans hc.symm
  · exact absurd (String.ofList_inj.mp hbc) (hhead c)
  · exact absurd (String.ofList_inj.mp hbc).symm (hhead b)
  · have htail := (cons.inj (String.ofList_inj.mp hbc)).2
    exact map_injective_iff.mpr ofUInt8_injective htail

def sampleMarker : Marker := ⟨"j", sampleSHA [2]⟩

def sampleKeyring : Keyring where
  Key := Unit
  keys := [("0123456789abcdef", ())]
  decodeSignature := fun _ => .ok ⟨"0123456789abcdef", ""⟩
  decodeBase64 := fun _ => .ok (replicate 64 0)
  ed25519 := fun _ _ _ => true
  decodeManifest := fun _ => .ok (⟨1, "v", 2, [("linux-amd64", ⟨"pdnd", sampleSHA [2]⟩)]⟩, true)

def sample : Helper where
  stateDir := "state"
  workDir := "work"
  binPath := ⟨"bin", "pdnd"⟩
  keyring := sampleKeyring
  buildSerial := 1
  goarch := "amd64"
  sha256 := sampleSHA
  decodeRequest := fun _ => some ⟨"j", 60⟩
  decodeMarker := fun _ => some sampleMarker
  encodeMarker := fun _ => []
  encodeResult := fun _ => []
  sha256_ne := sampleSHA_ne
  work_ne_bin := by decide
  work_ne_state := by decide
  bin_ne_state := by decide

/-- The release `[1]` is in place. -/
def sampleWorld : World where
  files := fun p => if p = sample.binPath then some (.file [1]) else none

/-- The state directory holds a request and the release `[2]`, and the new process is healthy. -/
def offered : Choice where
  pandora := fun _ => some (.file [2])
  content := fun _ => [2]

/-! ## Starts -/

variable {h : Helper} {w : World} {starts : List (List Choice)}

/-- What holds at every moment of a run holds however often the helper is started. -/
theorem Case.base_runs {k : Case} (honce : ¬ k.once) (hw : k.Base w)
    (hstarts : ∀ cs ∈ starts, ∀ c ∈ cs, k.C c) : k.Base (k.h.runs w starts) := by
  induction starts generalizing w with
  | nil => exact hw
  | cons cs starts ih =>
    have hnext : k.Base (k.h.run.again w cs) :=
      (meets_run hw fun ho => absurd ho honce).again (hstarts cs mem_cons_self)
    exact ih hnext fun cs hcs => hstarts cs (mem_cons_of_mem _ hcs)

theorem Helper.idle_run (hrecord : w.files h.applyingPath = none) :
    Meets (fun c => c.pandora fileRequest = none) (h.Touches [] w) h.run w fun _ =>
      h.Touches [] w := by
  have hlook : ∀ {w' : World}, h.Touches [] w w' →
      Meets (fun c => c.pandora fileRequest = none) (h.Touches [] w)
        (h.operate .file fun _ w => .ok w) w' fun _ => h.Touches [] w :=
    touches_look fun _ _ _ hok => (Except.ok.inj hok).symm
  refine (hlook .refl).attempt (fun _ _ h₁ => meets_pure h₁) fun _ w₁ h₁ => ?_
  refine Meets.bind (Q := fun r w' => h.Touches [] w w' ∧ r ≠ .ok true)
    (meets_lstat h₁ fun c r _ hr => ⟨h₁.visited c, fun htrue => ?_⟩) fun r w₂ h₂ => ?_
  · have hthere := hr true htrue
    rw [(h₁.visited c).files h.applyingPath (work_own _) not_mem_nil, hrecord] at hthere
    cases hthere
  rcases r with e | _ | _
  · exact meets_pure h₂.1
  · refine (hlook h₂.1).attempt (fun _ _ h₃ => meets_pure h₃) fun _ w₃ h₃ => ?_
    refine Meets.bind (Q := fun r w' => h.Touches [] w w' ∧ r ≠ .ok true)
      (meets_lstat h₃ fun c r hc hr => ⟨h₃.visited c, fun htrue => ?_⟩) fun r w₄ h₄ => ?_
    · have hthere := hr true htrue
      have hfile : (w₃.visited h.stateDir c).files (h.stateFile fileRequest) = none :=
        (if_pos rfl).trans hc
      rw [hfile] at hthere
      cases hthere
    rcases r with e | _ | _
    · exact meets_pure h₄.1
    · exact meets_pure h₄.1
    · exact absurd rfl h₄.2
  · exact absurd rfl h₂.2

/-! ## What is put in place -/

/-- **Only releases that are signed and newer are ever in place**, and files outside the directories
of the helper stay as they are. -/
theorem only_signed_installed {b₀ : Bytes} (hbin : w.files h.binPath = some (.file b₀))
    (hrecord : w.files h.applyingPath = none) (starts : List (List Choice)) :
    (∃ b, (h.runs w starts).files h.binPath = some (.file b) ∧ (b = b₀ ∨
      ∃ manifest sig m art, h.keyring.check manifest sig h.buildSerial h.goarch = .ok (m, art) ∧
        m.artifact h.goarch = .ok art ∧ h.buildSerial < m.serial ∧ h.sha256 b = art.sha256)) ∧
      ∀ p, ¬ h.Writable p → (h.runs w starts).files p = w.files p := by
  let k : Case := ⟨h, w, False, False, False.elim⟩
  have hstart : k.Base w := Case.base_start hbin hrecord False.elim False.elim
  have hbase : k.Base (h.runs w starts) := Case.base_runs id hstart fun _ _ _ _ => False.elim
  refine ⟨?_, hbase.outside⟩
  obtain ⟨b, hfile, hlegit⟩ := hbase.bin
  refine ⟨b, hfile, ?_⟩
  rcases hlegit with hb | ⟨manifest, sig, m, art, hcheck, hsha⟩
  · have hnode := Option.some.inj (hb.symm.trans hbin)
    exact .inl (Node.file.inj hnode)
  · obtain ⟨-, -, hart, hserial⟩ := Keyring.check_ok hcheck
    exact .inr ⟨manifest, sig, m, art, hcheck, hart, hserial, hsha⟩

/-- The release that is offered is put in place, and `pandora` may do what it likes meanwhile. -/
theorem sample_installed :
    (sample.runs sampleWorld [replicate 56 offered]).files sample.binPath = some (.file [2]) ∧
      ∀ p, ¬ sample.Writable p →
        (sample.runs sampleWorld [replicate 56 offered]).files p = sampleWorld.files p :=
  ⟨by decide +kernel, (only_signed_installed rfl rfl [replicate 56 offered]).2⟩

/-! ## What is reported -/

theorem offered_calm {n : ℕ} : ∀ c ∈ replicate n offered, c.Calm := fun c hc => by
  rw [eq_of_mem_replicate hc]
  decide

/-- Once a marker has been read the helper is started again only when it has removed its record, and
there is no new request. -/
def Helper.Settled (h : Helper) (w : World) (cs : List Choice) : Prop :=
  ¬ w.Fresh → w.files h.applyingPath = none ∧ ∀ c ∈ cs, c.pandora fileRequest = none

/-- No other marker has been read than the one that `Confirmed` is about. -/
theorem Helper.Confirmed.split {later earlier : List Event} {m : Marker} (hw : h.Confirmed w)
    (hlog : w.notes.log = later ++ .healthy m :: earlier) :
    (∃ b, w.files h.binPath = some (.file b) ∧ h.sha256 b = m.sha256) ∧
      ∀ e ∈ later, ∃ bin job, e = .quiet bin job := by
  obtain ⟨later', m', earlier', b, hlog', hquiet, hearlier, hfile, hsha⟩ := hw
  rcases append_eq_append_iff.mp (hlog.symm.trans hlog') with ⟨mid, rfl, hmid⟩ | ⟨mid, rfl, hmid⟩
  · cases mid with
    | nil =>
      obtain ⟨hm, rfl⟩ := cons.inj hmid
      obtain rfl := Event.healthy.inj hm
      refine ⟨⟨b, hfile, hsha⟩, ?_⟩
      rw [append_nil] at hquiet
      exact hquiet
    | cons =>
      obtain ⟨rfl, -⟩ := cons.inj hmid
      obtain ⟨bin, job, heq⟩ := hquiet _ (mem_append_right _ mem_cons_self)
      cases heq
  · cases mid with
    | nil =>
      obtain ⟨hm, rfl⟩ := cons.inj hmid
      obtain rfl := Event.healthy.inj hm
      rw [append_nil]
      exact ⟨⟨b, hfile, hsha⟩, hquiet⟩
    | cons =>
      obtain ⟨-, rfl⟩ := cons.inj hmid
      exact absurd (mem_append_right _ mem_cons_self) (hearlier m)

/-- **An upgrade that has been confirmed stays**: what the marker names is in place from then on,
and no result is written any more. -/
theorem confirmed_stays {b : Bytes} (hbin : w.files h.binPath = some (.file b))
    (hrecord : w.files h.applyingPath = none) (hlog : w.notes.log = [])
    (hsettled : Runs.Along h.run.again h.Settled w starts) (later : List Event) (m : Marker)
    (earlier : List Event) (hread : (h.runs w starts).notes.log = later ++ .healthy m :: earlier) :
    (∃ b, (h.runs w starts).files h.binPath = some (.file b) ∧ h.sha256 b = m.sha256) ∧
      ∀ e ∈ later, ∀ r bin job, e ≠ .result r bin job := by
  let k : Case := ⟨h, w, False, True, False.elim⟩
  have hstart : k.Base w := by
    refine Case.base_start hbin hrecord False.elim fun _ m hm => ?_
    rw [hlog] at hm
    cases hm
  have hstep : ∀ w' cs, k.Base w' → h.Settled w' cs → k.Base (h.run.again w' cs) := by
    intro w' cs hw' hs
    by_cases hfresh : w'.Fresh
    · exact (Case.meets_run hw' fun _ => hfresh).again fun _ _ => False.elim
    · obtain ⟨hnone, hquiet⟩ := hs hfresh
      have htouch : h.Touches [] w' (h.run.again w' cs) := (Helper.idle_run hnone).again hquiet
      exact Case.stable_base.touches hw' (htouch.mono (nil_subset _))
  have hbase : k.Base (h.runs w starts) := hsettled.invariant hstep hstart
  rcases hbase.once trivial with hfresh | hconfirmed
  · refine absurd ?_ (hfresh m)
    rw [hread]
    exact mem_append_right _ mem_cons_self
  · obtain ⟨hplaced, hquiet⟩ := hconfirmed.split hread
    refine ⟨hplaced, fun e he r bin job heq => ?_⟩
    obtain ⟨bin', job', hq⟩ := hquiet e he
    rw [heq] at hq
    cases hq

/-- The new process is healthy, and there is no request. -/
def connected : Choice where
  pandora := fun name => if name = fileHealthy then some (.file [2]) else none

/-- An upgrade is confirmed; after that the helper is started and finds nothing to do. -/
theorem sample_stays : ∃ b, (sample.runs sampleWorld
        [replicate 90 offered, replicate 40 connected]).files sample.binPath =
      some (.file b) ∧ sampleSHA b = sampleMarker.sha256 := by
  have hlog : (sample.runs sampleWorld [replicate 90 offered, replicate 40 connected]).notes.log =
      [.quiet (some (.file [2])) ⟨"j", some (.file [1]), some (.file [2]), some sampleMarker⟩] ++
        .healthy sampleMarker :: [] := by decide +kernel
  have hsettled : Runs.Along sample.run.again sample.Settled sampleWorld
      [replicate 90 offered, replicate 40 connected] := by
    refine ⟨fun hnot => ?_, fun _ => ⟨?_, fun c hc => ?_⟩, trivial⟩
    · exact absurd (fun _ => not_mem_nil) hnot
    · decide +kernel
    · rw [eq_of_mem_replicate hc]
      decide
  exact (confirmed_stays rfl rfl rfl hsettled _ _ _ hlog).1

/-- The helper is cut off while it waits, and started again; it reads the marker, removes it and is
cut off before it removes the record.  The next start puts the old binary back. -/
theorem confirmed_lost :
    let w := sample.runs sampleWorld
      [replicate 69 offered, replicate 21 connected, replicate 40 {}]
    w.notes.log = [.result ⟨"j", .rolledBack, .confirmTimeout, "新进程 60 秒内没连上面板，已装回旧版"⟩
        (some (.file [1])) ⟨"j", some (.file [1]), some (.file [2]), some sampleMarker⟩,
      .healthy sampleMarker] ∧ w.files sample.binPath = some (.file [1]) := by
  intro w
  exact ⟨by decide +kernel, by decide +kernel⟩

end Pandora.Upgrade
