import Pandora.Foundation.Crash
import Pandora.Upgrade.Manifest

/-!
# The files of the upgrade helper

The helper runs as root.  It takes a release out of a directory that belongs to the unprivileged
user `pandora` (the state directory), works in a directory of its own, and puts the binary in place
next to its own copies of it.  Everything it does to files is here, step by step; it may be cut off
before each of them.

The state directory may be changed by others at any time: every step begins with whatever it holds
by then.  The other two directories are written by the helper alone.  An operation may fail for
reasons that are not modelled; a `Choice` says whether it does.
-/

namespace Pandora.Upgrade

open Crash List Function Prog Except

structure Path where
  dir : String
  name : String
  deriving DecidableEq

/-- The name with something after it. -/
def Path.ext (p : Path) (s : String) : Path := { p with name := p.name ++ s }

def Path.tmp (p : Path) : Path := p.ext ".tmp"

inductive Phase
  | failed
  | rolledBack
  deriving DecidableEq

/-- How far an upgrade is. -/
inductive Stage
  | installing
  | installed
  | rollingBack
  | unknown
  deriving DecidableEq

/-- `workRecord`. -/
structure Record where
  jobID : String
  targetSHA256 : String
  prevSHA256 : String
  confirmWithinSec : ℕ
  startedAt : ℤ
  stage : Stage
  resumed : Bool := false
  resultPhase : Option Phase := none
  resultCode : Option Reason := none
  resultDetail : String := ""
  deriving DecidableEq

/-- What a name in a directory stands for. -/
inductive Node
  | file (data : Bytes)
  /-- A file that holds a record, as JSON. -/
  | record (r : Record)
  /-- A directory, a link or a device; in the state directory also a file with several links. -/
  | other
  deriving DecidableEq

/-- A regular file that is not too large. -/
def Node.Fits (max : ℕ) : Node → Prop
  | .file data => data.length ≤ max
  | .record _ | .other => False

instance (max : ℕ) : DecidablePred (Node.Fits max)
  | .file _ => inferInstanceAs (Decidable (_ ≤ _))
  | .record _ | .other => .isFalse not_false

/-- Operations whose failure is told apart. -/
inductive Point
  /-- Any operation on files that is not one of the others. -/
  | file
  /-- The sync of the directory after the new binary has been put in place. -/
  | installed
  /-- The writing of a result. -/
  | result
  /-- The opening of the state directory when an upgrade is resumed. -/
  | state
  /-- The reading of the record. -/
  | record
  /-- The copying of a request, and the reading of the copy. -/
  | request
  /-- The restart of the service. -/
  | restart
  /-- The wait between two looks at the marker. -/
  | sleep
  deriving DecidableEq

/-- What a step meets. -/
structure Choice where
  /-- What the state directory holds. -/
  pandora : String → Option Node := fun _ => none
  /-- The errors of operations. -/
  fails : Point → Option String := fun _ => none
  /-- What a write has written when it fails. -/
  data : Bytes := []
  /-- What is read from a file of the state directory that has been opened. -/
  content : String → Bytes := fun _ => []
  /-- The clock, in nanoseconds. -/
  now : ℤ := 0

structure Result where
  jobID : String
  phase : Phase
  reasonCode : Reason
  detail : String
  deriving DecidableEq

structure Marker where
  jobID : String
  sha256 : String
  deriving DecidableEq

/-- An upgrade, as the statements see it. -/
structure Job where
  jobID : String := ""
  /-- The binary that was in place before. -/
  before : Option Node := none
  /-- The binary that is to be put in place. -/
  target : Option Node := none
  /-- The marker of the new process that has been read. -/
  read : Option Marker := none
  deriving DecidableEq

/-- What has happened, as far as statements are about it; `bin` is what is in place then. -/
inductive Event
  /-- A result has been written. -/
  | result (r : Result) (bin : Option Node) (job : Job)
  /-- `healthyOK` has been true. -/
  | healthy (m : Marker)
  /-- The upgrade is finished, and no result has been written. -/
  | quiet (bin : Option Node) (job : Job)
  deriving DecidableEq

/-- What is written down for the sake of the statements. -/
structure Notes where
  job : Job := {}
  /-- The last first. -/
  log : List Event := []

structure World where
  files : Path → Option Node
  notes : Notes := {}

def World.put (w : World) (p : Path) (x : Option Node) : World :=
  { w with files := update w.files p x }

theorem World.put_of_ne {w : World} {p q : Path} {x : Option Node} (hne : q ≠ p) :
    (w.put p x).files q = w.files q := update_of_ne hne _ _

/-- Others write into the state directory. -/
def World.visited (w : World) (stateDir : String) (c : Choice) : World :=
  { w with files := fun p => if p.dir = stateDir then c.pandora p.name else w.files p }

structure Request where
  jobID : String
  confirmWithinSec : ℕ

/-- `Helper`, and the formats that it reads and writes. -/
structure Helper where
  stateDir : String
  workDir : String
  binPath : Path
  keyring : Keyring
  buildSerial : ℕ
  goarch : String
  sha256 : Bytes → String
  /-- The request, if it is valid JSON with a valid `job_id`. -/
  decodeRequest : Bytes → Option Request
  decodeMarker : Bytes → Option Marker
  encodeMarker : Marker → Bytes
  encodeResult : Result → Bytes
  sha256_ne : ∀ b, sha256 b ≠ ""
  work_ne_bin : workDir ≠ binPath.dir
  work_ne_state : workDir ≠ stateDir
  bin_ne_state : binPath.dir ≠ stateDir

abbrev H (α : Type) := Prog Choice World α

namespace Helper

variable (h : Helper)

def prevPath : Path := h.binPath.ext ".prev"
def newPath : Path := h.binPath.ext ".new"
def workFile (name : String) : Path := ⟨h.workDir, name⟩
def stateFile (name : String) : Path := ⟨h.stateDir, name⟩

/-- One step, after others have written into the state directory. -/
def act {α : Type} (f : Choice → World → α × World) : H α :=
  step fun c w => f c (w.visited h.stateDir c)

/-! ## Operations on files -/

/-- An operation that fails or does something to the files. -/
def operate (pt : Point) (f : Choice → World → Except String World) : H (Except String Unit) :=
  h.act fun c w => match c.fails pt with
    | some e => (.error e, w)
    | none => match f c w with
      | .error e => (.error e, w)
      | .ok w => (.ok (), w)

def notExist : String := "no such file or directory"

/-- `os.Remove`, whose error is ignored. -/
def remove (p : Path) : H Unit := do
  let _ ← h.operate .file fun _ w => .ok (w.put p none)

def rename (pt : Point) (old new : Path) : H (Except String Unit) :=
  h.operate pt fun _ w => match w.files old with
    | none => .error notExist
    | some x => .ok ((w.put old none).put new (some x))

/-- `renameSync`; `sync` is the sync of the directory. -/
def renameSync (pt sync : Point) (old new : Path) : H (Except String Unit) := do
  match ← h.rename pt old new with
  | .error e => return .error e
  | .ok () => h.operate sync fun _ w => .ok w

/-- A write into a new file, which may end early. -/
def write (pt : Point) (p : Path) (source : Choice → World → Except String Node) :
    H (Except String Unit) :=
  h.act fun c w => match c.fails pt, source c w with
    | none, .ok x => (.ok (), w.put p (some x))
    | some e, _ => (.error e, w.put p (some (.file c.data)))
    | none, .error e => (.error e, w.put p (some (.file c.data)))

/-- A file is written under its name with `.tmp`, synced and renamed. -/
def writeSync (pt : Point) (source : Choice → World → Except String Node) (dst : Path) :
    H (Except String Unit) := do
  match ← h.operate pt (fun _ w => .ok (w.put dst.tmp (some (.file [])))) with
  | .error e => return .error e
  | .ok () => match ← h.write pt dst.tmp source with
    | .error e =>
      h.remove dst.tmp
      return .error e
    | .ok () => match ← h.operate pt (fun _ w => .ok w) with
      | .error e =>
        h.remove dst.tmp
        return .error e
      | .ok () => h.renameSync pt pt dst.tmp dst

/-- The content of a regular file. -/
def regular (w : World) (p : Path) : Except String Bytes :=
  match w.files p with
  | some (.file data) => .ok data
  | some _ => .error (p.name ++ ": 不是普通文件")
  | none => .error notExist

def writeFileSync (path : Path) (x : Node) : H (Except String Unit) :=
  h.writeSync .file (fun _ _ => .ok x) path

def copyFileSync (src dst : Path) : H (Except String Unit) := do
  match ← h.operate .file (fun _ w => (regular w src).map fun _ => w) with
  | .error e => return .error e
  | .ok () => h.writeSync .file (fun _ w => (regular w src).map .file) dst

def sha256File (path : Path) : H (Except String String) :=
  h.act fun c w => match c.fails .file with
    | some e => (.error e, w)
    | none => ((regular w path).map h.sha256, w)

def readFile (pt : Point) (path : Path) : H (Except String Bytes) :=
  h.act fun c w => match c.fails pt with
    | some e => (.error e, w)
    | none => (regular w path, w)

/-! ## The state directory -/

/-- `openStateFile`, as far as it looks at the file. -/
def stateRegular (w : World) (name : String) (max : ℕ) : Except String Bytes :=
  match regular w (h.stateFile name) with
  | .error e => .error e
  | .ok data => if max < data.length then .error (name ++ ": 超过大小上限") else .ok data

/-- What `io.Copy` reads: up to `pandora` until it has been read. -/
def limited (name : String) (max : ℕ) (c : Choice) : Except String Bytes :=
  if max < (c.content name).length then .error (name ++ ": 拷贝超过大小上限")
  else .ok (c.content name)

def copyFromState (pt : Point) (name : String) (max : ℕ) : H (Except String Unit) := do
  match ← h.operate pt (fun _ w => (h.stateRegular w name max).map fun _ => w) with
  | .error e => return .error e
  | .ok () =>
    match ← h.writeSync pt (fun c _ => (limited name max c).map .file) (h.workFile name) with
    | .error e =>
      h.remove (h.workFile name).tmp
      return .error e
    | .ok () => return .ok ()

/-- `writeState`.  That the file is written, synced and renamed may fail for what others do to it;
each of the steps fails as `pt` says. -/
def writeState (pt : Point) (name : String) (data : Bytes) : H (Except String Unit) := do
  let tmp := h.stateFile ("." ++ name ++ ".tmp")
  h.remove tmp
  match ← h.operate pt (fun _ w => .ok (w.put tmp (some (.file [])))) with
  | .error e => return .error e
  | .ok () => match ← h.operate pt (fun _ w => .ok (w.put tmp (some (.file data)))) with
    | .error e =>
      h.remove tmp
      return .error e
    | .ok () => match ← h.operate pt (fun _ w =>
          .ok ((w.put tmp none).put (h.stateFile name) (some (.file data)))) with
      | .error e =>
        h.remove tmp
        return .error e
      | .ok () => return .ok ()

def removeState (name : String) : H (Except String Unit) :=
  h.operate .file fun _ w => .ok (w.put (h.stateFile name) none)

/-! ## Paths -/

section Paths

variable {p : Path} {s t : String}

theorem ext_ne_self (hs : s ≠ "") : p.ext s ≠ p := by
  intro heq
  have hlen := congrArg (fun q => q.name.length) heq
  simp only [Path.ext, String.length_append] at hlen
  exact hs (String.length_eq_zero_iff.mp (by omega))

theorem ext_inj : p.ext s = p.ext t ↔ s = t := by
  refine ⟨fun heq => ?_, fun heq => heq ▸ rfl⟩
  have hname := congrArg (fun q => q.name.toList) heq
  simp only [Path.ext, String.toList_append] at hname
  exact String.toList_inj.mp (append_cancel_left hname)

theorem ext_ext : (p.ext s).ext t = p.ext (s ++ t) := by
  simp only [Path.ext, String.append_assoc]

theorem tmp_ne_self : p.tmp ≠ p := ext_ne_self (by decide)

end Paths

/-! ## What the operations change -/

/-- Outside the state directory only these files are changed. -/
structure Touches (S : List Path) (w w' : World) : Prop where
  files : ∀ p, p.dir ≠ h.stateDir → p ∉ S → w'.files p = w.files p
  notes : w'.notes = w.notes

variable {h}
variable {S : List Path} {w w' : World} {C : Choice → Prop} {I : World → Prop} {α : Type}

theorem Touches.refl : h.Touches S w w := ⟨fun _ _ _ => rfl, rfl⟩

theorem Touches.trans {w'' : World} (hw : h.Touches S w w') (hw' : h.Touches S w' w'') :
    h.Touches S w w'' :=
  ⟨fun p hp hS => (hw'.files p hp hS).trans (hw.files p hp hS), hw'.notes.trans hw.notes⟩

theorem Touches.mono {S' : List Path} (hw : h.Touches S w w') (hS : S ⊆ S') : h.Touches S' w w' :=
  ⟨fun p hp hnot => hw.files p hp fun hin => hnot (hS hin), hw.notes⟩

variable {p dst : Path} {pt : Point} {f : Choice → World → Except String World} {w₀ : World}
  {D : Node → Prop} {source : Choice → World → Except String Node}
  {Q : Except String Unit → World → Prop} {name : String}

theorem Touches.put (hw : h.Touches S w w') (hp : p.dir ≠ h.stateDir → p ∈ S)
    (x : Option Node) : h.Touches S w (w'.put p x) := by
  refine ⟨fun q hq hS => ?_, hw.notes⟩
  have hne : q ≠ p := by
    rintro rfl
    exact hS (hp hq)
  exact (update_of_ne hne _ _).trans (hw.files q hq hS)

theorem visited_files {c : Choice} (hp : p.dir ≠ h.stateDir) :
    (w.visited h.stateDir c).files p = w.files p := if_neg hp

theorem Touches.visited (hw : h.Touches S w w') (c : Choice) :
    h.Touches S w (w'.visited h.stateDir c) :=
  ⟨fun p hp hS => (visited_files hp).trans (hw.files p hp hS), hw.notes⟩

theorem meets_act {f : Choice → World → α × World} {Q : α → World → Prop} (hI : I w)
    (hf : ∀ c, C c → Q (f c (w.visited h.stateDir c)).1 (f c (w.visited h.stateDir c)).2) :
    Meets C I (h.act f) w Q :=
  meets_step hI hf

theorem meets_operate (hI : I w)
    (herror : ∀ c e, C c → c.fails pt = some e ∨ f c (w.visited h.stateDir c) = .error e →
      Q (.error e) (w.visited h.stateDir c))
    (hok : ∀ c w', C c → c.fails pt = none → f c (w.visited h.stateDir c) = .ok w' →
      Q (.ok ()) w') :
    Meets C I (h.operate pt f) w Q := by
  refine meets_act hI fun c hc => ?_
  cases hfails : c.fails pt with
  | some e => exact herror c e hc (.inl hfails)
  | none => cases hf : f c (w.visited h.stateDir c) with
    | error e => exact herror c e hc (.inr hf)
    | ok w' => exact hok c w' hc hfails hf

/-- The operations at a point do not fail. -/
def Sure (C : Choice → Prop) (pt : Point) : Prop := ∀ c, C c → c.fails pt = none

theorem Sure.not_fails {c : Choice} {e : String} (h : Sure C pt) (hc : C c) :
    c.fails pt ≠ some e := by
  rw [h c hc]
  nofun

theorem meets_sure {J : World → Prop} {g : Choice → World → World} (hI : I w)
    (hJ : ∀ c, J (w.visited h.stateDir c) ∧ J (g c (w.visited h.stateDir c))) :
    Meets C I (h.operate pt fun c w => .ok (g c w)) w fun r w' =>
      J w' ∧ (Sure C pt → r = .ok ()) := by
  refine meets_operate hI (fun c e hc herr => ⟨(hJ c).1, fun hsure => ?_⟩) fun c w' _ _ hok => ?_
  · exact absurd (herr.resolve_right nofun) (hsure.not_fails hc)
  · obtain rfl := ok.inj hok
    exact ⟨(hJ c).2, fun _ => rfl⟩

theorem touches_remove (hw : h.Touches S w₀ w) (hp : p.dir ≠ h.stateDir → p ∈ S) :
    Meets C (h.Touches S w₀) (h.remove p) w fun _ => h.Touches S w₀ :=
  (meets_sure hw fun c => ⟨hw.visited c, (hw.visited c).put hp none⟩).bind fun _ _ hw' =>
    meets_pure hw'.1

theorem touches_look (hf : ∀ c w w', f c w = .ok w' → w' = w) (hw : h.Touches S w₀ w) :
    Meets C (h.Touches S w₀) (h.operate pt f) w fun _ => h.Touches S w₀ := by
  refine meets_operate hw (fun c _ _ _ => hw.visited c) fun c w' _ _ hok => ?_
  rw [hf c _ w' hok]
  exact hw.visited c

/-! ## A file that is written -/

/-- A file is as it was, or holds data such as `D` says; besides it only its `.tmp` is changed. -/
structure Wrote (h : Helper) (dst : Path) (D : Node → Prop) (w w' : World) : Prop where
  touches : h.Touches [dst, dst.tmp] w w'
  dst : w'.files dst = w.files dst ∨ ∃ d, D d ∧ w'.files dst = some d

/-- Nothing has been renamed yet. -/
structure Staged (h : Helper) (dst : Path) (w w' : World) : Prop where
  touches : h.Touches [dst, dst.tmp] w w'
  dst : w'.files dst = w.files dst

/-- Nothing fails when a file is written. -/
def Reliable (C : Choice → Prop) (pt : Point) (source : Choice → World → Except String Node) :
    Prop :=
  Sure C pt ∧ ∀ c w e, C c → source c w ≠ .error e

theorem Staged.wrote (hw : h.Staged dst w w') : h.Wrote dst D w w' :=
  ⟨hw.touches, .inl hw.dst⟩

theorem Staged.visited (hdst : dst.dir ≠ h.stateDir) (hw : h.Staged dst w w')
    (c : Choice) : h.Staged dst w (w'.visited h.stateDir c) :=
  ⟨hw.touches.visited c, (visited_files hdst).trans hw.dst⟩

theorem Staged.put (hw : h.Staged dst w w') (x : Option Node) : h.Staged dst w (w'.put dst.tmp x) :=
  ⟨hw.touches.put (fun _ => mem_cons_of_mem _ mem_cons_self) x,
    (update_of_ne tmp_ne_self.symm _ _).trans hw.dst⟩

section

variable (hdst : dst.dir ≠ h.stateDir)
include hdst

theorem staged_remove (hw : h.Staged dst w₀ w) :
    Meets C (h.Staged dst w₀) (h.remove dst.tmp) w fun _ => h.Staged dst w₀ :=
  (meets_sure hw fun c => ⟨hw.visited hdst c, (hw.visited hdst c).put none⟩).bind fun _ _ hw' =>
    meets_pure hw'.1

theorem meets_write (hw : h.Staged dst w₀ w)
    (hsource : ∀ c w', h.Touches [dst, dst.tmp] w₀ w' → ∀ d, source c w' = .ok d → D d) :
    Meets C (h.Staged dst w₀) (h.write pt dst.tmp source) w fun r w' => h.Staged dst w₀ w' ∧
      (r = .ok () → ∃ d, D d ∧ w'.files dst.tmp = some d) ∧
      (Reliable C pt source → r = .ok ()) := by
  refine meets_act hw fun c hc => ?_
  have hvisited := hw.visited hdst c
  cases hfails : c.fails pt with
  | some => exact ⟨hvisited.put _, nofun, fun hsure => absurd hfails (hsure.1.not_fails hc)⟩
  | none => cases hs : source c (w.visited h.stateDir c) with
    | error e => exact ⟨hvisited.put _, nofun, fun hsure => absurd hs (hsure.2 c _ e hc)⟩
    | ok d =>
      exact ⟨hvisited.put _, fun _ => ⟨d, hsource c _ hvisited.touches d hs, update_self _ _ _⟩,
        fun _ => rfl⟩

end

theorem meets_renameSync {sync : Point} {old new : Path} (hold : old.dir ≠ h.stateDir)
    (hnew : new.dir ≠ h.stateDir) (hne : old ≠ new) {x : Node} (hx : w.files old = some x)
    (hI : I w) (hbefore : ∀ c e, C c → c.fails pt = some e → Q (.error e) (w.visited h.stateDir c))
    (hafter : ∀ w', h.Touches [old, new] w w' → w'.files old = none → w'.files new = some x → I w' ∧
      Q (.ok ()) w' ∧ ∀ c e, C c → c.fails sync = some e → Q (.error e) w') :
    Meets C I (h.renameSync pt sync old new) w Q := by
  -- Once it has been renamed, whatever others do in the state directory.
  let after (w' : World) : Prop :=
    h.Touches [old, new] w w' ∧ w'.files old = none ∧ w'.files new = some x
  have hvisited : ∀ {w'} c, after w' → after (w'.visited h.stateDir c) := fun c ha =>
    ⟨ha.1.visited c, (visited_files hold).trans ha.2.1, (visited_files hnew).trans ha.2.2⟩
  refine Meets.bind (Q := fun r w' => (∃ e, r = .error e ∧ Q (.error e) w') ∨ r = .ok () ∧ after w')
    (meets_operate hI (fun c e hc herr => .inl ⟨e, rfl, hbefore c e hc (herr.resolve_right ?_)⟩)
      fun c w' _ _ hok => .inr ⟨rfl, ?_⟩) fun r w' hr => ?_
  · rw [visited_files hold, hx]
    nofun
  · rw [visited_files hold, hx] at hok
    obtain rfl := ok.inj hok
    refine ⟨((Touches.refl.visited c).put (fun _ => mem_cons_self) _).put
      (fun _ => mem_cons_of_mem _ mem_cons_self) _, ?_, update_self _ _ _⟩
    exact (update_of_ne hne _ _).trans (update_self _ _ _)
  · rcases hr with ⟨e, rfl, hQ⟩ | ⟨rfl, ha⟩
    · exact meets_pure hQ
    · refine meets_operate (hafter w' ha.1 ha.2.1 ha.2.2).1 (fun c e hc herr => ?_)
        fun c w'' _ _ hok => ?_
      · obtain ⟨h1, h2, h3⟩ := hvisited c ha
        exact (hafter _ h1 h2 h3).2.2 c e hc (herr.resolve_right nofun)
      · obtain rfl := ok.inj hok
        obtain ⟨h1, h2, h3⟩ := hvisited c ha
        exact (hafter _ h1 h2 h3).2.1

/-- A file is written under its name with `.tmp`, synced and renamed. -/
theorem meets_writeSync (hdst : dst.dir ≠ h.stateDir)
    (hsource : ∀ c w', h.Touches [dst, dst.tmp] w w' → ∀ d, source c w' = .ok d → D d) :
    Meets C (h.Wrote dst D w) (h.writeSync pt source dst) w fun r w' => h.Wrote dst D w w' ∧
      (r = .ok () → ∃ d, D d ∧ w'.files dst = some d) ∧ (Reliable C pt source → r = .ok ()) := by
  have hrefl : h.Staged dst w w := ⟨.refl, rfl⟩
  have hcut : ∀ w', h.Staged dst w w' → h.Wrote dst D w w' := fun _ hw => hw.wrote
  have hremove : ∀ {w₁ : World} {e : String}, h.Staged dst w w₁ →
      (Reliable C pt source → (.error e : Except String Unit) = .ok ()) →
      Meets C (h.Wrote dst D w) (do h.remove dst.tmp; return .error e) w₁
        fun (r : Except String Unit) w' => h.Wrote dst D w w' ∧
          (r = .ok () → ∃ d, D d ∧ w'.files dst = some d) ∧ (Reliable C pt source → r = .ok ()) :=
    fun h₁ hr => ((staged_remove hdst h₁).mono hcut fun _ _ => id).bind fun _ _ h₂ =>
      meets_pure ⟨h₂.wrote, nofun, hr⟩
  refine (meets_sure (J := h.Staged dst w) hrefl.wrote fun c => ?_).attempt
    (fun _ _ h₁ => meets_pure ⟨h₁.1.wrote, nofun, fun hsure => h₁.2 hsure.1⟩) fun _ w₁ h₁ => ?_
  · exact ⟨hrefl.visited hdst c, (hrefl.visited hdst c).put _⟩
  refine ((meets_write hdst h₁.1 hsource).mono hcut fun _ _ => id).attempt
    (fun _ _ h₂ => hremove h₂.1 h₂.2.2) fun _ w₂ h₂ => ?_
  obtain ⟨d, hd, hfile⟩ := h₂.2.1 rfl
  have htmp : dst.tmp.dir ≠ h.stateDir := hdst
  -- What has been written stays until it is renamed.
  refine (meets_sure (J := fun w₃ => h.Staged dst w w₃ ∧ w₃.files dst.tmp = some d) h₂.1.wrote
    fun c => ?_).attempt (fun _ _ h₃ => hremove h₃.1.1 fun hsure => h₃.2 hsure.1) fun _ w₃ h₃ => ?_
  · exact and_self_iff.mpr ⟨h₂.1.visited hdst c, (visited_files htmp).trans hfile⟩
  obtain ⟨⟨hstaged, hfile⟩, -⟩ := h₃
  refine meets_renameSync htmp hdst tmp_ne_self hfile hstaged.wrote
    (fun c e hc hfails => ⟨(hstaged.visited hdst c).wrote, nofun, fun hsure =>
      absurd hfails (hsure.1.not_fails hc)⟩) fun w₄ htouch _ hnew => ?_
  have hwrote : h.Wrote dst D w w₄ := by
    refine ⟨hstaged.touches.trans (htouch.mono fun p hp => ?_), .inr ⟨d, hd, hnew⟩⟩
    rcases mem_cons.mp hp with rfl | hp
    · exact mem_cons_of_mem _ mem_cons_self
    · exact mem_cons.mpr (.inl (mem_singleton.mp hp))
  exact ⟨hwrote, ⟨hwrote, fun _ => ⟨d, hd, hnew⟩, fun _ => rfl⟩, fun _ _ hc hfails =>
    ⟨hwrote, nofun, fun hsure => absurd hfails (hsure.1.not_fails hc)⟩⟩

theorem meets_writeFileSync {path : Path} (hpath : path.dir ≠ h.stateDir) (x : Node) :
    Meets C (h.Wrote path (· = x) w) (h.writeFileSync path x) w fun r w' =>
      h.Wrote path (· = x) w w' ∧ (r = .ok () → w'.files path = some x) := by
  refine (meets_writeSync hpath fun _ _ _ d hd => (ok.inj hd).symm).mono (fun _ => id)
    fun r w' hr => ⟨hr.1, fun hok => ?_⟩
  obtain ⟨d, rfl, hfile⟩ := hr.2.1 hok
  exact hfile

theorem regular_ok {d : Bytes} (hd : regular w p = .ok d) : w.files p = some (.file d) := by
  unfold regular at hd
  split at hd
  · next hfile =>
    obtain rfl := ok.inj hd
    exact hfile
  · cases hd
  · cases hd

theorem regular_map_ok {f : Bytes → α} {a : α} (ha : (regular w p).map f = .ok a) :
    ∃ b, w.files p = some (.file b) ∧ a = f b := by
  cases hb : regular w p with
  | error =>
    rw [hb] at ha
    cases ha
  | ok b =>
    rw [hb] at ha
    exact ⟨b, regular_ok hb, (ok.inj ha).symm⟩

theorem map_ok_self {x : Except String Bytes} {w w' : World} (hx : (x.map fun _ => w) = .ok w') :
    w' = w := by
  cases x with
  | error => cases hx
  | ok => exact (ok.inj hx).symm

theorem Wrote.of_touches {w₁ : World} (hdst : dst.dir ≠ h.stateDir)
    (hw : h.Touches [] w w₁) (hwrote : h.Wrote dst D w₁ w') : h.Wrote dst D w w' :=
  ⟨(hw.mono (nil_subset _)).trans hwrote.touches,
    hwrote.dst.imp_left fun heq => heq.trans (hw.files dst hdst not_mem_nil)⟩

theorem meets_copyFileSync {src : Path} (hsrc : src.dir ≠ h.stateDir) (hdst : dst.dir ≠ h.stateDir)
    (hne : src ∉ [dst, dst.tmp]) :
    Meets C (h.Wrote dst (fun x => w.files src = some x) w) (h.copyFileSync src dst) w
      fun r w' => h.Wrote dst (fun x => w.files src = some x) w w' ∧
        (r = .ok () → w'.files dst = w.files src) := by
  have hstart : ∀ w₁, h.Touches [] w w₁ → h.Wrote dst (fun x => w.files src = some x) w w₁ :=
    fun w₁ hw => ⟨hw.mono (nil_subset _), .inl (hw.files dst hdst not_mem_nil)⟩
  refine ((touches_look (fun _ _ _ hok => map_ok_self hok) Touches.refl).mono hstart
    fun _ _ => id).attempt (fun _ w₁ h₁ => meets_pure ⟨hstart w₁ h₁, nofun⟩) fun _ w₁ h₁ => ?_
  refine (meets_writeSync hdst fun _ w' hw' d hd => ?_).mono (fun _ hw => hw.of_touches hdst h₁)
    fun _ _ hr => ⟨hr.1.of_touches hdst h₁, fun hok => ?_⟩
  · rw [← h₁.files src hsrc not_mem_nil, ← hw'.files src hsrc hne]
    obtain ⟨b, hb, rfl⟩ := regular_map_ok hd
    exact hb
  · obtain ⟨x, hx, hdst'⟩ := hr.2.1 hok
    exact hdst'.trans hx.symm

/-- What is in the state directory can be copied, or is not there. -/
structure Takes (c : Choice) (pt : Point) (name : String) (max : ℕ) : Prop where
  fails : c.fails pt = none
  fits : ∀ x ∈ c.pandora name, x.Fits max
  content : (c.content name).length ≤ max

instance (c : Choice) (pt : Point) (name : String) (max : ℕ) : Decidable (Takes c pt name max) :=
  decidable_of_iff (c.fails pt = none ∧ (∀ x ∈ c.pandora name, x.Fits max) ∧
    (c.content name).length ≤ max) ⟨fun ⟨h₁, h₂, h₃⟩ => ⟨h₁, h₂, h₃⟩, fun h => ⟨h.1, h.2, h.3⟩⟩

theorem Takes.notExist {c : Choice} {max : ℕ} {e : String} (hc : Takes c pt name max)
    (he : h.stateRegular (w.visited h.stateDir c) name max = .error e) : e = notExist := by
  have hfile : (w.visited h.stateDir c).files (h.stateFile name) = c.pandora name := if_pos rfl
  unfold stateRegular regular at he
  rw [hfile] at he
  cases hx : c.pandora name with
  | none =>
    rw [hx] at he
    exact (error.inj he).symm
  | some x => cases x with
    | file data =>
      rw [hx] at he
      have hle : data.length ≤ max := hc.fits _ hx
      dsimp only at he
      rw [if_neg (Nat.not_lt.mpr hle)] at he
      cases he
    | record | other => exact absurd (hc.fits _ hx) not_false

theorem meets_copyFromState (max : ℕ) (hw : h.Touches S w₀ w)
    (hname : h.workFile name ∈ S) (htmp : (h.workFile name).tmp ∈ S) :
    Meets C (h.Touches S w₀) (h.copyFromState pt name max) w fun r w' => h.Touches S w₀ w' ∧
      (r = .ok () → ∃ d, w'.files (h.workFile name) = some (.file d)) ∧
      ((∀ c, C c → Takes c pt name max) → r = .ok () ∨ r = .error notExist) := by
  have hown : (h.workFile name).dir ≠ h.stateDir := h.work_ne_state
  have hS : [h.workFile name, (h.workFile name).tmp] ⊆ S := by
    exact forall_mem_cons.mpr ⟨hname, fun p hp => mem_singleton.mp hp ▸ htmp⟩
  refine Meets.attempt (Q := fun r w' => h.Touches S w₀ w' ∧
      ∀ e, r = .error e → (∀ c, C c → Takes c pt name max) → e = notExist)
    (meets_operate hw (fun c e hc herr => ⟨hw.visited c, ?_⟩) fun c w' _ _ hok => ⟨?_, nofun⟩)
    (fun e _ h₁ => meets_pure ⟨h₁.1, nofun, fun htakes => .inr ?_⟩) fun _ w₁ h₁ => ?_
  · rintro _ ⟨⟩ htakes
    rcases herr with hfails | herr
    · rw [(htakes c hc).fails] at hfails
      cases hfails
    · cases hs : h.stateRegular (w.visited h.stateDir c) name max with
      | error =>
        rw [hs] at herr
        rw [← error.inj herr]
        exact (htakes c hc).notExist hs
      | ok =>
        rw [hs] at herr
        cases herr
  · rw [map_ok_self hok]
    exact hw.visited c
  · rw [h₁.2 e rfl htakes]
  have hwrote : ∀ {w'}, h.Wrote (h.workFile name) (fun x => ∃ d, x = .file d) w₁ w' →
      h.Touches S w₀ w' := fun hw' => h₁.1.trans (hw'.touches.mono hS)
  refine ((meets_writeSync hown fun c _ _ d hd => ?_).mono (fun _ => hwrote) fun _ _ => id).attempt
    (fun _ _ h₂ => (touches_remove (hwrote h₂.1) fun _ => htmp).bind fun _ _ h₃ =>
      meets_pure ⟨h₃, nofun, fun htakes => .inl (h₂.2.2 ⟨fun c hc => (htakes c hc).fails, ?_⟩)⟩)
    fun _ w₂ h₂ => meets_pure ⟨hwrote h₂.1, fun _ => ?_, fun _ => .inl rfl⟩
  · cases hl : limited name max c with
    | error =>
      rw [hl] at hd
      cases hd
    | ok b =>
      rw [hl] at hd
      exact ⟨b, (ok.inj hd).symm⟩
  · intro c _ e hc
    show (limited name max c).map Node.file ≠ _
    rw [limited, if_neg (Nat.not_lt.mpr (htakes c hc).content)]
    nofun
  · obtain ⟨_, ⟨d, rfl⟩, hfile⟩ := h₂.2.1 rfl
    exact ⟨d, hfile⟩

theorem touches_removeState (hw : h.Touches S w₀ w) :
    Meets C (h.Touches S w₀) (h.removeState name) w fun _ => h.Touches S w₀ :=
  (meets_sure hw fun c => ⟨hw.visited c, (hw.visited c).put (fun hne => absurd rfl hne) none⟩).mono
    (fun _ => id) fun _ _ => And.left

/-- A file of the state directory is written; nothing fails if the operation does not. -/
theorem meets_writeState {data : Bytes} (hw : h.Touches S w₀ w) :
    Meets C (h.Touches S w₀) (h.writeState pt name data) w fun r w' => h.Touches S w₀ w' ∧
      (Sure C pt → r = .ok ()) := by
  have hremove : ∀ {w₁ : World} {e : String},
      h.Touches S w₀ w₁ ∧ (Sure C pt → (.error e : Except String Unit) = .ok ()) →
      Meets C (h.Touches S w₀) (do h.remove (h.stateFile ("." ++ name ++ ".tmp")); return .error e)
        w₁ fun (r : Except String Unit) w' => h.Touches S w₀ w' ∧ (Sure C pt → r = .ok ()) :=
    fun h₁ => (touches_remove h₁.1 fun hne => absurd rfl hne).bind
      fun _ _ h₂ => meets_pure ⟨h₂, h₁.2⟩
  have hput : ∀ {w : World} {n : String} {x : Option Node}, h.Touches S w₀ w →
      h.Touches S w₀ (w.put (h.stateFile n) x) := fun h₁ => h₁.put (fun hne => absurd rfl hne) _
  refine (touches_remove hw fun hne => absurd rfl hne).bind fun _ w₁ h₁ => ?_
  refine (meets_sure h₁ fun c => ⟨h₁.visited c, hput (h₁.visited c)⟩).attempt
    (fun _ _ h₂ => meets_pure h₂) fun _ w₂ h₂ => ?_
  refine (meets_sure h₂.1 fun c => ⟨h₂.1.visited c, hput (h₂.1.visited c)⟩).attempt
    (fun _ _ h₃ => hremove h₃) fun _ w₃ h₃ => ?_
  refine (meets_sure h₃.1 fun c => ⟨h₃.1.visited c, hput (hput (h₃.1.visited c))⟩).attempt
    (fun _ _ h₄ => hremove h₄) fun _ w₄ h₄ => ?_
  exact meets_pure ⟨h₄.1, fun _ => rfl⟩

/-! ## Looking at files -/

theorem meets_sha256File {Q : Except String String → World → Prop}
    (hp : p.dir ≠ h.stateDir) (hI : I w)
    (hQ : ∀ c r, (∀ s, r = .ok s → ∃ b, w.files p = some (.file b) ∧ s = h.sha256 b) →
      Q r (w.visited h.stateDir c)) : Meets C I (h.sha256File p) w Q := by
  refine meets_act hI fun c _ => ?_
  cases c.fails .file with
  | some => exact hQ c _ nofun
  | none =>
    refine hQ c _ fun s hs => ?_
    rw [← visited_files hp (c := c)]
    exact regular_map_ok hs

theorem meets_readFile {Q : Except String Bytes → World → Prop} (hI : I w)
    (hQ : ∀ c r, C c → (c.fails pt = none → r = regular (w.visited h.stateDir c) p) →
      Q r (w.visited h.stateDir c)) : Meets C I (h.readFile pt p) w Q := by
  refine meets_act hI fun c hc => ?_
  cases hfails : c.fails pt with
  | some => exact hQ c _ hc fun hnone => absurd (hfails.symm.trans hnone) nofun
  | none => exact hQ c _ hc fun _ => rfl

end Helper
end Pandora.Upgrade
