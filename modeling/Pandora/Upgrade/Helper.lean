import Pandora.Upgrade.Files

/-!
# The upgrade helper

`Helper.run` is what the helper does each time it is started: it goes on with the upgrade whose
record it finds, or takes a new request.  Each definition follows the function of that name.
-/

namespace Pandora.Upgrade

open Crash

def fileRequest : String := "request"
def fileNext : String := "next"
def fileManifest : String := "manifest.json"
def fileSignature : String := "manifest.json.sig"
def fileApplying : String := "applying"
def fileHealthy : String := "healthy"
def fileResult : String := "result"

/-- `ClampConfirm`, in seconds. -/
def clampConfirm (sec : ℕ) : ℕ :=
  if sec = 0 then 180 else if sec < 30 then 30 else if 300 < sec then 300 else sec

/-- How the wait for the new process ends. -/
inductive Waited
  | healthy
  | timeout
  | cancelled (e : String)

/-- The record of an upgrade that is rolled back. -/
def Record.rolling (record : Record) (phase : Phase) (code : Reason) (detail : String) : Record :=
  { record with
    stage := .rollingBack
    resultPhase := some phase
    resultCode := some code
    resultDetail := detail }

namespace Helper

variable (h : Helper)

def applyingPath : Path := h.workFile fileApplying

def saveRecord (record : Record) : H (Except String Unit) :=
  h.writeFileSync h.applyingPath (.record record)

/-- Something is written down about what is at `BinPath`. -/
def logged (event : Option Node → Job → Event) (w : World) : World :=
  { w with notes.log := event (w.files h.binPath) w.notes.job :: w.notes.log }

/-- The names in the work directory, in the order of `os.ReadDir`. -/
def workNames : List String :=
  ["applying", "applying.tmp", "manifest.json", "manifest.json.sig", "manifest.json.sig.tmp",
    "manifest.json.tmp", "next", "next.tmp", "request", "request.tmp"]

/-- Files are removed one after the other, and errors are ignored. -/
def removeAll : List Path → H Unit
  | [] => pure ()
  | p :: ps => do
    h.remove p
    removeAll ps

def removeWorkArtifacts : H Unit := do
  match ← h.operate .file (fun _ w => .ok w) with
  | .error _ => return ()
  | .ok () => h.removeAll (workNames.map h.workFile)

/-- The names of the copies that `take` makes. -/
def copied : List String := [fileRequest, fileNext, fileManifest, fileSignature]

/-- The result is written, if there is one and the state directory is open; whether it was. -/
def writeResult (state : Bool) : Option Result → H Bool
  | none => return false
  | some r =>
    if state then do
      match ← h.writeState .result fileResult (h.encodeResult r) with
      | .error _ => return false
      | .ok () =>
        Prog.note (h.logged (.result r))
        return true
    else return false

/-- The markers are removed, if the state directory is open. -/
def removeMarkers (state : Bool) : H Unit :=
  if state then do
    let _ ← h.removeState fileApplying
    let _ ← h.removeState fileHealthy
  else return ()

/-- `finish`.  With the record the upgrade is gone; a result has been written by then, or not. -/
def finish (state : Bool) (res : Option Result) : H Unit := do
  let written ← h.writeResult state res
  h.removeMarkers state
  h.removeAll (copied.map h.workFile)
  h.remove h.applyingPath
  Prog.note fun w => if written then w else h.logged .quiet w
  h.removeAll [h.newPath, h.newPath.tmp, h.prevPath.tmp]

/-- `healthyOK`. -/
def isHealthy (record : Record) (w : World) : Bool :=
  match h.stateRegular w fileHealthy maxSmallFileBytes with
  | .error _ => false
  | .ok raw => match h.decodeMarker raw with
    | none => false
    | some m => m.jobID = record.jobID ∧ m.sha256 = record.targetSHA256

/-- That the marker has been read. -/
def logHealthy (record : Record) (w : World) : World :=
  let m : Marker := ⟨record.jobID, record.targetSHA256⟩
  { w with notes :=
    { job := { w.notes.job with read := some m }, log := .healthy m :: w.notes.log } }

def healthyOK (state : Bool) (record : Record) : H Bool :=
  if state then h.act fun c w =>
    if c.fails .file = none ∧ h.isHealthy record w then (true, logHealthy record w) else (false, w)
  else return false

/-- The digest of a file, or the empty text. -/
def digest (path : Path) : H String := do
  match ← h.sha256File path with
  | .error _ => return ""
  | .ok sum => return sum

def restart : H (Except String Unit) := h.operate .restart fun _ w => .ok w

/-- `rollbackWith`, the old binary: nothing is left to do, or it is put back. -/
def restore (record : Record) (detail : String) : H (Except String Unit) := do
  let cur ← h.digest h.binPath
  if cur = record.prevSHA256 then return .ok ()
  else match ← h.sha256File h.prevPath with
    | .error e => return .error (".prev 不可用：" ++ e ++ "（原因：" ++ detail ++ "）")
    | .ok prevSum =>
      if prevSum ≠ record.prevSHA256 then
        return .error (".prev 不可用：摘要不匹配（原因：" ++ detail ++ "）")
      else match ← h.copyFileSync h.prevPath h.newPath with
        | .error e => return .error e
        | .ok () => h.renameSync .file .file h.newPath h.binPath

/-- `rollbackWith`, after the record has been saved. -/
def putBack (state : Bool) (record : Record) (phase : Phase) (code : Reason) (detail : String)
    (again : Bool) : H Unit := do
  match ← h.restore record detail with
  | .error d => h.finish state (some ⟨record.jobID, .failed, .rollbackFailed, d⟩)
  | .ok () =>
    if again then
      match ← h.restart with
      | .error e =>
        h.finish state (some ⟨record.jobID, .failed, .rollbackFailed, "装回旧版后重启失败：" ++ e⟩)
      | .ok () => h.finish state (some ⟨record.jobID, phase, code, detail⟩)
    else h.finish state (some ⟨record.jobID, phase, code, detail⟩)

/-- `rollbackWith`; `again` says whether the service is restarted. -/
def rollbackWith (state : Bool) (record : Record) (phase : Phase) (code : Reason) (detail : String)
    (again : Bool) : H (Except String Unit) := do
  let _ ← h.saveRecord (record.rolling phase code detail)
  h.putBack state (record.rolling phase code detail) phase code detail again
  return .ok ()

def prepareMarker (state : Bool) (record : Record) : H (Except String Unit) :=
  if state then do
    match ← h.writeState .file fileApplying
      (h.encodeMarker ⟨record.jobID, record.targetSHA256⟩) with
    | .error e => return .error e
    | .ok () => h.removeState fileHealthy
  else return .error "暂存目录不可用"

/-- One look at the marker and the clock. -/
def look (state : Bool) (record : Record) (c : Choice) (w : World) : Option Waited × World :=
  if state ∧ c.fails .file = none ∧ h.isHealthy record w then (some .healthy, logHealthy record w)
  else if (record.startedAt + clampConfirm record.confirmWithinSec) * 10 ^ 9 ≤ c.now then
    (some .timeout, w)
  else match c.fails .sleep with
    | some e => (some (.cancelled e), w)
    | none => (none, w)

/-- What is reported when the new process has not connected. -/
def timeoutDetail (record : Record) : String :=
  "新进程 " ++ toString (clampConfirm record.confirmWithinSec) ++ " 秒内没连上面板，已装回旧版"

def confirm (state : Bool) (record : Record) (running : Bool) : H (Except String Unit) := do
  match ← h.prepareMarker state record with
  | .error e => h.rollbackWith state record .failed .applyFailed ("写不了确认标记：" ++ e) running
  | .ok () => match ← h.restart with
    | .error e => h.rollbackWith state record .failed .applyFailed ("重启失败：" ++ e) true
    | .ok () =>
      match ← Prog.loop (fun c w => h.look state record c (w.visited h.stateDir c)) with
      | .healthy =>
        h.finish state none
        return .ok ()
      | .cancelled e => return .error e
      | .timeout =>
        h.rollbackWith state record .rolledBack .confirmTimeout (timeoutDetail record) true

/-- `now().Unix()`. -/
def clock : H ℤ := h.act fun c w => (c.now / 10 ^ 9, w)

/-- The upgrade ends before anything has been changed. -/
def fail (req : Request) (code : Reason) (detail : String) : H (Except String Unit) := do
  h.finish true (some ⟨req.jobID, .failed, code, detail⟩)
  return .ok ()

/-- `install`, from the first record on. -/
def place (req : Request) (art : Artifact) (prev : String) (now : ℤ) : H (Except String Unit) := do
  let record : Record := {
    jobID := req.jobID, targetSHA256 := art.sha256, prevSHA256 := prev
    confirmWithinSec := req.confirmWithinSec, startedAt := now, stage := .installing }
  match ← h.saveRecord record with
  | .error e =>
    h.remove h.newPath
    h.fail req .applyFailed e
  | .ok () => match ← h.renameSync .file .installed h.newPath h.binPath with
    | .error e =>
      h.remove h.newPath
      h.fail req .applyFailed e
    | .ok () =>
      let now ← h.clock
      let record := { record with stage := .installed, startedAt := now }
      let _ ← h.saveRecord record
      h.confirm true record false

def install (req : Request) (art : Artifact) : H (Except String Unit) := do
  Prog.note fun w => { w with notes.job.target := w.files (h.workFile fileNext) }
  match ← h.sha256File h.binPath with
  | .error _ => h.fail req .applyFailed "读不到现有二进制"
  | .ok prev => match ← h.copyFileSync h.binPath h.prevPath with
    | .error e => h.fail req .applyFailed e
    | .ok () => match ← h.copyFileSync (h.workFile fileNext) h.newPath with
      | .error e =>
        h.remove h.newPath
        h.fail req .applyFailed e
      | .ok () =>
        let now ← h.clock
        h.place req art prev now

/-- The limits of the files that are taken over. -/
def maxOf (name : String) : ℕ :=
  if name = fileNext then maxBinaryBytes
  else if name = fileManifest then maxManifestBytes
  else if name = fileSignature then maxSignatureBytes
  else maxSmallFileBytes

/-- Where the copy of a file fails. -/
def pointOf (name : String) : Point := if name = fileRequest then .request else .file

/-- The copies of `take`; the errors, with the names. -/
def copyAll : List String → H (List (String × String))
  | [] => return []
  | name :: names => do
    match ← h.copyFromState (pointOf name) name (maxOf name) with
    | .error e => return (name, e) :: (← copyAll names)
    | .ok () => copyAll names

/-- `take`, once the request is known. -/
def takeRequest (req : Request) (copyErrs : List (String × String)) : H (Except String Unit) := do
  Prog.note fun w => { w with notes.job.jobID := req.jobID }
  match [fileNext, fileManifest, fileSignature].findSome? (fun name => copyErrs.lookup name) with
  | some e => h.fail req .applyFailed ("暂存文件不可用：" ++ e)
  | none => match ← h.readFile .file (h.workFile fileManifest) with
    | .error e => h.fail req .applyFailed ("暂存文件不可用：" ++ e)
    | .ok manifest => match ← h.readFile .file (h.workFile fileSignature) with
      | .error e => h.fail req .applyFailed ("暂存文件不可用：" ++ e)
      | .ok sig => match h.keyring.check manifest sig h.buildSerial h.goarch with
        | .error e => h.fail req e.code e.detail
        | .ok (_, art) => match ← h.sha256File (h.workFile fileNext) with
          | .error e => h.fail req .applyFailed ("暂存文件不可用：" ++ e)
          | .ok nextSum =>
            if nextSum ≠ art.sha256 then h.fail req .sha256Mismatch "二进制摘要与清单不符"
            else h.install req art

/-- The upgrade is given up without a result, unless its request had been taken back. -/
def giveUp (err : Option String) : H (Except String Unit) := do
  h.removeWorkArtifacts
  Prog.note fun w => if err = some notExist then w else h.logged .quiet w
  return .ok ()

def take : H (Except String Unit) := do
  Prog.note fun w => { w with notes.job := { before := w.files h.binPath } }
  let copyErrs ← h.copyAll copied
  let _ ← h.removeState fileNext
  let _ ← h.removeState fileManifest
  let _ ← h.removeState fileSignature
  match ← h.removeState fileRequest with
  | .error e =>
    h.removeWorkArtifacts
    return .error ("删除暂存 request: " ++ e)
  | .ok () => match ← h.readFile .request (h.workFile fileRequest), copyErrs.lookup fileRequest with
    | .ok reqData, none => match h.decodeRequest reqData with
      | none =>
        -- What is no request begins no upgrade.
        h.removeWorkArtifacts
        return .ok ()
      | some req => h.takeRequest req copyErrs
    | _, err => h.giveUp err

def resume (record : Record) : H (Except String Unit) := do
  let state := (← h.operate .state fun _ w => .ok w).toBool
  let cur ← h.digest h.binPath
  let now ← h.clock
  match record.stage with
  | .installing =>
    if cur = record.targetSHA256 then
      let record := { record with stage := .installed, startedAt := now }
      let _ ← h.saveRecord record
      h.confirm state record true
    else if cur = record.prevSHA256 then
      h.finish state (some ⟨record.jobID, .failed, .applyFailed, "助手被打断，现有安装没动"⟩)
      return .ok ()
    else h.rollbackWith state record .failed .applyFailed "助手被打断后二进制不明" true
  | .installed =>
    if cur ≠ record.targetSHA256 then
      h.rollbackWith state record .failed .applyFailed "二进制已被替换成别的版本" true
    else if record.resumed then
      if ← h.healthyOK state record then
        h.finish state none
        return .ok ()
      else h.rollbackWith state record .rolledBack .confirmTimeout (timeoutDetail record) true
    else
      let record := { record with resumed := true, startedAt := now }
      let _ ← h.saveRecord record
      h.confirm state record true
  | .rollingBack =>
    h.rollbackWith state record (record.resultPhase.getD .rolledBack)
      (record.resultCode.getD .confirmTimeout)
      (if record.resultDetail = "" then "助手被打断后继续回退" else record.resultDetail) true
  | .unknown => h.rollbackWith state record .failed .applyFailed "工作区记录不认识" true

def loadRecord : H (Except String Record) :=
  h.act fun c w => match c.fails .record with
    | some e => (.error e, w)
    | none => match w.files h.applyingPath with
      | some (.record record) => (.ok record, w)
      | some _ => (.error "invalid JSON", w)
      | none => (.error notExist, w)

/-- Whether there is a file of this name. -/
def lstat (path : Path) : H (Except String Bool) :=
  h.act fun c w => match c.fails .file with
    | some e => (.error e, w)
    | none => (.ok (w.files path).isSome, w)

def run : H (Except String Unit) := do
  match ← h.operate .file (fun _ w => .ok w) with
  | .error e => return .error e
  | .ok () => match ← h.lstat h.applyingPath with
    | .error e => return .error e
    | .ok true => match ← h.loadRecord with
      | .error _ => h.giveUp none
      | .ok record => h.resume record
    | .ok false => match ← h.operate .file (fun _ w => .ok w) with
      | .error e => return if e = notExist then .ok () else .error e
      | .ok () => match ← h.lstat (h.stateFile fileRequest) with
        | .error e => return .error e
        | .ok false => return .ok ()
        | .ok true => h.take

/-- The helper is started again and again. -/
def runs (w : World) (starts : List (List Choice)) : World := starts.foldl h.run.again w

end Helper
end Pandora.Upgrade
