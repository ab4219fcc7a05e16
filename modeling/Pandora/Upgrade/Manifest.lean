import Mathlib.Algebra.Order.Ring.Int
import Pandora.Foundation.Check
import Pandora.Foundation.Text

/-!
# The manifest of a release

A release is a manifest, signed as the bytes that it is, which names a binary and its digest for
each architecture.  `check` is what the node and the helper of root both do before anything is
installed.  The formats (JSON, base64) and the cryptography are functions that are given.
-/

namespace Pandora.Upgrade

abbrev Bytes := List UInt8

/-- The codes of reasons that the helper reports. -/
inductive Reason
  | sha256Mismatch
  | signatureInvalid
  | manifestInvalid
  | serialNotNewer
  | applyFailed
  | confirmTimeout
  | rollbackFailed
  deriving DecidableEq

structure Error where
  code : Reason
  detail : String

def maxBinaryBytes : ℕ := 128 * 2 ^ 20
def maxManifestBytes : ℕ := 64 * 2 ^ 10
def maxSignatureBytes : ℕ := 4 * 2 ^ 10
def maxSmallFileBytes : ℕ := 4 * 2 ^ 10

structure Artifact where
  file : String
  sha256 : String

structure Manifest where
  schema : ℤ
  version : String
  serial : ℕ
  artifacts : List (String × Artifact)

structure SignatureFile where
  keyID : String
  sig : String

/-- The keys that are built in, and the formats and the cryptography that `Check` rests on. -/
structure Keyring where
  Key : Type
  keys : List (String × Key)
  decodeSignature : Bytes → Except String SignatureFile
  decodeBase64 : String → Except String Bytes
  /-- `ed25519.Verify`. -/
  ed25519 : Key → Bytes → Bytes → Bool
  /-- The JSON value at the beginning, and whether nothing comes after it. -/
  decodeManifest : Bytes → Except String (Manifest × Bool)

def lowerHex (c : Char) : Bool := ('0' ≤ c && c ≤ '9') || ('a' ≤ c && c ≤ 'f')

def fileChar (c : Char) : Bool :=
  ('A' ≤ c && c ≤ 'Z') || ('a' ≤ c && c ≤ 'z') || ('0' ≤ c && c ≤ '9') || c ∈ ['.', '_', '-']

/-- `sha256HexRegex`. -/
def sha256Hex (s : String) : Bool := Text.matchesClass lowerHex 64 64 s

/-- `fileNameRegex`. -/
def fileName (s : String) : Bool := Text.matchesClass fileChar 1 128 s

/-- `keyIDHexRegex`. -/
def keyIDHex (s : String) : Bool := Text.matchesClass lowerHex 16 16 s

def Keyring.verify (k : Keyring) (manifest sigFile : Bytes) : Except Error Unit := do
  ensure (sigFile.length ≤ maxSignatureBytes)
    ⟨.signatureInvalid, "签名文件超过最大大小限制（" ++ toString maxSignatureBytes ++ " 字节）"⟩
  ensure (k.keys.isEmpty = false) ⟨.signatureInvalid, "内置公钥环为空，无法验证升级签名"⟩
  let sigObj ← (k.decodeSignature sigFile).mapError fun e =>
    ⟨.signatureInvalid, "签名文件不是合法的 JSON: " ++ e⟩
  ensure (keyIDHex sigObj.keyID = true)
    ⟨.signatureInvalid, "签名 key_id 格式不合规（须为 16 位小写十六进制）: " ++ sigObj.keyID⟩
  let rawSig ← (k.decodeBase64 sigObj.sig).mapError fun e =>
    ⟨.signatureInvalid, "签名 base64 解码失败: " ++ e⟩
  ensure (rawSig.length = 64) ⟨.signatureInvalid,
      "签名长度不合规: 期望 64 字节，实际 " ++ toString rawSig.length ++ " 字节"⟩
  match k.keys.lookup sigObj.keyID with
  | none => .error ⟨.signatureInvalid, "未知的签名 key_id: " ++ sigObj.keyID⟩
  | some pub => ensure (k.ed25519 pub manifest rawSig = true) ⟨.signatureInvalid, "ed25519 签名校验失败"⟩

/-- The check of an entry of `artifacts`. -/
def checkArtifact (arch : String) (art : Artifact) : Except Error Unit := do
  ensure (sha256Hex art.sha256 = true) ⟨.manifestInvalid,
      "架构 " ++ arch ++ " 的 sha256 格式不合规（须为 64 位小写十六进制）: " ++ art.sha256⟩
  ensure (fileName art.file = true) ⟨.manifestInvalid, "架构 " ++ arch ++ " 的文件名不合规: " ++ art.file⟩

def Keyring.parseManifest (k : Keyring) (raw : Bytes) : Except Error Manifest := do
  ensure (raw.length ≤ maxManifestBytes)
    ⟨.manifestInvalid, "发布清单超过最大大小限制（" ++ toString maxManifestBytes ++ " 字节）"⟩
  let (m, alone) ← (k.decodeManifest raw).mapError fun e =>
    ⟨.manifestInvalid, "解析清单 JSON 失败: " ++ e⟩
  ensure (alone = true) ⟨.manifestInvalid, "清单 JSON 后面存在多余内容"⟩
  ensure (m.schema = 1) ⟨.manifestInvalid, "清单 schema 版本不合规（期望 1，实际 " ++ toString m.schema ++ "）"⟩
  ensure (m.version ≠ "" ∧ m.version.utf8ByteSize ≤ 64)
    ⟨.manifestInvalid, "清单 version 为空或超过 64 字节: " ++ m.version.quote⟩
  ensure (m.serial ≠ 0) ⟨.manifestInvalid, "清单 serial 必须大于 0"⟩
  ensure (m.artifacts.isEmpty = false) ⟨.manifestInvalid, "清单 artifacts 为空"⟩
  m.artifacts.forM fun a => checkArtifact a.1 a.2
  return m

def archKey (goarch : String) : String := "linux-" ++ goarch

def Manifest.artifact (m : Manifest) (goarch : String) : Except Error Artifact :=
  match m.artifacts.lookup (archKey goarch) with
  | none => .error ⟨.manifestInvalid, "清单里没有 " ++ archKey goarch⟩
  | some art => .ok art

def Keyring.check (k : Keyring) (manifest sig : Bytes) (buildSerial : ℕ) (goarch : String) :
    Except Error (Manifest × Artifact) := do
  k.verify manifest sig
  let m ← k.parseManifest manifest
  let art ← m.artifact goarch
  ensure (buildSerial ≠ 0) ⟨.serialNotNewer, "当前为开发构建（buildSerial=0），不接受在线升级"⟩
  ensure (buildSerial < m.serial)
    ⟨.serialNotNewer, "清单版本 serial (" ++ toString m.serial ++ ") 不大于本机构建 serial (" ++
      toString buildSerial ++ ")"⟩
  return (m, art)

/-- What `Check` has seen of a manifest that it lets pass. -/
theorem Keyring.check_ok {k : Keyring} {manifest sig : Bytes} {buildSerial : ℕ} {goarch : String}
    {m : Manifest} {art : Artifact} (h : k.check manifest sig buildSerial goarch = .ok (m, art)) :
    k.verify manifest sig = .ok () ∧ k.parseManifest manifest = .ok m ∧
      m.artifact goarch = .ok art ∧ buildSerial < m.serial := by
  unfold Keyring.check at h
  simp only [except_bind_eq_ok, ensure_eq_ok, except_pure_eq_ok, Prod.mk.injEq] at h
  obtain ⟨⟨⟩, hverify, m', hparse, art', hart, -, -, -, hserial, rfl, rfl⟩ := h
  exact ⟨hverify, hparse, hart, hserial⟩

end Pandora.Upgrade
