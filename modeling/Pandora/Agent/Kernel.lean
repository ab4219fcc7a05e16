import Pandora.Agent.Json
import Pandora.Agent.Mirror

/-!
# Inbounds

An inbound is one generation of what the kernel serves under a tag: a configuration, its routing
and the users it lets in.  `applyInbound` puts a new one in the place of the old; it has to close
the old one first, for both listen on one port, and starts it again if the new one does not come
up.  Of all that can go wrong there, only what is left matters here (`Outcome`).
-/

namespace Pandora.Agent

/-! ## Routing -/

structure Outbound where
  tag : String
  type : String
  settings : Option Document

structure Route where
  matcher : Option Document
  outboundTag : String

structure Routing where
  outbounds : List Outbound
  routes : List Route
  final : String

/-- `strings.TrimSpace`. -/
def trim (s : String) : String := String.ofList (Text.trimSpace s.toList)

/-- A field that has to be an object where it is there. -/
def objectField (m : Document) (key place : String) : Except String (Option Document) :=
  match m.field key with
  | none => .ok none
  | some (.obj fields) => .ok (some fields)
  | some _ => .error (place ++ "." ++ key ++ " 必须是对象")

/-- A field that has to be a string that is not blank. -/
def textField (m : Document) (key : String) : Option String :=
  match m.field key with
  | some (.str s) => if trim s = "" then none else some s
  | _ => none

def parseOutbound (place : String) : Json → Except String Outbound
  | .obj m =>
    match textField m "tag", textField m "type" with
    | some tag, some type => (objectField m "settings" place).map fun settings =>
        ⟨tag, type, settings⟩
    | _, _ => .error (place ++ " 缺少 tag/type")
  | _ => .error (place ++ " 必须是对象")

def parseRoute (place : String) : Json → Except String Route
  | .obj m =>
    match textField m "outbound" with
    | some tag => (objectField m "matcher" place).map fun matcher => ⟨matcher, tag⟩
    | none => .error (place ++ " 缺少 outbound")
  | _ => .error (place ++ " 必须是对象")

/-- The items of a list, each with its place. -/
def parseItems {α : Type} (key : String) (parse : String → Json → Except String α) :
    ℕ → List Json → Except String (List α)
  | _, [] => .ok []
  | index, v :: items => do
    let a ← parse (key ++ "[" ++ toString index ++ "]") v
    let rest ← parseItems key parse (index + 1) items
    pure (a :: rest)

/-- A field that has to be a list where it is there. -/
def listField (cfg : Document) (key : String) : Except String (List Json) :=
  match cfg.field key with
  | none => .ok []
  | some (.arr items) => .ok items
  | some _ => .error (key ++ " 必须是数组")

/-- `parseRouting`; a document without any of the fields has no routing. -/
def parseRouting (cfg : Document) : Except String (Option Routing) :=
  if (cfg.field "outbounds").isNone ∧ (cfg.field "routes").isNone ∧ (cfg.field "final").isNone then
    .ok none
  else do
    let outs ← listField cfg "outbounds"
    let routes ← listField cfg "routes"
    let final ← match cfg.field "final" with
      | none => .ok ""
      | some (.str s) => .ok (trim s)
      | some _ => .error "final 必须是字符串"
    let outbounds ← parseItems "outbounds" parseOutbound 0 outs
    let routes ← parseItems "routes" parseRoute 0 routes
    pure (some ⟨outbounds, routes, final⟩)

/-! ## Ports -/

/-- A whole number of 64 bits. -/
def int64Of (q : ℚ) : Option ℤ :=
  if q.den = 1 ∧ -2 ^ 63 ≤ q.num ∧ q.num < 2 ^ 63 then some q.num else none

/-- `confnum.Int` of a value; `text` is what it makes of a string. -/
def intOf (text : String → Option ℤ) : Option Json → Option ℤ
  | some (.num q) => (int64Of q).or ((float64 q).bind int64Of)
  | some (.str s) => text s
  | _ => none

/-- `intFrom`, for the port. -/
def portOf (text : String → Option ℤ) (cfg : Document) : ℤ :=
  (intOf text (cfg.field "server_port")).getD 0

/-! ## Generations -/

/-- A generation: what was asked for, and the users it lets in. -/
structure Inbound where
  protocol : String
  port : ℤ
  raw : Document
  routing : Option Routing
  users : Table

/-- Why a configuration was not installed. -/
inductive Cause
  | digestMismatch
  | invalidJson
  | certPending
  /-- The document cannot be copied. -/
  | snapshot
  | noNodeType
  | invalidPort (port : ℤ)
  | routing (text : String)
  /-- The kernel gives a reason, or none. -/
  | kernel (reason : String)
  deriving DecidableEq

/-- `reasonOf`. -/
def Cause.reason : Cause → String
  | .digestMismatch => "digest_mismatch"
  | .invalidJson => "invalid_json"
  | .certPending => "cert_pending"
  | .kernel reason => if reason = "" then "apply_failed" else reason
  | _ => "apply_failed"

/-- What becomes of the inbound of a tag. -/
inductive Outcome
  /-- The new one serves, with the users that came with it. -/
  | installed
  /-- The new one serves, without the users that came with it: `UsersPreloadError`. -/
  | usersRefused
  /-- The old one serves: `PreviousPreserved`.  It may have been started again, without users. -/
  | preserved (reason : String) (emptied : Bool)
  /-- None serves. -/
  | lost (reason : String)
  deriving DecidableEq

/-- The new inbound serves. -/
def Outcome.Serves : Outcome → Prop
  | .installed | .usersRefused => True
  | .preserved _ _ | .lost _ => False

instance : DecidablePred Outcome.Serves
  | .installed | .usersRefused => .isTrue trivial
  | .preserved _ _ | .lost _ => .isFalse id

/-- How an installation ends. -/
inductive Applied
  | ok
  | usersRefused
  | preserved (cause : Cause)
  | failed (cause : Cause)
  deriving DecidableEq

/-- The new inbound serves. -/
def Applied.Serves (r : Applied) : Prop := r = .ok ∨ r = .usersRefused

/-- `applyInbound`; there is nothing to preserve where nothing was, and no users to refuse where
none came. -/
def applyInbound (o : Outcome) (new : Inbound) (users : List User) (old : Option Inbound) :
    Option Inbound × Applied :=
  match o, old with
  | .installed, _ => (some { new with users := (∅ : Table).addAll users }, .ok)
  | .usersRefused, _ => (some { new with users := ∅ }, if users = [] then .ok else .usersRefused)
  | .preserved reason emptied, some old =>
    (some (if emptied = true then { old with users := ∅ } else old), .preserved (.kernel reason))
  | .preserved reason _, none => (none, .failed (.kernel reason))
  | .lost reason, _ => (none, .failed (.kernel reason))

/-- `installConfig`: what the node checks before it turns to the kernel. -/
def installConfig (text : String → Option ℤ) (o : Outcome) (cfg : Document) (nodeType : String)
    (users : List User) (old : Option Inbound) : Option Inbound × Applied :=
  if trim nodeType = "" then (old, .failed .noNodeType)
  else if portOf text cfg ≤ 0 ∨ 65535 < portOf text cfg then
    (old, .failed (.invalidPort (portOf text cfg)))
  else
    match parseRouting cfg with
    | .error e => (old, .failed (.routing e))
    | .ok routing =>
      applyInbound o ⟨trim nodeType, portOf text cfg, cfg, routing, ∅⟩ users old

section

variable {text : String → Option ℤ} {o : Outcome} {cfg : Document} {nodeType : String}
  {users : List User} {old : Option Inbound}

theorem not_serves_failed {c : Cause} : ¬(Applied.failed c).Serves := by
  rintro (h | h) <;> cases h

theorem installConfig_serves (h : (installConfig text o cfg nodeType users old).2.Serves) :
    ∃ new, installConfig text o cfg nodeType users old = applyInbound o new users old := by
  unfold installConfig at h ⊢
  split_ifs at h ⊢ with htype hport
  · exact absurd h not_serves_failed
  · exact absurd h not_serves_failed
  · cases hrouting : parseRouting cfg with
    | error =>
      rw [hrouting] at h
      exact absurd h not_serves_failed
    | ok => exact ⟨_, rfl⟩

theorem installConfig_ok (h : (installConfig text o cfg nodeType users old).2 = .ok) :
    o.Serves ∧ ((installConfig text o cfg nodeType users old).1.map (·.users)).getD ∅ =
      (∅ : Table).addAll users := by
  obtain ⟨new, heq⟩ := installConfig_serves (.inl h)
  rw [heq] at h ⊢
  cases o with
  | installed => exact ⟨trivial, rfl⟩
  | usersRefused =>
    by_cases hnone : users = []
    · rw [hnone]
      exact ⟨trivial, rfl⟩
    · rw [applyInbound, if_neg hnone] at h
      cases h
  | preserved => cases old <;> cases h
  | lost => cases h

theorem installConfig_usersRefused
    (h : (installConfig text o cfg nodeType users old).2 = .usersRefused) : o = .usersRefused := by
  obtain ⟨new, heq⟩ := installConfig_serves (.inr h)
  rw [heq] at h
  cases o with
  | usersRefused => rfl
  | preserved => cases old <;> cases h
  | installed | lost => cases h

end

/-- What an installation leaves: the new inbound, the old one with perhaps other users, or what
the configuration did not get as far as to change. -/
theorem installConfig_cases (text : String → Option ℤ) (o : Outcome) (cfg : Document)
    (nodeType : String) (users : List User) (old : Option Inbound) :
    let r := installConfig text o cfg nodeType users old
    (r.2.Serves ∧ ∃ inbound, r.1 = some inbound ∧ inbound.raw = cfg) ∨
      ((∃ cause, r.2 = .preserved cause) ∧
        ∃ before after, old = some before ∧ r.1 = some after ∧ after.raw = before.raw) ∨
      (∃ cause, r.2 = .failed cause) ∧ (r.1 = none ∨ r.1 = old) := by
  unfold installConfig
  split_ifs
  · exact .inr (.inr ⟨⟨_, rfl⟩, .inr rfl⟩)
  · exact .inr (.inr ⟨⟨_, rfl⟩, .inr rfl⟩)
  · cases parseRouting cfg with
    | error => exact .inr (.inr ⟨⟨_, rfl⟩, .inr rfl⟩)
    | ok =>
      cases o with
      | installed => exact .inl ⟨.inl rfl, _, rfl, rfl⟩
      | usersRefused =>
        refine .inl ⟨?_, _, rfl, rfl⟩
        show (if users = [] then Applied.ok else Applied.usersRefused).Serves
        split_ifs
        · exact .inl rfl
        · exact .inr rfl
      | lost => exact .inr (.inr ⟨⟨_, rfl⟩, .inl rfl⟩)
      | preserved reason emptied =>
        cases old with
        | none => exact .inr (.inr ⟨⟨_, rfl⟩, .inl rfl⟩)
        | some before =>
          refine .inr (.inl ⟨⟨_, rfl⟩, before, _, rfl, rfl, ?_⟩)
          cases emptied <;> rfl

end Pandora.Agent
