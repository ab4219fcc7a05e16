import Pandora.Dataplane.Handover
import Pandora.Dataplane.PortLedger

/-!
# One call, seen three times

`applyInbound` stands here three times: with the ports and the errors (`Ports`); by what becomes of
the inbound of a tag, which is what a node needs (`Agent.applyInbound`); and lock by lock
(`Handover`).  A call of the first is one of the second, with the outcome that its result tells; and
it is what the operations of the third come to when nothing happens in between.
-/

namespace Pandora.Dataplane

open Option Keyed
open Agent (Document Routing User Outcome Applied)

/-- What a result tells a node. -/
def Result.outcome (reason : ApplyError → String) (emptied : Bool) : Result → Outcome
  | .ok => .installed
  | .users _ => .usersRefused
  | .config e true => .preserved (reason e) emptied
  | .config e false | .error e => .lost (reason e)

/-- A result, as `installConfig` returns it. -/
def Result.applied (reason : ApplyError → String) : Result → Applied
  | .ok => .ok
  | .users _ => .usersRefused
  | .config e true => .preserved (.kernel (reason e))
  | .config e false | .error e => .failed (.kernel (reason e))

/-- A result, as the loop of the server takes it. -/
def Result.installed : Result → Handover.Installed
  | .ok | .users _ => .ok
  | .config _ true => .preserved
  | .config _ false | .error _ => .failed

/-- An inbound, as a node knows it; the users are not the core's. -/
def NativeInbound.known (i : NativeInbound) : Agent.Inbound :=
  ⟨i.config.protocol, i.config.port, i.config.raw, i.routing, ∅⟩

namespace NativeCore

variable {c : NativeCore} {cfg : InboundConfig} {routing : Option Routing} {order : Document}
  {ch : Chance} {keys : List PortKey} {r : NativeCore × Result}

/-- What `installConfig` sees to before a call, and the core is running. -/
structure Ready (c : NativeCore) (cfg : InboundConfig) : Prop where
  tag : cfg.tag ≠ ""
  port : 1 ≤ cfg.port ∧ cfg.port ≤ 65535
  isOpen : c.closed = false
  started : c.started = true

/-- What a call can leave under its tag, with its result. -/
inductive Leaves (new : NativeInbound) (users : Option String)
    (previous out : Option NativeInbound) (r : Result) : Prop
  | served (hout : out = some new) (hr : r = users.elim .ok .users)
  | preserved (i : NativeInbound) (g : ℕ) (e : ApplyError) (hold : previous = some i)
    (hout : out = some { i with generation := g }) (hr : r = .config e true)
  | lost (e : ApplyError) (hout : out = none) (hr : r = .error e ∨ r = .config e false)

variable {new : NativeInbound} {users : Option String}

theorem leaves_refused (previous : Option NativeInbound) (e : ApplyError) :
    Leaves new users previous previous (.config e previous.isSome) := by
  cases previous with
  | none => exact .lost e rfl (.inr rfl)
  | some i => exact .preserved i i.generation e rfl rfl rfl

theorem get_forget (oldKeys : Option (List PortKey)) :
    ((c.claimed cfg.tag keys).forget cfg.tag keys oldKeys).inbounds.get cfg.tag = none := by
  cases oldKeys <;> exact get_erase.trans (if_pos rfl)

theorem leaves_startFailed (hopen : c.closed = false) (e : StartError)
    (restore : Option String) :
    let r := (c.claimed cfg.tag keys).startFailed cfg keys (c.keysOf cfg.tag)
      (c.inbounds.get cfg.tag) (c.seq + 1) e restore
    Leaves new users (c.inbounds.get cfg.tag) (r.1.inbounds.get cfg.tag) r.2 := by
  dsimp only [startFailed]
  cases hi : c.inbounds.get cfg.tag with
  | none => exact .lost _ (get_forget _) (.inl rfl)
  | some i =>
    cases restore with
    | some => exact .lost _ (get_forget _) (.inl rfl)
    | none =>
      dsimp only
      rw [if_pos (current_claimed hopen)]
      exact .preserved i (c.seq + 1) _ rfl (get_put.trans (if_pos (key_of_get hi))) rfl

/-- Every call leaves the new inbound, the old one or none, and says which. -/
theorem Ready.leaves (h : c.Ready cfg) (hcall : c.applyInbound (some cfg) routing order ch = r) :
    Leaves ⟨cfg, routing, c.seq + 1⟩ ch.users (c.inbounds.get cfg.tag) (r.1.inbounds.get cfg.tag)
      r.2 := by
  subst hcall
  have hport : ¬(cfg.port < 1 ∨ 65535 < cfg.port) :=
    not_or.mpr ⟨not_lt.mpr h.port.1, not_lt.mpr h.port.2⟩
  have hopen : ¬(c.closed = true ∨ c.started = false) := by
    rw [h.isOpen, h.started]
    decide
  dsimp only [applyInbound]
  rw [if_neg h.tag, if_neg hport, if_neg hopen]
  cases c.portConflictLocked (inboundPortKeys order cfg) cfg.tag with
  | some => exact leaves_refused _ _
  | none =>
    cases ch.new with
    | some => exact leaves_refused _ _
    | none =>
      cases ch.build with
      | some => exact leaves_refused _ _
      | none =>
        cases ch.start with
        | some e => exact leaves_startFailed h.isOpen e ch.restore
        | none =>
          rw [startDone_claimed h.isOpen]
          exact .served (get_put.trans (if_pos rfl)) rfl

/-- A call of the core is one of a node's, with the outcome that its result tells. -/
theorem Ready.outcome (h : c.Ready cfg) (hcall : c.applyInbound (some cfg) routing order ch = r)
    (reason : ApplyError → String) (emptied : Bool) {users : List User}
    (husers : users = [] → ch.users = none) {old : Option Agent.Inbound}
    (hold : old.map ({ · with users := ∅ }) = (c.inbounds.get cfg.tag).map (·.known)) :
    let a := Agent.applyInbound (r.2.outcome reason emptied)
      ⟨cfg.protocol, cfg.port, cfg.raw, routing, ∅⟩ users old
    a.1.map ({ · with users := ∅ }) = (r.1.inbounds.get cfg.tag).map (·.known) ∧
      a.2 = r.2.applied reason := by
  cases h.leaves hcall with
  | served hout hr =>
    rw [hout, hr]
    cases ht : ch.users with
    | none => exact ⟨rfl, rfl⟩
    | some =>
      have hsome : users ≠ [] := by
        intro hnone
        rw [husers hnone] at ht
        cases ht
      exact ⟨rfl, if_neg hsome⟩
  | preserved i g e hi hout hr =>
    rw [hout, hr]
    rw [hi] at hold
    cases old with
    | none => cases hold
    | some => cases emptied <;> exact ⟨hold, rfl⟩
  | lost e hout hr =>
    rw [hout]
    rcases hr with hr | hr <;> rw [hr] <;> exact ⟨rfl, rfl⟩

end NativeCore

/-! ## Lock by lock -/

namespace Handover

namespace Config

/-- The loop gets there, if nothing else happens. -/
def Reaches (c : Config) (P : Config → Prop) : Prop :=
  ∃ chs : List Chance, P (chs.foldl execLoop c)

variable {c : Config} {P : Config → Prop} {op : Op} {rest : List Op} {tag : String} {again : Bool}

theorem Reaches.now (h : P c) : c.Reaches P := ⟨[], h⟩

theorem Reaches.step (hpc : c.pc = op :: rest) (ch : Chance)
    (h : { (c.exec ch op).1 with pc := (c.exec ch op).2 ++ rest }.Reaches P) : c.Reaches P := by
  obtain ⟨chs, h⟩ := h
  refine ⟨ch :: chs, ?_⟩
  rwa [List.foldl_cons, execLoop, hpc]

/-- The old inbound is taken out and closed, and what it had is put aside. -/
theorem Reaches.detach (hopen : c.closed = false) (hpc : c.pc = .install tag again :: rest)
    (hrunning : ∀ p ∈ c.inbounds.get tag, (c.adapters p.adapter).stage = .running)
    (h : ∀ c' : Config, c'.closed = false → c'.inbounds.get tag = none →
      c'.pc = .start tag again (c.inbounds.get tag).isSome :: rest → c'.Reaches P) :
    c.Reaches P := by
  refine .step hpc {} ?_
  simp only [exec, hopen]
  refine .step rfl {} ?_
  simp only [exec, takeInbound]
  cases hold : c.inbounds.get tag with
  | none =>
    rw [hold] at h
    exact h _ rfl hold rfl
  | some p =>
    rw [hold] at h
    refine .step rfl {} ?_
    simp only [exec, retire, hrunning p hold]
    exact .step rfl {} (.step rfl {} (.step rfl {} (h _ rfl (get_erase.trans (if_pos rfl)) rfl)))

/-- What a call comes to, the operations of the loop can come to. -/
theorem reaches_settle {core : NativeCore} {cfg : InboundConfig} {routing : Option Routing}
    {order : Document} {ch : Dataplane.Chance} {r : NativeCore × Result} (hready : core.Ready cfg)
    (hcall : core.applyInbound (some cfg) routing order ch = r) (hopen : c.closed = false)
    (hpc : c.pc = .install cfg.tag again :: rest)
    (hsame : (c.inbounds.get cfg.tag).isSome = (core.inbounds.get cfg.tag).isSome)
    (hrunning : ∀ p ∈ c.inbounds.get cfg.tag, (c.adapters p.adapter).stage = .running) :
    c.Reaches fun c' => c'.pc = .settle cfg.tag again r.2.installed :: rest ∧
      (c'.inbounds.get cfg.tag).isSome = (r.1.inbounds.get cfg.tag).isSome := by
  cases hready.leaves hcall with
  | served hout hr =>
    have hok : r.2.installed = .ok := by
      rw [hr]
      cases ch.users <;> rfl
    rw [hout, hok]
    refine .detach hopen hpc hrunning fun c' hopen' hnone hpc' => .step hpc' {} (.step rfl {} ?_)
    simp only [exec, startAdapter, hopen', takeInbound, hnone, Bool.false_eq_true, if_false]
    exact .now ⟨rfl, congrArg isSome (get_put.trans (if_pos rfl))⟩
  | preserved i g e hi hout hr =>
    have hserved : (c.inbounds.get cfg.tag).isSome = true := hsame.trans (hi ▸ rfl)
    rw [hout, hr]
    refine .step hpc { refuse := true } (.now ⟨?_, hserved⟩)
    simp only [exec, hopen, hserved]
    rfl
  | lost e hout hr =>
    have hfailed : r.2.installed = .failed := by rcases hr with hr | hr <;> rw [hr] <;> rfl
    rw [hout, hfailed]
    refine .detach hopen hpc hrunning fun c' _ hnone hpc' => .step hpc' { startFails := true } ?_
    cases (c.inbounds.get cfg.tag).isSome with
    | false => exact .now ⟨rfl, congrArg isSome hnone⟩
    | true => exact .step rfl { restoreFails := true } (.now ⟨rfl, congrArg isSome hnone⟩)

end Config

end Handover

end Pandora.Dataplane
