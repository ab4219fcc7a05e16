import Pandora.Dataplane.Ports

/-!
# The ledger of the ports agrees with what is served

Between calls, a tag with an inbound has exactly the ports of its configuration in the ledger, and
a tag without one has none.  `Settled` is that, of one tag; `Elsewhere` says that a call for one
tag leaves the others alone, so that each branch of `applyInbound` only has to answer for its own
tag.
-/

namespace Pandora.Dataplane

open List Keyed Option

open Agent (Document Routing)

namespace NativeCore

variable {c c' c'' : NativeCore} {tag : String} {keys release keep : List PortKey} {k : PortKey}

/-! ## Claims and releases -/

theorem get_claimPorts :
    (c.claimPorts tag keys).ports.get k = if k ∈ keys then some ⟨k, tag⟩ else c.ports.get k := by
  refine get_foldl (g := fun _ => some (Claim.mk k tag)) (fun ports key => ?_) (fun _ => rfl) keys
  rw [get_put]
  split_ifs with heq
  · rw [show key = k from heq]
  · rfl

theorem get_releasePortsLocked : (c.releasePortsLocked tag release keep).ports.get k =
      if k ∈ release ∧ k ∉ keep ∧ c.ports.get k = some ⟨k, tag⟩ then none else c.ports.get k := by
  rw [ite_and]
  refine get_foldl (g := fun o => if k ∉ keep ∧ o = some (Claim.mk k tag) then none else o)
    (fun ports key => ?_) (fun o => ?_) release
  · by_cases heq : key = k
    · subst heq
      rw [if_pos rfl, ite_and]
      split_ifs
      · rfl
      · rw [get_erase, if_pos rfl]
      · rfl
    · rw [if_neg heq]
      split_ifs
      · rfl
      · rw [get_erase, if_neg heq]
      · rfl
  · split_ifs <;> rfl

theorem mine_release : (c.releasePortsLocked tag release keep).ports.get k = some ⟨k, tag⟩ ↔
      c.ports.get k = some ⟨k, tag⟩ ∧ ¬(k ∈ release ∧ k ∉ keep) := by
  rw [get_releasePortsLocked]
  split_ifs with h
  · exact ⟨nofun, fun hmine => absurd ⟨h.1, h.2.1⟩ hmine.2⟩
  · exact ⟨fun hmine => ⟨hmine, fun hout => h ⟨hout.1, hout.2, hmine⟩⟩, And.left⟩

theorem mine_claimed : (c.claimed tag keys).ports.get k = some ⟨k, tag⟩ ↔
      k ∈ keys ∨ c.ports.get k = some ⟨k, tag⟩ := by
  show (c.claimPorts tag keys).ports.get k = _ ↔ _
  rw [get_claimPorts]
  split_ifs with hk <;> simp [hk]

/-- What there is of the ports of a tag, for it and for the others. -/
def Owns (c : NativeCore) (tag : String) (keys : List PortKey) : Prop :=
  ∀ k, c.ports.get k = some ⟨k, tag⟩ ↔ k ∈ keys

/-- The ledger and the inbound of a tag agree. -/
inductive Settled (c : NativeCore) (tag : String) : Prop
  | served (i : NativeInbound) (order : Document) (keys : List PortKey)
      (hi : c.inbounds.get tag = some i) (horder : order.Perm i.config.raw)
      (heq : keys = inboundPortKeys order i.config) (hkeys : c.tagPorts.get tag = some ⟨tag, keys⟩)
      (howns : c.Owns tag keys)
  | idle (hi : c.inbounds.get tag = none) (hkeys : c.tagPorts.get tag = none)
      (howns : c.Owns tag [])

/-- The other tags have what they had. -/
structure Elsewhere (c c' : NativeCore) (tag : String) : Prop where
  inbounds : ∀ other, other ≠ tag → c'.inbounds.get other = c.inbounds.get other
  tagPorts : ∀ other, other ≠ tag → c'.tagPorts.get other = c.tagPorts.get other
  ports : ∀ other, other ≠ tag → ∀ k,
    c'.ports.get k = some ⟨k, other⟩ ↔ c.ports.get k = some ⟨k, other⟩

theorem Elsewhere.refl (c : NativeCore) (tag : String) : Elsewhere c c tag :=
  ⟨fun _ _ => rfl, fun _ _ => rfl, fun _ _ _ => Iff.rfl⟩

theorem Elsewhere.trans (h : Elsewhere c c' tag) (h' : Elsewhere c' c'' tag) :
    Elsewhere c c'' tag where
  inbounds other hne := (h'.inbounds other hne).trans (h.inbounds other hne)
  tagPorts other hne := (h'.tagPorts other hne).trans (h.tagPorts other hne)
  ports other hne k := (h'.ports other hne k).trans (h.ports other hne k)

theorem Settled.congr (hs : c.Settled tag) (hin : c'.inbounds.get tag = c.inbounds.get tag)
    (htag : c'.tagPorts.get tag = c.tagPorts.get tag)
    (hports : ∀ k, c'.ports.get k = some ⟨k, tag⟩ ↔ c.ports.get k = some ⟨k, tag⟩) :
    c'.Settled tag := by
  cases hs with
  | served i order keys hi horder heq hkeys howns =>
    exact .served i order keys (hin.trans hi) horder heq (htag.trans hkeys)
      fun k => (hports k).trans (howns k)
  | idle hi hkeys howns =>
    exact .idle (hin.trans hi) (htag.trans hkeys) fun k => (hports k).trans (howns k)

theorem elsewhere_release : Elsewhere c (c.releasePortsLocked tag release keep) tag where
  inbounds _ _ := rfl
  tagPorts _ _ := rfl
  ports other hne k := by
    rw [get_releasePortsLocked]
    split_ifs with h
    · refine ⟨nofun, fun hother => ?_⟩
      rw [h.2.2] at hother
      cases hother
      exact absurd rfl hne
    · rfl

structure Inv (c : NativeCore) : Prop where
  settled : ∀ tag, c.Settled tag
  named : c.inbounds.get "" = none

theorem inv_new (started closed : Bool) : Inv { started := started, closed := closed } where
  settled _ := .idle (get_empty _) (get_empty _) fun k => by
    rw [get_empty]
    exact ⟨nofun, nofun⟩
  named := get_empty _

theorem Inv.ne_empty (hc : c.Inv) : c.ports.get k ≠ some ⟨k, ""⟩ := by
  intro hk
  cases hc.settled "" with
  | served i _ _ hi =>
    rw [hc.named] at hi
    cases hi
  | idle _ _ howns => exact absurd ((howns k).mp hk) not_mem_nil

theorem Inv.free_or_own (hc : c.Inv) (hnone : c.portConflictLocked keys tag = none)
    (hk : k ∈ keys) : c.ports.get k = none ∨ c.ports.get k = some ⟨k, tag⟩ := by
  unfold portConflictLocked at hnone
  cases hfind : keys.find? fun k => decide (c.portOwner k ≠ "" ∧ c.portOwner k ≠ tag) with
  | some =>
    rw [hfind] at hnone
    cases hnone
  | none =>
    have hown := List.find?_eq_none.mp hfind k hk
    rw [decide_eq_true_iff, not_and_or, not_not, not_not] at hown
    cases hget : c.ports.get k with
    | none => exact .inl rfl
    | some claim =>
      obtain ⟨key, owner⟩ := claim
      cases (key_of_get hget : key = k)
      have howner : c.portOwner key = owner := by
        rw [portOwner, hget]
        rfl
      rw [howner] at hown
      rcases hown with rfl | rfl
      · exact absurd hget hc.ne_empty
      · exact .inr rfl

/-! ## Branches -/

/-- What holds where a call for a tag has got as far as to claim the ports: they were free or its
own, and the tag had all its ports and no others. -/
structure Claiming (c : NativeCore) (tag : String) (keys : List PortKey)
    (oldKeys : Option (List PortKey)) : Prop where
  free : ∀ k ∈ keys, c.ports.get k = none ∨ c.ports.get k = some ⟨k, tag⟩
  owns : c.Owns tag (oldKeys.getD [])

theorem elsewhere_claimed (hfree : ∀ k ∈ keys, c.ports.get k = none ∨
    c.ports.get k = some ⟨k, tag⟩) : Elsewhere c (c.claimed tag keys) tag where
  inbounds other hne := by
    show (c.inbounds.erase tag).get other = _
    rw [get_erase, if_neg hne.symm]
  tagPorts _ _ := rfl
  ports other hne k := by
    show (c.claimPorts tag keys).ports.get k = _ ↔ _
    rw [get_claimPorts]
    split_ifs with hk
    · refine ⟨fun h => ?_, fun h => ?_⟩
      · cases h
        exact absurd rfl hne
      · rcases hfree k hk with hnone | hown
        · rw [hnone] at h
          cases h
        · rw [hown] at h
          cases h
          exact absurd rfl hne
    · rfl

variable {oldKeys : Option (List PortKey)}

theorem get_dropped (keep : List PortKey) :
    ((c.claimed tag keys).releasePortsLocked tag keys keep).ports.get k =
      if k ∈ keys ∧ k ∉ keep then none
      else if k ∈ keys then some ⟨k, tag⟩ else c.ports.get k := by
  have hclaim : (c.claimed tag keys).ports.get k =
      if k ∈ keys then some ⟨k, tag⟩ else c.ports.get k := get_claimPorts
  rw [get_releasePortsLocked, hclaim]
  by_cases hk : k ∈ keys
  · rw [if_pos hk]
    exact if_congr ⟨fun h => ⟨hk, h.2.1⟩, fun h => ⟨hk, h.2, rfl⟩⟩ rfl rfl
  · simp only [hk, false_and, if_false]

section

variable (h : c.Claiming tag keys oldKeys)
include h

theorem Claiming.forget :
    Elsewhere c ((c.claimed tag keys).forget tag keys oldKeys) tag ∧
      ((c.claimed tag keys).forget tag keys oldKeys).Settled tag := by
  have hreleased : Elsewhere (c.claimed tag keys)
      ((c.claimed tag keys).releasePortsLocked tag keys []) tag := elsewhere_release
  have helse := (elsewhere_claimed h.free).trans hreleased
  have hinbound : ∀ other, (c.claimed tag keys).inbounds.get other =
      if tag = other then none else c.inbounds.get other := fun other => get_erase
  have herase : ∀ {x : NativeCore}, Elsewhere c x tag →
      Elsewhere c { x with tagPorts := x.tagPorts.erase tag } tag := by
    intro x hx
    refine ⟨hx.inbounds, fun other hne => ?_, hx.ports⟩
    rw [get_erase, if_neg hne.symm, hx.tagPorts other hne]
  have hgone : ((c.claimed tag keys).tagPorts.erase tag).get tag = none := by
    rw [get_erase, if_pos rfl]
  have hnone : (c.claimed tag keys).inbounds.get tag = none := by
    rw [hinbound, if_pos rfl]
  cases oldKeys with
  | none =>
    refine ⟨herase helse, .idle hnone hgone fun k => ?_⟩
    have howns : _ ↔ k ∈ [] := h.owns k
    refine mine_release.trans ?_
    rw [mine_claimed, howns]
    simp
  | some oldKeys =>
    refine ⟨herase (helse.trans elsewhere_release), .idle hnone hgone fun k => ?_⟩
    have howns : _ ↔ k ∈ oldKeys := h.owns k
    refine mine_release.trans ?_
    rw [mine_release, mine_claimed, howns]
    simp only [not_mem_nil, not_false_eq_true, and_true, iff_false]
    tauto

theorem Claiming.restored :
    ((c.claimed tag keys).releasePortsLocked tag keys (oldKeys.getD [])).ports.get k =
      c.ports.get k := by
  rw [get_dropped]
  have howns := h.owns k
  split_ifs with hnew hk
  · rcases h.free k hnew.1 with hnone | hown
    · exact hnone.symm
    · exact absurd (howns.mp hown) hnew.2
  · have hold : k ∈ oldKeys.getD [] := by
      by_contra hold
      exact hnew ⟨hk, hold⟩
    exact (howns.mpr hold).symm
  · rfl

theorem Claiming.moved :
    Owns (oldKeys.elim (c.claimed tag keys) fun oldKeys =>
      (c.claimed tag keys).releasePortsLocked tag oldKeys keys) tag keys := by
  intro k
  have howns := h.owns k
  cases oldKeys with
  | none =>
    refine mine_claimed.trans ?_
    rw [howns]
    simp
  | some oldKeys =>
    refine mine_release.trans ?_
    rw [mine_claimed, howns, getD_some]
    tauto

end

/-! ## Calls -/

/-- The ledger is as it was, and the configuration of the tag is still published. -/
structure Preserved (c c' : NativeCore) (tag : String) : Prop where
  ports : ∀ k, c'.ports.get k = c.ports.get k
  tagPorts : ∀ other, c'.tagPorts.get other = c.tagPorts.get other
  published : ∃ i i', c.inbounds.get tag = some i ∧ c'.inbounds.get tag = some i' ∧
    i'.config = i.config

/-- What a call for a tag may do. -/
structure Called (c : NativeCore) (tag : String) (r : NativeCore × Result) : Prop where
  elsewhere : Elsewhere c r.1 tag
  settled : r.1.Settled tag
  preserved : ∀ e, r.2 = .config e true → Preserved c r.1 tag

theorem Settled.owns (hs : c.Settled tag) : c.Owns tag ((c.keysOf tag).getD []) := by
  unfold keysOf
  cases hs with
  | served _ _ _ _ _ _ hkeys howns | idle _ hkeys howns =>
    rw [hkeys]
    exact howns

theorem Inv.called_same (hc : c.Inv) (e : ApplyError) (r : Result)
    (hr : r = .error e ∨ r = .config e (c.inbounds.get tag).isSome) : c.Called tag (c, r) where
  elsewhere := .refl c tag
  settled := hc.settled tag
  preserved e' he := by
    rcases hr with rfl | rfl
    · cases he
    · injection he with _ hsome
      obtain ⟨i, hi⟩ := isSome_iff_exists.mp hsome
      exact ⟨fun _ => rfl, fun _ => rfl, i, i, hi, hi, rfl⟩

theorem current_claimed (hopen : c.closed = false) :
    (c.claimed tag keys).Current tag (c.seq + 1) := by
  refine ⟨hopen, ?_⟩
  show (c.desired.put ⟨tag, c.seq + 1⟩).get tag = _
  rw [get_put, if_pos rfl]

variable {cfg : InboundConfig} {order : Document}

theorem called_startFailed (hc : c.Inv) (hopen : c.closed = false)
    (h : c.Claiming cfg.tag keys (c.keysOf cfg.tag)) (e : StartError) (restore : Option String) :
    c.Called cfg.tag ((c.claimed cfg.tag keys).startFailed cfg keys (c.keysOf cfg.tag)
      (c.inbounds.get cfg.tag) (c.seq + 1) e restore) := by
  obtain ⟨helse, hsettled⟩ := h.forget
  unfold startFailed
  cases hc.settled cfg.tag with
  | idle hi =>
    rw [hi]
    exact ⟨helse, hsettled, nofun⟩
  | served i order oldKeys hi horder heq hkeys howns =>
    rw [hi]
    cases restore with
    | some => exact ⟨helse, hsettled, nofun⟩
    | none =>
      dsimp only
      rw [if_pos (current_claimed hopen)]
      have htag : i.tag = cfg.tag := key_of_get hi
      have hports : ∀ k, ({ c.claimed cfg.tag keys with
          inbounds := (c.claimed cfg.tag keys).inbounds.put { i with generation := c.seq + 1 }
          }.releasePortsLocked cfg.tag keys ((c.keysOf cfg.tag).getD [])).ports.get k =
          c.ports.get k := fun k => h.restored
      have hinbounds : ∀ other, (((c.claimed cfg.tag keys).inbounds.put
          { i with generation := c.seq + 1 }).get other) =
          if cfg.tag = other then some { i with generation := c.seq + 1 }
          else c.inbounds.get other := by
        intro other
        show ((c.inbounds.erase cfg.tag).put { i with generation := c.seq + 1 }).get other = _
        rw [get_put, get_erase]
        show (if i.tag = other then _ else _) = _
        rw [htag]
        split_ifs <;> rfl
      have hback : (((c.claimed cfg.tag keys).inbounds.put
          { i with generation := c.seq + 1 }).get cfg.tag) =
          some { i with generation := c.seq + 1 } := (hinbounds cfg.tag).trans (if_pos rfl)
      refine ⟨⟨fun other hne => ?_, fun _ _ => rfl, fun other _ k => ?_⟩, ?_, fun _ _ => ?_⟩
      · exact (hinbounds other).trans (if_neg hne.symm)
      · rw [hports k]
      · refine .served { i with generation := c.seq + 1 } order oldKeys hback horder heq hkeys
          fun k => ?_
        rw [hports k]
        exact howns k
      · exact ⟨hports, fun _ => rfl, i, _, hi, hback, rfl⟩

/-- Only the inbound and the lease of the tag are put in besides. -/
theorem startDone_claimed (hopen : c.closed = false) (routing : Option Routing)
    (users : Option String) :
    (c.claimed cfg.tag keys).startDone cfg routing keys (c.keysOf cfg.tag) (c.seq + 1) users =
      ({ c.claimed cfg.tag keys with
        inbounds := (c.inbounds.erase cfg.tag).put ⟨cfg, routing, c.seq + 1⟩
        ports := ((c.keysOf cfg.tag).elim (c.claimed cfg.tag keys) fun oldKeys =>
          (c.claimed cfg.tag keys).releasePortsLocked cfg.tag oldKeys keys).ports
        tagPorts := c.tagPorts.put ⟨cfg.tag, keys⟩ },
        users.elim .ok .users) := by
  unfold startDone
  rw [if_pos (current_claimed hopen)]
  cases c.keysOf cfg.tag <;> cases users <;> rfl

theorem called_startDone (hopen : c.closed = false) (horder : order.Perm cfg.raw)
    (hkeys : keys = inboundPortKeys order cfg) (h : c.Claiming cfg.tag keys (c.keysOf cfg.tag))
    (routing : Option Routing) (users : Option String) :
    c.Called cfg.tag ((c.claimed cfg.tag keys).startDone cfg routing keys (c.keysOf cfg.tag)
      (c.seq + 1) users) := by
  have howns := h.moved
  have helse := elsewhere_claimed h.free
  have hreleased : Elsewhere (c.claimed cfg.tag keys)
      ((c.keysOf cfg.tag).elim (c.claimed cfg.tag keys) fun oldKeys =>
        (c.claimed cfg.tag keys).releasePortsLocked cfg.tag oldKeys keys) cfg.tag := by
    cases c.keysOf cfg.tag with
    | none => exact .refl _ _
    | some => exact elsewhere_release
  have hports := (helse.trans hreleased).ports
  rw [startDone_claimed hopen]
  refine ⟨⟨fun other hne => ?_, fun other hne => ?_, hports⟩, ?_, ?_⟩
  · rw [get_put, get_erase, if_neg hne.symm]
    exact if_neg hne.symm
  · rw [get_put]
    exact if_neg hne.symm
  · refine .served ⟨cfg, routing, c.seq + 1⟩ order keys ?_ horder hkeys ?_ howns
    · rw [get_put]
      exact if_pos rfl
    · rw [get_put]
      exact if_pos rfl
  · intro e he
    cases users <;> cases he

theorem Inv.applyInbound (hc : c.Inv) (routing : Option Routing) (horder : order.Perm cfg.raw)
    (ch : Chance) : c.Called cfg.tag (c.applyInbound (some cfg) routing order ch) := by
  simp only [NativeCore.applyInbound]
  generalize hkeys : inboundPortKeys order cfg = keys
  split_ifs with htag hport hclosed
  · exact hc.called_same _ _ (.inl rfl)
  · exact hc.called_same _ _ (.inl rfl)
  · exact hc.called_same _ _ (.inl rfl)
  · have hopen : c.closed = false := by
      rw [not_or, Bool.not_eq_true] at hclosed
      exact hclosed.1
    cases hconflict : c.portConflictLocked keys cfg.tag with
    | some => exact hc.called_same _ _ (.inr rfl)
    | none =>
      have hclaiming : c.Claiming cfg.tag keys (c.keysOf cfg.tag) :=
        ⟨fun k hk => hc.free_or_own hconflict hk, (hc.settled cfg.tag).owns⟩
      cases ch.new with
      | some => exact hc.called_same _ _ (.inr rfl)
      | none =>
        cases ch.build with
        | some => exact hc.called_same _ _ (.inr rfl)
        | none =>
          cases ch.start with
          | some e => exact called_startFailed hc hopen hclaiming e ch.restore
          | none => exact called_startDone hopen horder hkeys.symm hclaiming routing ch.users

theorem Inv.delInbound (hc : c.Inv) (tag : String) (r : Result) (hr : ∀ e, r ≠ .config e true) :
    c.Called tag (c.delInbound tag, r) := by
  have hout : ∀ other, (c.inbounds.erase tag).get other =
      if tag = other then none else c.inbounds.get other := fun other => get_erase
  have howns := (hc.settled tag).owns
  unfold NativeCore.delInbound
  dsimp only
  split
  case h_1 hkeys =>
    rw [show c.keysOf tag = none from hkeys] at howns
    refine ⟨⟨fun other hne => ?_, fun _ _ => rfl, fun _ _ _ => Iff.rfl⟩, ?_,
      fun e he => absurd he (hr e)⟩
    · exact (hout other).trans (if_neg hne.symm)
    · exact .idle ((hout tag).trans (if_pos rfl)) (map_eq_none_iff.mp hkeys) howns
  case h_2 keys hkeys =>
    rw [show c.keysOf tag = some keys from hkeys] at howns
    have herase : ∀ other, (c.tagPorts.erase tag).get other =
        if tag = other then none else c.tagPorts.get other := fun other => get_erase
    have helse : Elsewhere c (c.releasePortsLocked tag keys []) tag := elsewhere_release
    refine ⟨⟨fun other hne => ?_, fun other hne => ?_, helse.ports⟩, ?_,
      fun e he => absurd he (hr e)⟩
    · exact (hout other).trans (if_neg hne.symm)
    · exact (herase other).trans (if_neg hne.symm)
    · refine .idle ((hout tag).trans (if_pos rfl)) ((herase tag).trans (if_pos rfl)) fun k => ?_
      refine mine_release.trans ?_
      rw [howns k]
      simp

theorem Called.inv {r : NativeCore × Result} (hc : c.Inv) (h : c.Called tag r)
    (hnamed : r.1.inbounds.get "" = none) : r.1.Inv where
  settled other := by
    by_cases hne : other = tag
    · exact hne ▸ h.settled
    · exact (hc.settled other).congr (h.elsewhere.inbounds other hne)
        (h.elsewhere.tagPorts other hne) (h.elsewhere.ports other hne)
  named := hnamed

end NativeCore

/-! ## All runs -/

namespace PortLedger

/-- A call. -/
inductive Call
  /-- `applyInbound`, with an order of the fields of the configuration. -/
  | apply (cfg : InboundConfig) (routing : Option Routing) (order : Document)
      (horder : order.Perm cfg.raw) (ch : Chance)
  /-- `applyInbound` of nothing. -/
  | applyNil
  | del (tag : String)
  | setOwner (owner : InboundOwner)

/-- What a call leaves and returns; `DelInbound` returns what closing the inbound returned. -/
def call (c : NativeCore) : Call → NativeCore × Result
  | .apply cfg routing order _ ch => c.applyInbound (some cfg) routing order ch
  | .applyNil => c.applyInbound none none [] {}
  | .del tag => (c.delInbound tag, .ok)
  | .setOwner owner => (c.setInboundOwner owner, .ok)

def next (c : NativeCore) (l : Call) : NativeCore := (call c l).1

/-- The tag that a call is for. -/
def Call.tag : Call → Option String
  | .apply cfg _ _ _ _ => some cfg.tag
  | .applyNil => none
  | .del tag => some tag
  | .setOwner _ => none

/-- **The ledger and the inbounds agree**: a port has one owner, and a tag has exactly the ports of
the configuration that is published under it. -/
structure Agrees (c : NativeCore) : Prop where
  single : ∀ a ∈ c.ports, ∀ b ∈ c.ports, a.key = b.key → a = b
  served : ∀ tag i, c.inbounds.get tag = some i → ∃ order : Document, order.Perm i.config.raw ∧
    ∀ k, ⟨k, tag⟩ ∈ c.ports ↔ k ∈ inboundPortKeys order i.config
  idle : ∀ tag, c.inbounds.get tag = none → ∀ a ∈ c.ports, a.tag ≠ tag

variable {c : NativeCore}

theorem Agrees.of_inv (hc : c.Inv) : Agrees c where
  single _ ha _ hb hkey := eq_of_mem ha hb hkey
  served tag i hi := by
    cases hc.settled tag with
    | served i' order keys hi' horder heq hkeys howns =>
      cases hi.symm.trans hi'
      exact ⟨order, horder, heq ▸ howns⟩
    | idle hi' =>
      rw [hi] at hi'
      cases hi'
  idle tag hi a ha hat := by
    cases hc.settled tag with
    | served i' _ _ hi' =>
      rw [hi] at hi'
      cases hi'
    | idle hi' hkeys howns =>
      subst hat
      exact absurd ((howns a.key).mp ha) not_mem_nil

theorem called (hc : c.Inv) {l : Call} {tag : String} (htag : l.tag = some tag) :
    c.Called tag (call c l) := by
  cases l with
  | apply cfg routing order horder ch =>
    cases htag
    exact hc.applyInbound routing horder ch
  | del =>
    cases htag
    exact hc.delInbound tag .ok nofun
  | applyNil | setOwner => cases htag

theorem inv_next (hc : c.Inv) (l : Call) : (next c l).Inv := by
  cases l with
  | applyNil => exact hc
  | setOwner => exact ⟨fun tag => (hc.settled tag).congr rfl rfl fun _ => Iff.rfl, hc.named⟩
  | apply cfg routing order horder ch =>
    by_cases htag : cfg.tag = ""
    · have hsame : c.applyInbound (some cfg) routing order ch = (c, .error .noTag) := if_pos htag
      show (c.applyInbound (some cfg) routing order ch).1.Inv
      rw [hsame]
      exact hc
    · have hcalled := hc.applyInbound routing horder ch
      exact hcalled.inv hc ((hcalled.elsewhere.inbounds "" (Ne.symm htag)).trans hc.named)
  | del tag =>
    have hcalled := hc.delInbound tag .ok nofun
    refine hcalled.inv hc ?_
    by_cases htag : tag = ""
    · subst htag
      show (c.delInbound "").inbounds.get "" = none
      have hout : (c.delInbound "").inbounds = c.inbounds.erase "" := by
        simp only [NativeCore.delInbound]
        split <;> rfl
      rw [hout, get_erase, if_pos rfl]
    · exact (hcalled.elsewhere.inbounds "" (Ne.symm htag)).trans hc.named

/-- **What a call leaves alone**: one that fails and preserves what there was leaves the ledger and
the configuration of its tag, and no call touches the inbound or the ports of another tag. -/
structure Steady (c : NativeCore) : Prop where
  preserved : ∀ l e, (call c l).2 = .config e true →
    ∃ tag, l.tag = some tag ∧ NativeCore.Preserved c (next c l) tag
  apart : ∀ l other, l.tag ≠ some other → (next c l).inbounds.get other = c.inbounds.get other ∧
    ∀ k, ⟨k, other⟩ ∈ (next c l).ports ↔ ⟨k, other⟩ ∈ c.ports

theorem Steady.of_inv (hc : c.Inv) : Steady c where
  preserved l e he := by
    cases htag : l.tag with
    | some tag => exact ⟨tag, rfl, (called hc htag).preserved e he⟩
    | none =>
      cases l with
      | apply | del => cases htag
      | applyNil | setOwner => cases he
  apart l other hother := by
    cases htag : l.tag with
    | some tag =>
      have helse := (called hc htag).elsewhere
      have hne : other ≠ tag := fun heq => hother (heq ▸ htag)
      exact ⟨helse.inbounds other hne, helse.ports other hne⟩
    | none =>
      cases l with
      | apply | del => cases htag
      | applyNil | setOwner => exact ⟨rfl, fun _ => Iff.rfl⟩

/-- After any calls, the ledger agrees with the inbounds, whatever the adapters and the routing did,
and the next call leaves alone what it should. -/
theorem ledger_agrees (started closed : Bool) (calls : List Call) :
    Agrees (calls.foldl next { started := started, closed := closed }) ∧
      Steady (calls.foldl next { started := started, closed := closed }) := by
  have hinv : (calls.foldl next { started := started, closed := closed }).Inv :=
    Runs.run_invariant (I := NativeCore.Inv) (fun _ l hc => inv_next hc l) calls
      (NativeCore.inv_new started closed)
  exact ⟨.of_inv hinv, .of_inv hinv⟩

end PortLedger

end Pandora.Dataplane
