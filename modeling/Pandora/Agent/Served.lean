import Pandora.Agent.Server
import Pandora.Agent.Shown
import Pandora.Foundation.Runs

/-!
# The configuration that is reported is the one that is served

A node reports the digest of the last configuration it has installed.  What its inbound was built
from is the document of that digest, or the copy of it that the node keeps for a rollback
(`Shown`), and this is so in every state of every run.  The copy is the document if all its
numbers have 64 bits with a floating point; else a rollback changes them (`rolled_back_number`).
-/

namespace Pandora.Agent.Serving

open List Function Cell Option Server

/-! ## Runs -/

/-- A server, and all configurations that have come to it. -/
structure Config where
  server : Server
  delivered : List NodeConfig

inductive Label
  /-- A message with the configurations of all nodes. -/
  | config (items : List (Chance × NodeConfig))
  /-- The daemon starts with what is on disk. -/
  | start (items : List (Chance × NodeConfig))
  | retry (id : String) (ch : Chance)
  | health (id : String) (ch : Chance)
  /-- A new stream. -/
  | welcome
  /-- The server has been removed: all nodes are. -/
  | tombstone
  | full (ch : Chance) (id version : String) (users : List User)
  | delta (ch : Chance) (id fromVersion toVersion : String) (upserted : List User)
      (removed : List ℤ)

def Label.deliveries : Label → List NodeConfig
  | .config items => items.map (·.2)
  | .start items => items.map (·.2)
  | _ => []

def act (codec : Codec) (s : Server) : Label → Server
  | .config items => s.applyServerConfig codec items
  | .start items => s.start codec items
  | .retry id ch => if id ∈ s.order then s.step id (·.retryFailedConfig codec ch) else s
  | .health id ch => if id ∈ s.order then s.step id (·.reportHealth ch) else s
  | .welcome => { s with nodes := fun id => (s.nodes id).map Node.welcome }
  | .tombstone => { s.removeUnless [] with order := [] }
  | .full ch id version users => s.onUsersFull ch id version users
  | .delta ch id fromVersion toVersion upserted removed =>
    s.onUsersDelta ch id fromVersion toVersion upserted removed

def next (codec : Codec) (c : Config) (l : Label) : Config :=
  ⟨act codec { c.server with said := [] } l, l.deliveries ++ c.delivered⟩

/-- The inbound of a node is built from the document of a digest. -/
def Config.Serves (codec : Codec) (c : Config) (id sha : String) : Prop :=
  ∃ inbound, c.server.inbounds id = some inbound ∧
    ∃ nc ∈ c.delivered, nc.sha = sha ∧ nc.Reads codec inbound.raw

/-- **What is reported is served.**  A node that is started serves the document of the digest it
has applied, one without an inbound is not started, what is said to be switched to or in good
health is what is served, and no inbound is built from a document that does not have the digest
it came with. -/
structure Config.Honest (codec : Codec) (c : Config) : Prop where
  serving : ∀ id n, c.server.nodes id = some n → n.started = true → c.Serves codec id n.appliedSHA
  stopped : ∀ id n, c.server.nodes id = some n → c.server.inbounds id = none → n.started = false
  said : ∀ id sha phase reason, (id, .config sha phase reason) ∈ c.server.said → phase ≠ .failed →
    c.Serves codec id sha
  genuine : ∀ id inbound, c.server.inbounds id = some inbound → ∃ nc ∈ c.delivered,
    nc.Reads codec inbound.raw

/-! ## What an inbound shows -/

/-- A document is that of a digest, or the copy of that. -/
def Shown (codec : Codec) (delivered : List NodeConfig) (sha : String) (doc : Document) : Prop :=
  ∃ nc ∈ delivered, nc.sha = sha ∧ ∃ cfg, nc.Reads codec cfg ∧
    (doc = cfg ∨ cloneConfigMap cfg = some doc)

variable {codec : Codec} {delivered : List NodeConfig}

variable {delivered' : List NodeConfig} {v w : View} {s : Server}
  {items : List (Chance × NodeConfig)} {c : Config} {p : Server × List String}
  {item : Chance × NodeConfig} {doc : Document} {l : Label} {sha : String}

theorem Shown.mono (h : Shown codec delivered sha doc)
    (hsub : delivered ⊆ delivered') : Shown codec delivered' sha doc := by
  obtain ⟨nc, hnc, hsha⟩ := h
  exact ⟨nc, hsub hnc, hsha⟩

/-- What a node knows, and what its inbound is built from. -/
structure Sound (codec : Codec) (delivered : List NodeConfig) (v : View) : Prop where
  published : ∀ doc ∈ v.raw, ∃ sha, Shown codec delivered sha doc
  serving : v.started = true → ∃ doc ∈ v.raw, Shown codec delivered v.appliedSHA doc
  active : ∀ doc ∈ v.activeConfig, Shown codec delivered v.appliedSHA doc
  held : v.started = true → v.activeConfig ≠ none
  awaited : ∀ nc ∈ v.awaited, nc ∈ delivered

section

variable (h : Sound codec delivered v)
include h

theorem Sound.mono (hsub : delivered ⊆ delivered') : Sound codec delivered' v where
  published := fun doc hdoc => (h.published doc hdoc).imp fun _ hshown => hshown.mono hsub
  serving := fun hstarted => (h.serving hstarted).imp fun _ hdoc => ⟨hdoc.1, hdoc.2.mono hsub⟩
  active := fun doc hdoc => (h.active doc hdoc).mono hsub
  held := h.held
  awaited := fun nc hnc => hsub (h.awaited nc hnc)

theorem Sound.failed (hfailed : v.Failed w) : Sound codec delivered w := by
  have hleft : ∀ raw : Option Document, raw = none ∨ raw = v.raw →
      ∀ doc ∈ raw, ∃ sha, Shown codec delivered sha doc := by
    rintro raw (rfl | rfl) doc hdoc
    · cases hdoc
    · exact h.published doc hdoc
  cases hfailed with
  | kept started hstarted =>
    exact ⟨h.published, fun hup => h.serving (hstarted hup), h.active,
      fun hup => h.held (hstarted hup), h.awaited⟩
  | absent raw hactive hraw =>
    -- a node that has never installed anything is not started
    exact ⟨hleft raw hraw, fun hup => absurd hactive (h.held hup), h.active, h.held, h.awaited⟩
  | lost raw hraw =>
    exact ⟨hleft raw hraw, fun hup => absurd hup Bool.false_ne_true, h.active,
      fun hup => absurd hup Bool.false_ne_true, h.awaited⟩
  | rolledBack previous started hactive =>
    have hprevious := h.active previous hactive
    refine ⟨?_, fun _ => ⟨previous, rfl, hprevious⟩, h.active, fun _ => ?_, h.awaited⟩
    · rintro doc ⟨⟩
      exact ⟨v.appliedSHA, hprevious⟩
    · rw [hactive]
      exact some_ne_none previous

theorem Sound.turned {nc : NodeConfig}
    (hnc : nc ∈ delivered) (hturned : v.Turned codec nc w) : Sound codec delivered w := by
  cases hturned with
  | unchanged => exact h
  | confirmed => exact { h with awaited := fun _ hnone => by cases hnone }
  | failed w hfailed =>
    have hw := h.failed hfailed
    refine { hw with awaited := ?_ }
    rintro nc' ⟨⟩
    exact hnc
  | installed cfg snapshot hreads hclone =>
    have hshown : Shown codec delivered nc.sha cfg := ⟨nc, hnc, rfl, cfg, hreads, .inl rfl⟩
    refine ⟨?_, fun _ => ⟨cfg, rfl, hshown⟩, ?_, fun _ => some_ne_none snapshot, ?_⟩
    · rintro doc ⟨⟩
      exact ⟨nc.sha, hshown⟩
    · rintro doc ⟨⟩
      exact ⟨nc, hnc, rfl, cfg, hreads, .inr hclone⟩
    · intro nc' hnone
      cases hnone

end

/-! ## What is true of a server -/

structure ServerSound (codec : Codec) (delivered : List NodeConfig) (s : Server) : Prop where
  nodes : ∀ id n, s.nodes id = some n → Sound codec delivered (s.cell id n).view
  inbounds : ∀ id inbound, s.inbounds id = some inbound →
    ∃ sha, Shown codec delivered sha inbound.raw
  said : ∀ id sha phase reason, (id, .config sha phase reason) ∈ s.said → phase ≠ .failed →
    ∃ n, s.nodes id = some n ∧ n.started = true ∧ n.appliedSHA = sha

section

variable (h : ServerSound codec delivered s)
include h

theorem ServerSound.mono (hsub : delivered ⊆ delivered') : ServerSound codec delivered' s where
  nodes := fun id n hn => (h.nodes id n hn).mono hsub
  inbounds := fun id inbound hin => (h.inbounds id inbound hin).imp fun _ hshown => hshown.mono hsub
  said := h.said

theorem ServerSound.node (id nodeType : String) :
    Sound codec delivered (s.cell id (s.node id nodeType)).view := by
  unfold Server.node
  cases hn : s.nodes id with
  | some n => exact h.nodes id n hn
  | none =>
    refine ⟨?_, fun hup => ?_, ?_, fun hup => ?_, ?_⟩
    · intro doc hdoc
      obtain ⟨inbound, hin, rfl⟩ := map_eq_some_iff.mp hdoc
      exact h.inbounds id inbound hin
    · cases hup
    · rintro doc ⟨⟩
    · cases hup
    · rintro nc ⟨⟩

/-- **A step of one node**, of which nothing has been said before. -/
theorem ServerSound.put {id : String} {x : Cell}
    (hx : Sound codec delivered x.view) (htruthful : x.Truthful)
    (hsilent : ∀ what, (id, what) ∉ s.said) : ServerSound codec delivered (s.put id x) where
  nodes := by
    intro id' n hn
    unfold Server.put at hn
    by_cases hid : id' = id
    · subst hid
      simp only [update_self, some.injEq] at hn
      subst hn
      have hcell : ((s.put id' x).cell id' x.node).view = x.view := by
        simp only [Server.put, Server.cell, view, update_self]
      rw [hcell]
      exact hx
    · simp only [update_of_ne hid] at hn
      have hcell : ((s.put id x).cell id' n).view = (s.cell id' n).view := by
        simp only [Server.put, Server.cell, view, update_of_ne hid]
      rw [hcell]
      exact h.nodes id' n hn
  inbounds := by
    intro id' inbound hin
    unfold Server.put at hin
    by_cases hid : id' = id
    · subst hid
      simp only [update_self] at hin
      refine hx.published inbound.raw ?_
      show x.inbound.map (·.raw) = some inbound.raw
      rw [hin]
      rfl
    · simp only [update_of_ne hid] at hin
      exact h.inbounds id' inbound hin
  said := by
    intro id' sha phase reason hsaid hnot
    rcases mem_append.mp hsaid with hnew | hold
    · obtain ⟨what, hwhat, heq⟩ := mem_map.mp hnew
      obtain ⟨rfl, rfl⟩ := Prod.mk.inj heq
      obtain ⟨hstarted, hsha⟩ := htruthful sha phase reason hwhat hnot
      refine ⟨x.node, ?_, hstarted, hsha⟩
      simp only [Server.put, update_self]
    · have hid : id' ≠ id := by
        rintro rfl
        exact hsilent _ hold
      obtain ⟨n, hn, hserves⟩ := h.said id' sha phase reason hold hnot
      refine ⟨n, ?_, hserves⟩
      simp only [Server.put, update_of_ne hid]
      exact hn

theorem ServerSound.removeUnless {keep : List String} (hkeep : ∀ e ∈ s.said, e.1 ∈ keep)
    (order : List String) : ServerSound codec delivered { s.removeUnless keep with order } where
  nodes := by
    intro id n hn
    have hkept : id ∈ keep := by
      by_contra hnot
      simp only [Server.removeUnless, if_neg hnot] at hn
      cases hn
    simp only [Server.removeUnless, if_pos hkept] at hn
    have hcell : (Server.cell { s.removeUnless keep with order } id n).view =
        (s.cell id n).view := by
      simp only [Server.removeUnless, Server.cell, view,
        if_neg (not_and_of_not_left _ (not_not.mpr hkept))]
    rw [hcell]
    exact h.nodes id n hn
  inbounds := by
    intro id inbound hin
    simp only [Server.removeUnless] at hin
    split_ifs at hin
    exact h.inbounds id inbound hin
  said := by
    intro id sha phase reason hsaid hnot
    obtain ⟨n, hn, hserves⟩ := h.said id sha phase reason hsaid hnot
    refine ⟨n, ?_, hserves⟩
    simp only [Server.removeUnless, if_pos (hkeep _ hsaid)]
    exact hn

end

/-! ## The steps -/

namespace ServerSound

theorem applyNode (h : ServerSound codec delivered p.1)
    (hsaid : ∀ e ∈ p.1.said, e.1 ∈ p.2) (hitem : item.2 ∈ delivered) :
    ServerSound codec delivered (applyNode codec p item).1 ∧
      ∀ e ∈ (applyNode codec p item).1.said, e.1 ∈ (applyNode codec p item).2 := by
  simp only [Server.applyNode]
  split_ifs with hskip
  · exact ⟨h, hsaid⟩
  · obtain ⟨hturned, htruthful⟩ := applyNodeConfig_view codec item.1 item.2
      (x := p.1.cell item.2.nodeId (p.1.node item.2.nodeId item.2.nodeType)) rfl
    refine ⟨h.put ((h.node _ _).turned hitem hturned) htruthful fun what hwhat => ?_,
      fun e he => ?_⟩
    · exact hskip (.inr (hsaid _ hwhat))
    · rcases mem_append.mp he with hnew | hold
      · obtain ⟨what, -, rfl⟩ := mem_map.mp hnew
        exact mem_append_right _ mem_cons_self
      · exact mem_append_left _ (hsaid e hold)

theorem applyNodes (hitems : ∀ item ∈ items, item.2 ∈ delivered)
    (h : ServerSound codec delivered p.1) (hsaid : ∀ e ∈ p.1.said, e.1 ∈ p.2) :
    ServerSound codec delivered (items.foldl (Server.applyNode codec) p).1 ∧
      ∀ e ∈ (items.foldl (Server.applyNode codec) p).1.said,
        e.1 ∈ (items.foldl (Server.applyNode codec) p).2 := by
  induction items generalizing p with
  | nil => exact ⟨h, hsaid⟩
  | cons item items ih =>
    obtain ⟨hstep, hsaid'⟩ := h.applyNode hsaid (hitems item mem_cons_self)
    exact ih (fun item' hitem' => hitems item' (mem_cons_of_mem _ hitem')) hstep hsaid'

theorem applyServerConfig (h : ServerSound codec delivered s) (hsaid : s.said = [])
    (hitems : ∀ item ∈ items, item.2 ∈ delivered) :
    ServerSound codec delivered (s.applyServerConfig codec items) := by
  obtain ⟨hdone, hkeep⟩ := ServerSound.applyNodes hitems (p := (s, [])) h
    (fun e he => by rw [hsaid] at he; cases he)
  exact hdone.removeUnless hkeep _

theorem startNode (h : ServerSound codec delivered s) (hsaid : s.said = [])
    (hitem : item.2 ∈ delivered) :
    ServerSound codec delivered (s.startNode codec item) ∧ (s.startNode codec item).said = [] := by
  simp only [Server.startNode]
  split_ifs with hskip
  · exact ⟨h, hsaid⟩
  · have hnone : s.nodes item.2.nodeId = none :=
      not_isSome_iff_eq_none.mp fun hsome => hskip (.inr hsome)
    have hnew : Sound codec delivered
        (s.cell item.2.nodeId { nodeType := item.2.nodeType, offlineStart := true }).view := by
      have hnode := h.node item.2.nodeId item.2.nodeType
      rw [Server.node, hnone] at hnode
      exact hnode
    have hcases := installNodeConfig_view codec item.1 item.2
      (s.cell item.2.nodeId { nodeType := item.2.nodeType, offlineStart := true })
    have hquiet := (installNodeConfig_spec codec item.1 item.2
      (s.cell item.2.nodeId { nodeType := item.2.nodeType, offlineStart := true })).1
    generalize installNodeConfig codec item.1 item.2
      (s.cell item.2.nodeId { nodeType := item.2.nodeType, offlineStart := true }) = r
      at hcases hquiet ⊢
    obtain ⟨y, result⟩ := r
    have hsilent : y.sent = [] := hquiet
    have hput : ∀ {z : Cell}, z.sent = [] → Sound codec delivered z.view →
        ServerSound codec delivered
          { s.put item.2.nodeId z with order := s.order ++ [item.2.nodeId] } ∧
          (s.put item.2.nodeId z).said = [] := by
      intro z hz hsound
      have hdone : ServerSound codec delivered (s.put item.2.nodeId z) :=
        h.put hsound (truthful_of_sent_nil hz) fun what hwhat => by
          rw [hsaid] at hwhat
          cases hwhat
      refine ⟨{ hdone with }, ?_⟩
      rw [Server.put, hz, hsaid]
      rfl
    cases result with
    | some =>
      obtain ⟨-, hfailed⟩ | ⟨hbad, -⟩ := hcases
      · exact hput hsilent (hnew.turned hitem (.failed y.view hfailed))
      · cases hbad
    | none =>
      obtain ⟨hbad, -⟩ | ⟨-, cfg, snapshot, hreads, hclone, hview⟩ := hcases
      · exact absurd rfl hbad
      · have hinstalled := hnew.turned hitem (.installed cfg snapshot hreads hclone)
        rw [← hview] at hinstalled
        exact hput hsilent hinstalled

theorem start (hitems : ∀ item ∈ items, item.2 ∈ delivered) (h : ServerSound codec delivered s)
    (hsaid : s.said = []) : ServerSound codec delivered (s.start codec items) := by
  induction items generalizing s with
  | nil => exact h
  | cons item items ih =>
    obtain ⟨hstep, hsaid'⟩ := h.startNode hsaid (hitems item mem_cons_self)
    exact ih (fun item' hitem' => hitems item' (mem_cons_of_mem _ hitem')) hstep hsaid'

section

variable (h : ServerSound codec delivered s)
include h

theorem step (hsaid : s.said = [])
    {id : String} {f : Cell → Cell} (hf : ∀ x : Cell, x.sent = [] → Sound codec delivered x.view →
      Sound codec delivered (f x).view ∧ (f x).Truthful) :
    ServerSound codec delivered (s.step id f) := by
  unfold Server.step
  cases hn : s.nodes id with
  | none => exact h
  | some n =>
    obtain ⟨hsound, htruthful⟩ := hf (s.cell id n) rfl (h.nodes id n hn)
    refine h.put hsound htruthful fun what hwhat => ?_
    rw [hsaid] at hwhat
    cases hwhat

theorem welcome (hsaid : s.said = []) :
    ServerSound codec delivered { s with nodes := fun id => (s.nodes id).map Node.welcome } where
  nodes := by
    intro id n hn
    obtain ⟨before, hbefore, rfl⟩ := map_eq_some_iff.mp hn
    have hview : (cell { s with nodes := fun id => (s.nodes id).map Node.welcome } id
        before.welcome).view = (s.cell id before).view := by
      rw [view, cell, Node.welcome, Option.map_map]
      rfl
    rw [hview]
    exact h.nodes id before hbefore
  inbounds := h.inbounds
  said := by
    intro id sha phase reason hwhat
    rw [show s.said = [] from hsaid] at hwhat
    cases hwhat

theorem act (hsaid : s.said = [])
    (hl : ∀ nc ∈ l.deliveries, nc ∈ delivered) : ServerSound codec delivered (act codec s l) := by
  have hsilent : ∀ id what, (id, what) ∉ s.said := by
    intro id what hwhat
    rw [hsaid] at hwhat
    cases hwhat
  cases l with
  | config =>
    exact h.applyServerConfig hsaid fun item hitem => hl item.2 (mem_map_of_mem hitem)
  | start =>
    exact ServerSound.start (fun item hitem => hl item.2 (mem_map_of_mem hitem)) h hsaid
  | retry id ch =>
    simp only [act]
    split_ifs
    · refine h.step hsaid fun x hsent hx => ?_
      obtain ⟨hcases, htruthful⟩ := retryFailedConfig_view hsent
      refine ⟨?_, htruthful⟩
      rcases hcases with hsame | ⟨nc, hnc, hturned⟩
      · rw [hsame]
        exact hx
      · exact hx.turned (hx.awaited nc hnc) hturned
    · exact h
  | health id ch =>
    simp only [act]
    split_ifs
    · refine h.step hsaid fun x hsent hx => ?_
      obtain ⟨hview, htruthful⟩ := reportHealth_view hsent
      rw [hview]
      exact ⟨hx, htruthful⟩
    · exact h
  | welcome => exact h.welcome hsaid
  | tombstone => exact h.removeUnless (fun e he => absurd he (hsilent e.1 e.2)) []
  | full ch id version users =>
    simp only [act, Server.onUsersFull]
    split_ifs
    · exact h
    · refine h.put ?_ ((truthful_of_sent_nil rfl).onUsersFull ch version users) (hsilent id)
      rw [onUsersFull_view]
      exact h.node id ""
  | delta ch id fromVersion toVersion upserted removed =>
    simp only [act, Server.onUsersDelta]
    cases hn : s.nodes id with
    | none =>
      split_ifs
      · refine { h with said := fun id' sha phase reason hwhat hnot => ?_ }
        rcases mem_cons.mp hwhat with heq | hold
        · cases (Prod.mk.inj heq).2
        · exact absurd hold (hsilent id' _)
      · exact h
    | some n =>
      refine h.put ?_ ((truthful_of_sent_nil rfl).onUsersDelta ch fromVersion toVersion upserted
        removed) (hsilent id)
      rw [onUsersDelta_view]
      exact h.nodes id n hn

end

end ServerSound

/-! ## Every run -/

/-- The condition on a step: in the documents that come, all numbers are of the format of the
copy. -/
def Config.Clear (codec : Codec) (_ : Config) (l : Label) : Prop :=
  ∀ nc ∈ l.deliveries, ∀ cfg, nc.Reads codec cfg → cfg.Exact

structure Config.Inv (codec : Codec) (c : Config) : Prop where
  sound : ServerSound codec c.delivered c.server
  exact : ∀ nc ∈ c.delivered, ∀ cfg, nc.Reads codec cfg → cfg.Exact

theorem Config.Inv.next (h : c.Inv codec) (hl : c.Clear codec l) : (next codec c l).Inv codec where
  sound := by
    have hmono := h.sound.mono (subset_append_right l.deliveries c.delivered)
    refine ServerSound.act (s := { c.server with said := [] }) { hmono with said := ?_ } rfl
      fun nc hnc => mem_append_left _ hnc
    intro id sha phase reason hwhat
    cases hwhat
  exact := by
    exact forall_mem_append.mpr ⟨hl, h.exact⟩

theorem Config.Inv.reads (h : c.Inv codec)
    (hshown : Shown codec c.delivered sha doc) : ∃ nc ∈ c.delivered, nc.sha = sha ∧
      nc.Reads codec doc := by
  obtain ⟨nc, hnc, hsha, cfg, hreads, rfl | hclone⟩ := hshown
  · exact ⟨nc, hnc, hsha, hreads⟩
  · rw [cloneConfigMap_of_exact (h.exact nc hnc cfg hreads)] at hclone
    obtain rfl := some.inj hclone
    exact ⟨nc, hnc, hsha, hreads⟩

theorem Config.Inv.serves (h : c.Inv codec) {id : String} {n : Node}
    (hn : c.server.nodes id = some n) (hstarted : n.started = true) :
    c.Serves codec id n.appliedSHA := by
  obtain ⟨doc, hdoc, hshown⟩ := (h.sound.nodes id n hn).serving hstarted
  obtain ⟨inbound, hin, rfl⟩ := map_eq_some_iff.mp hdoc
  exact ⟨inbound, hin, h.reads hshown⟩

theorem Config.Inv.honest (h : c.Inv codec) : c.Honest codec where
  serving := fun id n hn hstarted => h.serves hn hstarted
  stopped := by
    intro id n hn hnone
    rw [← Bool.not_eq_true]
    intro hstarted
    obtain ⟨inbound, hin, -⟩ := h.serves hn hstarted
    exact some_ne_none inbound (hin.symm.trans hnone)
  said := by
    intro id sha phase reason hwhat hnot
    obtain ⟨n, hn, hstarted, rfl⟩ := h.sound.said id sha phase reason hwhat hnot
    exact h.serves hn hstarted
  genuine := by
    intro id inbound hin
    obtain ⟨sha, hshown⟩ := h.sound.inbounds id inbound hin
    obtain ⟨nc, hnc, -, hreads⟩ := h.reads hshown
    exact ⟨nc, hnc, hreads⟩

theorem Config.inv_new (codec : Codec) : Config.Inv codec ⟨new, []⟩ where
  sound := by
    refine ⟨fun id n hn => ?_, fun id inbound hin => ?_, fun id sha phase reason hwhat => ?_⟩
    · cases hn
    · cases hin
    · cases hwhat
  exact := by
    intro nc hnc
    cases hnc

/-- **What a node reports is what it serves**, in every run in which the numbers of all documents
are exact. -/
theorem reported_config_served (codec : Codec) (labels : List Label)
    (hclear : Runs.Along (next codec) (Config.Clear codec) ⟨Server.new, []⟩ labels) :
    Config.Honest codec (labels.foldl (next codec) ⟨Server.new, []⟩) :=
  (hclear.invariant (I := Config.Inv codec) (fun _ _ h hstep => h.next hstep)
    (Config.inv_new codec)).honest

/-! ## A run -/

/-- In every document there is a number, and the port is missing from one. -/
def sampleCodec (limit : ℤ) : Codec := .plain fun text =>
  some (("limit", .num limit) :: if text = "b" then [] else [("server_port", .str "443")])

/-- A configuration is installed; the next one has no port, and the first is installed again. -/
def rolledBack : List Label :=
  [.config [(.calm, .plain "a")], .config [(.calm, .plain "b")]]

theorem sample_exact {limit : ℤ} (h : |limit| ≤ 2 ^ 53) :
    Runs.Along (next (sampleCodec limit)) (Config.Clear (sampleCodec limit)) ⟨new, []⟩
      rolledBack := by
  have hexact : ∀ (nc : NodeConfig) (cfg : Document), nc.Reads (sampleCodec limit) cfg →
      cfg.Exact := by
    rintro nc cfg ⟨-, hdecode⟩
    obtain rfl := some.inj hdecode
    refine ⟨float64_intCast h, ?_⟩
    split_ifs
    · trivial
    · exact ⟨trivial, trivial⟩
  exact ⟨fun nc _ cfg => hexact nc cfg, fun nc _ cfg => hexact nc cfg, trivial⟩

theorem small_number_served :
    Runs.Along (next (sampleCodec 65536)) (Config.Clear (sampleCodec 65536)) ⟨Server.new, []⟩
        rolledBack ∧ Config.Honest (sampleCodec 65536)
        (rolledBack.foldl (next (sampleCodec 65536)) ⟨Server.new, []⟩) := by
  have hclear := @sample_exact 65536 (by norm_num)
  exact ⟨hclear, reported_config_served (sampleCodec 65536) rolledBack hclear⟩

/-! ## Where it goes wrong -/

/-- The number that a document gives under a name. -/
def Document.number (doc : Document) (key : String) : Option ℚ :=
  match doc.field key with
  | some (.num q) => some q
  | _ => none

/-- The node serves the digest `a`, and the number is not that of its document. -/
theorem rolled_back_number :
    let c := rolledBack.foldl (next (sampleCodec 9007199254740993)) ⟨Server.new, []⟩
    ((c.server.nodes "n1").map fun n => (n.started, n.appliedSHA)) = some (true, "a") ∧
      ((c.server.inbounds "n1").map fun inbound => Document.number inbound.raw "limit") =
        some (some 9007199254740992) ∧
      ¬c.Honest (sampleCodec 9007199254740993) := by
  have hnode : ((rolledBack.foldl (next (sampleCodec 9007199254740993))
    ⟨Server.new, []⟩).server.nodes "n1").map (fun n => (n.started, n.appliedSHA)) =
      some (true, "a") := by decide +kernel
  have hnumber : ((rolledBack.foldl (next (sampleCodec 9007199254740993))
    ⟨Server.new, []⟩).server.inbounds "n1").map (Document.number ·.raw "limit") =
      some (some 9007199254740992) := by decide +kernel
  refine ⟨hnode, hnumber, fun h => ?_⟩
  obtain ⟨n, hn, happlied⟩ := map_eq_some_iff.mp hnode
  obtain ⟨inbound, hin, nc, -, -, hreads⟩ := h.serving "n1" n hn (Prod.mk.inj happlied).1
  rw [hin] at hnumber
  have hraw := some.inj hreads.2
  rw [map_some, ← hraw] at hnumber
  have hlimit := some.inj (some.inj hnumber)
  norm_num at hlimit

end Pandora.Agent.Serving
