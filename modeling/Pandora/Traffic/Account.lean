import Pandora.Traffic.Conservation
import Pandora.Traffic.Ingest

/-!
# Reports over a link that loses and repeats

The node, the panel and the link between them.  What has been sent may arrive any number of times,
in any order and with its entries in any order, or never; the same holds of what the panel says of
it.  The numbers of the reports are fresh.

The two sides meet in the acknowledgement: it is only sent for a report that has been archived, or
for one that is refused for its number, so that a report the node forgets has been charged.
-/

namespace Pandora.Traffic.Account

open Runs List Buffer

/-! ## Runs -/

/-- The node, the panel and all that was ever sent. -/
structure Config where
  buffer : Buffer := {}
  panel : Panel := {}
  /-- The reports that have been sealed. -/
  sealed : List SealedReport := []
  /-- The reports that have been given to the link. -/
  sent : List SealedReport := []
  /-- The numbers of the reports that have come to the panel, in order. -/
  arrivals : List (String × Arrival) := []
  /-- The acknowledgements that have been given to the link. -/
  acks : List String := []
  /-- What the kernel gave to the buffer. -/
  given : List (Entry String) := []
  /-- What the buffer gave up. -/
  lost : List (Entry String) := []
  /-- The reports whose acknowledgement has come. -/
  acknowledged : List SealedReport := []

open Config

inductive Label
  /-- `bufferTraffic`. -/
  | add (node : String) (traffic : List UserTraffic)
  /-- `flushTraffic`, with the number of a new report; the link may refuse what it is given. -/
  | flush (connected accepts : Bool) (id : String)
  /-- A report comes to the panel. -/
  | arrive (r : SealedReport) (entries : List (Entry String)) (a : Arrival)
  /-- An acknowledgement comes to the node. -/
  | ack (id : String) (connected accepts : Bool) (fresh : String)

/-- One entry that the kernel gives. -/
def Config.addEntry (c : Config) (e : Entry String) : Config :=
  { c with
    buffer := (c.buffer.addEntry e).1
    given := e :: c.given
    lost := c.buffer.shed e ++ c.lost }

def Config.add (c : Config) (node : String) (traffic : List UserTraffic) : Config :=
  traffic.foldl (fun c t => c.addEntry (t.entry node)) c

/-- The identifiers that are taken. -/
def Config.ids (c : Config) : List String := c.sealed.map (·.id)

/-- `flushTraffic`. -/
def Config.flush (c : Config) (connected accepts : Bool) (id : String) : Config :=
  if connected = false then c
  else
    match (c.buffer.seal id).inflight with
    | none => c
    | some r =>
      { c with
        buffer := c.buffer.seal id
        sealed := if c.buffer.inflight = none then r :: c.sealed else c.sealed
        sent := if accepts then r :: c.sent else c.sent }

def Config.onTrafficAck (c : Config) (id : String) (connected accepts : Bool) (fresh : String) :
    Config :=
  match c.buffer.inflight with
  | none => c
  | some r =>
    if r.id = id then
      let c' := { c with
        buffer := c.buffer.acknowledge id
        acknowledged := r :: c.acknowledged }
      if c'.buffer.pending.values = [] then c' else c'.flush connected accepts fresh
    else c

/-- `trafficFromProto`; `nodeOf` reads the identifier of a node. -/
def wire (nodeOf : String → UUID) (e : Entry String) : Entry UUID :=
  ⟨nodeOf e.node, e.uid, e.upload, e.download⟩

variable (sha : List (Entry UUID) → String) (nodeOf : String → UUID)

/-- A report comes to the panel. -/
def Config.arrive (c : Config) (id : String) (entries : List (Entry String)) (a : Arrival) :
    Config :=
  let (panel, told) := handleTraffic sha a ⟨id, entries.map (wire nodeOf)⟩ c.panel
  { c with
    panel := panel
    arrivals := c.arrivals ++ [(id, a)]
    acks := if told then id :: c.acks else c.acks }

def next (c : Config) : Label → Config
  | .add node traffic => c.add node traffic
  | .flush connected accepts id => if id ∈ c.ids then c else c.flush connected accepts id
  | .arrive r entries a =>
    if r ∈ c.sent ∧ entries.Perm r.entries then c.arrive sha nodeOf r.id entries a else c
  | .ack id connected accepts fresh =>
    if id ∈ c.acks ∧ fresh ∉ c.ids then c.onTrafficAck id connected accepts fresh else c

/-- The entries of the reports whose acknowledgement has come. -/
def Config.delivered (c : Config) : List (Entry String) := c.acknowledged.flatMap (·.entries)

/-- The first arrival of a number at which no statement fails. -/
def Config.ingestedAt (c : Config) (id : String) : Option Arrival :=
  c.arrivals.findSome? fun x => if x.1 = id ∧ x.2.fails = false then some x.2 else none

/-- What is charged for a report: all that it says, as things are when it is ingested. -/
def Config.Charges (c : Config) (q : Posting) (r : SealedReport) : Prop :=
  ∃ a, c.ingestedAt r.id = some a ∧ q = postingOf a r.id
    (tallyTraffic a.terms (canonicalTraffic sha (r.entries.map (wire nodeOf))).1)

/-- **The traffic is accounted for.**  On the node, what was given is delivered, sent, pending or
lost, up to what a number of 64 bits cannot hold; on the panel, a report is charged at most once,
and it has been if the node has forgotten it, unless its number is not one. -/
structure Config.Accounted (c : Config) : Prop where
  conserved : ∀ d k,
    (total d k c.delivered + total d k c.buffer.sent + total d k c.buffer.pending.values +
      total d k c.lost) % 2 ^ 64 = total d k c.given % 2 ^ 64
  exact : ∀ d k, total d k c.given < 2 ^ 64 →
    total d k c.given = total d k c.delivered + total d k c.buffer.sent +
      total d k c.buffer.pending.values + total d k c.lost
  counted : c.buffer.droppedBytes = i64 (bytesOf c.lost)
  bounded : c.buffer.size ≤ maxBufferedTrafficUsers
  short : ∀ r ∈ c.sent, r.entries.length ≤ maxTrafficEntriesPerReport
  constant : ∀ r ∈ c.sent, ∀ r' ∈ c.sent, r.id = r'.id → r = r'
  once : (c.panel.postings.map (·.reportId)).Nodup
  charged : ∀ q ∈ c.panel.postings, ∃ r ∈ c.sent, c.Charges sha nodeOf q r
  fixed : ∀ a r, (∃ q ∈ c.panel.postings, q.reportId = r.reportId) →
    (handleTraffic sha a r c.panel).1 = c.panel
  consumed : ∀ r ∈ c.acknowledged, validReportID r.id = false ∨
    ∃ q ∈ c.panel.postings, q.reportId = r.id ∧ c.Charges sha nodeOf q r

/-! ## The node -/

/-- What holds of the node. -/
structure Config.Kept (c : Config) : Prop where
  conserved : ∀ d k, ∃ wraps,
    total d k c.delivered + total d k c.buffer.held + total d k c.lost + 2 ^ 64 * wraps =
      total d k c.given
  counted : c.buffer.droppedBytes = i64 (bytesOf c.lost)
  bounded : c.buffer.size ≤ maxBufferedTrafficUsers
  distinct : c.ids.Nodup
  inflight : ∀ r, c.buffer.inflight = some r → r ∈ c.sealed ∧ r.entries ≠ []
  short : ∀ r ∈ c.sealed, r.entries.length ≤ maxTrafficEntriesPerReport
  sent : ∀ r ∈ c.sent, r ∈ c.sealed
  acknowledged : ∀ r ∈ c.acknowledged, r ∈ c.sealed

variable {r : SealedReport} {c : Config} {accepts : Bool}

theorem Config.Kept.eq_of_id (h : c.Kept) {r' : SealedReport} (hr : r ∈ c.sealed)
    (hr' : r' ∈ c.sealed) (hid : r.id = r'.id) : r = r' :=
  inj_on_of_nodup_map h.distinct hr hr' hid

theorem Config.Kept.sent_ne_nil (h : c.Kept) (hsome : c.buffer.inflight ≠ none) :
    c.buffer.sent ≠ [] := by
  obtain ⟨r, hr⟩ := Option.ne_none_iff_exists'.mp hsome
  have hsent : c.buffer.sent = r.entries := by
    rw [Buffer.sent, hr]
    rfl
  rw [hsent]
  exact (h.inflight r hr).2

theorem bytesOf_append (l l' : List (Entry String)) :
    bytesOf (l ++ l') = bytesOf l + bytesOf l' := by
  unfold bytesOf
  rw [map_append, sum_append]

theorem Config.Kept.addEntry (h : c.Kept) (e : Entry String) : (c.addEntry e).Kept where
  __ := h
  conserved d k := by
    obtain ⟨wraps, hwraps⟩ := h.conserved d k
    obtain ⟨more, hmore⟩ := c.buffer.addEntry_total e d k
    refine ⟨wraps + more, ?_⟩
    show total d k c.delivered + total d k (c.buffer.addEntry e).1.held +
      total d k (c.buffer.shed e ++ c.lost) + 2 ^ 64 * (wraps + more) = total d k (e :: c.given)
    rw [total_cons] at hmore ⊢
    rw [total_append]
    omega
  counted := by
    have hrange : i64 c.buffer.droppedBytes = c.buffer.droppedBytes := by
      rw [h.counted]
      exact Int.bmod_bmod
    show (c.buffer.addEntry e).1.droppedBytes = i64 (bytesOf (c.buffer.shed e ++ c.lost))
    rw [c.buffer.addEntry_dropped e hrange, h.counted, i64_i64_add, bytesOf_append, add_comm]
  bounded := c.buffer.addEntry_size e h.bounded h.sent_ne_nil
  inflight r hr := by
    -- Adding leaves the report that was sent, or takes it away.
    have hadded := c.buffer.added e
    have hr' : (c.buffer.addEntry e).1.inflight = some r := hr
    generalize (c.buffer.addEntry e).1 = b' at hadded hr'
    generalize c.buffer.shed e = shed at hadded
    cases hadded with
    | nothing => exact h.inflight r hr'
    | merged _ _ b' _ _ _ hinflight | opened b' _ _ hinflight | refused b' _ hinflight =>
      exact h.inflight r (hinflight ▸ hr')
    | replaced b' _ _ hinflight =>
      rw [hinflight] at hr'
      cases hr'

theorem Config.Kept.add (h : c.Kept) (node : String) (traffic : List UserTraffic) :
    (c.add node traffic).Kept :=
  run_invariant (fun _ t hc => hc.addEntry (t.entry node)) traffic h

/-- The buffer of the node is the one of `add`. -/
theorem Config.buffer_add (c : Config) (node : String) (traffic : List UserTraffic) :
    (c.add node traffic).buffer = (c.buffer.add node traffic).1 := by
  unfold add Buffer.add
  generalize (0 : ℤ) = dropped
  induction traffic generalizing c dropped with
  | nil => rfl
  | cons t traffic ih => exact ih (c.addEntry (t.entry node)) _

theorem seal_cases {b : Buffer} {id : String} : b.seal id = b ∨
      (b.inflight = none ∧ b.pending.values ≠ [] ∧ (b.seal id).inflight = some ⟨id, b.batch⟩ ∧
        (b.seal id).droppedBytes = b.droppedBytes) := by
  unfold Buffer.seal
  split_ifs with h
  · exact .inl rfl
  · rw [not_or, Option.not_isSome_iff_eq_none] at h
    exact .inr ⟨h.1, h.2, rfl, rfl⟩

namespace Config

/-- A report that is sent again. -/
def resend (c : Config) (accepts : Bool) (r : SealedReport) : Config :=
  { c with sent := if accepts then r :: c.sent else c.sent }

/-- A new report. -/
def sealNew (c : Config) (id : String) : Config :=
  { c with buffer := c.buffer.seal id, sealed := ⟨id, c.buffer.batch⟩ :: c.sealed }

/-- **What `flushTraffic` does**: nothing, or it sends a report, which may be a new one. -/
theorem flush_cases (c : Config) (connected accepts : Bool) (id : String) :
    c.flush connected accepts id = c ∨
      (∃ r, c.buffer.inflight = some r ∧ c.flush connected accepts id = c.resend accepts r) ∨
      (c.buffer.inflight = none ∧ c.buffer.pending.values ≠ [] ∧
        (c.sealNew id).buffer.inflight = some ⟨id, c.buffer.batch⟩ ∧
        (c.sealNew id).buffer.droppedBytes = c.buffer.droppedBytes ∧
        c.flush connected accepts id = (c.sealNew id).resend accepts ⟨id, c.buffer.batch⟩) := by
  unfold flush
  by_cases hconnected : connected = false
  · rw [if_pos hconnected]
    exact .inl rfl
  · rw [if_neg hconnected]
    rcases seal_cases with heq | ⟨hnone, hpending, hsome, hdropped⟩
    · rw [heq]
      cases hinflight : c.buffer.inflight with
      | none => exact .inl rfl
      | some r =>
        refine .inr (.inl ⟨r, rfl, ?_⟩)
        dsimp only
        rw [if_neg (Option.some_ne_none r)]
        rfl
    · refine .inr (.inr ⟨hnone, hpending, hsome, hdropped, ?_⟩)
      rw [hsome]
      dsimp only
      rw [if_pos hnone]
      rfl

theorem Kept.resend (h : c.Kept) (hr : c.buffer.inflight = some r) : (c.resend accepts r).Kept := by
  refine { h with sent := ?_ }
  cases accepts with
  | false => exact h.sent
  | true => exact forall_mem_cons.mpr ⟨(h.inflight r hr).1, h.sent⟩

theorem Kept.sealNew (h : c.Kept) {id : String} (hid : id ∉ c.ids)
    (hpending : c.buffer.pending.values ≠ [])
    (hsome : (c.sealNew id).buffer.inflight = some ⟨id, c.buffer.batch⟩)
    (hdropped : (c.sealNew id).buffer.droppedBytes = c.buffer.droppedBytes) :
    (c.sealNew id).Kept where
  conserved d k := by
    obtain ⟨wraps, hwraps⟩ := h.conserved d k
    refine ⟨wraps, ?_⟩
    rw [show total d k (c.sealNew id).buffer.held = total d k c.buffer.held from
      total_perm (c.buffer.seal_held id)]
    exact hwraps
  counted := hdropped.trans h.counted
  bounded := by
    have hheld := (c.buffer.seal_held id).length_eq
    rw [← size_eq, ← size_eq] at hheld
    exact hheld.le.trans h.bounded
  distinct := nodup_cons.mpr ⟨hid, h.distinct⟩
  inflight r hr := by
    rw [hsome] at hr
    cases hr
    exact ⟨mem_cons_self, batch_ne_nil hpending⟩
  short := by
    exact forall_mem_cons.mpr ⟨length_take_le _ _, h.short⟩
  sent r hr := mem_cons_of_mem _ (h.sent r hr)
  acknowledged r hr := mem_cons_of_mem _ (h.acknowledged r hr)

theorem Kept.flush (h : c.Kept) {connected : Bool} {id : String}
    (hid : id ∉ c.ids) : (c.flush connected accepts id).Kept := by
  rcases c.flush_cases connected accepts id with heq | ⟨r, hr, heq⟩ |
    ⟨-, hpending, hsome, hdropped, heq⟩
  · rw [heq]
    exact h
  · rw [heq]
    exact h.resend hr
  · rw [heq]
    exact (h.sealNew hid hpending hsome hdropped).resend hsome

/-- The node after an acknowledgement, before it sends anything. -/
def forget (c : Config) (r : SealedReport) : Config :=
  { c with
    buffer := c.buffer.acknowledge r.id
    acknowledged := r :: c.acknowledged }

theorem onTrafficAck_cases (c : Config) (id : String) (connected accepts : Bool)
    (fresh : String) : c.onTrafficAck id connected accepts fresh = c ∨
      ∃ r, c.buffer.inflight = some r ∧ r.id = id ∧
        (c.onTrafficAck id connected accepts fresh = c.forget r ∨
          c.onTrafficAck id connected accepts fresh =
            (c.forget r).flush connected accepts fresh) := by
  unfold onTrafficAck
  cases hinflight : c.buffer.inflight with
  | none => exact .inl rfl
  | some r =>
    dsimp only
    split_ifs with hid hpending
    · subst hid
      exact .inr ⟨r, rfl, rfl, .inl rfl⟩
    · subst hid
      exact .inr ⟨r, rfl, rfl, .inr rfl⟩
    · exact .inl rfl

theorem Kept.forget (h : c.Kept) (hr : c.buffer.inflight = some r) : (c.forget r).Kept := by
  have hbuffer : (c.forget r).buffer = { c.buffer with inflight := none } := by
    show c.buffer.acknowledge r.id = _
    rw [acknowledge, hr]
    exact if_pos rfl
  have hheld : c.buffer.held = r.entries ++ c.buffer.pending.values := by
    rw [held, Buffer.sent, hr]
    rfl
  have hafter : (c.forget r).buffer.held = c.buffer.pending.values := by
    rw [hbuffer]
    rfl
  refine ⟨?_, ?_, ?_, h.distinct, ?_, h.short, h.sent, ?_⟩
  · intro d k
    obtain ⟨wraps, hwraps⟩ := h.conserved d k
    refine ⟨wraps, ?_⟩
    rw [hafter, show (c.forget r).delivered = r.entries ++ c.delivered from rfl, total_append]
    rw [hheld, total_append] at hwraps
    show _ + total d k c.lost + _ = total d k c.given
    omega
  · rw [hbuffer]
    exact h.counted
  · have hsize := h.bounded
    rw [size_eq, hheld, length_append] at hsize
    rw [size_eq, hafter]
    omega
  · intro x hx
    rw [hbuffer] at hx
    cases hx
  · exact forall_mem_cons.mpr ⟨(h.inflight r hr).1, h.acknowledged⟩

end Config

/-! ## The panel -/

variable {sha : List (Entry UUID) → String} {nodeOf : String → UUID}

/-- What holds of the panel, and of what it has said. -/
structure Config.Booked (sha : List (Entry UUID) → String) (nodeOf : String → UUID) (c : Config) :
    Prop where
  numbers : c.panel.postings.map (·.reportId) = c.panel.reports.map (·.reportId)
  once : (c.panel.postings.map (·.reportId)).Nodup
  charged : ∀ q ∈ c.panel.postings, ∃ r ∈ c.sent, c.Charges sha nodeOf q r
  acks : ∀ id ∈ c.acks, validReportID id = false ∨ c.panel.Has id
  acknowledged : ∀ r ∈ c.acknowledged, validReportID r.id = false ∨ c.panel.Has r.id
  heard : ∀ x ∈ c.arrivals, x.2.fails = false → validReportID x.1 = false ∨ c.panel.Has x.1

section

variable (h : c.Booked sha nodeOf)
include h

namespace Config.Booked

theorem has_iff (id : String) : c.panel.Has id ↔ ∃ q ∈ c.panel.postings, q.reportId = id := by
  have hmem : id ∈ c.panel.postings.map (·.reportId) ↔ id ∈ c.panel.reports.map (·.reportId) := by
    rw [h.numbers]
  rw [mem_map, mem_map] at hmem
  exact hmem.symm

theorem resend (accepts : Bool) (r : SealedReport) : (c.resend accepts r).Booked sha nodeOf := by
  refine { h with charged := ?_ }
  intro q hq
  obtain ⟨x, hx, hcharges⟩ := h.charged q hq
  refine ⟨x, ?_, hcharges⟩
  cases accepts with
  | false => exact hx
  | true => exact mem_cons_of_mem _ hx

theorem flush (connected accepts : Bool)
    (id : String) : (c.flush connected accepts id).Booked sha nodeOf := by
  rcases c.flush_cases connected accepts id with heq | ⟨r, -, heq⟩ | ⟨-, -, -, -, heq⟩
  · rw [heq]
    exact h
  · rw [heq]
    exact h.resend accepts r
  · rw [heq]
    refine Booked.resend ?_ accepts _
    exact { h with }

theorem forget (hr : r.id ∈ c.acks) : (c.forget r).Booked sha nodeOf :=
  { h with acknowledged := forall_mem_cons.mpr ⟨h.acks r.id hr, h.acknowledged⟩ }

theorem addEntry (e : Entry String) : (c.addEntry e).Booked sha nodeOf :=
  { h with }

theorem add (node : String) (traffic : List UserTraffic) : (c.add node traffic).Booked sha nodeOf :=
  run_invariant (fun _ t hc => hc.addEntry (t.entry node)) traffic h

end Config.Booked

end

theorem not_valid_iff {id : String} {entries : List (Entry UUID)}
    (hshort : entries.length ≤ maxTrafficEntriesPerReport) :
    ¬Report.Valid ⟨id, entries⟩ ↔ validReportID id = false := by
  rw [Report.Valid, not_and_or, Bool.not_eq_true]
  exact or_iff_left (not_not.mpr hshort)

theorem has_charge {p : Panel} {a : Arrival} {content : List (Entry UUID) × String}
    {id id' : String} (h : p.Has id) : (p.charge a id' content).Has id := by
  obtain ⟨row, hrow, hid⟩ := h
  exact ⟨row, mem_cons_of_mem _ hrow, hid⟩

theorem Config.Charges.append {q : Posting} (h : c.Charges sha nodeOf q r) {c' : Config}
    {l : List (String × Arrival)} (heq : c'.arrivals = c.arrivals ++ l) :
    c'.Charges sha nodeOf q r := by
  obtain ⟨a, ha, hq⟩ := h
  refine ⟨a, ?_, hq⟩
  rw [ingestedAt] at ha ⊢
  rw [heq, findSome?_append, ha]
  rfl

theorem Config.Booked.ingestedAt (h : c.Booked sha nodeOf) {id : String} {a : Arrival}
    (hvalid : validReportID id = true) (hnot : ¬ c.panel.Has id) (hfails : a.fails = false)
    {c' : Config} (heq : c'.arrivals = c.arrivals ++ [(id, a)]) : c'.ingestedAt id = some a := by
  have hnone : c.ingestedAt id = none := by
    refine findSome?_eq_none_iff.mpr fun x hx => if_neg ?_
    rintro ⟨rfl, hok⟩
    rcases h.heard x hx hok with hinvalid | hhas
    · rw [hvalid] at hinvalid
      cases hinvalid
    · exact hnot hhas
  rw [Config.ingestedAt] at hnone ⊢
  rw [heq, findSome?_append, hnone, findSome?_singleton]
  exact if_pos ⟨rfl, hfails⟩

theorem Config.Booked.arrive (hkept : c.Kept) (h : c.Booked sha nodeOf) (hr : r ∈ c.sent)
    {entries : List (Entry String)} (hperm : entries.Perm r.entries) (a : Arrival) :
    (c.arrive sha nodeOf r.id entries a).Booked sha nodeOf := by
  have hshort : (entries.map (wire nodeOf)).length ≤ maxTrafficEntriesPerReport := by
    rw [length_map, hperm.length_eq]
    exact hkept.short r (hkept.sent r hr)
  unfold Config.arrive
  rcases handleTraffic_cases with ⟨hsame, htold⟩ | ⟨⟨hnot, hvalid, hfails⟩, heq⟩
  · -- Nothing is charged; the node is told of what is refused or archived.
    generalize handleTraffic sha a ⟨r.id, entries.map (wire nodeOf)⟩ c.panel = answer at hsame htold
    obtain ⟨panel, told⟩ := answer
    subst hsame
    rw [not_valid_iff hshort] at htold
    refine { h with
      charged := fun q hq => (h.charged q hq).imp fun _ hr => hr.imp_right (·.append rfl)
      acks := ?_
      heard := forall_mem_append.mpr ⟨h.heard, forall_mem_singleton.mpr
        fun hok => htold (.inr hok)⟩ }
    cases told with
    | false => exact h.acks
    | true => exact forall_mem_cons.mpr ⟨htold (.inl rfl), h.acks⟩
  · rw [heq]
    have hnew : (c.panel.charge a r.id (canonicalTraffic sha (entries.map (wire nodeOf)))).Has
        r.id :=
      ⟨_, mem_cons_self, rfl⟩
    refine ⟨?_, ?_, ?_, ?_, ?_, ?_⟩
    · show r.id :: c.panel.postings.map (·.reportId) = r.id :: c.panel.reports.map (·.reportId)
      rw [h.numbers]
    · refine nodup_cons.mpr ⟨?_, h.once⟩
      rw [mem_map]
      exact fun hmem => hnot ((h.has_iff r.id).mpr hmem)
    · intro q hq
      rcases mem_cons.mp hq with rfl | hq
      · refine ⟨r, hr, a, h.ingestedAt hvalid.1 hnot hfails rfl, ?_⟩
        rw [← canonicalTraffic_perm sha (hperm.map (wire nodeOf))]
      · exact (h.charged q hq).imp fun _ hr => hr.imp_right (·.append rfl)
    · exact forall_mem_cons.mpr ⟨.inr hnew, fun id hid => (h.acks id hid).imp_right has_charge⟩
    · exact fun x hx => (h.acknowledged x hx).imp_right has_charge
    · exact forall_mem_append.mpr ⟨fun x hx hok => (h.heard x hx hok).imp_right has_charge,
        forall_mem_singleton.mpr fun _ => .inr hnew⟩

/-! ## Runs -/

/-- What holds of the node and of the panel. -/
structure Config.Inv (sha : List (Entry UUID) → String) (nodeOf : String → UUID) (c : Config) :
    Prop where
  kept : c.Kept
  booked : c.Booked sha nodeOf

theorem inv_new : Inv sha nodeOf {} := by
  refine ⟨⟨fun d k => ⟨0, rfl⟩, rfl, Nat.zero_le _, nodup_nil, ?_, ?_, ?_, ?_⟩,
    ⟨rfl, nodup_nil, ?_, ?_, ?_, ?_⟩⟩
  · intro r hr
    cases hr
  all_goals
    intro x hx
    cases hx

theorem Config.Inv.onTrafficAck (h : c.Inv sha nodeOf) {id : String}
    (hid : id ∈ c.acks) (connected accepts : Bool) {fresh : String} (hfresh : fresh ∉ c.ids) :
    (c.onTrafficAck id connected accepts fresh).Inv sha nodeOf := by
  rcases c.onTrafficAck_cases id connected accepts fresh with heq | ⟨r, hr, rfl, heq | heq⟩
  · rw [heq]
    exact h
  · rw [heq]
    exact ⟨h.kept.forget hr, h.booked.forget hid⟩
  · rw [heq]
    exact ⟨(h.kept.forget hr).flush hfresh, (h.booked.forget hid).flush connected accepts fresh⟩

theorem Config.Inv.next (h : c.Inv sha nodeOf) (l : Label) :
    (next sha nodeOf c l).Inv sha nodeOf := by
  cases l with
  | add node traffic => exact ⟨h.kept.add node traffic, h.booked.add node traffic⟩
  | flush connected accepts id =>
    simp only [Account.next]
    split_ifs with hid
    · exact h
    · exact ⟨h.kept.flush hid, h.booked.flush connected accepts id⟩
  | arrive r entries a =>
    simp only [Account.next]
    split_ifs with hr
    · exact ⟨{ h.kept with }, h.booked.arrive h.kept hr.1 hr.2 a⟩
    · exact h
  | ack id connected accepts =>
    simp only [Account.next]
    split_ifs with hid
    · exact h.onTrafficAck hid.1 connected accepts hid.2
    · exact h

theorem Config.Inv.accounted (h : c.Inv sha nodeOf) : c.Accounted sha nodeOf := by
  have htotal : ∀ d k, ∃ wraps,
      total d k c.delivered + total d k c.buffer.sent + total d k c.buffer.pending.values +
        total d k c.lost + 2 ^ 64 * wraps = total d k c.given := by
    intro d k
    obtain ⟨wraps, hwraps⟩ := h.kept.conserved d k
    rw [held, total_append] at hwraps
    exact ⟨wraps, by omega⟩
  refine ⟨?_, ?_, h.kept.counted, h.kept.bounded, ?_, ?_, h.booked.once, h.booked.charged, ?_, ?_⟩
  · intro d k
    obtain ⟨wraps, hwraps⟩ := htotal d k
    omega
  · intro d k hlt
    obtain ⟨wraps, hwraps⟩ := htotal d k
    omega
  · exact fun r hr => h.kept.short r (h.kept.sent r hr)
  · exact fun r hr r' hr' hid => h.kept.eq_of_id (h.kept.sent r hr) (h.kept.sent r' hr') hid
  · exact fun a r hq => handleTraffic_of_has ((h.booked.has_iff r.reportId).mpr hq)
  · intro r hr
    rcases h.booked.acknowledged r hr with hinvalid | hhas
    · exact .inl hinvalid
    · -- The report that was charged under this number is this one.
      obtain ⟨q, hq, hid⟩ := (h.booked.has_iff r.id).mp hhas
      obtain ⟨r', hr', hcharges⟩ := h.booked.charged q hq
      have hsame : r' = r := by
        refine h.kept.eq_of_id (h.kept.sent r' hr') (h.kept.acknowledged r hr) ?_
        obtain ⟨a, -, rfl⟩ := hcharges
        exact hid
      exact .inr ⟨q, hq, hid, hsame ▸ hcharges⟩

/-- **Every byte is accounted for, and charged at most once.** -/
theorem traffic_accounted (sha : List (Entry UUID) → String) (nodeOf : String → UUID)
    (labels : List Label) : (labels.foldl (next sha nodeOf) {}).Accounted sha nodeOf :=
  (run_invariant (I := Config.Inv sha nodeOf) (fun _ l h => h.next l) labels inv_new).accounted

/-- What one reading of the kernel can say at most. -/
def mostOf (uid : ℤ) : UserTraffic := ⟨uid, 2 ^ 63 - 1, 0⟩

/-- **A counter begins again.**  Three such readings of one user, without a report in between, are
more than the entry that is pending can hold. -/
theorem pending_begins_again :
    let c := [Label.add "n" [mostOf 1, mostOf 1, mostOf 1]].foldl
      (next (fun _ => "") (fun _ => 0)) {}
    total .upload ("n", 1) c.given ≠
      total .upload ("n", 1) c.delivered + total .upload ("n", 1) c.buffer.sent +
        total .upload ("n", 1) c.buffer.pending.values + total .upload ("n", 1) c.lost := by
  decide +kernel

end Pandora.Traffic.Account
