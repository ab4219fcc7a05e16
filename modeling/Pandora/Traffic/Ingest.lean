import Pandora.Database.Transaction
import Pandora.Foundation.Clock
import Pandora.Traffic.Tally

/-!
# Charging a report

A report is archived and charged in one transaction.  Its number is unique among the reports of
its server, so a report that comes again is not charged again, whether it has the same content,
which is fine, or another, which is a conflict.  The node is told that its report has been taken
in both cases, and also if the report is not valid, for it would only send it again.
-/

namespace Pandora.Traffic

open Database Tx

/-- A row of `node_traffic_reports`, for one server. -/
structure TrafficReportRow where
  reportId : String
  receivedAt : Time
  entries : List (Entry UUID)
  contentSha256 : String
  uploadBytes : ℕ
  downloadBytes : ℕ
  invalidCount : ℕ
  unlistedCount : ℕ

/-- All that is charged for a report. -/
structure Posting where
  reportId : String
  charges : List TrafficCharge
  nodeRows : List NodeHourAdd
  userRows : List UserHourAdd
  usageAdds : List NodeUsageAdd

/-- What the panel keeps of the reports of one server, the last first. -/
structure Panel where
  reports : List TrafficReportRow := []
  postings : List Posting := []

/-- What the outside decides when a report comes. -/
structure Arrival where
  terms : Terms
  subs : ℤ → Option UUID
  now : Time
  /-- One of the statements fails. -/
  fails : Bool

inductive IngestError
  /-- `ErrTrafficReportInvalid`. -/
  | invalid
  /-- `ErrTrafficReportConflict`. -/
  | conflict
  /-- Any other. -/
  | failed

def postingOf (a : Arrival) (reportId : String) (t : Tally) : Posting :=
  ⟨reportId, t.charges a.terms, t.nodeRows a.terms a.subs, t.userRows a.terms a.subs, t.usageAdds⟩

/-- A report is archived and charged; `content` is its entries and their digest. -/
def Panel.charge (p : Panel) (a : Arrival) (reportId : String)
    (content : List (Entry UUID) × String) : Panel :=
  let t := tallyTraffic a.terms content.1
  ⟨⟨reportId, a.now, content.1, content.2, t.upload, t.download, t.invalid, t.unlisted⟩ ::
    p.reports, postingOf a reportId t :: p.postings⟩

def ingestTrafficTx (a : Arrival) (reportId : String) (entries : List (Entry UUID))
    (digest : String) : Tx Panel IngestError Unit := do
  require (a.fails = false) .failed
  let p ← read
  match p.reports.find? (fun row => row.reportId = reportId) with
  | some row => if row.contentSha256 = digest then pure () else fail .conflict
  | none => write (·.charge a reportId (entries, digest))

/-- A report that is not refused for what it is. -/
def Report.Valid (r : Report) : Prop :=
  validReportID r.reportId = true ∧ r.entries.length ≤ maxTrafficReportEntries

instance (r : Report) : Decidable r.Valid := inferInstanceAs (Decidable (_ ∧ _))

def ingestTraffic (sha : List (Entry UUID) → String) (a : Arrival) (r : Report) :
    Tx Panel IngestError Unit := do
  require r.Valid .invalid
  ingestTrafficTx a r.reportId (canonicalTraffic sha r.entries).1 (canonicalTraffic sha r.entries).2

/-- `HandleTraffic`; the second part is whether the node is told. -/
def handleTraffic (sha : List (Entry UUID) → String) (a : Arrival) (r : Report) (p : Panel) :
    Panel × Bool :=
  match ingestTraffic sha a r p with
  | .ok (_, p') => (p', true)
  | .error .failed => (p, false)
  | .error _ => (p, true)

/-- The report of a number has been archived. -/
def Panel.Has (p : Panel) (reportId : String) : Prop := ∃ row ∈ p.reports, row.reportId = reportId

variable {r : Report} {a : Arrival} {p : Panel}

section

variable {sha : List (Entry UUID) → String}

theorem ingestTraffic_cases : (¬r.Valid ∧ ingestTraffic sha a r p = .error .invalid) ∨
      (a.fails = true ∧ ingestTraffic sha a r p = .error .failed) ∨ (p.Has r.reportId ∧
        (ingestTraffic sha a r p = .ok ((), p) ∨ ingestTraffic sha a r p = .error .conflict)) ∨
      ((¬p.Has r.reportId ∧ r.Valid ∧ a.fails = false) ∧ ingestTraffic sha a r p =
        .ok ((), p.charge a r.reportId (canonicalTraffic sha r.entries))) := by
  unfold ingestTraffic
  by_cases hvalid : r.Valid
  · rw [require_bind_of_pos hvalid]
    unfold ingestTrafficTx
    by_cases hfails : a.fails = false
    · rw [require_bind_of_pos hfails]
      right
      right
      rw [read_bind]
      cases hfind : p.reports.find? (fun row => row.reportId = r.reportId) with
      | some row =>
        have hhas : p.Has r.reportId :=
          ⟨row, List.mem_of_find?_eq_some hfind, by simpa using List.find?_some hfind⟩
        refine .inl ⟨hhas, ?_⟩
        dsimp only
        split_ifs with hdigest
        · exact .inl rfl
        · exact .inr rfl
      | none =>
        refine .inr ⟨⟨?_, hvalid, hfails⟩, rfl⟩
        rintro ⟨row, hrow, hid⟩
        have hnot := List.find?_eq_none.mp hfind row hrow
        simp [hid] at hnot
    · rw [require_bind_of_neg hfails]
      exact .inr (.inl ⟨eq_true_of_ne_false hfails, rfl⟩)
  · rw [require_bind_of_neg hvalid]
    exact .inl ⟨hvalid, rfl⟩

/-- **What a report does.**  Either it changes nothing, and the node is told of it only if the
report is refused or has been archived before, or it comes for the first time and is charged. -/
theorem handleTraffic_cases : ((handleTraffic sha a r p).1 = p ∧
        ((handleTraffic sha a r p).2 = true ∨ a.fails = false → ¬r.Valid ∨ p.Has r.reportId)) ∨
      ((¬p.Has r.reportId ∧ r.Valid ∧ a.fails = false) ∧ handleTraffic sha a r p =
        (p.charge a r.reportId (canonicalTraffic sha r.entries), true)) := by
  unfold handleTraffic
  rcases ingestTraffic_cases with ⟨hinvalid, heq⟩ | ⟨hfails, heq⟩ | ⟨hhas, heq | heq⟩ | ⟨hnot, heq⟩
  · rw [heq]
    exact .inl ⟨rfl, fun _ => .inl hinvalid⟩
  · rw [heq, hfails]
    exact .inl ⟨rfl, fun h => h.elim nofun nofun⟩
  · rw [heq]
    exact .inl ⟨rfl, fun _ => .inr hhas⟩
  · rw [heq]
    exact .inl ⟨rfl, fun _ => .inr hhas⟩
  · rw [heq]
    exact .inr ⟨hnot, rfl⟩

/-- A report of a number that has been archived changes nothing, whatever it says. -/
theorem handleTraffic_of_has (h : p.Has r.reportId) : (handleTraffic sha a r p).1 = p := by
  rcases handleTraffic_cases with ⟨heq, -⟩ | ⟨hnot, -⟩
  · exact heq
  · exact absurd h hnot.1

end

end Pandora.Traffic
