import Pandora.Foundation.Text
import Pandora.Subscriptions.Subscription

/-!
# A subscription with all its quotas

The row of a subscription as the gift cards need it: with the price interval it was bought
for, and with the quota rows of every period, which an extension moves, a reset clears and a
bonus is added to.

A quota row is written by the database only if its `CHECK`s hold and its generated column
`remaining` can be computed: the sum of the limit and the bonus must fit a `bigint`.  So a row
is a value together with that (`StoredQuota`), and writing one may fail (`store`).
-/

namespace Pandora.Subscriptions

open Calendar

/-- The largest `bigint`. -/
def maxInt64 : ℕ := 2 ^ 63 - 1

/-- A row of `quota_balances`. -/
structure QuotaRow where
  id : UUID
  metric : Metric
  period : QuotaPeriod
  periodStart : Time
  periodEnd : Option Time
  limit : Option ℕ
  consumed : ℕ
  bonus : ℕ

/-- What the database demands of a row. -/
structure QuotaRow.Stored (q : QuotaRow) : Prop where
  shape : q.period = .total ↔ q.periodEnd = none
  order : ∀ e ∈ q.periodEnd, q.periodStart < e
  consumed : q.consumed ≤ maxInt64
  bonus : q.bonus ≤ maxInt64
  remaining : ∀ l ∈ q.limit, l + q.bonus ≤ maxInt64

instance (q : QuotaRow) : Decidable q.Stored :=
  decidable_of_iff ((q.period = .total ↔ q.periodEnd = none) ∧
      (∀ e ∈ q.periodEnd, q.periodStart < e) ∧ q.consumed ≤ maxInt64 ∧ q.bonus ≤ maxInt64 ∧
      ∀ l ∈ q.limit, l + q.bonus ≤ maxInt64)
    ⟨fun h => ⟨h.1, h.2.1, h.2.2.1, h.2.2.2.1, h.2.2.2.2⟩,
      fun h => ⟨h.shape, h.order, h.consumed, h.bonus, h.remaining⟩⟩

/-- A row that is in the table. -/
abbrev StoredQuota : Type := { q : QuotaRow // q.Stored }

/-- `UpdateQuota`. -/
def store (q : QuotaRow) : Except Error StoredQuota :=
  if h : q.Stored then .ok ⟨q, h⟩ else .error (.database "quota_balances")

variable {q : QuotaRow}

theorem store_ok {x : StoredQuota} : store q = .ok x ↔ x.1 = q := by
  obtain ⟨r, hr⟩ := x
  unfold store
  split_ifs with h
  · simp only [Except.ok.injEq, Subtype.mk.injEq]
    exact eq_comm
  · simp only [false_iff]
    rintro rfl
    exact h hr

/-- A row of `subscriptions`, with the rows of its quotas. -/
structure Entitlement extends Row where
  id : UUID
  userId : UUID
  interval : Interval
  intervalCount : ℤ
  quotas : List StoredQuota
  /-- `subscriptions_period_order`. -/
  ordered : periodStart < periodEnd

/-! ## Extensions -/

def cycleLength (start : Time) (interval : Interval) (count : ℤ) : ℤ :=
  Time.sub (addInterval start interval count) start

/-- `ProratedQuota`: the part of a limit that some days of a cycle are worth. -/
def proratedQuota (limit days : ℕ) (cycle : ℤ) : ℕ :=
  if limit = 0 ∨ days = 0 ∨ cycle ≤ 0 then 0
  else
    let n := ((limit * (days * dayLength)) / cycle).toNat
    if n ≤ maxInt64 then n else 0

def quotaPeriodEnd (period : QuotaPeriod) (start cycleEnd : Time) : Option Time :=
  match period with
  | .total => none
  | .day => some (addDate start 0 0 1)
  | .month => some (addDate start 0 1 0)
  | .cycle => some cycleEnd

/-- What an extension does to the quotas: the times it goes by. -/
structure Extending where
  now : Time
  days : ℕ
  previous : Time
  end_ : Time
  lapsed : Bool
  rescued : Bool
  cycle : ℤ

/-- The traffic of the days, where a period that was over is taken up again. -/
def Extending.limit (x : Extending) (l : ℕ) : ℕ :=
  let add := proratedQuota l x.days x.cycle
  if x.rescued = true ∧ 0 < add ∧ add ≤ maxInt64 - l then l + add else l

/-- The row of the current cycle, whose end is moved. -/
def Extending.Moves (x : Extending) (q : QuotaRow) : Prop :=
  q.period = .cycle ∧ q.periodEnd = some x.previous

instance (x : Extending) (q : QuotaRow) : Decidable (x.Moves q) :=
  inferInstanceAs (Decidable (_ ∧ _))

/-- The row of a quota after an extension. -/
def Extending.row (x : Extending) (q : QuotaRow) : QuotaRow :=
  if x.Moves q then
    { q with periodEnd := some x.end_, limit := q.limit.map x.limit }
  else if x.lapsed = true ∧ (q.period = .day ∨ q.period = .month) then
    { q with
      consumed := 0
      periodStart := x.now
      periodEnd := quotaPeriodEnd q.period x.now x.end_ }
  else q

/-- The rows of the quotas, one after another. -/
def Extending.rows (x : Extending) : List StoredQuota → Except Error (List StoredQuota)
  | [] => .ok []
  | q :: quotas => do
    let q' ← store (x.row q.1)
    let quotas' ← x.rows quotas
    pure (q' :: quotas')

/-- The times of an extension by some days. -/
def Entitlement.extending (m : Entitlement) (now : Time) (days : ℕ) : Extending :=
  let lapsed := (extendBase m.periodEnd now).2
  { now := now
    days := days
    previous := m.periodEnd
    end_ := (m.extended now days).periodEnd
    lapsed := lapsed
    rescued := lapsed || m.status = .expired
    cycle := cycleLength now m.interval m.intervalCount }

/-- The row of the subscription after it; the `CHECK` on its period may refuse. -/
def Entitlement.move (m : Entitlement) (now : Time) (days : ℕ) : Except Error Entitlement :=
  if h : (m.extended now days).periodStart < (m.extended now days).periodEnd then
    .ok { m with toRow := m.extended now days, ordered := h }
  else .error (.database "subscriptions_period_order")

def Entitlement.extend (m : Entitlement) (now : Time) (days : ℕ) : Except Error Entitlement := do
  m.checkExtension now days
  let moved ← m.move now days
  let quotas ← (m.extending now days).rows m.quotas
  pure { moved with quotas := quotas }

/-! ## Bonus traffic -/

/-- `trafficPeriod`: the period whose row the traffic of a plan is counted in. -/
def trafficPeriod : PlanKind → QuotaPeriod
  | .oneTime => .total
  | .subscription => .cycle

/-- A row that bonus traffic can be added to. -/
def Entitlement.counts (m : Entitlement) (q : QuotaRow) : Prop :=
  q.metric = .traffic ∧ q.period = trafficPeriod m.kind ∧ q.limit ≠ none

instance (m : Entitlement) (q : QuotaRow) : Decidable (m.counts q) :=
  inferInstanceAs (Decidable (_ ∧ _ ∧ _))

/-- The row that bonus traffic is added to: of those that began last, the first. -/
def Entitlement.trafficRow (m : Entitlement) : Option StoredQuota :=
  m.quotas.foldl (fun target q =>
    if m.counts q.1 ∧ ∀ t ∈ target, t.1.periodStart < q.1.periodStart then some q else target) none

/-- Its period is over, and the next one has not begun. -/
def QuotaRow.Switching (q : QuotaRow) (now : Time) : Prop :=
  q.period = .cycle ∧ ∃ e ∈ q.periodEnd, e ≤ now

instance (q : QuotaRow) (now : Time) : Decidable (q.Switching now) :=
  inferInstanceAs (Decidable (_ ∧ _))

/-- `AddQuotaBonus`: the sum stops at the largest number. -/
def QuotaRow.addBonus (q : QuotaRow) (bytes : ℕ) : QuotaRow :=
  { q with bonus := if maxInt64 - bytes < q.bonus then maxInt64 else q.bonus + bytes }

/-- The most runes of a note. -/
def maxNoteRunes : ℕ := 500

/-- `cleanText` of a note that is not empty. -/
def cleanNote (note : String) : Except Error Unit :=
  let runes := Text.trimSpace note.toList
  ensure (note = "" ∨ (1 ≤ runes.length ∧ runes.length ≤ maxNoteRunes ∧ '\x00' ∉ runes))
    (.invalid "note")

/-- The bonus on the row it belongs to. -/
def Entitlement.putBonus (m : Entitlement) (now : Time) (bytes : ℕ) (q : StoredQuota) :
    Except Error Entitlement := do
  ensure (¬q.1.Switching now) .bonusPeriodSwitching
  let q' ← store (q.1.addBonus bytes)
  pure { m with quotas := m.quotas.map fun x => if x.1.id = q.1.id then q' else x }

/-- `GrantBonus`, for a gift card. -/
def Entitlement.grantBonus (m : Entitlement) (now : Time) (bytes : ℕ) (note : String) :
    Except Error Entitlement := do
  ensure (0 < bytes) (.invalid "bytes")
  cleanNote note
  ensure (m.stateAt now = .live) .notActive
  match m.trafficRow with
  | none => .error .unlimited
  | some q => m.putBonus now bytes q

/-! ## Resets -/

/-- The traffic of a row taken back to zero. -/
def QuotaRow.cleared (q : QuotaRow) : QuotaRow :=
  if q.metric = .traffic then { q with consumed := 0 } else q

theorem QuotaRow.Stored.cleared (h : q.Stored) : q.cleared.Stored := by
  unfold QuotaRow.cleared
  split_ifs
  · exact { h with consumed := Nat.zero_le _ }
  · exact h

/-- `ResetTraffic`, for a gift card. -/
def Entitlement.resetTraffic (m : Entitlement) (now : Time) (note : String) :
    Except Error Entitlement := do
  cleanNote note
  ensure (m.stateAt now = .live) .notLive
  ensure (∃ q ∈ m.quotas, q.1.metric = .traffic) .noTrafficQuota
  pure { m with quotas := m.quotas.map fun q => ⟨q.1.cleared, q.2.cleared⟩ }

end Pandora.Subscriptions
