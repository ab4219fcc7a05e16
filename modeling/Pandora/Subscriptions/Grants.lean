import Pandora.Subscriptions.Entitlement

/-!
# When days and bonus traffic can be given

Both are refused where a row of a quota could not be stored.  An extension moves the end of
the current cycle; if the subscription had lapsed it also adds traffic, and the sum may be too
large.  A bonus is added to the row of the current traffic, and is refused as well while this
row waits for its next period.

An extension of a live subscription changes no more than the end of a cycle, so a bonus that
is given with it meets the same row as without it.
-/

namespace Pandora.Subscriptions

open Calendar List Entitlement Extending

/-! ## Extensions -/

/-- The traffic that an extension adds makes a row too large. -/
def Entitlement.Overflows (m : Entitlement) (now : Time) (days : ℕ) : Prop :=
  ∃ q ∈ m.quotas, (m.extending now days).Moves q.1 ∧
    ∃ l ∈ q.1.limit, maxInt64 < (m.extending now days).limit l + q.1.bonus

theorem Entitlement.extending_end (m : Entitlement) (now : Time) {days : ℕ} (hdays : 1 ≤ days) :
    m.periodEnd < (m.extending now days).end_ ∧
      ((m.extending now days).lapsed = true → now < (m.extending now days).end_) := by
  unfold extending Row.extended extendBase
  split_ifs with hover
  · have hlater := lt_truncate_addDate_days now hdays
    exact ⟨hover.trans_lt hlater, fun _ => hlater⟩
  · exact ⟨lt_truncate_addDate_days m.periodEnd hdays, fun h => by cases h⟩

theorem quotaPeriodEnd_order {period : QuotaPeriod} (hperiod : period = .day ∨ period = .month)
    (now cycleEnd : Time) : ∃ e, quotaPeriodEnd period now cycleEnd = some e ∧ now < e := by
  rcases hperiod with rfl | rfl
  · exact ⟨_, rfl, lt_addDate_day⟩
  · exact ⟨_, rfl, lt_addDate_month now⟩

theorem Entitlement.extending_stored (m : Entitlement) (now : Time) {days : ℕ} (hdays : 1 ≤ days)
    (q : StoredQuota) : ((m.extending now days).row q.1).Stored ↔
      ((m.extending now days).Moves q.1 →
        ∀ l ∈ q.1.limit, (m.extending now days).limit l + q.1.bonus ≤ maxInt64) := by
  obtain ⟨hend, -⟩ := m.extending_end now hdays
  unfold row
  by_cases hmoves : (m.extending now days).Moves q.1
  · rw [if_pos hmoves]
    constructor
    · intro h _ l hl
      exact h.remaining _ (Option.mem_map_of_mem _ hl)
    · intro h
      refine ⟨?_, ?_, q.2.consumed, q.2.bonus, ?_⟩
      · simp [hmoves.1]
      · rintro e ⟨⟩
        exact (q.2.order _ hmoves.2).trans hend
      · intro l hl
        obtain ⟨l₀, hl₀, rfl⟩ := Option.mem_map.mp hl
        exact h hmoves l₀ hl₀
  · rw [if_neg hmoves]
    refine iff_of_true ?_ fun h => absurd h hmoves
    split_ifs with hlapsed
    · obtain ⟨e, he, hnow⟩ := quotaPeriodEnd_order hlapsed.2 (m.extending now days).now
        (m.extending now days).end_
      refine ⟨?_, ?_, Nat.zero_le _, q.2.bonus, q.2.remaining⟩
      · rcases hlapsed.2 with hp | hp <;> simp [hp, quotaPeriodEnd]
      · rw [he]
        rintro e' ⟨⟩
        exact hnow
    · exact q.2

theorem Extending.rows_ok {x : Extending} {quotas quotas' : List StoredQuota} :
    x.rows quotas = .ok quotas' ↔ quotas'.map (·.1) = quotas.map fun q => x.row q.1 := by
  induction quotas generalizing quotas' with
  | nil =>
    rw [rows, Except.ok.injEq, map_nil, map_eq_nil_iff]
    exact eq_comm
  | cons q quotas ih =>
    simp only [rows, except_bind_eq_ok, except_pure_eq_ok, store_ok, ih]
    constructor
    · rintro ⟨q', hq', rest, hrest, rfl⟩
      rw [map_cons, map_cons, hq', hrest]
    · intro h
      obtain ⟨q', rest, rfl, hq', hrest⟩ := map_eq_cons_iff.mp h
      exact ⟨q', hq', rest, hrest, rfl⟩

theorem Extending.exists_rows {x : Extending} {quotas : List StoredQuota} :
    (∃ quotas', x.rows quotas = .ok quotas') ↔ ∀ q ∈ quotas, (x.row q.1).Stored := by
  constructor
  · rintro ⟨quotas', h⟩ q hq
    have hmem : x.row q.1 ∈ quotas'.map (·.1) := by
      rw [rows_ok.mp h]
      exact mem_map_of_mem hq
    obtain ⟨q', -, hq'⟩ := mem_map.mp hmem
    rw [← hq']
    exact q'.2
  · intro h
    refine ⟨quotas.attach.map fun q => ⟨x.row q.1.1, h q.1 q.2⟩, ?_⟩
    rw [rows_ok, map_map]
    exact attach_map_val (f := fun q : StoredQuota => x.row q.1)

theorem Entitlement.exists_move (m : Entitlement) (now : Time) {days : ℕ} (hdays : 1 ≤ days) :
    ∃ h, m.move now days = .ok { m with toRow := m.extended now days, ordered := h } := by
  obtain ⟨hend, hnow⟩ := m.extending_end now hdays
  have hordered : (if (m.extending now days).lapsed = true then now else m.periodStart) <
      (m.extending now days).end_ := by
    split_ifs with hlapsed
    · exact hnow hlapsed
    · exact m.ordered.trans hend
  exact ⟨hordered, dif_pos hordered⟩

variable {m : Entitlement} {now : Time} {bytes : ℕ} {note : String}

theorem Entitlement.extend_ok {m' : Entitlement} {days : ℕ} (h : m.extend now days = .ok m') :
    m'.id = m.id ∧ m'.userId = m.userId ∧ m'.kind = m.kind ∧ m'.status = .active ∧
      m'.renewalClosedAt = m.renewalClosedAt ∧ m'.periodEnd = (m.extending now days).end_ ∧
      m'.quotas.map (·.1) = m.quotas.map fun q => (m.extending now days).row q.1 := by
  simp only [extend, Row.checkExtension, except_bind_eq_ok, except_pure_eq_ok, ensure_eq_ok] at h
  obtain ⟨_, ⟨_, hdays, -⟩, moved, hmove, quotas, hrows, rfl⟩ := h
  obtain ⟨_, hmove'⟩ := m.exists_move now hdays.1
  rw [hmove'] at hmove
  cases hmove
  exact ⟨rfl, rfl, rfl, rfl, rfl, rfl, rows_ok.mp hrows⟩

theorem Entitlement.days_of_extend {m' : Entitlement} {days : ℕ} (h : m.extend now days = .ok m') :
    1 ≤ days := by
  simp only [extend, Row.checkExtension, except_bind_eq_ok, ensure_eq_ok] at h
  obtain ⟨_, ⟨_, hdays, -⟩, -⟩ := h
  exact hdays.1

/-- **When a subscription can be extended.** -/
theorem Entitlement.exists_extend {days : ℕ}
    (hdays : 1 ≤ days ∧ days ≤ maxExtendDays) (hstate : m.stateAt now ≠ .ended) :
    (∃ m', m.extend now days = .ok m') ↔ ¬m.Overflows now days := by
  have hrows : (∃ quotas, (m.extending now days).rows m.quotas = .ok quotas) ↔
      ¬m.Overflows now days := by
    rw [exists_rows]
    simp only [extending_stored m now hdays.1]
    unfold Overflows
    push Not
    rfl
  rw [← hrows]
  obtain ⟨_, hmove⟩ := m.exists_move now hdays.1
  simp only [extend, Row.checkExtension, except_bind_eq_ok, except_pure_eq_ok, ensure_eq_ok, hmove]
  constructor
  · rintro ⟨m', _, -, _, -, quotas, hquotas, -⟩
    exact ⟨quotas, hquotas⟩
  · rintro ⟨quotas, hquotas⟩
    exact ⟨_, (), ⟨(), hdays, hstate⟩, _, rfl, quotas, hquotas, rfl⟩

/-! ## Bonus traffic -/

/-- The row of the current traffic, if it has a limit, can take a bonus. -/
def Entitlement.TakesBonus (m : Entitlement) (now : Time) (bytes : ℕ) : Prop :=
  ∀ q, m.trafficRow = some q →
    ¬q.1.Switching now ∧ ∀ l ∈ q.1.limit, l + (q.1.addBonus bytes).bonus ≤ maxInt64

theorem QuotaRow.addBonus_stored (q : StoredQuota) (hbytes : bytes ≤ maxInt64) :
    (q.1.addBonus bytes).Stored ↔ ∀ l ∈ q.1.limit, l + (q.1.addBonus bytes).bonus ≤ maxInt64 := by
  constructor
  · exact fun h => h.remaining
  · intro h
    refine ⟨q.2.shape, q.2.order, q.2.consumed, ?_, h⟩
    show (if maxInt64 - bytes < q.1.bonus then maxInt64 else q.1.bonus + bytes) ≤ maxInt64
    split_ifs
    · exact le_rfl
    · omega

theorem Entitlement.exists_putBonus {q : StoredQuota}
    (hbytes : bytes ≤ maxInt64) : (∃ m', m.putBonus now bytes q = .ok m') ↔
      ¬q.1.Switching now ∧ ∀ l ∈ q.1.limit, l + (q.1.addBonus bytes).bonus ≤ maxInt64 := by
  rw [← QuotaRow.addBonus_stored q hbytes]
  simp only [putBonus, except_bind_eq_ok, except_pure_eq_ok, ensure_eq_ok, store_ok]
  constructor
  · rintro ⟨m', _, hswitch, q', hq', -⟩
    exact ⟨hswitch, hq' ▸ q'.2⟩
  · rintro ⟨hswitch, hstored⟩
    exact ⟨_, (), hswitch, ⟨_, hstored⟩, rfl, rfl⟩

theorem Entitlement.putBonus_ne_unlimited (m : Entitlement) (now : Time) (bytes : ℕ)
    (q : StoredQuota) : m.putBonus now bytes q ≠ .error .unlimited := by
  unfold putBonus store ensure
  split_ifs <;> simp [Bind.bind, Except.bind, Pure.pure, Except.pure]

theorem Entitlement.grantBonus_eq
    (hpos : 0 < bytes) (hnote : cleanNote note = .ok ()) (hlive : m.stateAt now = .live) :
    m.grantBonus now bytes note =
      match m.trafficRow with
      | none => .error .unlimited
      | some q => m.putBonus now bytes q := by
  have hpos' : ensure (0 < bytes) (Error.invalid "bytes") = .ok () := ensure_eq_ok.mpr hpos
  have hlive' : ensure (m.stateAt now = .live) Error.notActive = .ok () := ensure_eq_ok.mpr hlive
  rw [grantBonus, hpos', hnote, hlive']
  rfl

/-- **What a live subscription makes of a bonus**: it takes it, or has no limit. -/
theorem Entitlement.grantBonus_accepted
    (hpos : 0 < bytes) (hbytes : bytes ≤ maxInt64) (hnote : cleanNote note = .ok ())
    (hlive : m.stateAt now = .live) : ((∃ m', m.grantBonus now bytes note = .ok m') ∨
      m.grantBonus now bytes note = .error .unlimited) ↔ m.TakesBonus now bytes := by
  rw [grantBonus_eq hpos hnote hlive]
  unfold TakesBonus
  cases hrow : m.trafficRow with
  | none => simp
  | some q =>
    have hne := m.putBonus_ne_unlimited now bytes q
    simp only [hne, or_false, Option.some.injEq, forall_eq']
    exact exists_putBonus hbytes

/-! ## A bonus after an extension -/

section Live

variable {m' : Entitlement} {days : ℕ}

theorem Entitlement.extending_live (hlive : m.stateAt now = .live) (q : QuotaRow) :
    (m.extending now days).row q =
      if (m.extending now days).Moves q then
        { q with periodEnd := some (m.extending now days).end_ }
      else q := by
  obtain ⟨hactive, hnow⟩ : m.status = .active ∧ now < m.periodEnd := by
    unfold Row.stateAt at hlive
    split_ifs at hlive with _ h
    exact h
  have hlapsed : (m.extending now days).lapsed = false := by
    rw [extending, extendBase, if_neg (not_le.mpr hnow)]
  have hrescued : (m.extending now days).rescued = false := by
    rw [extending, extendBase, if_neg (not_le.mpr hnow), hactive]
    rfl
  have hlimit : (m.extending now days).limit = fun l => l := by
    funext l
    unfold limit
    simp [hrescued]
  rw [row, hlimit, Option.map_id', hlapsed]
  simp

/-- The row of a live subscription after an extension differs in the end of its period only. -/
theorem Entitlement.extending_live_same (hlive : m.stateAt now = .live) (q : QuotaRow) :
    ((m.extending now days).row q).metric = q.metric ∧
      ((m.extending now days).row q).period = q.period ∧
      ((m.extending now days).row q).limit = q.limit ∧
      ((m.extending now days).row q).periodStart = q.periodStart ∧
      ((m.extending now days).row q).bonus = q.bonus := by
  rw [extending_live hlive]
  split_ifs <;> exact ⟨rfl, rfl, rfl, rfl, rfl⟩

theorem latest_row {g : QuotaRow → QuotaRow} {counts counts' : QuotaRow → Prop}
    [DecidablePred counts] [DecidablePred counts'] (hcounts : ∀ q, counts' (g q) ↔ counts q)
    (hstart : ∀ q, (g q).periodStart = q.periodStart) {target target' : Option StoredQuota}
    (htarget : target'.map (·.1) = target.map fun t => g t.1) {q q' : StoredQuota}
    (hq : q'.1 = g q.1) :
    (if counts' q'.1 ∧ ∀ t ∈ target', t.1.periodStart < q'.1.periodStart then some q'
        else target').map (·.1) =
      (if counts q.1 ∧ ∀ t ∈ target, t.1.periodStart < q.1.periodStart then some q
        else target).map fun t => g t.1 := by
  have hlater : (∀ t ∈ target', t.1.periodStart < q'.1.periodStart) ↔
      ∀ t ∈ target, t.1.periodStart < q.1.periodStart := by
    rw [hq, hstart]
    cases target with
    | none =>
      rw [Option.map_none, Option.map_eq_none_iff] at htarget
      simp [htarget]
    | some =>
      rw [Option.map_some, Option.map_eq_some_iff] at htarget
      obtain ⟨t', rfl, ht'⟩ := htarget
      simp [ht', hstart]
  have hcounts' : counts' q'.1 ↔ counts q.1 := by
    rw [hq]
    exact hcounts q.1
  by_cases htaken : counts q.1 ∧ ∀ t ∈ target, t.1.periodStart < q.1.periodStart
  · rw [if_pos htaken, if_pos ⟨hcounts'.mpr htaken.1, hlater.mpr htaken.2⟩, Option.map_some,
      Option.map_some, hq]
  · rw [if_neg htaken, if_neg fun h => htaken ⟨hcounts'.mp h.1, hlater.mp h.2⟩]
    exact htarget

section

variable (hlive : m.stateAt now = .live)
include hlive

theorem Entitlement.trafficRow_extend (h : m.extend now days = .ok m') :
    m'.trafficRow.map (·.1) = m.trafficRow.map fun q => (m.extending now days).row q.1 := by
  obtain ⟨-, -, hkind, -, -, -, hquotas⟩ := extend_ok h
  have hcounts : ∀ q, m'.counts ((m.extending now days).row q) ↔ m.counts q := by
    intro q
    obtain ⟨hmetric, hperiod, hlimit, -, -⟩ := @extending_live_same m now days hlive q
    unfold counts
    rw [hmetric, hperiod, hlimit, hkind]
  have hstart : ∀ q, ((m.extending now days).row q).periodStart = q.periodStart := fun q =>
    (extending_live_same hlive q).2.2.2.1
  -- the search is over the rows in their order
  have hfold : ∀ (quotas quotas' : List StoredQuota) (target target' : Option StoredQuota),
      (quotas'.map (·.1) = quotas.map fun q => (m.extending now days).row q.1) →
      (target'.map (·.1) = target.map fun q => (m.extending now days).row q.1) →
      (quotas'.foldl (fun target q => if m'.counts q.1 ∧
          ∀ t ∈ target, t.1.periodStart < q.1.periodStart then some q else target) target').map
            (·.1) =
        (quotas.foldl (fun target q => if m.counts q.1 ∧
          ∀ t ∈ target, t.1.periodStart < q.1.periodStart then some q else target) target).map
            fun q => (m.extending now days).row q.1 := by
    intro quotas
    induction quotas with
    | nil =>
      intro quotas' target target' hquotas htarget
      rw [map_nil, map_eq_nil_iff] at hquotas
      rw [hquotas]
      exact htarget
    | cons q quotas ih =>
      intro quotas' target target' hquotas htarget
      obtain ⟨q', rest, rfl, hq', hrest⟩ := map_eq_cons_iff.mp hquotas
      exact ih rest _ _ hrest (latest_row hcounts hstart htarget hq')
  exact hfold m.quotas m'.quotas none none hquotas rfl

theorem Entitlement.switching_extending (hdays : 1 ≤ days)
    (q : QuotaRow) : ((m.extending now days).row q).Switching now ↔ q.Switching now := by
  have hnow : now < m.periodEnd := by
    unfold Row.stateAt at hlive
    split_ifs at hlive with _ h
    exact h.2
  have hend := (m.extending_end now hdays).1
  rw [extending_live hlive]
  split_ifs with hmoves
  · have hbefore : ¬q.Switching now := by
      rintro ⟨-, e, he, hle⟩
      rw [hmoves.2] at he
      cases he
      exact absurd hle (not_le.mpr hnow)
    refine iff_of_false ?_ hbefore
    rintro ⟨-, e, he, hle⟩
    cases he
    exact absurd hle (not_le.mpr (hnow.trans hend))
  · rfl

/-- **A bonus is taken after an extension as before it.** -/
theorem Entitlement.takesBonus_extend (h : m.extend now days = .ok m') (bytes : ℕ) :
    m'.TakesBonus now bytes ↔ m.TakesBonus now bytes := by
  have hdays := days_of_extend h
  have hrow := trafficRow_extend hlive h
  unfold TakesBonus
  cases hq : m.trafficRow with
  | none =>
    rw [hq, Option.map_none, Option.map_eq_none_iff] at hrow
    simp [hrow]
  | some q =>
    rw [hq, Option.map_some, Option.map_eq_some_iff] at hrow
    obtain ⟨q', hq', hval⟩ := hrow
    obtain ⟨-, -, hlimit, -, hbonus⟩ := @extending_live_same m now days hlive q.1
    have hadd : (q'.1.addBonus bytes).bonus = (q.1.addBonus bytes).bonus := by
      unfold QuotaRow.addBonus
      rw [hval, hbonus]
    simp only [hq', Option.some.injEq, forall_eq', hadd]
    rw [hval, hlimit, switching_extending hlive hdays]

theorem Entitlement.live_extend (h : m.extend now days = .ok m') : m'.stateAt now = .live := by
  have hdays := days_of_extend h
  obtain ⟨-, -, -, hactive, hclosed, hperiodEnd, -⟩ := extend_ok h
  unfold Row.stateAt at hlive ⊢
  split_ifs at hlive with hopen hbefore
  have hnow : now < m'.periodEnd := by
    rw [hperiodEnd]
    exact hbefore.2.trans (m.extending_end now hdays).1
  rw [hclosed, if_neg hopen, if_pos ⟨hactive, hnow⟩]

end

end Live

end Pandora.Subscriptions
