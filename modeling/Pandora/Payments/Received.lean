import Pandora.Ledger.Frozen
import Pandora.Payments.Record

/-!
# A payment does not fail on the ledger

Three places build the legs of a payment: the settlement of an order, that of a top-up, and the
quarantine.  Each leaves out the legs of amount zero, in its own combination.  `receipts_accepted`
says that `validatePosting` accepts what they build, whatever the amounts are.
-/

namespace Pandora.Payments

open Money List
open Ledger hiding Env State Error
open Orders hiding Error

/-- What a channel reports: the amount without the surcharge, the fee it keeps, the surcharge, and
the code of the channel. -/
structure Reported (amount fee surcharge : ℚ) (code : String) : Prop where
  cents : Check amount ∧ Check fee ∧ Check surcharge
  amount_pos : 0 < amount
  fee_nonneg : 0 ≤ fee
  surcharge_nonneg : 0 ≤ surcharge
  le : fee ≤ amount + surcharge
  named : code ≠ ""
  short : code.utf8ByteSize ≤ 64

/-- **The posting is accepted**: debit and credit are equal, no leg is zero or negative, and the
account gets the amount. -/
structure Accepted (p : Posting) (account : AccountRef) (amount : ℚ) : Prop where
  valid : validatePosting p = .ok ()
  wellFormed : p.WellFormed
  credited : legDelta p.legs account = amount

theorem validateLeg_platform {t : AccountType} {ref : String} {d : Direction} {x : ℚ}
    (ht : t.valid = true ∧ t.userOwned = false) (href : ref ≠ "" ∧ ref.utf8ByteSize ≤ 64)
    (hd : d = .debit ∨ d = .credit) (hpos : 0 < x) (hcents : Check x) :
    validateLeg ⟨platformAccount t ref, d, x⟩ = .ok () := by
  simp [validateLeg, platformAccount, ht, href, hd, hpos, hcents]

theorem validateLeg_user {t : AccountType} {userId : UUID} {d : Direction} {x : ℚ}
    (ht : t.valid = true ∧ t.userOwned = true) (huser : userId ≠ UUID.nil)
    (hd : d = .debit ∨ d = .credit) (hpos : 0 < x) (hcents : Check x) :
    validateLeg ⟨userAccount t userId, d, x⟩ = .ok () := by
  simp [validateLeg, userAccount, ht, huser, hd, hpos, hcents]

theorem sideTotal_append (d : Direction) (legs more : List Leg) :
    sideTotal d (legs ++ more) = sideTotal d legs + sideTotal d more := by
  simp [sideTotal]

theorem sideTotal_legIfPositive {leg : Leg} (h : 0 ≤ leg.amount) (d : Direction) :
    sideTotal d (legIfPositive leg) = if leg.direction = d then leg.amount else 0 := by
  unfold legIfPositive
  by_cases hpos : 0 < leg.amount
  · rw [if_pos hpos]
    exact add_zero _
  · rw [if_neg hpos, le_antisymm (not_lt.mp hpos) h, ite_self]
    rfl

/-- Legs that are debits, accepted one by one, none of them on the account. -/
structure Debits (legs : List Leg) (account : AccountRef) (sum : ℚ) : Prop where
  valid : ∀ leg ∈ legs, validateLeg leg = .ok ()
  apart : ∀ leg ∈ legs, leg.account ≠ account
  total : ∀ d, sideTotal d legs = if .debit = d then sum else 0

theorem Debits.append {legs legs' : List Leg} {account : AccountRef} {x y : ℚ}
    (h : Debits legs account x)
    (h' : Debits legs' account y) : Debits (legs ++ legs') account (x + y) where
  valid := forall_mem_append.mpr ⟨h.valid, h'.valid⟩
  apart := forall_mem_append.mpr ⟨h.apart, h'.apart⟩
  total d := by
    rw [sideTotal_append, h.total, h'.total]
    split_ifs
    · rfl
    · exact add_zero 0

theorem debits_legIfPositive {ref account : AccountRef} {x : ℚ} (hx : 0 ≤ x) (hne : ref ≠ account)
    (hpass : 0 < x → validateLeg (debit ref x) = .ok ()) :
    Debits (legIfPositive (debit ref x)) account x := by
  refine ⟨fun leg hleg => ?_, fun leg hleg => ?_, sideTotal_legIfPositive hx⟩
  all_goals obtain ⟨rfl, hpos⟩ := mem_legIfPositive.mp hleg
  · exact hpass hpos
  · exact hne

theorem debits_channel {code : String} {gross fee : ℚ} {account : AccountRef} (hfee : 0 ≤ fee)
    (hle : fee ≤ gross) (hcents : Check gross ∧ Check fee)
    (hcode : 0 < gross → code ≠ "" ∧ code.utf8ByteSize ≤ 64)
    (hnormal : account.type.debitNormal = false) :
    Debits (legIfPositive (debit (platformAccount .channelCash code) (gross - fee)) ++
      legIfPositive (debit (platformAccount .platformFeeExpense code) fee)) account gross := by
  have hne : ∀ {t : AccountType}, t.debitNormal = true → platformAccount t code ≠ account := by
    rintro t ht rfl
    exact absurd hnormal (by simpa [platformAccount] using ht)
  have hcash := debits_legIfPositive (sub_nonneg.mpr hle) (hne (t := .channelCash) rfl) fun hpos =>
    validateLeg_platform ⟨rfl, rfl⟩ (hcode (by linarith)) (.inl rfl) hpos (hcents.1.sub hcents.2)
  have hexpense := debits_legIfPositive hfee (hne (t := .platformFeeExpense) rfl) fun hpos =>
    validateLeg_platform ⟨rfl, rfl⟩ (hcode (hpos.trans_le hle)) (.inl rfl) hpos hcents.2
  have hboth := hcash.append hexpense
  rwa [sub_add_cancel] at hboth

/-- What `validatePosting` asks of a posting apart from its legs. -/
def Headed (kind : Ledger.Kind) (sourceType memo : String) : Prop :=
  kind.valid = true ∧ kind ≠ .balanceAdjusted ∧ sourceType ≠ "" ∧
    sourceTypePattern sourceType = true ∧ '\x00' ∉ memo.toList ∧ memo.length ≤ 500

instance (kind : Ledger.Kind) (sourceType memo : String) :
    Decidable (Headed kind sourceType memo) :=
  inferInstanceAs (Decidable (_ ∧ _))

/-- All three have one shape: debits, the account that gets the money, and the surcharge. -/
theorem accepted_of_debits {p : Posting} {debits : List Leg} {account : AccountRef}
    {amount surcharge : ℚ} (hlegs : p.legs = debits ++ [credit account amount] ++
      legIfPositive (credit (platformAccount .platformRevenue refSurcharge) surcharge))
    (hdebits : Debits debits account (amount + surcharge)) (hamount : 0 < amount)
    (hsurcharge : 0 ≤ surcharge) (hcents : Check surcharge)
    (hpass : validateLeg (credit account amount) = .ok ())
    (hnormal : account.type.debitNormal = false)
    (hne : account ≠ platformAccount .platformRevenue refSurcharge) (hid : p.sourceId ≠ UUID.nil)
    (hhead : Headed p.kind p.sourceType p.memo) : Accepted p account amount := by
  have hvalid : validatePosting p = .ok () := by
    obtain ⟨hkind, hnot, htype, hpattern, hnul, hlength⟩ := hhead
    have hpass : ∀ leg ∈ p.legs, validateLeg leg = .ok () := by
      rw [hlegs]
      refine forall_mem_append.mpr ⟨forall_mem_append.mpr ⟨hdebits.valid,
        forall_mem_singleton.mpr hpass⟩, fun leg hleg => ?_⟩
      obtain ⟨rfl, hpos⟩ := mem_legIfPositive.mp hleg
      exact validateLeg_platform ⟨rfl, rfl⟩ (by decide) (.inr rfl) hpos hcents
    have htwo : 2 ≤ p.legs.length := by
      have hsome : debits ≠ [] := by
        rintro rfl
        linarith [show (0 : ℚ) = amount + surcharge from hdebits.total .debit]
      have hone := length_pos_of_ne_nil hsome
      simp only [hlegs, length_append, length_singleton]
      omega
    have hbalanced : sideTotal .debit p.legs = sideTotal .credit p.legs := by
      have hlast := @sideTotal_legIfPositive
        (credit (platformAccount .platformRevenue refSurcharge) surcharge) hsurcharge
      simp only [hlegs, sideTotal_append, hdebits.total, hlast]
      simp [sideTotal, credit]
    simp only [validatePosting, except_bind_eq_ok, ensure_eq_ok, exists_const]
    exact ⟨hkind, iff_of_false htype hid, .inr hpattern, hnul, hlength,
      fun h => absurd h hnot, htwo, (), validateLegs_eq_ok.mpr hpass, hbalanced⟩
  refine ⟨hvalid, validatePosting_ok hvalid, ?_⟩
  rw [hlegs, legDelta_append, legDelta_append, legDelta_eq_zero hdebits.apart, legDelta_cons,
    legDelta_nil, legDelta_eq_zero fun leg hleg => (mem_legIfPositive.mp hleg).1 ▸ hne.symm]
  simp [credit, signedDelta, hnormal]

/-- **A payment does not fail on the ledger's own rules.**  Whatever the amounts are,
`validatePosting` accepts the booking of an order that `validateOrderPaid` accepts, of a top-up, and
of a payment that goes to suspense.  The revenue of an order is what was paid for it and what was
frozen for it. -/
theorem receipts_accepted :
    (∀ p : OrderPaid, validateOrderPaid p = .ok () → 0 < p.total →
      Accepted (orderPaidPosting p (p.total - p.paid)) (platformAccount .platformRevenue refMain)
        (p.paid + (p.total - p.paid)) ∧
      legDelta (orderPaidPosting p (p.total - p.paid)).legs
        (userAccount .userBalanceHold p.userId) = -(p.total - p.paid)) ∧
    (∀ (o : Order) (p : SettleInput), o.id ≠ UUID.nil → o.userId ≠ UUID.nil →
      Reported p.amount p.fee p.surcharge p.providerCode →
      Accepted (topupPosting o p) (userAccount .userBalance o.userId) p.amount) ∧
    ∀ (p : Payment) (kind : CaseKind), p.id ≠ UUID.nil →
      Reported (p.amount - p.surchargeAmount) p.feeAmount p.surchargeAmount p.provider.code →
      Accepted (suspensePosting p kind) (platformAccount .latePaymentSuspense refMain)
        (p.amount - p.surchargeAmount) := by
  have hmain : refMain ≠ "" ∧ refMain.utf8ByteSize ≤ 64 := by decide
  refine ⟨fun p hp htotal => ?_, fun o p hid huser hp => ?_, fun p kind hid hp => ?_⟩
  · simp only [validateOrderPaid, checkAmount, except_bind_eq_ok, ensure_eq_ok, exists_const] at hp
    obtain ⟨⟨hid, huser⟩, htotals, hpaid, hfee, hsurcharge, hle, hgross, -, hnamed, hshort⟩ := hp
    have happlied : 0 ≤ p.total - p.paid := sub_nonneg.mpr hle
    rw [add_sub_cancel]
    constructor
    · have hhold := @debits_legIfPositive (userAccount .userBalanceHold p.userId)
        (platformAccount .platformRevenue refMain) _ happlied
          (by simp [userAccount, platformAccount]) fun hpos =>
          validateLeg_user ⟨rfl, rfl⟩ huser (.inl rfl) hpos (htotals.2.sub hpaid.2)
      have hdebits := (debits_channel hfee.1 hgross ⟨hpaid.2.add hsurcharge.2, hfee.2⟩
        (fun h => ⟨hnamed h, hshort h⟩) rfl).append hhold
      rw [add_right_comm, add_sub_cancel] at hdebits
      exact accepted_of_debits rfl hdebits htotal hsurcharge.1 hsurcharge.2
        (validateLeg_platform ⟨rfl, rfl⟩ hmain (.inr rfl) htotal htotals.2) rfl (by decide) hid
        (by decide : Headed .orderPaid sourceOrder "")
    · by_cases hpos : 0 < p.total - p.paid
      · rw [legDelta_orderPaidPosting hpos, if_pos rfl]
      · rw [(unfrozen_orderPaidPosting hpos).legDelta,
          le_antisymm (not_lt.mp hpos) happlied, neg_zero]
  · exact accepted_of_debits rfl (debits_channel hp.fee_nonneg hp.le
        ⟨hp.cents.1.add hp.cents.2.2, hp.cents.2.1⟩ (fun _ => ⟨hp.named, hp.short⟩) rfl)
      hp.amount_pos hp.surcharge_nonneg hp.cents.2.2
      (validateLeg_user ⟨rfl, rfl⟩ huser (.inr rfl) hp.amount_pos hp.cents.1) rfl
      (by simp [userAccount, platformAccount]) hid
      (by decide : Headed .balanceTopup sourceOrder "余额充值")
  · have hhead : Headed .latePaymentSuspense sourcePayment ("迟到支付挂账：" ++ kind.name) := by
      cases kind <;> decide
    refine accepted_of_debits rfl ?_ hp.amount_pos hp.surcharge_nonneg hp.cents.2.2
      (validateLeg_platform ⟨rfl, rfl⟩ hmain (.inr rfl) hp.amount_pos hp.cents.1) rfl (by decide)
      hid hhead
    have hdebits := @debits_channel _ _ _ (platformAccount .latePaymentSuspense refMain)
      hp.fee_nonneg hp.le ⟨hp.cents.1.add hp.cents.2.2, hp.cents.2.1⟩
      (fun _ => ⟨hp.named, hp.short⟩) rfl
    rwa [sub_add_cancel] at hdebits ⊢

/-- The channel keeps all that it has collected for an order. -/
def sampleKept : OrderPaid := ⟨1, 2, 10, 3, 4, 1, "epay"⟩

theorem sample_receipts_accepted : Accepted (orderPaidPosting sampleKept (10 - 3))
    (platformAccount .platformRevenue refMain) (3 + (10 - 3)) :=
  (receipts_accepted.1 sampleKept (by decide +kernel) (by decide +kernel)).1

end Pandora.Payments
