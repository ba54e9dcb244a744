import StshProtocol.Foundation.Bisect
import StshProtocol.FeePolicy.Previews
import StshProtocol.ShieldedPool.FeeGuardrails
import StshProtocol.ShieldedPool.PrivateSpend.Args
import Mathlib.Order.Bounds.Basic

/-! The fees, as the wallet works them out.

The wallet prices a shield and a spend by itself, in numbers without a bound, and finds by
bisection the most a note can pay out. Its figures are the pool's wherever the pool has one, and
the maximum is the exact one (`wallet_fees_agree`). -/
namespace StshProtocol.Wallet
open Foundation FeePolicy ShieldedPool

def walletFeeModelVersion : Nat := 1

inductive FeeError where
  | feeModelUnsupported (feeModelVersion : Nat)
  | belowMinimumCredit (denom minimumPrivateCredit : Int)
  deriving DecidableEq, Repr

/-- What the wallet reads of the pool's parameters, the absent ones at their launch values. -/
structure ShieldFeeParams where
  shieldFeeBps : Nat
  shieldFlatMinimumFeeE8s : Int
  minimumPrivateCredit : Int
  feeModelVersion : Nat
  paramsEpoch : Nat
  protocolPrivateSpendFeeStsh : Int
  unshieldFeeBps : Nat
  unshieldFlatMinimumFeeE8s : Int

def mapShieldFeeParams (params : GovernanceFeeParams) : ShieldFeeParams where
  shieldFeeBps := params.shieldFeeBps.getD 0
  shieldFlatMinimumFeeE8s := (params.shieldFlatMinimumFeeE8s.getD 0 : Nat)
  minimumPrivateCredit := params.minimumPrivateCredit
  feeModelVersion := params.feeModelVersion.getD 1
  paramsEpoch := params.paramsEpoch.getD 0
  protocolPrivateSpendFeeStsh := params.protocolPrivateSpendFeeStsh
  unshieldFeeBps := params.unshieldFeeBps.getD 0
  unshieldFlatMinimumFeeE8s := (params.unshieldFlatMinimumFeeE8s.getD 0 : Nat)

def shieldProtocolFee (denom : Int) (params : ShieldFeeParams) : Int :=
  let byBps := (denom * params.shieldFeeBps).tdiv 10_000
  if params.shieldFlatMinimumFeeE8s > byBps then params.shieldFlatMinimumFeeE8s else byBps

def unshieldProtocolFee (publicAmount : Int) (params : ShieldFeeParams) : Int :=
  let byBps := (publicAmount * params.unshieldFeeBps).tdiv 10_000
  if params.unshieldFlatMinimumFeeE8s > byBps then params.unshieldFlatMinimumFeeE8s else byBps

def privateSpendFee (publicAmount : Option Int) (params : ShieldFeeParams) : Int :=
  match publicAmount with
  | none => params.protocolPrivateSpendFeeStsh
  | some publicAmount => unshieldProtocolFee publicAmount params

structure ShieldDepositPreview where
  denom : Int
  protocolFee : Int
  poolTransferIn : Int
  totalPublicDebit : Int

def shieldDepositPreview (denom ledgerFee : Int) (params : ShieldFeeParams) :
    Except FeeError ShieldDepositPreview :=
  if params.feeModelVersion ≠ walletFeeModelVersion then
    .error (.feeModelUnsupported params.feeModelVersion)
  else if denom < params.minimumPrivateCredit then
    .error (.belowMinimumCredit denom params.minimumPrivateCredit)
  else
    let protocolFee := shieldProtocolFee denom params
    let poolTransferIn := denom + protocolFee
    .ok ⟨denom, protocolFee, poolTransferIn, poolTransferIn + ledgerFee⟩

/-- Whether a note can pay the amount and its fee. -/
def fits (noteValue : Int) (params : ShieldFeeParams) (p : Int) : Bool :=
  p + unshieldProtocolFee p params ≤ noteValue

def maxPublicAmount (noteValue : Int) (params : ShieldFeeParams) : Except FeeError Int :=
  if params.feeModelVersion ≠ walletFeeModelVersion then
    .error (.feeModelUnsupported params.feeModelVersion)
  else if noteValue ≤ 0 then .ok 0
  else if !fits noteValue params 0 then .ok 0
  else .ok (Bisect.greatest (fits noteValue params) 0 noteValue)

def maxRecipientNet (noteValue ledgerFee : Int) (params : ShieldFeeParams) : Except FeeError Int := do
  let gross ← maxPublicAmount noteValue params
  return if gross > ledgerFee then gross - ledgerFee else 0

/-- What a spend comes to before it is journaled: what leaves, the fee and the change. -/
structure FeeBasis where
  publicAmount : Int
  fee : Int
  changeValue : Int

/-- The fee basis of `runSpendFlow`; a note that cannot cover it is refused. -/
def feeBasis (noteValue : Int) (recipientNet : Option Int) (ledgerFee : Int)
    (feeParams : ShieldFeeParams) : Option FeeBasis :=
  let publicAmount := match recipientNet with
    | some net => net + ledgerFee
    | none => 0
  let fee := privateSpendFee (recipientNet.map fun _ => publicAmount) feeParams
  let changeValue := noteValue - publicAmount - fee
  if changeValue < 0 then none else some ⟨publicAmount, fee, changeValue⟩

/-! ### The fees -/

variable {p : GovernanceFeeParams} {params : ShieldFeeParams}

/-- The larger of the two arms, for an amount that is not negative. -/
theorem byBps_nat (amount bps flat : Nat) :
    (if (flat : Int) > ((amount : Int) * bps).tdiv 10_000 then (flat : Int)
      else ((amount : Int) * bps).tdiv 10_000) = ((max flat (amount * bps / 10000) : Nat) : Int) := by
  have hquotient : ((amount : Int) * bps).tdiv 10_000 = ((amount * bps / 10000 : Nat) : Int) := by
    rw [← Int.natCast_mul]
    rfl
  rw [hquotient]
  by_cases hflat : (flat : Int) > ((amount * bps / 10000 : Nat) : Int)
  · rw [if_pos hflat, Nat.max_eq_left (by omega)]
  · rw [if_neg hflat, Nat.max_eq_right (by omega)]

theorem shieldProtocolFee_nat (amount : Nat) :
    shieldProtocolFee amount (mapShieldFeeParams p) =
      ((max p.effectiveShieldFlatMinimumFeeE8s (amount * p.effectiveShieldFeeBps / 10000) : Nat) :
        Int) := byBps_nat _ _ _

theorem unshieldProtocolFee_nat (amount : Nat) :
    unshieldProtocolFee amount (mapShieldFeeParams p) =
      ((max p.effectiveUnshieldFlatMinimumFeeE8s
        (amount * p.effectiveUnshieldFeeBps / 10000) : Nat) : Int) := byBps_nat _ _ _

theorem unshieldProtocolFee_mono {a b : Int} (h : a ≤ b) :
    unshieldProtocolFee a params ≤ unshieldProtocolFee b params := by
  have hproduct : a * params.unshieldFeeBps ≤ b * params.unshieldFeeBps :=
    Int.mul_le_mul_of_nonneg_right h (Int.natCast_nonneg _)
  have hquotient : (a * params.unshieldFeeBps).tdiv 10_000 ≤ (b * params.unshieldFeeBps).tdiv 10_000 :=
    Int.tdiv_le_tdiv (by decide) hproduct
  simp only [unshieldProtocolFee]
  split <;> split <;> omega

theorem fits_down {v a b : Int} (h : a ≤ b) (hb : fits v params b = true) :
    fits v params a = true := by
  have hfee : unshieldProtocolFee a params ≤ unshieldProtocolFee b params :=
    unshieldProtocolFee_mono h
  unfold fits at hb ⊢
  rw [decide_eq_true_eq] at hb ⊢
  omega

/-! ### Shields -/

theorem version_eq : (mapShieldFeeParams p).feeModelVersion = p.effectiveFeeModelVersion := rfl

theorem shieldDepositPreview_supported (hversion : p.effectiveFeeModelVersion = walletFeeModelVersion)
    (gross ledgerFee : Nat) :
    shieldDepositPreview gross ledgerFee (mapShieldFeeParams p) =
      if gross < p.minimumPrivateCredit then .error (.belowMinimumCredit gross p.minimumPrivateCredit)
      else .ok ⟨gross, shieldProtocolFee gross (mapShieldFeeParams p),
        gross + shieldProtocolFee gross (mapShieldFeeParams p),
        gross + shieldProtocolFee gross (mapShieldFeeParams p) + ledgerFee⟩ := by
  unfold shieldDepositPreview
  rw [version_eq, if_neg (not_not.2 hversion)]
  by_cases hmin : gross < p.minimumPrivateCredit
  · rw [if_pos hmin]
    exact if_pos (Int.ofNat_lt.2 hmin)
  · rw [if_neg hmin]
    exact if_neg fun hlt => hmin (Int.ofNat_lt.1 hlt)

/-- Where the pool's sums fit, the wallet gives a preview just if the pool does. -/
theorem previews_together (hversion : p.effectiveFeeModelVersion = walletFeeModelVersion)
    {gross ledgerFee : Nat} (h : computeDepositPreview gross ledgerFee p ≠ .error overflow) :
    (∃ quoted, shieldDepositPreview gross ledgerFee (mapShieldFeeParams p) = .ok quoted) ↔
      ∃ preview, computeDepositPreview gross ledgerFee p = .ok preview := by
  rw [shieldDepositPreview_supported hversion]
  have hfee : ∃ fee, p.shieldProtocolFee gross = .ok fee := by
    rw [GovernanceFeeParams.shieldProtocolFee, valueFee_eq]
    by_cases hfits : gross * p.effectiveShieldFeeBps ≤ u128Max
    · exact ⟨_, if_pos hfits⟩
    · refine absurd ?_ h
      rw [computeDepositPreview, GovernanceFeeParams.shieldProtocolFee, valueFee_eq, if_neg hfits]
      rfl
  obtain ⟨fee, hfee⟩ := hfee
  by_cases hmin : gross < p.minimumPrivateCredit
  · rw [if_pos hmin]
    refine ⟨fun hquoted => ?_, fun hpreview => ?_⟩
    · obtain ⟨quoted, hquoted⟩ := hquoted
      exact nomatch hquoted
    obtain ⟨preview, hpreview⟩ := hpreview
    obtain ⟨-, -, hcredit, -⟩ := computeDepositPreview_ok_iff.1 hpreview
    exact absurd hmin (Nat.not_lt.2 hcredit)
  · rw [if_neg hmin]
    refine ⟨fun _ => ?_, fun _ => ⟨_, rfl⟩⟩
    rcases computeDepositPreview_error hfee h with hbelow | hfits
    · exact absurd hbelow hmin
    · exact ⟨_, computeDepositPreview_ok_iff.2 ⟨fee, hfee, Nat.not_lt.1 hmin, hfits, rfl⟩⟩

/-- The figures of two previews are the same. -/
def SameFigures (quoted : ShieldDepositPreview) (preview : DepositPreview) : Prop :=
  quoted.denom = preview.grossShieldAmount ∧ quoted.denom = preview.privateBalanceCredit ∧
    quoted.protocolFee = preview.protocolShieldingFee ∧
    quoted.poolTransferIn = preview.poolTransferIn ∧
    quoted.totalPublicDebit = preview.totalPublicDebit

theorem previews_agree (hversion : p.effectiveFeeModelVersion = walletFeeModelVersion)
    {gross ledgerFee : Nat} {quoted : ShieldDepositPreview} {preview : DepositPreview}
    (hquoted : shieldDepositPreview gross ledgerFee (mapShieldFeeParams p) = .ok quoted)
    (hpreview : computeDepositPreview gross ledgerFee p = .ok preview) :
    SameFigures quoted preview := by
  obtain ⟨fee, hfee, hcredit, -, rfl⟩ := computeDepositPreview_ok_iff.1 hpreview
  obtain ⟨-, rfl⟩ := valueFee_ok_iff.1 hfee
  rw [shieldDepositPreview_supported hversion, if_neg (Nat.not_lt.2 hcredit)] at hquoted
  cases hquoted
  refine ⟨rfl, rfl, shieldProtocolFee_nat gross, ?_, ?_⟩
  · rw [shieldProtocolFee_nat]
    rfl
  · rw [shieldProtocolFee_nat]
    rfl

/-! ### Exits -/

/-- The amounts a note can pay out with their fee. -/
def payable (noteValue : Int) (params : ShieldFeeParams) : Set Int :=
  {q | 0 ≤ q ∧ q ≤ noteValue ∧ q + unshieldProtocolFee q params ≤ noteValue}

theorem fits_iff {v q : Int} :
    fits v params q = true ↔ q + unshieldProtocolFee q params ≤ v := decide_eq_true_iff

/-- The maximum is the greatest amount that can be paid out, and zero where there is none. -/
theorem maxPublicAmount_ok (hversion : params.feeModelVersion = walletFeeModelVersion) (v : Int) :
    ∃ m, maxPublicAmount v params = .ok m ∧
      (IsGreatest (payable v params) m ∨ payable v params = ∅ ∧ m = 0) := by
  have hnone : ¬fits v params 0 = true → payable v params = ∅ := by
    intro hzero
    refine Set.eq_empty_of_forall_notMem fun q hq => hzero ?_
    exact fits_down hq.1 (fits_iff.2 hq.2.2)
  unfold maxPublicAmount
  rw [if_neg (not_not.2 hversion)]
  by_cases hpos : v ≤ 0
  · rw [if_pos hpos]
    refine ⟨0, rfl, ?_⟩
    by_cases hzero : fits v params 0 = true
    · by_cases hv : v = 0
      · subst hv
        exact .inl ⟨⟨Int.le_refl 0, Int.le_refl 0, fits_iff.1 hzero⟩, fun q hq => hq.2.1⟩
      · refine .inr ⟨Set.eq_empty_of_forall_notMem fun q hq => ?_, rfl⟩
        obtain ⟨hq, hqv, -⟩ := hq
        omega
    · exact .inr ⟨hnone hzero, rfl⟩
  · rw [if_neg hpos]
    by_cases hzero : fits v params 0 = true
    · rw [hzero, if_neg (by decide)]
      have hv : 0 ≤ v := by omega
      have hmem : 0 ≤ Bisect.greatest (fits v params) 0 v ∧ Bisect.greatest (fits v params) 0 v ≤ v :=
        Bisect.greatest_mem hv
      have hgreatest : fits v params (Bisect.greatest (fits v params) 0 v) = true :=
        Bisect.fits_greatest hzero
      refine ⟨_, rfl, .inl ⟨⟨hmem.1, hmem.2, fits_iff.1 hgreatest⟩, fun q hq => ?_⟩⟩
      exact Bisect.le_greatest (fun a b hab hb => fits_down hab hb) (fits_iff.2 hq.2.2) hq.2.1
    · rw [Bool.not_eq_true] at hzero
      rw [hzero, Bool.not_false, if_pos rfl]
      exact ⟨0, rfl, .inr ⟨hnone (by rw [hzero]; decide), rfl⟩⟩

theorem max_nonneg {v m : Int} (h : IsGreatest (payable v params) m ∨ payable v params = ∅ ∧ m = 0) :
    0 ≤ m := by
  rcases h with hgreatest | ⟨-, rfl⟩
  · exact hgreatest.1.1
  · exact Int.le_refl 0

/-- A greater note can pay out no less. -/
theorem maxPublicAmount_mono (hversion : params.feeModelVersion = walletFeeModelVersion)
    {v v' m m' : Int} (hv : v ≤ v') (hm : maxPublicAmount v params = .ok m)
    (hm' : maxPublicAmount v' params = .ok m') : m ≤ m' := by
  obtain ⟨n, hn, hspec⟩ := maxPublicAmount_ok hversion v
  obtain ⟨n', hn', hspec'⟩ := maxPublicAmount_ok hversion v'
  obtain rfl : m = n := Except.ok.inj (hm.symm.trans hn)
  obtain rfl : m' = n' := Except.ok.inj (hm'.symm.trans hn')
  have hsubset : payable v params ⊆ payable v' params := fun q hq =>
    ⟨hq.1, Int.le_trans hq.2.1 hv, Int.le_trans hq.2.2 hv⟩
  rcases hspec with hgreatest | ⟨-, rfl⟩
  · rcases hspec' with hgreatest' | ⟨hempty, -⟩
    · exact hgreatest'.2 (hsubset hgreatest.1)
    · exact absurd (hsubset hgreatest.1) (hempty ▸ Set.notMem_empty m)
  · exact max_nonneg hspec'

theorem maxRecipientNet_mono (hversion : params.feeModelVersion = walletFeeModelVersion)
    {v v' ledgerFee n n' : Int} (hv : v ≤ v') (hn : maxRecipientNet v ledgerFee params = .ok n)
    (hn' : maxRecipientNet v' ledgerFee params = .ok n') : n ≤ n' := by
  obtain ⟨m, hm, hnet⟩ := bind_ok hn
  obtain ⟨m', hm', hnet'⟩ := bind_ok hn'
  have hle := maxPublicAmount_mono hversion hv hm hm'
  cases hnet
  cases hnet'
  split <;> split <;> omega

/-! ### Spends -/

open PrivateSpend

variable {payout : PrivateSpendPublicPayout} {fee : Nat}

theorem expectedFee_payout_iff : expectedPrivateSpendFee (some payout) p = .ok fee ↔
    payout.publicAmount * p.effectiveUnshieldFeeBps ≤ u128Max ∧
      fee = max p.effectiveUnshieldFlatMinimumFeeE8s
        (payout.publicAmount * p.effectiveUnshieldFeeBps / 10000) := by
  rw [expectedPrivateSpendFee, mapError_ok_iff, GovernanceFeeParams.unshieldProtocolFee,
    valueFee_ok_iff]

theorem expectedFee_none_iff (hbounded : p.protocolPrivateSpendFeeStsh ≤ u128Max) :
    expectedPrivateSpendFee none p = .ok fee ↔
      p.effectiveSpendFeeMode = .fixedStsh ∧ fee = p.protocolPrivateSpendFeeStsh := by
  rw [expectedPrivateSpendFee, mapError_ok_iff]
  unfold computePrivateSpendFeePreview protocolPrivateSpendFee
  cases hmode : p.effectiveSpendFeeMode with
  | xdrPegged => exact ⟨nofun, fun h => nomatch h.1⟩
  | fixedStsh =>
    have hsum : checked (checkedAdd128 p.protocolPrivateSpendFeeStsh 0) =
        .ok p.protocolPrivateSpendFeeStsh := by
      rw [checkedAdd128, Nat.add_zero, if_pos hbounded]
      rfl
    show checked (checkedAdd128 p.protocolPrivateSpendFeeStsh 0) = .ok fee ↔ _
    rw [hsum]
    exact ⟨fun h => ⟨rfl, (Except.ok.inj h).symm⟩, fun h => by rw [h.2]⟩

theorem checkFee_ok_iff {args : PrivateSpendArgs} :
    checkFee args p = .ok () ↔ expectedPrivateSpendFee args.publicPayout p = .ok args.fee := by
  rw [checkFee, bind_eq_ok_iff]
  constructor
  · rintro ⟨expected, hexpected, h⟩
    by_cases hfee : args.fee = expected
    · rw [hfee, hexpected]
    · rw [if_pos hfee] at h
      exact nomatch h
  · exact fun h => ⟨args.fee, h, if_neg (not_not.2 rfl)⟩

/-- The spend passes the wallet's check of the change and, with the fee the wallet worked out, the
pool's check of the fee. -/
def Passes (noteValue : Int) (recipientNet : Option Int) (ledgerFee : Int)
    (args : PrivateSpendArgs) (p : GovernanceFeeParams) : Prop :=
  ∃ basis, feeBasis noteValue recipientNet ledgerFee (mapShieldFeeParams p) = some basis ∧
    checkFee {args with fee := basis.fee.toNat} p = .ok ()

theorem feeBasis_payout (v net ledgerFee : Int) : feeBasis v (some net) ledgerFee params =
    if v - (net + ledgerFee) - unshieldProtocolFee (net + ledgerFee) params < 0 then none
    else some ⟨net + ledgerFee, unshieldProtocolFee (net + ledgerFee) params,
      v - (net + ledgerFee) - unshieldProtocolFee (net + ledgerFee) params⟩ := rfl

/-- An exit passes just if it is of no more than the maximum. -/
theorem passes_iff (hversion : p.effectiveFeeModelVersion = walletFeeModelVersion)
    {v m net ledgerFee : Int} {args : PrivateSpendArgs}
    (hflat : (p.effectiveUnshieldFlatMinimumFeeE8s : Int) ≤ v)
    (hm : maxPublicAmount v (mapShieldFeeParams p) = .ok m)
    (hnet : net + ledgerFee = payout.publicAmount) (hpayout : args.publicPayout = some payout)
    (hfits : payout.publicAmount * p.effectiveUnshieldFeeBps ≤ u128Max) :
    Passes v (some net) ledgerFee args p ↔ (payout.publicAmount : Int) ≤ m := by
  have hfee := unshieldProtocolFee_nat (p := p) payout.publicAmount
  have hpool : checkFee {args with fee :=
      (unshieldProtocolFee payout.publicAmount (mapShieldFeeParams p)).toNat} p = .ok () := by
    rw [checkFee_ok_iff, hfee, Int.toNat_natCast]
    show expectedPrivateSpendFee args.publicPayout p = _
    rw [hpayout]
    exact expectedFee_payout_iff.2 ⟨hfits, rfl⟩
  have hpasses : Passes v (some net) ledgerFee args p ↔
      (payout.publicAmount : Int) ∈ payable v (mapShieldFeeParams p) := by
    unfold Passes
    rw [feeBasis_payout, hnet]
    have hnonneg : 0 ≤ unshieldProtocolFee payout.publicAmount (mapShieldFeeParams p) := by
      rw [hfee]
      exact Int.natCast_nonneg _
    by_cases hchange : v - payout.publicAmount -
        unshieldProtocolFee payout.publicAmount (mapShieldFeeParams p) < 0
    · rw [if_pos hchange]
      refine ⟨fun ⟨_, hnone, _⟩ => (nomatch hnone), fun ⟨_, _, hpays⟩ => ?_⟩
      omega
    · rw [if_neg hchange]
      refine ⟨fun _ => ⟨Int.natCast_nonneg _, by omega, by omega⟩, fun _ => ⟨_, rfl, hpool⟩⟩
  have hzero : (0 : Int) ∈ payable v (mapShieldFeeParams p) := by
    have hfree := unshieldProtocolFee_nat (p := p) 0
    rw [Nat.zero_mul, Nat.zero_div, Nat.max_zero] at hfree
    have hfree : unshieldProtocolFee 0 (mapShieldFeeParams p) =
      p.effectiveUnshieldFlatMinimumFeeE8s := hfree
    exact ⟨Int.le_refl 0, by omega, by omega⟩
  obtain ⟨n, hn, hspec⟩ := @maxPublicAmount_ok (mapShieldFeeParams p) hversion v
  obtain rfl : m = n := Except.ok.inj (hm.symm.trans hn)
  rw [hpasses]
  rcases hspec with hgreatest | ⟨hempty, -⟩
  · refine ⟨fun hq => hgreatest.2 hq, fun hle => ?_⟩
    have hdown := fits_iff.1 (fits_down hle (fits_iff.2 hgreatest.1.2.2))
    exact ⟨Int.natCast_nonneg _, Int.le_trans hle hgreatest.1.2.1, hdown⟩
  · exact absurd hzero (hempty ▸ Set.notMem_empty 0)

/-! ### The claim -/

/-- Parameters the guardrails let governance set. -/
def Accepted (p : GovernanceFeeParams) : Prop :=
  ∃ params current bootstrap currentEpoch lastUpdateNs nowNs,
    FeeGovernance.decideGovernanceFeeUpdate params current bootstrap currentEpoch lastUpdateNs
      nowNs = .ok p

theorem Accepted.spendFee_bounded (h : Accepted p) : p.protocolPrivateSpendFeeStsh ≤ u128Max := by
  obtain ⟨params, current, bootstrap, currentEpoch, lastUpdateNs, nowNs, hdecide⟩ := h
  exact Nat.le_trans (FeeGovernance.accepts_of_ok hdecide).bounds.privateSpend.2 (by decide)

/-- The wallet's fees are the pool's. A shield is previewed where the pool previews one, with the same
figures. A spend is given the fee the pool requires, where it requires one: where the fee of the
payout does not overflow, or, without a payout, where the fee is not pegged. The quoted maximum of a
note is the greatest amount it can pay out, just what passes both checks, and grows with the note.
A withdrawal that is previewed adds up. -/
theorem wallet_fees_agree (haccepted : Accepted p)
    (hversion : p.effectiveFeeModelVersion = walletFeeModelVersion) :
    (∀ gross ledgerFee : Nat, computeDepositPreview gross ledgerFee p ≠ .error overflow →
      ((∃ quoted, shieldDepositPreview gross ledgerFee (mapShieldFeeParams p) = .ok quoted) ↔
        ∃ preview, computeDepositPreview gross ledgerFee p = .ok preview) ∧
      ∀ quoted preview, shieldDepositPreview gross ledgerFee (mapShieldFeeParams p) = .ok quoted →
        computeDepositPreview gross ledgerFee p = .ok preview → SameFigures quoted preview) ∧
    (∀ payout : Option PrivateSpendPublicPayout,
      ((∃ fee, expectedPrivateSpendFee payout p = .ok fee) ↔
        match payout with
        | some payout => payout.publicAmount * p.effectiveUnshieldFeeBps ≤ u128Max
        | none => p.effectiveSpendFeeMode = .fixedStsh) ∧
      ∀ fee, expectedPrivateSpendFee payout p = .ok fee →
        privateSpendFee (payout.map fun payout => (payout.publicAmount : Int))
          (mapShieldFeeParams p) = fee) ∧
    (∀ v : Int, ∃ m, maxPublicAmount v (mapShieldFeeParams p) = .ok m ∧
      (IsGreatest (payable v (mapShieldFeeParams p)) m ∨
        payable v (mapShieldFeeParams p) = ∅ ∧ m = 0) ∧
      ∀ (net ledgerFee : Int) (args : PrivateSpendArgs) (payout : PrivateSpendPublicPayout),
        (p.effectiveUnshieldFlatMinimumFeeE8s : Int) ≤ v → net + ledgerFee = payout.publicAmount →
          args.publicPayout = some payout →
            payout.publicAmount * p.effectiveUnshieldFeeBps ≤ u128Max →
              (Passes v (some net) ledgerFee args p ↔ (payout.publicAmount : Int) ≤ m)) ∧
    (∀ v v' m m' ledgerFee n n' : Int, v ≤ v' →
      maxPublicAmount v (mapShieldFeeParams p) = .ok m →
      maxPublicAmount v' (mapShieldFeeParams p) = .ok m' →
      maxRecipientNet v ledgerFee (mapShieldFeeParams p) = .ok n →
      maxRecipientNet v' ledgerFee (mapShieldFeeParams p) = .ok n' → m ≤ m' ∧ n ≤ n') ∧
    ∀ (gross ledgerFee : Nat) (preview : WithdrawalPreview),
      computeWithdrawalPreview gross ledgerFee p = .ok preview →
        gross = preview.recipientNetAmount + ledgerFee + preview.protocolUnshieldingFee ∧
        gross = preview.ledgerDebitFromPool + preview.protocolUnshieldingFee ∧
        withdrawalAccountingDelta preview = ⟨gross, gross, preview.protocolUnshieldingFee,
          preview.recipientNetAmount + ledgerFee⟩ := by
  refine ⟨fun gross ledgerFee h => ⟨previews_together hversion h, fun _ _ => previews_agree hversion⟩,
    fun payout => ⟨?_, ?_⟩, fun v => ?_, fun v v' m m' ledgerFee n n' hv hm hm' hn hn' => ?_,
    fun gross ledgerFee preview h => ?_⟩
  · cases payout with
    | some payout =>
      exact ⟨fun ⟨_, h⟩ => (expectedFee_payout_iff.1 h).1,
        fun h => ⟨_, expectedFee_payout_iff.2 ⟨h, rfl⟩⟩⟩
    | none =>
      exact ⟨fun ⟨_, h⟩ => ((expectedFee_none_iff haccepted.spendFee_bounded).1 h).1,
        fun h => ⟨_, (expectedFee_none_iff haccepted.spendFee_bounded).2 ⟨h, rfl⟩⟩⟩
  · intro fee h
    cases payout with
    | some payout =>
      obtain ⟨-, rfl⟩ := expectedFee_payout_iff.1 h
      exact unshieldProtocolFee_nat payout.publicAmount
    | none =>
      obtain ⟨-, rfl⟩ := (expectedFee_none_iff haccepted.spendFee_bounded).1 h
      rfl
  · obtain ⟨m, hm, hspec⟩ := @maxPublicAmount_ok (mapShieldFeeParams p) hversion v
    exact ⟨m, hm, hspec, fun net ledgerFee args payout hflat hnet hpayout hfits =>
      passes_iff hversion hflat hm hnet hpayout hfits⟩
  · exact ⟨maxPublicAmount_mono hversion hv hm hm', maxRecipientNet_mono hversion hv hn hn'⟩
  · obtain ⟨hgross, -, -, hsum, hdebit⟩ := computeWithdrawalPreview_ok h
    refine ⟨hsum, by omega, ?_⟩
    rw [withdrawalAccountingDelta, hgross, hdebit]

/-- The parameters of the launch, by which a note of 1,000 STSH can pay out 997.5 of them. -/
theorem wallet_fees_agree_launch :
    Accepted .mainnetLaunchConfig ∧
      maxPublicAmount 100_000_000_000 (mapShieldFeeParams .mainnetLaunchConfig) = .ok 99_750_000_000 := by
  have haccepted : Accepted .mainnetLaunchConfig :=
    ⟨.mainnetLaunchConfig, .launchDefaults, true, 0, 0, 0, by decide +kernel⟩
  obtain ⟨-, -, hmax, -, -⟩ := wallet_fees_agree haccepted rfl
  obtain ⟨m, hm, hspec, -⟩ := hmax 100_000_000_000
  have hmem : (99_750_000_000 : Int) ∈
      payable 100_000_000_000 (mapShieldFeeParams .mainnetLaunchConfig) := by
    refine ⟨by decide, by decide, by decide +kernel⟩
  have hnot : (99_750_000_001 : Int) ∉
      payable 100_000_000_000 (mapShieldFeeParams .mainnetLaunchConfig) := by
    rintro ⟨-, -, hpays⟩
    revert hpays
    decide +kernel
  refine ⟨haccepted, ?_⟩
  rw [hm]
  rcases hspec with hgreatest | ⟨hempty, -⟩
  · have hle := hgreatest.2 hmem
    have hlt : m < 99_750_000_001 := by
      by_contra hge
      refine hnot ⟨by decide, by decide, ?_⟩
      exact fits_iff.1 (fits_down (Int.not_lt.1 hge) (fits_iff.2 hgreatest.1.2.2))
    rw [show m = 99_750_000_000 by omega]
  · exact absurd hmem (hempty ▸ Set.notMem_empty _)

/-- The launch parameters under another fee model. -/
def unpriced : GovernanceFeeParams := {GovernanceFeeParams.mainnetLaunchConfig with
  feeModelVersion := some 2}

/-- The launch parameters with a pegged spend fee. -/
def pegged : GovernanceFeeParams := {GovernanceFeeParams.mainnetLaunchConfig with
  spendFeeMode := some .xdrPegged}

/-- An exit whose fee overflows in the pool. -/
def hugeExit : PrivateSpendArgs where
  spendId := 0
  envelope := ⟨0, "", 0, 0, 0, []⟩
  nullifiers := []
  outputCommitments := []
  encryptedOutputs := []
  fee := 0
  publicPayout := some ⟨0, none, 2 ^ 124⟩
  expectedDeploymentConfigHash := none

/-- Parameters the guardrails accept leave the wallet without a price the pool has, leave the pool
without one the wallet has, and let a note pay out by the wallet what the pool cannot price. -/
theorem wallet_fees_differ :
    (Accepted unpriced ∧
      computeDepositPreview 100_000_000_000 1_000_000 unpriced = .ok
        ⟨100_000_000_000, 1_000_000, 250_000_000, 100_000_000_000, 100_250_000_000,
          100_251_000_000⟩ ∧
      (∃ e, shieldDepositPreview 100_000_000_000 1_000_000 (mapShieldFeeParams unpriced) = .error e) ∧
      ∃ e, maxPublicAmount 100_000_000_000 (mapShieldFeeParams unpriced) = .error e) ∧
    (Accepted pegged ∧ privateSpendFee none (mapShieldFeeParams pegged) = 250_000_000 ∧
      ∃ e, expectedPrivateSpendFee none pegged = .error e) ∧
    Accepted .mainnetLaunchConfig ∧
      (2 : Int) ^ 124 ∈ payable u128Max (mapShieldFeeParams .mainnetLaunchConfig) ∧
      ¬Passes u128Max (some (2 ^ 124)) 0 hugeExit .mainnetLaunchConfig := by
  refine ⟨⟨⟨unpriced, .launchDefaults, true, 0, 0, 0, by decide +kernel⟩, by decide +kernel,
      ⟨_, rfl⟩, ⟨_, rfl⟩⟩,
    ⟨⟨pegged, .launchDefaults, true, 0, 0, 0, by decide +kernel⟩, by decide +kernel, ⟨_, rfl⟩⟩,
    ⟨.mainnetLaunchConfig, .launchDefaults, true, 0, 0, 0, by decide +kernel⟩,
    ⟨by decide +kernel, by decide +kernel, by decide +kernel⟩, ?_⟩
  rintro ⟨basis, -, hcheck⟩
  rw [checkFee_ok_iff] at hcheck
  obtain ⟨hfits, -⟩ := expectedFee_payout_iff.1 hcheck
  revert hfits
  decide +kernel

end StshProtocol.Wallet
