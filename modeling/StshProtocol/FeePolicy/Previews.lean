import StshProtocol.FeePolicy.Fees

/-! What a deposit costs and what a withdrawal gives.

The fee of a deposit comes on top of the amount, that of a withdrawal out of it. A preview that is
given adds up: what a withdrawal takes is what the recipient gets and the two fees
(`computeWithdrawalPreview_ok`). -/
namespace StshProtocol.FeePolicy
open Foundation ShieldedPool

/-- What a preview may be refused for. -/
inductive PreviewError where
  | policy (e : FeePolicyError)
  | privateCreditBelowMinimum (privateBalanceCredit minimumPrivateCredit : Nat)
  | withdrawalBelowMinimum (withdrawGrossAmount minimumWithdrawalGross : Nat)
  | grossAmountBelowFees (withdrawGrossAmount totalFee : Nat)
  | recipientBelowMinimum (recipientNetAmount minimumRecipientAmount : Nat)
  deriving DecidableEq, Repr

def overflow : PreviewError := .policy .arithmeticOverflow

namespace GovernanceFeeParams

def shieldProtocolFee (p : GovernanceFeeParams) (amount : Nat) : Except FeePolicyError Nat :=
  valueFee amount p.effectiveShieldFeeBps p.effectiveShieldFlatMinimumFeeE8s

def effectiveFeeModelVersion (p : GovernanceFeeParams) : Nat :=
  p.feeModelVersion.getD feeModelVersionCurrent

end GovernanceFeeParams

/-! ### Deposits -/

structure DepositPreview where
  grossShieldAmount : Nat
  stshIcrcTransferFromFee : Nat
  protocolShieldingFee : Nat
  privateBalanceCredit : Nat
  poolTransferIn : Nat
  totalPublicDebit : Nat
  deriving DecidableEq, Repr

def computeDepositPreview (grossShieldAmount stshIcrcTransferFromFee : Nat)
    (p : GovernanceFeeParams) : Except PreviewError DepositPreview := do
  let protocolShieldingFee ← (p.shieldProtocolFee grossShieldAmount).mapError .policy
  if grossShieldAmount < p.minimumPrivateCredit then
    .error (.privateCreditBelowMinimum grossShieldAmount p.minimumPrivateCredit)
  else
    let poolTransferIn ←
      (checked (checkedAdd128 grossShieldAmount protocolShieldingFee)).mapError .policy
    let totalPublicDebit ←
      (checked (checkedAdd128 poolTransferIn stshIcrcTransferFromFee)).mapError .policy
    return {
      grossShieldAmount
      stshIcrcTransferFromFee
      protocolShieldingFee
      privateBalanceCredit := grossShieldAmount
      poolTransferIn
      totalPublicDebit }

/-! ### Withdrawals -/

structure WithdrawalPreview where
  withdrawGrossAmount : Nat
  stshIcrcTransferFee : Nat
  protocolUnshieldingFee : Nat
  recipientNetAmount : Nat
  ledgerDebitFromPool : Nat
  deriving DecidableEq, Repr

def computeWithdrawalPreview (withdrawGrossAmount stshIcrcTransferFee : Nat)
    (p : GovernanceFeeParams) : Except PreviewError WithdrawalPreview := do
  let protocolUnshieldingFee ← (p.unshieldProtocolFee withdrawGrossAmount).mapError .policy
  if withdrawGrossAmount < p.minimumWithdrawalGross then
    .error (.withdrawalBelowMinimum withdrawGrossAmount p.minimumWithdrawalGross)
  else
    let totalFee ←
      (checked (checkedAdd128 stshIcrcTransferFee protocolUnshieldingFee)).mapError .policy
    if withdrawGrossAmount ≤ totalFee then
      .error (.grossAmountBelowFees withdrawGrossAmount totalFee)
    else if withdrawGrossAmount - totalFee < p.minimumRecipientAmount then
      .error (.recipientBelowMinimum (withdrawGrossAmount - totalFee) p.minimumRecipientAmount)
    else
      let ledgerDebitFromPool ← (checked
        (checkedAdd128 (withdrawGrossAmount - totalFee) stshIcrcTransferFee)).mapError .policy
      return {
        withdrawGrossAmount
        stshIcrcTransferFee
        protocolUnshieldingFee
        recipientNetAmount := withdrawGrossAmount - totalFee
        ledgerDebitFromPool }

structure WithdrawalAccountingDelta where
  privateLiabilityDecrease : Nat
  escrowBackingDecrease : Nat
  operationsReserveIncrease : Nat
  ledgerTransferOut : Nat
  deriving DecidableEq, Repr

def withdrawalAccountingDelta (preview : WithdrawalPreview) : WithdrawalAccountingDelta where
  privateLiabilityDecrease := preview.withdrawGrossAmount
  escrowBackingDecrease := preview.withdrawGrossAmount
  operationsReserveIncrease := preview.protocolUnshieldingFee
  ledgerTransferOut := preview.ledgerDebitFromPool

/-! ### What they come to -/

variable {amount bps flatMinimum fee ledgerFee : Nat} {p : GovernanceFeeParams}

theorem valueFee_eq (amount bps flatMinimum : Nat) : valueFee amount bps flatMinimum =
    if amount * bps ≤ u128Max then .ok (max flatMinimum (amount * bps / 10000))
    else .error .arithmeticOverflow := by
  unfold valueFee checkedMul128
  by_cases hfits : amount * bps ≤ u128Max
  · rw [if_pos hfits, if_pos hfits]
    rfl
  · rw [if_neg hfits, if_neg hfits]
    rfl

theorem valueFee_ok_iff : valueFee amount bps flatMinimum = .ok fee ↔
    amount * bps ≤ u128Max ∧ fee = max flatMinimum (amount * bps / 10000) := by
  rw [valueFee_eq]
  by_cases hfits : amount * bps ≤ u128Max
  · rw [if_pos hfits, Except.ok.injEq]
    exact ⟨fun h => ⟨hfits, h.symm⟩, fun h => h.2.symm⟩
  · rw [if_neg hfits]
    exact ⟨nofun, fun h => absurd h.1 hfits⟩

theorem checkedAdd_ok_iff {a b n : Nat} :
    (checked (checkedAdd128 a b)).mapError PreviewError.policy = .ok n ↔
      a + b ≤ u128Max ∧ n = a + b := by
  unfold checkedAdd128
  by_cases hfits : a + b ≤ u128Max
  · rw [if_pos hfits]
    exact ⟨fun h => ⟨hfits, (Except.ok.inj h).symm⟩, fun h => by rw [h.2]; rfl⟩
  · rw [if_neg hfits]
    exact ⟨nofun, fun h => absurd h.1 hfits⟩

theorem checkedAdd_error {a b : Nat} (h : ¬a + b ≤ u128Max) :
    (checked (checkedAdd128 a b)).mapError PreviewError.policy = .error overflow := by
  rw [checkedAdd128, if_neg h]
  rfl

theorem mapError_ok_iff {ε ε' α : Type} {x : Except ε α} {f : ε → ε'} {a : α} :
    x.mapError f = .ok a ↔ x = .ok a := by
  cases x with
  | error e => exact ⟨nofun, nofun⟩
  | ok b => simp only [Except.mapError, Except.ok.injEq]

/-- A withdrawal that is given adds up. -/
theorem computeWithdrawalPreview_ok {gross : Nat} {preview : WithdrawalPreview}
    (h : computeWithdrawalPreview gross ledgerFee p = .ok preview) :
    preview.withdrawGrossAmount = gross ∧ preview.stshIcrcTransferFee = ledgerFee ∧
      p.unshieldProtocolFee gross = .ok preview.protocolUnshieldingFee ∧
      gross = preview.recipientNetAmount + ledgerFee + preview.protocolUnshieldingFee ∧
      preview.ledgerDebitFromPool = preview.recipientNetAmount + ledgerFee := by
  obtain ⟨fee, hfee, h⟩ := bind_ok h
  by_cases hmin : gross < p.minimumWithdrawalGross
  · rw [if_pos hmin] at h
    exact nomatch h
  rw [if_neg hmin] at h
  obtain ⟨total, htotal, h⟩ := bind_ok h
  by_cases hbelow : gross ≤ total
  · rw [if_pos hbelow] at h
    exact nomatch h
  by_cases hrecipient : gross - total < p.minimumRecipientAmount
  · rw [if_neg hbelow, if_pos hrecipient] at h
    exact nomatch h
  rw [if_neg hbelow, if_neg hrecipient] at h
  obtain ⟨debit, hdebit, h⟩ := bind_ok h
  cases h
  obtain ⟨-, rfl⟩ := checkedAdd_ok_iff.1 htotal
  obtain ⟨-, rfl⟩ := checkedAdd_ok_iff.1 hdebit
  refine ⟨rfl, rfl, mapError_ok_iff.1 hfee, ?_, rfl⟩
  show gross = gross - (ledgerFee + fee) + ledgerFee + fee
  omega

/-- A deposit is given just if it is no dust and its sums fit. -/
theorem computeDepositPreview_ok_iff {gross : Nat} {preview : DepositPreview} :
    computeDepositPreview gross ledgerFee p = .ok preview ↔
      ∃ fee, p.shieldProtocolFee gross = .ok fee ∧ p.minimumPrivateCredit ≤ gross ∧
        gross + fee + ledgerFee ≤ u128Max ∧
        preview = ⟨gross, ledgerFee, fee, gross, gross + fee, gross + fee + ledgerFee⟩ := by
  constructor
  · intro h
    obtain ⟨fee, hfee, h⟩ := bind_ok h
    by_cases hmin : gross < p.minimumPrivateCredit
    · rw [if_pos hmin] at h
      exact nomatch h
    rw [if_neg hmin] at h
    obtain ⟨pulled, hpulled, h⟩ := bind_ok h
    obtain ⟨total, htotal, h⟩ := bind_ok h
    cases h
    obtain ⟨-, rfl⟩ := checkedAdd_ok_iff.1 hpulled
    obtain ⟨hfits, rfl⟩ := checkedAdd_ok_iff.1 htotal
    exact ⟨fee, mapError_ok_iff.1 hfee, Nat.not_lt.1 hmin, hfits, rfl⟩
  · rintro ⟨fee, hfee, hmin, hfits, rfl⟩
    refine bind_of_ok (mapError_ok_iff.2 hfee) ?_
    rw [if_neg (Nat.not_lt.2 hmin)]
    refine bind_of_ok (checkedAdd_ok_iff.2 ⟨by omega, rfl⟩) ?_
    exact bind_of_ok (checkedAdd_ok_iff.2 ⟨hfits, rfl⟩) rfl

/-- What a deposit is refused for, where it is not an overflow. -/
theorem computeDepositPreview_error {gross : Nat} (hfee : p.shieldProtocolFee gross = .ok fee)
    (h : computeDepositPreview gross ledgerFee p ≠ .error overflow) :
    gross < p.minimumPrivateCredit ∨ gross + fee + ledgerFee ≤ u128Max := by
  by_contra hnot
  rw [not_or, Nat.not_lt, Nat.not_le] at hnot
  apply h
  unfold computeDepositPreview
  rw [hfee]
  show (if gross < p.minimumPrivateCredit then _ else _) = _
  rw [if_neg (Nat.not_lt.2 hnot.1)]
  by_cases hpulled : gross + fee ≤ u128Max
  · rw [checkedAdd_ok_iff.2 ⟨hpulled, rfl⟩]
    show (do let _ ← (checked (checkedAdd128 (gross + fee) ledgerFee)).mapError _; _) = _
    rw [checkedAdd_error (Nat.not_le.2 hnot.2)]
    rfl
  · rw [checkedAdd_error hpulled]
    rfl

end StshProtocol.FeePolicy
