import StshProtocol.Foundation.Except
import StshProtocol.ShieldedPool.Basic

/-! The governance fee parameters and the checks on them.

`validateFeeBounds` is about the values submitted, `validateFeeChangeFrom` about the
move from the values in force. Both go through lists of named fields, rates first. -/
namespace StshProtocol.FeePolicy
open Foundation ShieldedPool

def e8sPerStsh : Nat := 100000000
def bpsDenominator : Nat := 10000
def feeBpsFloor : Nat := 1
def feeBpsCeiling : Nat := 500
def maxBpsChangePerUpdate : Nat := 100
def flatMinimumFeeFloorE8s : Nat := e8sPerStsh / 10
def flatMinimumFeeCeilingE8s : Nat := 5 * e8sPerStsh
def privateSpendFeeFloorE8s : Nat := e8sPerStsh / 10
def privateSpendFeeCeilingE8s : Nat := 5 * e8sPerStsh
def feeUpdateCooldownNs : Nat := 24 * 60 * 60 * 1000000000
def feeAmountMaxRatioNum : Nat := 2

def launchShieldFeeBps : Nat := 0
def launchUnshieldFeeBps : Nat := 0
def launchShieldFlatMinimumFeeE8s : Nat := 0
def launchUnshieldFlatMinimumFeeE8s : Nat := 0
def feeModelVersionCurrent : Nat := 1

def mainnetLaunchShieldFeeBps : Nat := 25
def mainnetLaunchUnshieldFeeBps : Nat := 25
def mainnetLaunchSpendFeeE8s : Nat := 250000000
def mainnetLaunchFlatMinimumFeeE8s : Nat := 250000000

inductive SpendFeeMode where
  | fixedStsh
  | xdrPegged
  deriving DecidableEq, Repr

/-- What governance sets. The fields that came later are optional, and stand for the
launch constants where they are absent. -/
structure GovernanceFeeParams where
  protocolShieldingFeeStsh : Nat
  protocolUnshieldingFeeStsh : Nat
  protocolPrivateSpendFeeStsh : Nat
  minimumWithdrawalGross : Nat
  minimumRecipientAmount : Nat
  minimumPrivateCredit : Nat
  feeReferencePriceStshPerIcpE8s : Nat
  feeSafetyMarginBps : Nat
  maxFeeChangeBpsPerUpdate : Nat
  feeUpdateCooldownNs : Nat
  operationsSplitBps : Nat
  insuranceSplitBps : Nat
  stakingRewardsSplitBps : Nat
  stakingRewardsEnabled : Bool
  minimumTreasuryRunwayMonths : Nat
  targetTreasuryRunwayMonths : Nat
  shieldFeeBps : Option Nat
  unshieldFeeBps : Option Nat
  shieldFlatMinimumFeeE8s : Option Nat
  unshieldFlatMinimumFeeE8s : Option Nat
  spendFeeMode : Option SpendFeeMode
  feeModelVersion : Option Nat
  paramsEpoch : Option Nat
  deriving DecidableEq, Repr

/-- `FeePolicyError`, as far as the checks answer it. -/
inductive FeePolicyError where
  | arithmeticOverflow
  | invalidFeeSplitBps (operations insurance staking : Nat)
  | bpsAboveOneHundredPercent (field : String) (bps : Nat)
  | feeRateOutOfRange (field : String) (bps floor ceiling : Nat)
  | feeAmountOutOfRange (field : String) (amount floor ceiling : Nat)
  | feeRateChangeTooLarge (field : String) (current requested maxAbsChange : Nat)
  | feeAmountChangeOutOfRatio (field : String) (current requested : Nat)
  | feeUpdateCooldownActive (lastUpdateNs nowNs cooldownNs : Nat)
  | feeUpdateCooldownFieldMismatch (configuredNs requiredNs : Nat)
  | invalidParamsEpoch (supplied expected : Nat)
  | stakingSplitNonzeroWhileDisabled (staking : Nat)
  | stakingEnableBlockedRunwayUnwired
  | spendFeeOracleUnavailable
  | missingLedgerFeeForPublicTransfer
  deriving DecidableEq, Repr

def braces (name fields : String) : String := name ++ " \x7b " ++ fields ++ " \x7d"

/-- The text `{:?}` gives an error. -/
def FeePolicyError.debug : FeePolicyError → String
  | arithmeticOverflow => "ArithmeticOverflow"
  | invalidFeeSplitBps o i s => braces "InvalidFeeSplitBps"
      s!"operations_split_bps: {o}, insurance_split_bps: {i}, staking_rewards_split_bps: {s}"
  | bpsAboveOneHundredPercent f b => braces "BpsAboveOneHundredPercent" s!"field: \"{f}\", bps: {b}"
  | feeRateOutOfRange f b lo hi => braces "FeeRateOutOfRange"
      s!"field: \"{f}\", bps: {b}, floor: {lo}, ceiling: {hi}"
  | feeAmountOutOfRange f a lo hi => braces "FeeAmountOutOfRange"
      s!"field: \"{f}\", amount: {a}, floor: {lo}, ceiling: {hi}"
  | feeRateChangeTooLarge f c r m => braces "FeeRateChangeTooLarge"
      s!"field: \"{f}\", current_bps: {c}, requested_bps: {r}, max_abs_change_bps: {m}"
  | feeAmountChangeOutOfRatio f c r => braces "FeeAmountChangeOutOfRatio"
      s!"field: \"{f}\", current: {c}, requested: {r}"
  | feeUpdateCooldownActive l n c => braces "FeeUpdateCooldownActive"
      s!"last_update_ns: {l}, now_ns: {n}, cooldown_ns: {c}"
  | feeUpdateCooldownFieldMismatch c r => braces "FeeUpdateCooldownFieldMismatch"
      s!"configured_ns: {c}, required_ns: {r}"
  | invalidParamsEpoch s e => braces "InvalidParamsEpoch" s!"supplied: {s}, expected: {e}"
  | stakingSplitNonzeroWhileDisabled s => braces "StakingSplitNonzeroWhileDisabled"
      s!"staking_rewards_split_bps: {s}"
  | stakingEnableBlockedRunwayUnwired => "StakingEnableBlockedRunwayUnwired"
  | spendFeeOracleUnavailable => "SpendFeeOracleUnavailable"
  | missingLedgerFeeForPublicTransfer => "MissingLedgerFeeForPublicTransfer"

/-- A field under its name in the messages. -/
structure Field where
  name : String
  value : GovernanceFeeParams → Nat

/-- `checked_mul` on `u128`. -/
def checkedMul128 (a b : Nat) : Option Nat := if a * b ≤ u128Max then some (a * b) else none

namespace GovernanceFeeParams

/-- `launch_defaults`: no fee at all. -/
def launchDefaults : GovernanceFeeParams where
  protocolShieldingFeeStsh := 0
  protocolUnshieldingFeeStsh := 0
  protocolPrivateSpendFeeStsh := 0
  minimumWithdrawalGross := 0
  minimumRecipientAmount := 0
  minimumPrivateCredit := 0
  feeReferencePriceStshPerIcpE8s := 0
  feeSafetyMarginBps := 12500
  maxFeeChangeBpsPerUpdate := 1000
  feeUpdateCooldownNs := 24 * 60 * 60 * 1000000000
  operationsSplitBps := 8500
  insuranceSplitBps := 1500
  stakingRewardsSplitBps := 0
  stakingRewardsEnabled := false
  minimumTreasuryRunwayMonths := 6
  targetTreasuryRunwayMonths := 12
  shieldFeeBps := some launchShieldFeeBps
  unshieldFeeBps := some launchUnshieldFeeBps
  shieldFlatMinimumFeeE8s := some launchShieldFlatMinimumFeeE8s
  unshieldFlatMinimumFeeE8s := some launchUnshieldFlatMinimumFeeE8s
  spendFeeMode := some .fixedStsh
  feeModelVersion := some feeModelVersionCurrent
  paramsEpoch := some 0

/-- `mainnet_launch_config`: the documented first update. -/
def mainnetLaunchConfig : GovernanceFeeParams :=
  {launchDefaults with
    protocolPrivateSpendFeeStsh := mainnetLaunchSpendFeeE8s
    shieldFeeBps := some mainnetLaunchShieldFeeBps
    unshieldFeeBps := some mainnetLaunchUnshieldFeeBps
    shieldFlatMinimumFeeE8s := some mainnetLaunchFlatMinimumFeeE8s
    unshieldFlatMinimumFeeE8s := some mainnetLaunchFlatMinimumFeeE8s
    spendFeeMode := some .fixedStsh
    paramsEpoch := some 1}

/-! ### The effective values -/

def effectiveShieldFeeBps (p : GovernanceFeeParams) : Nat := p.shieldFeeBps.getD launchShieldFeeBps

def effectiveUnshieldFeeBps (p : GovernanceFeeParams) : Nat :=
  p.unshieldFeeBps.getD launchUnshieldFeeBps

def effectiveShieldFlatMinimumFeeE8s (p : GovernanceFeeParams) : Nat :=
  p.shieldFlatMinimumFeeE8s.getD launchShieldFlatMinimumFeeE8s

def effectiveUnshieldFlatMinimumFeeE8s (p : GovernanceFeeParams) : Nat :=
  p.unshieldFlatMinimumFeeE8s.getD launchUnshieldFlatMinimumFeeE8s

def effectiveParamsEpoch (p : GovernanceFeeParams) : Nat := p.paramsEpoch.getD 0

def rateFields : List Field :=
  [⟨"shield_fee_bps", effectiveShieldFeeBps⟩, ⟨"unshield_fee_bps", effectiveUnshieldFeeBps⟩]

def flatMinimumFields : List Field :=
  [⟨"shield_flat_minimum_fee_e8s", effectiveShieldFlatMinimumFeeE8s⟩,
    ⟨"unshield_flat_minimum_fee_e8s", effectiveUnshieldFlatMinimumFeeE8s⟩]

def privateSpendFeeField : Field := ⟨"protocol_private_spend_fee_stsh", protocolPrivateSpendFeeStsh⟩

def amountFields : List Field := flatMinimumFields ++ [privateSpendFeeField]

/-! ### The checks -/

/-- The three shares, added as `u32`, must be the whole. -/
def validateSplitBps (p : GovernanceFeeParams) : Except FeePolicyError Unit :=
  if u32Max < p.operationsSplitBps + p.insuranceSplitBps + p.stakingRewardsSplitBps then
    .error .arithmeticOverflow
  else if p.operationsSplitBps + p.insuranceSplitBps + p.stakingRewardsSplitBps ≠ 10000 then
    .error (.invalidFeeSplitBps p.operationsSplitBps p.insuranceSplitBps p.stakingRewardsSplitBps)
  else
    .ok ()

def validateStakingPosture (p : GovernanceFeeParams) : Except FeePolicyError Unit :=
  if p.stakingRewardsEnabled = false ∧ p.stakingRewardsSplitBps ≠ 0 then
    .error (.stakingSplitNonzeroWhileDisabled p.stakingRewardsSplitBps)
  else if p.stakingRewardsEnabled then
    .error .stakingEnableBlockedRunwayUnwired
  else
    .ok ()

/-- A rate above the whole is refused as that, before the range is looked at. -/
def checkRate (p : GovernanceFeeParams) (f : Field) : Except FeePolicyError Unit :=
  if bpsDenominator < f.value p then
    .error (.bpsAboveOneHundredPercent f.name (f.value p))
  else if f.value p < feeBpsFloor ∨ feeBpsCeiling < f.value p then
    .error (.feeRateOutOfRange f.name (f.value p) feeBpsFloor feeBpsCeiling)
  else
    .ok ()

def checkAmount (p : GovernanceFeeParams) (floor ceiling : Nat) (f : Field) :
    Except FeePolicyError Unit :=
  if f.value p < floor ∨ ceiling < f.value p then
    .error (.feeAmountOutOfRange f.name (f.value p) floor ceiling)
  else
    .ok ()

def validateFeeBounds (p : GovernanceFeeParams) : Except FeePolicyError Unit := do
  rateFields.forM (checkRate p)
  flatMinimumFields.forM (checkAmount p flatMinimumFeeFloorE8s flatMinimumFeeCeilingE8s)
  checkAmount p privateSpendFeeFloorE8s privateSpendFeeCeilingE8s privateSpendFeeField
  if p.feeUpdateCooldownNs ≠ FeePolicy.feeUpdateCooldownNs then
    .error (.feeUpdateCooldownFieldMismatch p.feeUpdateCooldownNs FeePolicy.feeUpdateCooldownNs)
  else
    .ok ()

/-- `abs_diff` of the two rates, at most a hundred points. -/
def checkRateChange (p current : GovernanceFeeParams) (f : Field) : Except FeePolicyError Unit :=
  if maxBpsChangePerUpdate < (f.value p - f.value current) + (f.value current - f.value p) then
    .error (.feeRateChangeTooLarge f.name (f.value current) (f.value p) maxBpsChangePerUpdate)
  else
    .ok ()

/-- Between half and twice the current amount, without a division. -/
def checkAmountChange (p current : GovernanceFeeParams) (f : Field) : Except FeePolicyError Unit :=
  match checkedMul128 (f.value current) feeAmountMaxRatioNum,
      checkedMul128 (f.value p) feeAmountMaxRatioNum with
  | some up, some down =>
    if up < f.value p ∨ down < f.value current then
      .error (.feeAmountChangeOutOfRatio f.name (f.value current) (f.value p))
    else
      .ok ()
  | _, _ => .error .arithmeticOverflow

def validateFeeChangeFrom (p current : GovernanceFeeParams) : Except FeePolicyError Unit := do
  rateFields.forM (checkRateChange p current)
  amountFields.forM (checkAmountChange p current)

end GovernanceFeeParams

/-! ### What the checks establish -/

/-- The absolute bounds, field by field, and the shares. -/
structure WithinBounds (p : GovernanceFeeParams) : Prop where
  rates : ∀ f ∈ GovernanceFeeParams.rateFields, feeBpsFloor ≤ f.value p ∧ f.value p ≤ feeBpsCeiling
  flatMinimums : ∀ f ∈ GovernanceFeeParams.flatMinimumFields,
    flatMinimumFeeFloorE8s ≤ f.value p ∧ f.value p ≤ flatMinimumFeeCeilingE8s
  privateSpend : privateSpendFeeFloorE8s ≤ p.protocolPrivateSpendFeeStsh ∧
    p.protocolPrivateSpendFeeStsh ≤ privateSpendFeeCeilingE8s
  cooldown : p.feeUpdateCooldownNs = feeUpdateCooldownNs
  split : p.operationsSplitBps + p.insuranceSplitBps + p.stakingRewardsSplitBps = 10000

open GovernanceFeeParams

variable {p current : GovernanceFeeParams} {f : Field} {lo hi : Nat}

theorem checkRate_ok (h : checkRate p f = .ok ()) : feeBpsFloor ≤ f.value p ∧ f.value p ≤ feeBpsCeiling := by
  unfold checkRate at h
  split at h
  · exact nomatch h
  · split at h
    · exact nomatch h
    · next hrange => omega

theorem checkAmount_ok (h : checkAmount p lo hi f = .ok ()) : lo ≤ f.value p ∧ f.value p ≤ hi := by
  unfold checkAmount at h
  split at h
  · exact nomatch h
  · next hrange => omega

theorem validateSplitBps_ok (h : p.validateSplitBps = .ok ()) :
    p.operationsSplitBps + p.insuranceSplitBps + p.stakingRewardsSplitBps = 10000 := by
  unfold validateSplitBps at h
  split at h
  · exact nomatch h
  · split at h
    · exact nomatch h
    · next hsum => exact Decidable.not_not.1 hsum

theorem withinBounds_of_ok (hsplit : p.validateSplitBps = .ok ())
    (h : p.validateFeeBounds = .ok ()) : WithinBounds p := by
  unfold validateFeeBounds at h
  obtain ⟨_, hrates, h⟩ := bind_ok h
  obtain ⟨_, hflat, h⟩ := bind_ok h
  obtain ⟨_, hspend, h⟩ := bind_ok h
  split at h
  · exact nomatch h
  · next hcool =>
    exact {
      rates := fun f hf => checkRate_ok (forM_ok hrates f hf)
      flatMinimums := fun f hf => checkAmount_ok (forM_ok hflat f hf)
      privateSpend := checkAmount_ok hspend
      cooldown := Decidable.not_not.1 hcool
      split := validateSplitBps_ok hsplit }

theorem checkRateChange_ok (h : checkRateChange p current f = .ok ()) :
    f.value current ≤ f.value p + maxBpsChangePerUpdate := by
  unfold checkRateChange at h
  split at h
  · exact nomatch h
  · next hdelta => omega

theorem checkAmountChange_ok (h : checkAmountChange p current f = .ok ()) :
    f.value current ≤ 2 * f.value p := by
  unfold checkAmountChange checkedMul128 at h
  split at h
  · next up down hup hdown =>
    split at hdown
    · cases hdown
      split at h
      · exact nomatch h
      · next hratio =>
        rw [feeAmountMaxRatioNum] at hratio
        omega
    · exact nomatch hdown
  · exact nomatch h

/-- Amounts fall to no less than half, rates by no more than a hundred points. -/
theorem lowered_of_ok (h : p.validateFeeChangeFrom current = .ok ()) :
    (∀ f ∈ rateFields, f.value current ≤ f.value p + maxBpsChangePerUpdate) ∧
      ∀ f ∈ amountFields, f.value current ≤ 2 * f.value p := by
  unfold validateFeeChangeFrom at h
  obtain ⟨_, hrates, hamounts⟩ := bind_ok h
  exact ⟨fun f hf => checkRateChange_ok (forM_ok hrates f hf),
    fun f hf => checkAmountChange_ok (forM_ok hamounts f hf)⟩

end StshProtocol.FeePolicy
