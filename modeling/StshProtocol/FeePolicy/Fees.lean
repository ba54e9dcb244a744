import StshProtocol.FeePolicy.Params

/-! What a spend or an exit pays, and how a fee is split over the reserves. -/
namespace StshProtocol.FeePolicy
open ShieldedPool

/-- `checked_*` arithmetic, an overflow being the error. -/
def checked (o : Option Nat) : Except FeePolicyError Nat :=
  match o with
  | some n => .ok n
  | none => .error .arithmeticOverflow

def valueFee (amount bps flatMinimum : Nat) : Except FeePolicyError Nat := do
  let product ← checked (checkedMul128 amount bps)
  .ok (max flatMinimum (product / 10000))

namespace GovernanceFeeParams

def unshieldProtocolFee (p : GovernanceFeeParams) (amount : Nat) : Except FeePolicyError Nat :=
  valueFee amount p.effectiveUnshieldFeeBps p.effectiveUnshieldFlatMinimumFeeE8s

def effectiveSpendFeeMode (p : GovernanceFeeParams) : SpendFeeMode := p.spendFeeMode.getD .fixedStsh

end GovernanceFeeParams

/-- The fixed fee; the pegged one has no oracle yet, and is refused. -/
def protocolPrivateSpendFee (p : GovernanceFeeParams) : Except FeePolicyError Nat :=
  match p.effectiveSpendFeeMode with
  | .fixedStsh => .ok p.protocolPrivateSpendFeeStsh
  | .xdrPegged => .error .spendFeeOracleUnavailable

def spendLedgerFee (includesPublicLedgerMovement : Bool) (stshIcrcTransferFee : Option Nat) :
    Except FeePolicyError Nat :=
  if includesPublicLedgerMovement then
    match stshIcrcTransferFee with
    | some fee => .ok fee
    | none => .error .missingLedgerFeeForPublicTransfer
  else
    .ok 0

/-- `total_fee` of `compute_private_spend_fee_preview`. -/
def computePrivateSpendFeePreview (includesPublicLedgerMovement : Bool)
    (stshIcrcTransferFee : Option Nat) (p : GovernanceFeeParams) : Except FeePolicyError Nat := do
  let protocolFee ← protocolPrivateSpendFee p
  let ledgerFee ← spendLedgerFee includesPublicLedgerMovement stshIcrcTransferFee
  checked (checkedAdd128 protocolFee ledgerFee)

structure ReserveSplit where
  operationsReserve : Nat
  insuranceReserve : Nat
  stakingRewardsReserve : Nat
  deriving DecidableEq, Repr

/-- The shares in force: while staking is off its share goes to the other two. -/
def splitShares (p : GovernanceFeeParams) : Nat × Nat × Nat :=
  let ops := p.operationsSplitBps
  let ins := p.insuranceSplitBps
  let staking := p.stakingRewardsSplitBps
  if p.stakingRewardsEnabled then
    (ops, ins, staking)
  else if ops + ins = 0 then
    (10000, 0, 0)
  else
    let extraOps := staking * ops / (ops + ins)
    (ops + extraOps, ins + (staking - extraOps), 0)

/-- Floor division in each bucket, and the remainder to operations. -/
def splitProtocolFeeToReserves (feeAmount : Nat) (p : GovernanceFeeParams) :
    Except FeePolicyError ReserveSplit := do
  p.validateSplitBps
  let (opsBps, insBps, stakingBps) := splitShares p
  let ops ← checked (checkedMul128 feeAmount opsBps)
  let ins ← checked (checkedMul128 feeAmount insBps)
  let staking ← checked (if stakingBps = 0 then some 0 else checkedMul128 feeAmount stakingBps)
  let allocated := ops / 10000 + ins / 10000 + staking / 10000
  .ok ⟨ops / 10000 + (feeAmount - allocated), ins / 10000, staking / 10000⟩

end StshProtocol.FeePolicy
