import StshProtocol.ShieldedPool.Basic

/-! The durable records of the pool: a deposit with its settlement sidecar, a
private spend with its staged outputs and its public payout, and what their
statuses say. Every classification of a status is a function of its own, as in
the source, so that a status added there has to be classified here. -/
namespace StshProtocol.ShieldedPool

/-! ### Deposits -/

inductive DepositStatus where
  | commitmentPending
  | transferPending
  | transferConfirmedCommitmentPending
  | commitmentAppendInFlight
  | commitmentAppended (leafIndex : Nat)
  | commitmentAppendUnknown
  | commitmentReconcileInFlight
  | commitmentRootAccepted (leafIndex : Nat) (root : Bytes32)
  deriving DecidableEq, Repr

/-- `PendingDeposit`. `operation` is ghost: it numbers the reservation that wrote
the record, and nothing the pool does reads it. -/
structure PendingDeposit where
  operation : Nat
  noteCommitment : Bytes32
  privateBalance : Nat
  opsAmount : Nat
  insuranceAmount : Nat
  stakingAmount : Option Nat
  encryptedPayload : Bytes
  depositor : Option Principal
  status : DepositStatus
  createdAtNs : Nat
  expectedLeafIndex : Option Nat
  finalizedAtNs : Option Nat
  deriving DecidableEq, Repr

inductive SettlementDisposition where
  | unresolved
  | applied (blockIndex : Nat)
  | anomaly
  deriving DecidableEq, Repr

structure SettleClaim where
  generation : Nat
  claimedAtNs : Nat
  deriving DecidableEq, Repr

/-- `DepositSettlementV1`: the frozen half of a deposit's transfer, and who is
settling it. -/
structure DepositSettlement where
  tokenCanister : Principal
  amount : Nat
  fee : Nat
  claim : Option SettleClaim
  disposition : SettlementDisposition
  anomalyCode : Nat
  deriving DecidableEq, Repr

/-- A deposit is in the recovery index until its covering root is accepted. -/
def depositRecoveryRequired : DepositStatus → Bool
  | .commitmentPending => true
  | .transferPending => true
  | .transferConfirmedCommitmentPending => true
  | .commitmentAppendInFlight => true
  | .commitmentAppended _ => true
  | .commitmentAppendUnknown => true
  | .commitmentReconcileInFlight => true
  | .commitmentRootAccepted _ _ => false

/-- The statuses in which the pool-wide append lease must be held by this deposit. -/
def depositStatusRequiresLease : DepositStatus → Bool
  | .commitmentAppendInFlight | .commitmentAppendUnknown | .commitmentReconcileInFlight
  | .commitmentAppended _ => true
  | _ => false

inductive DepositReconstruction where
  | preserve
  | resolveAppendInFlightByIndex
  | normalizeReconcileToAppendUnknown
  deriving DecidableEq, Repr

def classifyDepositStatusForUpgrade : DepositStatus → DepositReconstruction
  | .commitmentPending | .transferPending | .transferConfirmedCommitmentPending => .preserve
  | .commitmentAppendInFlight => .resolveAppendInFlightByIndex
  | .commitmentReconcileInFlight => .normalizeReconcileToAppendUnknown
  | .commitmentAppendUnknown => .preserve
  | .commitmentAppended _ | .commitmentRootAccepted _ _ => .preserve

/-! ### Private spends -/

inductive SpendStatus where
  | requested
  | outputsStaged
  | finalized
  | failedBeforeStateChange (reason : String)
  | failedAfterOutputsStaged (reason : String)
  | verificationPending
  | nullifierReserved
  | payoutPending (reason : String)
  | payoutSubmitting
  | payoutUnknown (reason : String)
  | nullifierInsertUnknown (reason : String)
  | nullifierReconcileInFlight
  | nullifierFinalizedOutputsPending
  | activeAppendInFlight
  | activeAppendUnknown (reason : String)
  | activeAppendRejected (reason : String)
  | activeRootPending
  | rootAccepted
  deriving DecidableEq, Repr

inductive PayoutPhase where
  | preDispatch
  | mayHaveDispatched
  deriving DecidableEq, Repr

/-- The transfer arguments of a payout, frozen before its first dispatch. -/
structure FrozenPayout where
  ledger : Principal
  fromSubaccount : Option Bytes32
  destination : Principal
  destinationSubaccount : Option Bytes32
  amount : Nat
  fee : Option Nat
  memo : Option Bytes
  createdAtTime : Option Nat
  deriving DecidableEq, Repr

structure PayoutRetryState where
  memoSequence : Nat
  generation : Nat
  boot : Nat
  phase : PayoutPhase
  priorAmbiguity : Bool
  dispatched : Bool
  frozen : Option FrozenPayout
  deriving DecidableEq, Repr

structure PendingPublicPayout where
  destination : Principal
  destinationSubaccount : Option Bytes32
  publicAmount : Nat
  protocolFee : Nat
  blockIndex : Option Nat
  ledgerCreatedAtTimeNs : Option Nat
  retry : Option PayoutRetryState
  deriving DecidableEq, Repr

structure PendingSpend where
  spendId : SpendId
  nullifiers : List Bytes32
  outputCommitments : List Bytes32
  publicPayout : Option PendingPublicPayout
  outputsCommitted : Nat
  fee : Option Nat
  status : SpendStatus
  createdAtNs : Nat
  submitter : Option Principal
  finalizedAtNs : Option Nat
  feeSplitOps : Option Nat
  feeSplitInsurance : Option Nat
  feeSplitStaking : Option Nat
  deriving DecidableEq, Repr

/-- `PendingOutputRecord`: the staged outputs of a spend and the snapshot of the
tree taken before they are appended. -/
structure PendingOutputRecord where
  spendId : SpendId
  outputCommitments : List Bytes32
  encryptedOutputs : List Bytes
  preAppendRoot : Option Bytes32
  preAppendLeafCount : Option Nat
  expectedFirstLeafIndex : Option Nat
  expectedOutputCount : Nat
  resultingRoot : Option Bytes32
  createdAtNs : Nat
  deriving DecidableEq, Repr

/-- A spend is in the recovery index until it reaches one of its three ends. -/
def spendRecoveryRequired : SpendStatus → Bool
  | .finalized | .failedBeforeStateChange _ | .failedAfterOutputsStaged _ => false
  | .requested | .verificationPending | .nullifierReserved | .outputsStaged
  | .nullifierInsertUnknown _ | .nullifierReconcileInFlight
  | .nullifierFinalizedOutputsPending | .activeAppendInFlight | .activeAppendUnknown _
  | .activeAppendRejected _ | .activeRootPending | .rootAccepted | .payoutPending _
  | .payoutSubmitting | .payoutUnknown _ => true

def isTerminalSpendStatus : SpendStatus → Bool
  | .finalized | .failedBeforeStateChange _ | .failedAfterOutputsStaged _ => true
  | _ => false

/-- The statuses in which the pool-wide append lease must be held by this spend. -/
def spendStatusRequiresLease : SpendStatus → Bool
  | .activeAppendInFlight | .activeAppendUnknown _ | .activeRootPending => true
  | _ => false

/-- The statuses in which a nullifier is claimed in the pool and not yet known to
be in the registry: the heap reservation is its only guard. -/
def reservesNullifiers : SpendStatus → Bool
  | .nullifierReserved | .outputsStaged | .nullifierInsertUnknown _
  | .nullifierReconcileInFlight => true
  | .requested | .verificationPending => false
  | .nullifierFinalizedOutputsPending | .activeAppendInFlight | .activeAppendUnknown _
  | .activeAppendRejected _ | .activeRootPending | .rootAccepted | .payoutPending _
  | .payoutSubmitting | .payoutUnknown _ => false
  | .finalized | .failedBeforeStateChange _ | .failedAfterOutputsStaged _ => false

inductive SpendReconstruction where
  | preserve
  | removeRecord
  | normalizeToNullifierInsertUnknown
  | resolveActiveAppendInFlightByIndex
  deriving DecidableEq, Repr

def classifySpendStatusForUpgrade : SpendStatus → SpendReconstruction
  | .requested | .verificationPending => .removeRecord
  | .nullifierReserved | .outputsStaged | .nullifierReconcileInFlight =>
      .normalizeToNullifierInsertUnknown
  | .nullifierInsertUnknown _ => .preserve
  | .nullifierFinalizedOutputsPending => .preserve
  | .activeAppendInFlight => .resolveActiveAppendInFlightByIndex
  | .activeAppendUnknown _ | .activeAppendRejected _ => .preserve
  | .activeRootPending | .rootAccepted => .preserve
  | .payoutPending _ | .payoutSubmitting | .payoutUnknown _ => .preserve
  | .finalized | .failedBeforeStateChange _ | .failedAfterOutputsStaged _ => .preserve

end StshProtocol.ShieldedPool
