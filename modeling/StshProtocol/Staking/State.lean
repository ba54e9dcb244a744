import StshProtocol.FeePolicy.Params
import StshProtocol.Token.Basic
import StshProtocol.Foundation.MapTotal
import StshProtocol.Foundation.Handler

/-! What governance may propose and the parameters it proposes under: their bounds, the
quorum and the timelock of each kind of proposal. -/
namespace StshProtocol.Staking
open ShieldedPool

def minLockDays : Nat := 30
def maxLockDays : Nat := 1095
def minLockDurationNs : Nat := 2_592_000_000_000_000
def maxLockDurationNs : Nat := 94_608_000_000_000_000
def dayNs : Nat := 24 * 60 * 60 * 1_000_000_000

def stakingVotingDelayNs : Nat := 24 * 60 * 60 * 1_000_000_000
def stakingVotingPeriodNs : Nat := 7 * 24 * 60 * 60 * 1_000_000_000
def stakingExecutionTimelockNs : Nat := 7 * 24 * 60 * 60 * 1_000_000_000
def vkUpgradeMinTimelockNs : Nat := 14 * 24 * 60 * 60 * 1_000_000_000
def vkOldKeyGraceNs : Nat := 7 * 24 * 60 * 60 * 1_000_000_000
def stuckProposalReconcileThresholdNs : Nat := 86_400_000_000_000

/-- `u64::checked_add`. -/
def checkedAdd64 (a b : Nat) : Option Nat := if a + b ≤ u64Max then some (a + b) else none

/-- `u64::checked_mul`. -/
def checkedMul64 (a b : Nat) : Option Nat := if a * b ≤ u64Max then some (a * b) else none

/-- The longer the lock, the more an amount weighs, in basis points. -/
def lockMultiplierBps (lockDays : Nat) : Nat :=
  if lockDays ≤ 30 then 10000
  else if lockDays ≤ 90 then 12500
  else if lockDays ≤ 180 then 15000
  else if lockDays ≤ 365 then 20000
  else 25000

/-! ### Parameters -/

structure GovernanceParams where
  minProposalDeposit : Nat
  votingDelayNs : Nat
  votingPeriodNs : Nat
  executionTimelockNs : Nat
  vkUpgradeTimelockNs : Nat
  quorumBps : Nat
  treasuryQuorumBps : Nat
  vkQuorumBps : Nat
  approvalThresholdBps : Nat
  deriving DecidableEq, Repr

namespace GovernanceParams

/-- `GovernanceParams::default`. -/
def launchDefaults : GovernanceParams where
  minProposalDeposit := 1_000 * 100_000_000
  votingDelayNs := stakingVotingDelayNs
  votingPeriodNs := stakingVotingPeriodNs
  executionTimelockNs := stakingExecutionTimelockNs
  vkUpgradeTimelockNs := vkUpgradeMinTimelockNs
  quorumBps := 1000
  treasuryQuorumBps := 2000
  vkQuorumBps := 3000
  approvalThresholdBps := 5001

/-- The stages of a proposal, one after the other. -/
def stagedNs (p : GovernanceParams) : Option Nat := do
  let closes ← checkedAdd64 p.votingDelayNs p.votingPeriodNs
  let executes ← checkedAdd64 closes p.executionTimelockNs
  checkedAdd64 executes p.vkUpgradeTimelockNs

def checkBps (field : String × Nat) : Except String Unit :=
  if 1 ≤ field.2 ∧ field.2 ≤ 10_000 then .ok ()
  else .error s!"{field.1} must be within 1..=10000 bps, got {field.2}"

def checkAmounts (p : GovernanceParams) : Except String Unit :=
  if p.minProposalDeposit = 0 then
    .error "min_proposal_deposit must be > 0"
  else if p.votingPeriodNs = 0 then
    .error "voting_period_ns must be > 0"
  else if p.stagedNs.isNone then
    .error ("proposal timestamp arithmetic overflows u64 " ++
      "(voting_delay + voting_period + execution_timelock + vk_upgrade_timelock)")
  else
    .ok ()

def checkTimelocks (p : GovernanceParams) : Except String Unit :=
  if p.executionTimelockNs < stakingExecutionTimelockNs then
    .error (s!"execution_timelock_ns {p.executionTimelockNs} is below the policy floor " ++
      s!"{stakingExecutionTimelockNs}")
  else if p.vkUpgradeTimelockNs < vkUpgradeMinTimelockNs then
    .error (s!"vk_upgrade_timelock_ns {p.vkUpgradeTimelockNs} is below the 14-day minimum " ++
      s!"{vkUpgradeMinTimelockNs}")
  else
    .ok ()

def checkTiers (p : GovernanceParams) : Except String Unit :=
  if p.treasuryQuorumBps < p.quorumBps then
    .error (s!"tier ordering violated: quorum_bps {p.quorumBps} > treasury_quorum_bps " ++
      s!"{p.treasuryQuorumBps}")
  else if p.vkQuorumBps < p.treasuryQuorumBps then
    .error (s!"tier ordering violated: treasury_quorum_bps {p.treasuryQuorumBps} > vk_quorum_bps " ++
      s!"{p.vkQuorumBps}")
  else
    .ok ()

/-- The bounds of a lock are what was ruled, in days and in nanoseconds. -/
def checkLockBounds : Except String Unit :=
  if minLockDays ≠ 30 ∨ maxLockDays ≠ 1095 then
    .error s!"lock bounds must be exactly 30 and 1095 days, found {minLockDays} and {maxLockDays}"
  else if minLockDurationNs ≠ minLockDays * dayNs ∨ maxLockDurationNs ≠ maxLockDays * dayNs then
    .error "lock bound ns constants disagree with their day constants"
  else if maxLockDurationNs < minLockDurationNs then
    .error "lock bounds inverted: MIN > MAX"
  else
    .ok ()

def validate (p : GovernanceParams) : Except String Unit := do
  p.checkAmounts
  p.checkTimelocks
  [("quorum_bps", p.quorumBps), ("treasury_quorum_bps", p.treasuryQuorumBps),
    ("vk_quorum_bps", p.vkQuorumBps), ("approval_threshold_bps", p.approvalThresholdBps)].forM checkBps
  p.checkTiers
  checkLockBounds

example : launchDefaults.validate = .ok () := by decide

end GovernanceParams

/-! ### Proposals -/

structure VerifierKeyUpgradePayload where
  oldVerifyingKeyHash : Bytes32
  newVerifyingKeyHash : Bytes32
  circuitVersion : Nat
  proofSystemId : String
  auditArtifactUrl : String
  auditArtifactHash : Bytes32
  circuitSourceCommit : String
  verifierWasmHash : Bytes32
  activationTimestampNs : Nat
  emergencyDisableSupported : Bool
  deriving DecidableEq, Repr

namespace VerifierKeyUpgradePayload

def validateStructural (p : VerifierKeyUpgradePayload) : Except String Unit :=
  if p.auditArtifactUrl = "" then
    .error "audit_artifact_url is required for VerifierKeyUpgrade"
  else if p.auditArtifactHash = 0 then
    .error "audit_artifact_hash is required (all-zeros rejected)"
  else if p.circuitSourceCommit = "" then
    .error "circuit_source_commit is required"
  else if p.verifierWasmHash = 0 then
    .error "verifier_wasm_hash is required (all-zeros rejected)"
  else if p.activationTimestampNs = 0 then
    .error "activation_timestamp_ns is required"
  else if p.oldVerifyingKeyHash = 0 then
    .error ("old_verifying_key_hash is required (all-zeros rejected — supply the currently " ++
      "active VK hash)")
  else if p.newVerifyingKeyHash = 0 then
    .error "new_verifying_key_hash is required (all-zeros rejected)"
  else if p.proofSystemId = "" then
    .error "proof_system_id is required"
  else
    .ok ()

end VerifierKeyUpgradePayload

inductive EmergencyPauseTarget where
  | poolDeposits
  | poolSpends
  | both
  deriving DecidableEq, Repr

inductive ProposalType where
  | parameterUpdate (key value : String)
  | treasurySpend (subaccount : String) (recipient : Principal) (amount : Nat) (reason : String)
  | feeUpdate (shieldBps transferBps unshieldBps : Nat)
  | rewardScheduleUpdate (newEmissionRatePerDay : Nat)
  | emergencyPause (target : EmergencyPauseTarget) (reason : String)
  | verifierKeyUpgrade (payload : VerifierKeyUpgradePayload)
  | canisterUpgrade (canisterId : Principal) (wasmHash : Bytes32) (description : String)
  | governanceParamUpdate (params : GovernanceParams)
  deriving DecidableEq, Repr

namespace ProposalType

def quorumBps (t : ProposalType) (p : GovernanceParams) : Nat :=
  match t with
  | .verifierKeyUpgrade _ => p.vkQuorumBps
  | .treasurySpend _ _ _ _ | .canisterUpgrade _ _ _ => p.treasuryQuorumBps
  | _ => p.quorumBps

def timelockNs (t : ProposalType) (p : GovernanceParams) : Nat :=
  match t with
  | .verifierKeyUpgrade _ => p.vkUpgradeTimelockNs
  | _ => p.executionTimelockNs

end ProposalType

end StshProtocol.Staking

/-! The state of the staking canister.

Positions, and the lock and unlock operations that await the token's answer, are the
`StakeBook`; proposals, their snapshots and votes are the `GovBook`. What the heap mirrors
of stable memory stands beside its cell. Two parts are ghost: under which dedup key a
position was staked, and the `GovJournal` of what was done for a proposal. -/
namespace StshProtocol.Staking
open Foundation ShieldedPool Handler

/-! ### Positions -/

structure StakePosition where
  positionId : Nat
  holder : Principal
  amount : Nat
  lockDays : Nat
  lockEndNs : Nat
  votingWeight : Nat
  rewardsClaimed : Nat
  lastClaimNs : Nat
  createdAtNs : Nat
  closed : Bool
  opId : Option Nat
  deriving DecidableEq, Repr

inductive PendingStakeState where
  | lockPending
  | unlockPending
  deriving DecidableEq, Repr

/-- The state as `{:?}` prints it. -/
def PendingStakeState.debug : PendingStakeState → String
  | .lockPending => "LockPending"
  | .unlockPending => "UnlockPending"

inductive LockOpType where
  | lock
  | unlock
  deriving DecidableEq, Repr

def LockOpType.debug : LockOpType → String
  | .lock => "Lock"
  | .unlock => "Unlock"

/-- The state a position is in while such an operation awaits its answer. -/
def LockOpType.pendingState : LockOpType → PendingStakeState
  | .lock => .lockPending
  | .unlock => .unlockPending

inductive LockDecision where
  | executed
  | notExecuted
  deriving DecidableEq, Repr

structure PendingLockOp where
  opId : Nat
  positionId : Nat
  holder : Principal
  amount : Nat
  opType : LockOpType
  initiatedAtNs : Nat
  snapshot : StakePosition
  dedupKey : Option Bytes
  deriving DecidableEq, Repr

/-- `DedupKey`: the caller behind its length, then the key it supplied. -/
abbrev DedupKey : Type := Bytes

def DedupKey.new (caller : Principal) (key : Bytes) : DedupKey :=
  UInt8.ofNat (Token.principalSlice caller).length :: (Token.principalSlice caller ++ key)

structure DedupRecord where
  amount : Nat
  lockDays : Nat
  positionId : Nat
  opId : Nat
  deriving DecidableEq, Repr

/-- `VotingWeightState`. -/
structure VotingWeightState where
  initialized : Bool
  total : Nat
  deriving DecidableEq, Repr

/-- Where each position comes from is ghost. -/
structure StakeBook where
  positions : StableMap Nat StakePosition
  pendingPositions : StableMap Nat PendingStakeState
  pendingLockOps : StableMap Nat PendingLockOp
  stakeDedup : StableMap DedupKey DedupRecord
  opIdCounter : Nat
  nextPositionId : Nat
  nextPositionIdCell : Option Nat
  totalVotingWeight : Nat
  votingWeightCell : VotingWeightState
  stakedUnder : Nat → Option DedupKey

/-! ### Proposals -/

inductive ProposalStatus where
  | votingPending
  | votingOpen
  | votingClosed
  | passed
  | executing
  | rejected
  | executed
  | expired
  | cancelled
  deriving DecidableEq, Repr

structure Proposal where
  id : Nat
  proposer : Principal
  proposalType : ProposalType
  description : String
  status : ProposalStatus
  createdAtNs : Nat
  votingOpensNs : Nat
  votingClosesNs : Nat
  executeAfterNs : Nat
  votesFor : Nat
  votesAgainst : Nat
  snapshotTotalWeight : Option Nat
  executedAtNs : Option Nat
  executionResult : Option String
  executionStartedAtNs : Option Nat
  deriving DecidableEq, Repr

/-- A proposal and a position, ordered in this order; the key of a vote too. -/
structure SnapshotKey where
  proposalId : Nat
  positionId : Nat
  deriving DecidableEq, Repr

namespace SnapshotKey

instance : Ord SnapshotKey :=
  ⟨compareLex (compareOn SnapshotKey.proposalId) (compareOn SnapshotKey.positionId)⟩

instance : Std.TransOrd SnapshotKey :=
  inferInstanceAs (Std.TransCmp
    (compareLex (compareOn SnapshotKey.proposalId) (compareOn SnapshotKey.positionId)))

theorem compare_eq (a b : SnapshotKey) :
    compare a b = (compare a.proposalId b.proposalId).then (compare a.positionId b.positionId) := rfl

instance : Std.LawfulEqOrd SnapshotKey where
  compare_self {a} := by rw [compare_eq]; simp
  eq_of_compare {a b} h := by
    rw [compare_eq, Ordering.then_eq_eq] at h
    obtain ⟨hproposal, hposition⟩ := h
    cases a
    cases b
    simp only [Std.LawfulEqOrd.compare_eq_iff_eq] at hproposal hposition
    rw [hproposal, hposition]

end SnapshotKey

structure SnapshotEntry where
  holder : Principal
  weight : Nat
  deriving DecidableEq, Repr

structure VoteRecord where
  proposalId : Nat
  positionId : Option Nat
  voter : Principal
  approve : Bool
  votingWeight : Nat
  votedAtNs : Nat
  deriving DecidableEq, Repr

/-- What the execution of a proposal does: it changes this canister, or calls the pool. -/
inductive Act where
  | applied
  | scheduleVkActivation
  | pauseDeposits
  | pauseSpends
  deriving DecidableEq, Repr

/-- The acts of a proposal's action, in their order; some kinds have none yet. -/
def ProposalType.acts : ProposalType → List Act
  | .verifierKeyUpgrade _ => [.scheduleVkActivation]
  | .rewardScheduleUpdate _ | .governanceParamUpdate _ => [.applied]
  | .emergencyPause .poolDeposits _ => [.pauseDeposits]
  | .emergencyPause .poolSpends _ => [.pauseSpends]
  | .emergencyPause .both _ => [.pauseDeposits, .pauseSpends]
  | .parameterUpdate _ _ | .treasurySpend _ _ _ _ | .feeUpdate _ _ _ | .canisterUpgrade _ _ _ => []

/-- By proposal: the acts issued, those that succeeded, and whether a reconciliation
asserted the execution. -/
structure GovJournal where
  issued : Nat → List Act
  succeeded : Nat → List Act
  asserted : Nat → Bool

def GovJournal.empty : GovJournal := ⟨fun _ => [], fun _ => [], fun _ => false⟩

structure GovBook where
  proposals : StableMap Nat Proposal
  snapshots : StableMap SnapshotKey SnapshotEntry
  votes : StableMap SnapshotKey VoteRecord
  nextProposalId : Nat
  nextProposalIdCell : Option Nat
  govParams : GovernanceParams
  govParamsCell : Option GovernanceParams
  journal : GovJournal

/-! ### The canister -/

/-- The canisters named at the installation, grouped in one cell. -/
structure CanisterRefs where
  token : Principal
  pool : Principal
  treasury : Principal
  deriving DecidableEq, Repr

structure RewardState where
  rewardsPoolBalance : Nat
  feeRevenueBalance : Nat
  emissionRatePerDay : Nat
  rewardsStartNs : Nat
  totalDistributed : Nat
  deriving DecidableEq, Repr

/-- A cell without a value holds its sentinel. -/
structure StakingState where
  book : StakeBook
  gov : GovBook
  tokenCanister : Option Principal
  poolCanister : Option Principal
  treasuryCanister : Option Principal
  canisterRefs : Option CanisterRefs
  rewardState : RewardState
  rewardStateCell : Option RewardState

/-- Why a message is rolled back. -/
inductive Trap where
  | arithmeticOverflow
  | positionIdsExhausted
  | proposalIdsExhausted
  | invalidGovParams
  | treasuryUnset
  | notTreasury
  | sentinelSurvived
  deriving DecidableEq, Repr

abbrev Endpoint (ε α : Type) : Type := Handler Trap StakingState ε α

variable {ε : Type}

def writeBook (f : StakeBook → StakeBook) : Endpoint ε Unit := write fun s => {s with book := f s.book}

def writeGov (f : GovBook → GovBook) : Endpoint ε Unit := write fun s => {s with gov := f s.gov}

def pendingStakeState (b : StakeBook) (positionId : Nat) : Option PendingStakeState :=
  b.pendingPositions[positionId]?

def isActivePosition (b : StakeBook) (position : StakePosition) : Bool :=
  !position.closed && (pendingStakeState b position.positionId).isNone

def getToken : Endpoint String Principal := do
  let token ← read fun s => s.tokenCanister
  need token "Token canister not configured"

/-! ### Installation and upgrade -/

/-- The heap of a module that was just loaded. -/
def StakeBook.reload (b : StakeBook) : StakeBook :=
  {b with nextPositionId := 1
          totalVotingWeight := 0}

def GovBook.reload (g : GovBook) : GovBook :=
  {g with nextProposalId := 1
          govParams := .launchDefaults}

/-- Empty regions. -/
def StakeBook.fresh : StakeBook where
  positions := ∅
  pendingPositions := ∅
  pendingLockOps := ∅
  stakeDedup := ∅
  opIdCounter := 1
  nextPositionId := 1
  nextPositionIdCell := none
  totalVotingWeight := 0
  votingWeightCell := ⟨false, 0⟩
  stakedUnder _ := none

def GovBook.fresh : GovBook where
  proposals := ∅
  snapshots := ∅
  votes := ∅
  nextProposalId := 1
  nextProposalIdCell := none
  govParams := .launchDefaults
  govParamsCell := none
  journal := .empty

def noRewards : RewardState := ⟨0, 0, 0, 0, 0⟩

def StakingState.fresh : StakingState := ⟨.fresh, .fresh, none, none, none, none, noRewards, none⟩

/-- A module was just loaded over the stable memory. -/
def StakingState.reload (s : StakingState) : StakingState :=
  {s with book := s.book.reload
          gov := s.gov.reload
          tokenCanister := none
          poolCanister := none
          treasuryCanister := none
          rewardState := noRewards}

def setCanisterRefs (refs : CanisterRefs) (s : StakingState) : StakingState :=
  {s with canisterRefs := some refs
          tokenCanister := some refs.token
          poolCanister := some refs.pool
          treasuryCanister := some refs.treasury}

def setGovParams (params : GovernanceParams) (g : GovBook) : GovBook :=
  {g with govParamsCell := some params
          govParams := params}

def setRewardState (rewards : RewardState) (s : StakingState) : StakingState :=
  {s with rewardStateCell := some rewards
          rewardState := rewards}

def setTotalVotingWeight (total : Nat) (b : StakeBook) : StakeBook :=
  {b with totalVotingWeight := total
          votingWeightCell := ⟨true, total⟩}

def addTotalVotingWeight (delta : Nat) (b : StakeBook) : StakeBook :=
  setTotalVotingWeight (satAdd128 b.totalVotingWeight delta) b

def subTotalVotingWeight (delta : Nat) (b : StakeBook) : StakeBook :=
  setTotalVotingWeight (b.totalVotingWeight - delta) b

structure InitArgs where
  refs : CanisterRefs
  initialRewardsPool : Nat
  initialEmissionRatePerDay : Nat
  governanceParams : Option GovernanceParams

def init (now : Nat) (args : InitArgs) : Endpoint Empty Unit := do
  write (setCanisterRefs args.refs)
  writeBook fun b => {b with nextPositionIdCell := some 1}
  writeGov fun g => {g with nextProposalIdCell := some 1}
  let params := args.governanceParams.getD .launchDefaults
  assert (params.validate = .ok ()) .invalidGovParams
  writeGov (setGovParams params)
  write (setRewardState ⟨args.initialRewardsPool, 0, args.initialEmissionRatePerDay, now, 0⟩)
  writeBook (setTotalVotingWeight 0)

/-- `decode_id_counter`. -/
def decodeIdCounter (cell : Option Nat) : Option Nat :=
  cell.filter fun n => n ≠ 0 ∧ n ≤ u64Max

/-- What the weight comes to if its cell was never written. -/
def backfilledWeight (b : StakeBook) : Nat :=
  ((b.positions.toList.filter fun e => isActivePosition b e.2).map fun e => e.2.votingWeight).sum

/-- Every cell is read before anything is written. -/
def restoreWeight : Endpoint Empty Unit := do
  let b ← read fun s => s.book
  if b.votingWeightCell.initialized then
    writeBook fun b => {b with totalVotingWeight := b.votingWeightCell.total}
  else do
    assert (backfilledWeight b ≤ u128Max) .arithmeticOverflow
    writeBook (setTotalVotingWeight (backfilledWeight b))

def postUpgrade : Endpoint Empty Unit := do
  let s ← read id
  let refs ← expect s.canisterRefs .sentinelSurvived
  let nextPositionId ← expect (decodeIdCounter s.book.nextPositionIdCell) .sentinelSurvived
  let nextProposalId ← expect (decodeIdCounter s.gov.nextProposalIdCell) .sentinelSurvived
  let params ← expect s.gov.govParamsCell .sentinelSurvived
  let rewards ← expect s.rewardStateCell .sentinelSurvived
  write fun s => {s with tokenCanister := some refs.token
                         poolCanister := some refs.pool
                         treasuryCanister := some refs.treasury}
  writeGov fun g => {g with govParams := params
                            nextProposalId := nextProposalId}
  write fun s => {s with rewardState := rewards}
  writeBook fun b => {b with nextPositionId := nextPositionId}
  restoreWeight

/-- An upgrade keeps stable memory, and loses the heap. -/
def upgrade (s : StakingState) : Option StakingState :=
  match postUpgrade.exec s.reload with
  | .ok (.ok (), t) => some t
  | _ => none

end StshProtocol.Staking
