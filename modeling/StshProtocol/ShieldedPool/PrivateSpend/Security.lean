import StshProtocol.ShieldedPool.PrivateSpend.State

/-! The security cells and who moves them: the activation of a scheduled key, which is lazy,
the pause and the kill switch, and the envelope that a spend is admitted with. -/
namespace StshProtocol.ShieldedPool.PrivateSpend
open Foundation Handler

namespace SecurityCells

/-- The scheduled key takes the place of the pinned one. -/
def activate (c : SecurityCells) : SecurityCells :=
  {c with pinnedVkHash := c.pendingVkHash.getD c.pinnedVkHash
          pinnedCircuitVersion := c.pendingVkVersion.getD c.pinnedCircuitVersion
          pendingVkHash := none
          pendingVkVersion := none
          pendingVkActiveAt := none}

/-- An activation is due that was not applied. -/
def Overdue (c : SecurityCells) (now : Nat) : Prop := ∃ t ∈ c.pendingVkActiveAt, t ≤ now

instance (c : SecurityCells) (now : Nat) : Decidable (c.Overdue now) :=
  inferInstanceAs (Decidable (∃ t, t ∈ c.pendingVkActiveAt ∧ t ≤ now))

end SecurityCells

section Endpoints
variable {ε : Type}

def setSecurity (f : SecurityCells → SecurityCells) : Message ε Unit :=
  write fun s => {s with security := f s.security}

def bumpSecurityEpoch : Message ε Unit := do
  let current ← read fun s => s.security.securityEpoch
  assert (current + 1 ≤ u64Max) .securityEpochOverflow
  setSecurity fun c => {c with securityEpoch := current + 1}

def maybeActivatePendingVk (now : Nat) : Message ε Unit := do
  let overdue ← read fun s => decide (s.security.Overdue now)
  if overdue then do
    setSecurity SecurityCells.activate
    bumpSecurityEpoch
  else
    pure ()

def assertOperatorController (caller : Principal) : Message ε Unit := do
  let stored ← read fun s => s.wiring.controller
  let controller ← expect stored .controllerUnset
  assert (caller = controller) .notController

def assertGovernanceController (caller : Principal) : Message ε Unit := do
  let stored ← read fun s => s.wiring.staking
  let governance ← expect stored .stakingUnset
  assert (caller = governance) .notGovernance

def assertGovernanceOrOperator (caller : Principal) : Message ε Unit := do
  let stored ← read fun s => s.wiring.controller
  let controller ← expect stored .controllerUnset
  let stored ← read fun s => s.wiring.staking
  let governance ← expect stored .stakingUnset
  assert (caller = controller ∨ caller = governance) .notAuthorized

end Endpoints

/-- It schedules over whatever is scheduled. -/
def scheduleVkActivation (now : Nat) (caller : Principal) (newVersion : Nat) (newVkHash : Bytes32)
    (activationTimestampNs oldKeyCutoffNs : Nat) : Message String Unit := do
  assertGovernanceController caller
  demand (now < activationTimestampNs) "Activation timestamp must be in the future"
  demand (activationTimestampNs < oldKeyCutoffNs) "Old key cutoff must be after activation"
  setSecurity fun c => {c with pendingVkHash := some newVkHash
                               pendingVkVersion := some newVersion
                               pendingVkActiveAt := some activationTimestampNs
                               oldVkCutoffAt := some oldKeyCutoffNs}

def setSpendsPaused {ε : Type} (paused : Bool) : Message ε Unit := do
  setSecurity fun c => {c with spendsPaused := paused}
  bumpSecurityEpoch

def emergencyPauseSpends (caller : Principal) : Message String Unit := do
  assertGovernanceOrOperator caller
  setSpendsPaused true

def unpauseSpends (caller : Principal) : Message String Unit := do
  assertOperatorController caller
  setSpendsPaused false

def emergencyDisableCircuitVersion (caller : Principal) (circuitVersion : Nat) :
    Message String Unit := do
  assertOperatorController caller
  let pinned ← read fun s => s.security.pinnedCircuitVersion
  demand (circuitVersion = pinned) "Can only disable the currently active circuit version"
  setSpendsPaused true

/-! ### The envelope -/

/-- The pins an envelope must carry, in the order they are compared. -/
def SecurityCells.checkEnvelope (c : SecurityCells) (env : ProofEnvelope) : Except PoolError Unit :=
  if env.circuitVersion ≠ c.pinnedCircuitVersion then
    .error (.circuitVersionMismatch c.pinnedCircuitVersion env.circuitVersion)
  else if env.verifyingKeyHash ≠ c.pinnedVkHash then
    .error .verifyingKeyMismatch
  else if env.poolVersion ≠ c.pinnedPoolVersion then
    .error .poolVersionMismatch
  else if env.proofSystemId ≠ c.pinnedProofSystem then
    .error .proofSystemMismatch
  else
    .ok ()

/-- The key is activated first, and the pins read after. -/
def verifyProofEnvelope (now : Nat) (env : ProofEnvelope) : Spending Unit := do
  maybeActivatePendingVk now
  let checked ← read fun s => s.security.checkEnvelope env
  lift checked

def validatePrivateSpendStatic (now : Nat) (args : PrivateSpendArgs)
    (params : FeePolicy.GovernanceFeeParams) : Spending (List Bytes) := do
  lift (checkSizes args)
  verifyProofEnvelope now args.envelope
  lift (checkFee args params)
  lift (checkShape args)
  let signals ← lift (buildSpendPublicSignals args)
  lift (checkOutputs args.outputCommitments)
  pure signals

end StshProtocol.ShieldedPool.PrivateSpend
