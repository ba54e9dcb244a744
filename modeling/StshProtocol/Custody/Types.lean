import StshProtocol.ShieldedPool.Basic
import StshProtocol.Foundation.Except
import StshProtocol.Foundation.Bytes

/-! The words both custody planes are written in.

The vault and the upgrader govern each other: each has its own roster and its own proposals, and
they share the outcomes a proposal may come to, the limits on what is open at once and how fast it
is opened, how long a proposal lives, and who may sit on a roster. -/
namespace StshProtocol.Custody
open Foundation ShieldedPool

/-! ### Outcomes -/

inductive ActionOutcome where
  | pending
  | executing
  | executed
  | failed
  | outcomeUnknown
  | cancelled
  | expired
  deriving DecidableEq, Repr

namespace ActionOutcome

def isTerminal : ActionOutcome → Bool
  | executed | failed | cancelled | expired => true
  | pending | executing | outcomeUnknown => false

/-- What keeps a target locked; `pending` does not. -/
def holdsSingleFlight : ActionOutcome → Bool
  | executing | outcomeUnknown => true
  | pending | executed | failed | cancelled | expired => false

/-- Only from `pending` may a proposal be withdrawn or expire. -/
def isReapable : ActionOutcome → Bool
  | pending => true
  | executing | executed | failed | outcomeUnknown | cancelled | expired => false

end ActionOutcome

/-- What an evidence may settle. -/
inductive ReconcileTerminalOutcome where
  | executed
  | failed
  deriving DecidableEq, Repr

/-! ### Limits -/

def nanosPerSec : Nat := 1_000_000_000

structure EntryRateParams where
  windowNs : Nat
  globalPerWindow : Nat
  perSignerPerWindow : Nat
  deriving DecidableEq, Repr

/-- A day's entry events: of all signers, and of one. -/
def entryRate : EntryRateParams := ⟨86_400 * nanosPerSec, 240, 26⟩

def entryRateParams : Option EntryRateParams := some entryRate

structure NonterminalCaps where
  globalCap : Nat
  perSigner : Nat
  deriving DecidableEq, Repr

def vaultCaps : NonterminalCaps := ⟨320, 32⟩

def recoveryCaps : NonterminalCaps := ⟨320, 32⟩

def vaultNonterminalCaps : Option NonterminalCaps := some vaultCaps

def recoveryNonterminalCaps : Option NonterminalCaps := some recoveryCaps

def perSignerByteQuota : Nat := 2_097_152

def globalLogicalByteQuota : Nat := 10 * perSignerByteQuota

def gateSizeBoundBytes : Nat := 1_900_000

def maxVaultSigners : Nat := 9

def maxRecoveryMembers : Nat := 9

structure RosterMaximumExceeded where
  requested : Nat
  maximum : Nat
  deriving DecidableEq, Repr

def checkRosterSize (requested maximum : Nat) : Except RosterMaximumExceeded Unit :=
  if requested > maximum then .error ⟨requested, maximum⟩ else .ok ()

def checkVaultRosterSize (requested : Nat) : Except RosterMaximumExceeded Unit :=
  checkRosterSize requested maxVaultSigners

def checkRecoveryRosterSize (requested : Nat) : Except RosterMaximumExceeded Unit :=
  checkRosterSize requested maxRecoveryMembers

/-! ### Lifetimes -/

structure ProposalLifetimeBounds where
  minNs : Nat
  maxNs : Nat
  deriving DecidableEq, Repr

/-- `PROPOSAL_LIFETIME_BOUNDS`: between a day and thirty. -/
def proposalLifetimeBounds : Option ProposalLifetimeBounds :=
  some ⟨86_400 * nanosPerSec, 2_592_000 * nanosPerSec⟩

inductive LifetimeViolation where
  | tooShort (requestedNs minNs : Nat)
  | tooLong (requestedNs maxNs : Nat)
  | boundsNotRuled (requestedNs : Nat)
  deriving DecidableEq, Repr

def ProposalLifetimeBounds.validate (b : ProposalLifetimeBounds) (requestedNs : Nat) :
    Except LifetimeViolation Unit :=
  if requestedNs < b.minNs then .error (.tooShort requestedNs b.minNs)
  else if requestedNs > b.maxNs then .error (.tooLong requestedNs b.maxNs)
  else .ok ()

def validateProposalLifetimeWith (bounds : Option ProposalLifetimeBounds) (requestedNs : Nat) :
    Except LifetimeViolation Unit :=
  match bounds with
  | none => .error (.boundsNotRuled requestedNs)
  | some b => b.validate requestedNs

/-- When a new proposal expires. -/
def resolveExpiryWith (bounds : Option ProposalLifetimeBounds) (createdAtNs : Nat)
    (requestedLifetimeNs : Option Nat) : Except LifetimeViolation (Option Nat) :=
  match requestedLifetimeNs with
  | none => .ok (bounds.map fun b => satAdd64 createdAtNs b.maxNs)
  | some t => do
    validateProposalLifetimeWith bounds t
    pure (some (satAdd64 createdAtNs t))

/-! ### Rosters -/

def initialThreshold : Nat := 2

def minThreshold : Nat := 2

inductive InitValidationError where
  | duplicatePrincipal
  | anonymousSigner
  | thresholdNotExactlyInitial (found : Nat)
  | counterpartAnonymous
  | counterpartIsSigner
  | tooFewMembers (distinct threshold : Nat)
  | tooManyMembers (distinct maximum : Nat)
  deriving DecidableEq, Repr

/-- The walk over the members that gathers them as it goes. -/
def gatherMembers (seen : List Principal) : List Principal → Except InitValidationError (List Principal)
  | [] => .ok seen
  | m :: rest =>
    if m = Principal.anonymous then .error .anonymousSigner
    else if m ∈ seen then .error .duplicatePrincipal
    else gatherMembers (m :: seen) rest

def validateBootstrapQuorum (members : List Principal) (threshold : Nat) (counterpart : Principal) :
    Except InitValidationError Unit :=
  if threshold ≠ initialThreshold then .error (.thresholdNotExactlyInitial threshold)
  else do
    let seen ← gatherMembers [] members
    if counterpart = Principal.anonymous then .error .counterpartAnonymous
    else if counterpart ∈ seen then .error .counterpartIsSigner
    else if seen.length < threshold then .error (.tooFewMembers seen.length threshold)
    else .ok ()

/-- The durable record of a roster. -/
structure BootstrapRecord where
  members : List Principal
  threshold : Nat
  counterpart : Principal
  deriving DecidableEq, Repr

/-! ### Approvals -/

/-- The preimage of what an approval binds. -/
structure ApprovalCommitmentV1 where
  canisterId : Principal
  proposalId : Nat
  epoch : Nat
  expiresAtNs : Option Nat
  canonicalAction : Bytes
  deriving DecidableEq, Repr

/-! ### Evidence -/

inductive ObservedCanisterStatus where
  | running
  | stopping
  | stopped
  deriving DecidableEq, Repr

structure UpgradeObjectiveEvidence where
  observedUpgraderPrincipal : Principal
  observedModuleHash : Option Bytes
  observedControllers : List Principal
  observedCanisterStatus : ObservedCanisterStatus
  observedAtNs : Nat
  deriving DecidableEq, Repr

structure StartObjectiveEvidence where
  observedTargetPrincipal : Principal
  observedCanisterStatus : ObservedCanisterStatus
  observedControllers : List Principal
  observedAtNs : Nat
  deriving DecidableEq, Repr

structure StartIntent where
  proposalId : Nat
  target : Principal
  epoch : Nat
  intentAtNs : Nat
  deriving DecidableEq, Repr

structure SettlementRecord where
  outcome : ReconcileTerminalOutcome
  semanticKey : Bytes
  evidenceCommitment : Bytes
  observedAtNs : Nat
  conflictRecorded : Bool
  deriving DecidableEq, Repr

structure StartSettlementState where
  intent : StartIntent
  settlement : Option SettlementRecord
  deriving DecidableEq, Repr

end StshProtocol.Custody
