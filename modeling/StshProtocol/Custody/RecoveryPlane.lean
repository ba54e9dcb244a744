import StshProtocol.Custody.Companion

/-! The state of the recovery plane, and how it is written.

The upgrader keeps recovery proposals and the upgrade intents that hold the artifacts they deliver.
A proposal is written in one place, which brings the three indexes of proposals up to date with it;
an intent in one place, which does so for the index of intents. -/
namespace StshProtocol.Custody.RecoveryPlane
open Foundation ShieldedPool
open Foundation.Handler

/-! ### Records -/

inductive RecoveryAction where
  | triggerVaultUpgrade (expectedWasmHash expectedArgHash wasmBytes argBytes : Bytes)
  | reconcileVaultUpgrade (proposalId : Nat) (objectiveEvidence : UpgradeObjectiveEvidence)
  | startVault
  | reconcileVaultStart (proposalId : Nat) (objectiveEvidence : StartObjectiveEvidence)
  deriving DecidableEq, Repr

inductive RecoveryActionTag where
  | triggerVaultUpgrade
  | reconcileVaultUpgrade
  | startVault
  | reconcileVaultStart
  deriving DecidableEq, Repr

def actionTag : RecoveryAction → RecoveryActionTag
  | .triggerVaultUpgrade .. => .triggerVaultUpgrade
  | .reconcileVaultUpgrade .. => .reconcileVaultUpgrade
  | .startVault => .startVault
  | .reconcileVaultStart .. => .reconcileVaultStart

/-- The stored form of an action has no artifact bytes. -/
def redactAction : RecoveryAction → RecoveryAction
  | .triggerVaultUpgrade wasmHash argHash _ _ => .triggerVaultUpgrade wasmHash argHash [] []
  | other => other

structure RecoveryProposal where
  proposalId : Nat
  action : RecoveryAction
  proposer : Principal
  approvals : List Principal
  threshold : Nat
  createdAtNs : Nat
  outcome : ActionOutcome
  expiresAtNs : Option Nat
  commitmentHash : Bytes
  start : Option StartSettlementState
  deriving DecidableEq, Repr

structure RotationProposal where
  proposalId : Nat
  epoch : Nat
  newMembers : List Principal
  proposer : Principal
  approvals : List Principal
  threshold : Nat
  createdAtNs : Nat
  outcome : ActionOutcome
  expiresAtNs : Option Nat
  commitmentHash : Bytes
  deriving DecidableEq, Repr

inductive StoredProposal where
  | recovery (epoch : Nat) (proposal : RecoveryProposal)
  | rotation (proposal : RotationProposal)
  deriving DecidableEq, Repr

namespace StoredProposal

/-- `stored_state`. -/
def outcome : StoredProposal → ActionOutcome
  | recovery _ p => p.outcome
  | rotation r => r.outcome

def expiresAtNs : StoredProposal → Option Nat
  | recovery _ p => p.expiresAtNs
  | rotation r => r.expiresAtNs

/-- `stored_proposer`. -/
def proposer : StoredProposal → Principal
  | recovery _ p => p.proposer
  | rotation r => r.proposer

def epoch : StoredProposal → Nat
  | recovery epoch _ => epoch
  | rotation r => r.epoch

def withCommitment (hash : Bytes) : StoredProposal → StoredProposal
  | recovery epoch p => recovery epoch {p with commitmentHash := hash}
  | rotation r => rotation {r with commitmentHash := hash}

end StoredProposal

inductive IntentOriginView where
  | vault
  | recovery
  deriving DecidableEq, Repr

/-- The origin's tag and the id. -/
abbrev IntentKey : Type := Nat × Nat

def IntentKey.recovery (id : Nat) : IntentKey := (1, id)

structure UpgradeIntent where
  id : Nat
  origin : IntentOriginView
  expectedWasmHash : Bytes
  expectedArgHash : Bytes
  wasmBytes : Option Bytes
  argBytes : Option Bytes
  outcome : ActionOutcome
  createdAtNs : Nat
  terminalAtNs : Option Nat
  deriving DecidableEq, Repr

/-- What entering a proposal, or refusing to, puts on record. -/
inductive UpgraderAuditEventKind where
  | vaultUpgradeIntentRecorded (id : Nat) (origin : IntentOriginView)
      (expectedWasmHash expectedArgHash : Bytes)
  | recoveryProposalCreated (proposalId : Nat) (proposer : Principal) (action : RecoveryActionTag)
  | membershipRotationProposed (proposalId : Nat) (proposer : Principal) (memberCount : Nat)
  | membershipRotationRejected (proposer : Principal) (reason : InitValidationError)
  deriving DecidableEq, Repr

structure UpgraderAuditEvent where
  seq : Nat
  atNs : Nat
  kind : UpgraderAuditEventKind
  deriving DecidableEq, Repr

inductive RecoveryError where
  | notAuthorized
  | hashMismatch
  | illegalSourceState
  | lifetimeOutOfBounds (violation : LifetimeViolation)
  | thresholdViolation
  | sizeLimitExceeded (encodedBytes limitBytes : Nat)
  deriving DecidableEq, Repr

structure CompanionState where
  accounting : Accounting
  nextProposalId : Nat
  commitment : Bytes32
  deriving DecidableEq, Repr

/-- What the canister is given: its id, the hash, and the encoding of what is hashed. -/
structure Env where
  selfId : Principal
  sha256 : Bytes → Bytes32
  encodeAction : RecoveryAction → Bytes
  encodeMembers : List Principal → Bytes
  encodeCommitment : ApprovalCommitmentV1 → Bytes

/-- The plane. `membership` and `epoch` are the membership cell, of which the heap has a copy;
`charged` is ghost: every entry event ever charged, the latest first. -/
structure State where
  membership : Option BootstrapRecord
  epoch : Nat
  proposals : StableMap Nat StoredProposal
  intents : StableMap IntentKey UpgradeIntent
  nonterminalIntents : StableMap IntentKey Unit
  pendingProposals : StableMap Nat Unit
  proposalExpiry : StableMap (Nat × Nat) Unit
  nonterminalProposals : NonterminalIndex
  companion : Option CompanionState
  entryRate : EntryRateLedger
  audit : List UpgraderAuditEvent
  charged : List EntryEvent

namespace State

def members (s : State) : List Principal := (s.membership.map (·.members)).getD []

def threshold (s : State) : Nat := (s.membership.map (·.threshold)).getD 0

def vaultPrincipal (s : State) : Option Principal := s.membership.map (·.counterpart)

end State

/-- One message of the upgrader. -/
abbrev Plane (α : Type) : Type := Handler Trap State RecoveryError α

/-! ### Companions -/

section Companions
variable (E : Env)

def companionSeal (cs : CompanionState) : CompanionState :=
  {cs with commitment := E.sha256 (Token.tag "companion-seal-v1-upgrader" ++ Bytes.toBe 4 2 ++
    be64 cs.accounting.entries ++ be64 cs.accounting.bytes ++ digestBytes cs.accounting.entryAcc ++
    be64 cs.nextProposalId)}

def expiryCompanion : Companion (Nat × Nat) Unit where
  digest k _ := E.sha256 (Token.tag "rexpiry" ++ [0] ++ be64 k.1 ++ be64 k.2)
  bytes _ _ := 16

def pendingCompanion : Companion Nat Unit where
  digest id _ := E.sha256 (Token.tag "rpending" ++ be64 id)
  bytes _ _ := 8

def nonterminalCompanion : Companion (Principal × Nat) Unit where
  digest k _ := E.sha256 (Token.tag "nonterm" ++ [0] ++ Token.principalSlice k.1 ++ be64 k.2)
  bytes k _ := (Token.principalSlice k.1).length + 8

def intentCompanion : Companion IntentKey Unit where
  digest k _ := E.sha256 (Token.tag "nintent" ++ [0] ++ [UInt8.ofNat k.1] ++ be64 k.2)
  bytes _ _ := 9

def companionLoad : Plane CompanionState := do
  let cell ← read State.companion
  expect cell .companionAbsent

/-- What the accounting must be, given the indexes. -/
def companionRecompute (s : State) (stored : CompanionState) : CompanionState :=
  let a := (expiryCompanion E).recount s.proposalExpiry .zero
  let a := (intentCompanion E).recount s.nonterminalIntents a
  let a := (pendingCompanion E).recount s.pendingProposals a
  let a := (nonterminalCompanion E).recount s.nonterminalProposals a
  companionSeal E {stored with accounting := a}

def companionValidate : Plane Unit := do
  let stored ← companionLoad
  assert ((companionSeal E stored).commitment = stored.commitment) .sealBroken
  let s ← read id
  assert (companionRecompute E s stored = stored) .companionDisagrees

/-! ### Writing records -/

/-- Where a proposal that may still be withdrawn is listed by its expiry. -/
def expiryKey (id : Nat) (p : StoredProposal) : Option (Nat × Nat) :=
  p.expiresAtNs.map fun exp => (exp, id)

/-- The indexes after a proposal is written: what the prior record had there goes, and what the next
has there comes. -/
def reindexed (id : Nat) (prior : Option StoredProposal) (next : StoredProposal)
    (cs : CompanionState) (s : State) : State :=
  let expiry := (expiryCompanion E).move (prior.bind (expiryKey id))
    (if next.outcome.isReapable then (expiryKey id next).map fun k => (k, ()) else none)
    (s.proposalExpiry, cs.accounting)
  let pending := (pendingCompanion E).move
    (prior.bind fun p => if p.outcome.isReapable then some id else none)
    (if next.outcome.isReapable then some (id, ()) else none) (s.pendingProposals, expiry.2)
  let nonterminal := (nonterminalCompanion E).move
    (prior.bind fun p => if p.outcome.isTerminal then none else some (p.proposer, id))
    (if next.outcome.isTerminal then none else some ((next.proposer, id), ()))
    (s.nonterminalProposals, pending.2)
  {s with proposalExpiry := expiry.1, pendingProposals := pending.1,
          nonterminalProposals := nonterminal.1,
          companion := some (companionSeal E {cs with accounting := nonterminal.2})}

def putStoredProposal (id : Nat) (stored : StoredProposal) : Plane Unit := do
  let prior ← read fun s => s.proposals[id]?
  let cs ← companionLoad
  write (reindexed E id prior stored cs)
  write fun s => {s with proposals := s.proposals.insert id stored}

def putIntent (key : IntentKey) (intent : UpgradeIntent) : Plane Unit := do
  write fun s => {s with intents := s.intents.insert key intent}
  let cs ← companionLoad
  write fun s =>
    let x := if intent.outcome.isTerminal
      then (intentCompanion E).remove key (s.nonterminalIntents, cs.accounting)
      else (intentCompanion E).insert key () (s.nonterminalIntents, cs.accounting)
    {s with nonterminalIntents := x.1, companion := some (companionSeal E {cs with accounting := x.2})}

def appendAudit (nowNs : Nat) (kind : UpgraderAuditEventKind) : Plane Unit :=
  write fun s => {s with audit := s.audit ++ [⟨s.audit.length, nowNs, kind⟩]}

def nextProposalId : Plane Nat := do
  companionValidate E
  let cs ← companionLoad
  let occupied ← read fun s => s.proposals.contains cs.nextProposalId
  assert (occupied = false) .idOccupied
  pure cs.nextProposalId

def commitProposalId (allocated : Nat) : Plane Unit := do
  let cs ← companionLoad
  assert (cs.nextProposalId = allocated) .idNotAllocated
  assert (cs.nextProposalId + 1 ≤ u64Max) .idSpaceExhausted
  write fun s =>
    {s with companion := some (companionSeal E {cs with nextProposalId := cs.nextProposalId + 1})}

end Companions

end StshProtocol.Custody.RecoveryPlane
