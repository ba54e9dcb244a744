import StshProtocol.Custody.Companion
import Mathlib.Data.List.Sort

/-! The state of the vault, and how it is written.

The governance cell is one object: the roster and its epoch, the principals the four wired roles are
bound to, and the governed targets. Beside it are the proposals with their approvals and
reservations, the audit events, and the companion indexes of what is open. Whatever a message does to
them goes through the few writes at the end of this module. -/
namespace StshProtocol.Custody.VaultPlane
open Foundation ShieldedPool
open Foundation.Handler

/-! ### Governed targets -/

inductive ManifestDisposition where
  | bornUnderVault
  | setControllerAtCutover
  | outOfScope
  deriving DecidableEq, Repr

structure GovernedTarget where
  principal : Principal
  disposition : ManifestDisposition
  purpose : String
  deriving DecidableEq, Repr

inductive CreationReceiptStatus where
  | bound
  | orphanedPurposeConflict
  deriving DecidableEq, Repr

structure CreationReceipt where
  proposalId : Nat
  principal : Principal
  purpose : String
  disposition : ManifestDisposition
  createdAtNs : Nat
  status : CreationReceiptStatus
  deriving DecidableEq, Repr

structure VaultTargets where
  shieldedPool : Option Principal
  treasury : Option Principal
  vesting : Option Principal
  nullifierRegistry : Option Principal
  deriving DecidableEq, Repr

def VaultTargets.default : VaultTargets := ⟨none, none, none, none⟩

structure GovernanceCellData where
  bootstrap : BootstrapRecord
  epoch : Nat
  targets : VaultTargets
  governed : List GovernedTarget
  deriving DecidableEq, Repr

/-! ### Actions -/

inductive ManagementAction where
  | upgrade (target : Principal) (expectedWasmHash expectedArgHash wasmBytes argBytes : Bytes)
  | start (target : Principal)
  | stop (target : Principal)
  | updateSettings (target : Principal) (controllers : List Principal)
  | depositCycles (target : Principal) (cycles : Nat)
  | createCanister (manifestPurpose : String) (disposition : ManifestDisposition)
  | installCode (target : Principal) (expectedWasmHash expectedArgHash wasmBytes argBytes : Bytes)
  deriving DecidableEq, Repr

structure UpgraderUpgrade where
  expectedWasmHash : Bytes
  expectedArgHash : Bytes
  wasmBytes : Bytes
  argBytes : Bytes
  deriving DecidableEq, Repr

structure VaultUpgradeViaUpgrader where
  requestId : Nat
  expectedWasmHash : Bytes
  expectedArgHash : Bytes
  wasmBytes : Bytes
  argBytes : Bytes
  deriving DecidableEq, Repr

structure ReconcileUpgraderUpgrade where
  proposalId : Nat
  objectiveEvidence : UpgradeObjectiveEvidence
  deriving DecidableEq, Repr

structure ReconcileVaultUpgradeViaUpgrader where
  requestId : Nat
  objectiveEvidence : UpgradeObjectiveEvidence
  deriving DecidableEq, Repr

structure ReconcileUpgraderStart where
  proposalId : Nat
  objectiveEvidence : StartObjectiveEvidence
  deriving DecidableEq, Repr

/-- What may be proposed. `α` are the requests to the application canisters, `ρ` the bounded reads. -/
inductive VaultActionKind (α ρ : Type) where
  | application (request : α)
  | management (action : ManagementAction)
  | upgraderUpgrade (upgrade : UpgraderUpgrade)
  | reconcileUpgraderUpgrade (rec : ReconcileUpgraderUpgrade)
  | readModel (request : ρ)
  | updateSignerSet (signers : List Principal) (threshold : Nat)
  | vaultUpgradeViaUpgrader (upgrade : VaultUpgradeViaUpgrader)
  | reconcileVaultUpgradeViaUpgrader (rec : ReconcileVaultUpgradeViaUpgrader)
  | reconcileUpgraderStart (rec : ReconcileUpgraderStart)
  deriving DecidableEq, Repr

namespace VaultActionKind
variable {α ρ : Type}

/-- The artifact bytes an action retains, `c8_logical_bytes`. -/
def logicalBytes : VaultActionKind α ρ → Nat
  | upgraderUpgrade uu => uu.wasmBytes.length + uu.argBytes.length
  | vaultUpgradeViaUpgrader vu => vu.wasmBytes.length + vu.argBytes.length
  | management (.upgrade _ _ _ wasm arg) | management (.installCode _ _ _ wasm arg) =>
    wasm.length + arg.length
  | management (.start _) | management (.stop _) | management (.updateSettings _ _)
  | management (.depositCycles _ _) | management (.createCanister _ _) => 0
  | application _ | reconcileUpgraderUpgrade _ | readModel _ | updateSignerSet _ _
  | reconcileVaultUpgradeViaUpgrader _ | reconcileUpgraderStart _ => 0

/-- The action without the artifact bytes; the hashes stay. -/
def cleared : VaultActionKind α ρ → VaultActionKind α ρ
  | upgraderUpgrade uu => upgraderUpgrade {uu with wasmBytes := [], argBytes := []}
  | vaultUpgradeViaUpgrader vu => vaultUpgradeViaUpgrader {vu with wasmBytes := [], argBytes := []}
  | management (.upgrade target wasmHash argHash _ _) =>
    management (.upgrade target wasmHash argHash [] [])
  | management (.installCode target wasmHash argHash _ _) =>
    management (.installCode target wasmHash argHash [] [])
  | other => other

/-- The manifest purpose a creation claims. -/
def creationPurpose : VaultActionKind α ρ → Option String
  | management (.createCanister purpose _) => some purpose
  | _ => none

/-- The target a hash-bound action locks; a start locks the counterpart only. -/
def mutatingTarget (selfId counterpart : Principal) : VaultActionKind α ρ → Option Principal
  | upgraderUpgrade _ => some counterpart
  | management (.upgrade target _ _ _ _) | management (.installCode target _ _ _ _) => some target
  | vaultUpgradeViaUpgrader _ => some selfId
  | management (.start target) => if target = counterpart then some target else none
  | _ => none

end VaultActionKind

/-! ### Records -/

structure UpgradeIntent where
  intendedAtNs : Nat
  intendedEpoch : Nat
  deriving DecidableEq, Repr

inductive GuardTarget where
  | vault
  | upgrader
  deriving DecidableEq, Repr

inductive GuardViolation where
  | controllerInvariantBroken (target : GuardTarget)
  | stopForbidden (target : GuardTarget)
  deriving DecidableEq, Repr

inductive CommitmentMismatch where
  | callerMismatch
  | storedVsRecomputed
  deriving DecidableEq, Repr

inductive VaultError where
  | notAuthorized
  | unknownProposal (proposalId : Nat)
  | staleEpoch (expected found : Nat)
  | alreadyApproved
  | hashMismatch
  | illegalSourceState
  | alreadyTerminal
  | notProposer
  | lifetimeOutOfBounds (violation : LifetimeViolation)
  | commitmentMismatch (mismatch : CommitmentMismatch)
  | thresholdViolation
  | sizeLimitExceeded (encodedBytes limitBytes : Nat)
  | guardRejected (violation : GuardViolation)
  | readLimitExceeded (limit max : Nat)
  | readBoundExceeded (what : String) (bytes max : Nat)
  | alreadySettled (outcome : ReconcileTerminalOutcome)
  | proposalExpired (expiresAtNs nowNs : Nat)
  deriving DecidableEq, Repr

/-- What a proposal's result says. -/
inductive ProposalResult where
  | creationOpen (other : Nat)
  | created (principal : Principal)
  | orphanRecorded (principal : Principal)
  | failure (error : VaultError)
  | transport (text : String)
  deriving DecidableEq, Repr

structure ProposalRecord (α ρ : Type) where
  proposalId : Nat
  action : VaultActionKind α ρ
  proposer : Principal
  createdAtNs : Nat
  epoch : Nat
  outcome : ActionOutcome
  result : Option ProposalResult
  snapshotId : Option Nat
  intent : Option UpgradeIntent
  start : Option StartSettlementState
  expiresAtNs : Option Nat
  commitmentHash : Bytes
  deriving DecidableEq, Repr

structure Reservation where
  proposalId : Nat
  actionFingerprint : Bytes
  epoch : Nat
  reservedAtNs : Nat
  approvingSigners : List Principal
  creationPurpose : Option String
  deriving DecidableEq, Repr

inductive AuditKind where
  | proposalCreated
  | approvalAdded
  | quorumReached
  | executed
  | failed
  | outcomeUnknown
  | proposalCancelled
  | proposalExpired
  | governanceTransition
  | reconciled
  | reconcileConflict
  | snapshotStored
  | canisterCreated
  | lateCallbackFenced
  | settlementEvidenceConflict
  deriving DecidableEq, Repr

structure AuditEvent where
  id : Nat
  atNs : Nat
  epoch : Nat
  kind : AuditKind
  proposalId : Option Nat
  actor : Principal
  approvingSigners : Option (List Principal)
  creationReceipt : Option CreationReceipt
  deriving DecidableEq, Repr

/-- The sealed cell: the accounting of the indexes, the counters of the ids, and the artifact bytes
that open proposals retain. -/
structure CompanionState where
  accounting : Accounting
  nextProposalId : Nat
  nextAuditId : Nat
  nextSnapshotId : Nat
  retainedBytesTotal : Nat
  retainedBySigner : List (Principal × Nat)
  commitment : Bytes32
  deriving DecidableEq, Repr

inductive IdKind where
  | proposal
  | audit
  | snapshot
  deriving DecidableEq, Repr

namespace CompanionState

def nextId (cs : CompanionState) : IdKind → Nat
  | .proposal => cs.nextProposalId
  | .audit => cs.nextAuditId
  | .snapshot => cs.nextSnapshotId

def withNextId (cs : CompanionState) (n : Nat) : IdKind → CompanionState
  | .proposal => {cs with nextProposalId := n}
  | .audit => {cs with nextAuditId := n}
  | .snapshot => {cs with nextSnapshotId := n}

/-- The artifact bytes of one proposer. -/
def retainedFor (cs : CompanionState) (who : Principal) : Nat :=
  ((cs.retainedBySigner.find? fun e => decide (e.1 = who)).map Prod.snd).getD 0

end CompanionState

/-- What the canister is given: its id, the hash, the text of a principal, and the encodings. -/
structure Env (α ρ : Type) where
  selfId : Principal
  sha256 : Bytes → Bytes32
  toText : Principal → String
  validateApplication : α → Except VaultError Unit
  encodeApplication : α → Bytes
  maxRequestBytes : α → Nat
  validateReadModel : ρ → Except VaultError Unit
  encodeUpgrade : VaultUpgradeViaUpgrader → Bytes
  encodeReconcile : ReconcileVaultUpgradeViaUpgrader → Bytes
  encodeReconcileStart : ReconcileUpgraderStart → Bytes
  encodeCanonical : VaultActionKind α ρ → Bytes
  encodeCommitment : ApprovalCommitmentV1 → Bytes

/-- The vault. `charged` is ghost: every entry event ever charged, the latest first. -/
structure State (α ρ : Type) where
  gov : Option GovernanceCellData
  proposals : StableMap Nat (ProposalRecord α ρ)
  approvals : StableMap Nat (List Principal)
  auditEvents : StableMap Nat AuditEvent
  reservations : StableMap Nat Reservation
  proposalExpiry : StableMap (Nat × Nat) Unit
  openMutating : StableMap (Principal × Nat) Unit
  openCreation : StableMap (Nat × Nat) String
  nonterminalProposals : NonterminalIndex
  companion : Option CompanionState
  entryRate : EntryRateLedger
  charged : List EntryEvent

/-- One message of the vault. -/
abbrev Plane (α ρ : Type) (β : Type) : Type := Handler Trap (State α ρ) VaultError β

/-! ### Companions -/

section Companions
variable {α ρ : Type} (E : Env α ρ)

/-- The seal does not depend on the order the proposers came in. -/
def companionSeal (cs : CompanionState) : CompanionState :=
  {cs with commitment := E.sha256 (Token.tag "companion-seal-v1" ++ Bytes.toBe 4 2 ++
    be64 cs.accounting.entries ++ be64 cs.accounting.bytes ++ digestBytes cs.accounting.entryAcc ++
    be64 cs.nextProposalId ++ be64 cs.nextAuditId ++ be64 cs.nextSnapshotId ++
    be64 cs.retainedBytesTotal ++
    (cs.retainedBySigner.insertionSort fun x y => (compare x.1 y.1).isLE).flatMap fun e =>
      Token.principalSlice e.1 ++ be64 e.2)}

def expiryCompanion : Companion (Nat × Nat) Unit where
  digest k _ := E.sha256 (Token.tag "expiry" ++ [0, 0] ++ be64 k.1 ++ be64 k.2)
  bytes _ _ := 16

def mutatingCompanion : Companion (Principal × Nat) Unit where
  digest k _ := E.sha256 (Token.tag "mutating" ++ Token.principalSlice k.1 ++ be64 k.2)
  bytes k _ := (Token.principalSlice k.1).length + 8

/-- The key of a creation: the hash of its purpose, and the proposal. -/
def creationKey (purpose : String) (id : Nat) : Nat × Nat := ((E.sha256 (Token.tag purpose)).toNat, id)

def creationCompanion : Companion (Nat × Nat) String where
  digest k purpose :=
    E.sha256 (Token.tag "creation" ++ Bytes.toBe 32 k.1 ++ be64 k.2 ++ Token.tag purpose)
  bytes _ purpose := 40 + purpose.utf8ByteSize

def nonterminalCompanion : Companion (Principal × Nat) Unit where
  digest k _ := E.sha256 (Token.tag "nonterm" ++ [0] ++ Token.principalSlice k.1 ++ be64 k.2)
  bytes k _ := (Token.principalSlice k.1).length + 8

def companionLoad : Plane α ρ CompanionState := do
  let cell ← read State.companion
  expect cell .companionAbsent

/-- What the accounting must be, given the indexes. -/
def companionRecompute (s : State α ρ) (stored : CompanionState) : CompanionState :=
  let a := (expiryCompanion E).recount s.proposalExpiry .zero
  let a := (mutatingCompanion E).recount s.openMutating a
  let a := (creationCompanion E).recount s.openCreation a
  let a := (nonterminalCompanion E).recount s.nonterminalProposals a
  companionSeal E {stored with accounting := a}

def companionValidate : Plane α ρ Unit := do
  let stored ← companionLoad
  assert ((companionSeal E stored).commitment = stored.commitment) .sealBroken
  let s ← read id
  assert (companionRecompute E s stored = stored) .companionDisagrees

def govLoad : Plane α ρ GovernanceCellData := do
  let cell ← read State.gov
  expect cell .uninitialized

/-! ### Writes -/

section Keys
variable (counterpart : Principal) (id : Nat) (p : ProposalRecord α ρ)

/-- Where a proposal is listed by its expiry. -/
def expiryKey : Option (Nat × Nat) := p.expiresAtNs.map fun exp => (exp, id)

/-- Where it locks a target. -/
def mutatingKey : Option (Principal × Nat) :=
  (p.action.mutatingTarget E.selfId counterpart).map fun target => (target, id)

/-- Where it claims a purpose. -/
def creationEntry : Option ((Nat × Nat) × String) :=
  p.action.creationPurpose.map fun purpose => (creationKey E purpose id, purpose)

/-- Where it is listed while it is open. -/
def nonterminalKey : Option (Principal × Nat) :=
  if p.outcome.isTerminal then none else some (p.proposer, id)

end Keys

/-- The indexes after a proposal is written: what the prior record had there goes, and what the next
has there comes. -/
def reindexed (counterpart : Principal) (prior : Option (ProposalRecord α ρ))
    (next : ProposalRecord α ρ) (cs : CompanionState) (s : State α ρ) : State α ρ :=
  let id := next.proposalId
  let expiry := (expiryCompanion E).move (prior.bind (expiryKey id))
    (if next.outcome.isReapable then (expiryKey id next).map fun k => (k, ()) else none)
    (s.proposalExpiry, cs.accounting)
  let mutating := (mutatingCompanion E).move (prior.bind (mutatingKey E counterpart id))
    (if next.outcome.holdsSingleFlight then (mutatingKey E counterpart id next).map fun k => (k, ())
      else none) (s.openMutating, expiry.2)
  let creation := (creationCompanion E).move (prior.bind fun p => (creationEntry E id p).map Prod.fst)
    (if next.outcome.holdsSingleFlight then creationEntry E id next else none)
    (s.openCreation, mutating.2)
  let nonterminal := (nonterminalCompanion E).move (prior.bind (nonterminalKey id))
    ((nonterminalKey id next).map fun k => (k, ())) (s.nonterminalProposals, creation.2)
  {s with proposalExpiry := expiry.1, openMutating := mutating.1, openCreation := creation.1,
          nonterminalProposals := nonterminal.1,
          companion := some (companionSeal E {cs with accounting := nonterminal.2})}

def proposalPut (rec : ProposalRecord α ρ) : Plane α ρ Unit := do
  let prior ← read fun s => s.proposals[rec.proposalId]?
  let cs ← companionLoad
  let g ← govLoad
  write (reindexed E g.bootstrap.counterpart prior rec cs)
  write fun s => {s with proposals := s.proposals.insert rec.proposalId rec}

/-- The next id of a kind, which is not committed yet. -/
def peekId (kind : IdKind) : Plane α ρ Nat := do
  companionValidate E
  let cs ← companionLoad
  pure (cs.nextId kind)

def commitId (kind : IdKind) (allocated : Nat) : Plane α ρ Unit := do
  let cs ← companionLoad
  assert (cs.nextId kind = allocated) .idNotAllocated
  assert (allocated + 1 ≤ u64Max) .idSpaceExhausted
  write fun s => {s with companion := some (companionSeal E (cs.withNextId (allocated + 1) kind))}

def nextProposalId : Plane α ρ Nat := do
  let id ← peekId E .proposal
  let occupied ← read fun s => s.proposals.contains id
  assert (occupied = false) .idOccupied
  pure id

/-- An audit event is appended under the next id, which is then committed. -/
def auditFull (now : Nat) (kind : AuditKind) (proposalId : Option Nat) (actor : Principal)
    (approvingSigners : Option (List Principal)) (creationReceipt : Option CreationReceipt) :
    Plane α ρ Unit := do
  let id ← peekId E .audit
  let epoch ← read fun s => (s.gov.map (·.epoch)).getD 0
  let occupied ← read fun s => s.auditEvents.contains id
  assert (occupied = false) .idOccupied
  let event : AuditEvent :=
    ⟨id, now, epoch, kind, proposalId, actor, approvingSigners, creationReceipt⟩
  write fun s => {s with auditEvents := s.auditEvents.insert id event}
  commitId E .audit id

def audit (now : Nat) (kind : AuditKind) (proposalId : Option Nat) (actor : Principal)
    (approvingSigners : Option (List Principal)) : Plane α ρ Unit :=
  auditFull E now kind proposalId actor approvingSigners none

/-- The bytes of a proposer after some more. -/
def addRetained (who : Principal) (delta : Nat) : List (Principal × Nat) → List (Principal × Nat)
  | [] => [(who, delta)]
  | e :: rest =>
    if e.1 = who then (e.1, satAdd64 e.2 delta) :: rest else e :: addRetained who delta rest

def retainedAdmit (who : Principal) (delta : Nat) : Plane α ρ Unit :=
  if delta = 0 then pure ()
  else do
    let cs ← companionLoad
    write fun s => {s with companion := some (companionSeal E
      {cs with retainedBytesTotal := satAdd64 cs.retainedBytesTotal delta,
               retainedBySigner := addRetained who delta cs.retainedBySigner})}

/-- `swap_remove`: the last comes into the place of the one that goes. -/
def swapRemove {τ : Type} (l : List τ) (i : Nat) : List τ :=
  match l.getLast? with
  | some last => (l.set i last).dropLast
  | none => []

/-- The bytes of a proposer after some fewer. -/
def subRetained (who : Principal) (delta : Nat) (l : List (Principal × Nat)) :
    List (Principal × Nat) :=
  match l.findIdx? fun e => decide (e.1 = who) with
  | none => l
  | some i =>
    match l[i]? with
    | none => l
    | some e => if e.2 - delta = 0 then swapRemove l i else l.set i (e.1, e.2 - delta)

def retainedRelease (who : Principal) (delta : Nat) : Plane α ρ Unit :=
  if delta = 0 then pure ()
  else do
    let cs ← companionLoad
    write fun s => {s with companion := some (companionSeal E
      {cs with retainedBytesTotal := cs.retainedBytesTotal - delta,
               retainedBySigner := subRetained who delta cs.retainedBySigner})}

def approvalsPut (id : Nat) (signers : List Principal) : Plane α ρ Unit :=
  write fun s => {s with approvals := s.approvals.insert id signers}

/-- A reservation is written once. -/
def reservationInsert (res : Reservation) : Plane α ρ Unit := do
  let occupied ← read fun s => s.reservations.contains res.proposalId
  assert (occupied = false) .insertOnce
  write fun s => {s with reservations := s.reservations.insert res.proposalId res}

def govStore (data : GovernanceCellData) : Plane α ρ Unit :=
  write fun s => {s with gov := some data}

end Companions

end StshProtocol.Custody.VaultPlane
