import StshProtocol.Custody.VaultPlane

/-! Proposing on the vault.

A proposal is checked before anything is stored: its author is a signer, its action is one the vault
may carry out, no open intent locks what the action would touch, its lifetime is within bounds, the
caps on open proposals and on retained bytes leave room. Then one entry event is charged, and from
there on nothing refuses. -/
namespace StshProtocol.Custody.VaultPlane
open Foundation ShieldedPool
open Foundation.Handler

variable {α ρ : Type}

/-! ### Constants -/

def bornUnderVaultRoles : List String :=
  ["shielded_pool", "treasury", "vesting", "nullifier_registry", "stsh_token", "merkle_tree",
    "verifier", "smoke_alarm_monitor", "vetkeys"]

def maxTextFieldBytes : Nat := 512

def installEnvelopeSlack : Nat := 4_096

def vaultUpgradeViaUpgraderReqCeilingBytes : Nat := gateSizeBoundBytes

def reconcileVaultUpgradeReqCeilingBytes : Nat := 768

/-! ### Signers -/

def requireSigner (caller : Principal) : Plane α ρ GovernanceCellData := do
  demand (caller ≠ Principal.anonymous) .notAuthorized
  let g ← govLoad
  demand (caller ∈ g.bootstrap.members) .notAuthorized
  pure g

/-- The walk over the signers that gathers them as it goes. -/
def gatherSigners (seen : List Principal) : List Principal → Except VaultError (List Principal)
  | [] => .ok seen
  | m :: rest =>
    if m = Principal.anonymous then .error .notAuthorized
    else if m ∈ seen then .error .thresholdViolation
    else gatherSigners (m :: seen) rest

def validateSignerSet (members : List Principal) (threshold : Nat) (counterpart : Principal) :
    Except VaultError Unit :=
  if threshold < minThreshold then .error .thresholdViolation
  else match checkVaultRosterSize members.length with
    | .error _ => .error .thresholdViolation
    | .ok _ => do
      let seen ← gatherSigners [] members
      if counterpart = Principal.anonymous ∨ counterpart ∈ seen then .error .thresholdViolation
      else if seen.length < threshold then .error .thresholdViolation
      else .ok ()

/-! ### Actions -/

inductive TargetClass where
  | ring
  | governed
  | unknown
  deriving DecidableEq, Repr

def classifyTarget (selfId : Principal) (g : GovernanceCellData) (target : Principal) : TargetClass :=
  if target = selfId ∨ target = g.bootstrap.counterpart then .ring
  else if g.governed.any fun t => decide (t.principal = target) then .governed
  else .unknown

structure VaultSelfControlGuard where
  vault : Principal
  upgrader : Principal

namespace VaultSelfControlGuard

def validateUpdateSettings (guard : VaultSelfControlGuard) (target : GuardTarget)
    (proposedControllers : List Principal) : Except GuardViolation Unit :=
  let required := match target with
    | .vault => guard.upgrader
    | .upgrader => guard.vault
  if proposedControllers = [required] then .ok () else .error (.controllerInvariantBroken target)

def validateStop (guard : VaultSelfControlGuard) (target : Principal) : Except GuardViolation Unit :=
  if target = guard.vault then .error (.stopForbidden .vault)
  else if target = guard.upgrader then .error (.stopForbidden .upgrader)
  else .ok ()

end VaultSelfControlGuard

def validateRingUpdateSettings (guard : VaultSelfControlGuard) (target : Principal)
    (controllers : List Principal) : Except VaultError Unit :=
  if target = guard.vault then
    (guard.validateUpdateSettings .vault controllers).mapError .guardRejected
  else if target = guard.upgrader then
    (guard.validateUpdateSettings .upgrader controllers).mapError .guardRejected
  else .ok ()

/-- Only a canister that is yet to be created for a purpose of its own may be created. -/
def validateCreateCanister (g : GovernanceCellData) (purpose : String)
    (disposition : ManifestDisposition) : Except VaultError Unit :=
  if disposition ≠ .bornUnderVault then .error .notAuthorized
  else if purpose.utf8ByteSize = 0 ∨ purpose.utf8ByteSize > maxTextFieldBytes then
    .error (.readBoundExceeded "manifest_purpose" purpose.utf8ByteSize maxTextFieldBytes)
  else if purpose ∉ bornUnderVaultRoles then .error .notAuthorized
  else if g.governed.any fun t => decide (t.purpose = purpose) then .error .notAuthorized
  else .ok ()

def validateManagementTarget (selfId : Principal) (g : GovernanceCellData) :
    ManagementAction → Except VaultError Unit
  | .upgrade target .. | .installCode target .. =>
    match classifyTarget selfId g target with
    | .governed => .ok ()
    | .ring | .unknown => .error .notAuthorized
  | .stop target =>
    match classifyTarget selfId g target with
    | .ring =>
      ((VaultSelfControlGuard.mk selfId g.bootstrap.counterpart).validateStop target).mapError
        .guardRejected
    | .governed => .ok ()
    | .unknown => .error .notAuthorized
  | .updateSettings target controllers =>
    match classifyTarget selfId g target with
    | .ring => validateRingUpdateSettings ⟨selfId, g.bootstrap.counterpart⟩ target controllers
    | .governed => if controllers = [selfId] then .ok () else .error .notAuthorized
    | .unknown => .error .notAuthorized
  | .start target | .depositCycles target _ =>
    match classifyTarget selfId g target with
    | .ring | .governed => .ok ()
    | .unknown => .error .notAuthorized
  | .createCanister purpose disposition => validateCreateCanister g purpose disposition

section Checks
variable (E : Env α ρ)

def checkHashes (expectedWasm expectedArg wasm arg : Bytes) : Except VaultError Unit :=
  if digestBytes (E.sha256 wasm) ≠ expectedWasm ∨ digestBytes (E.sha256 arg) ≠ expectedArg then
    .error .hashMismatch
  else .ok ()

def checkSize (encoded limit : Nat) : Except VaultError Unit :=
  if encoded > limit then .error (.sizeLimitExceeded encoded limit) else .ok ()

def checkInstallSize (wasm arg : Bytes) : Except VaultError Unit :=
  checkSize (wasm.length + arg.length + installEnvelopeSlack) gateSizeBoundBytes

/-- The proposal a reconciliation of an upgrade names must have an unknown outcome. -/
def reconcilesUpgrade (proposals : StableMap Nat (ProposalRecord α ρ)) (id : Nat) :
    Except VaultError Unit :=
  match proposals[id]? with
  | none => .error (.unknownProposal id)
  | some p =>
    match p.action with
    | .upgraderUpgrade _ | .management (.installCode ..) | .management (.upgrade ..) =>
      if p.outcome ≠ .outcomeUnknown then .error .illegalSourceState else .ok ()
    | _ => .error .illegalSourceState

/-- The vault upgrade a reconciliation names may also be executing still. -/
def reconcilesVaultUpgrade (proposals : StableMap Nat (ProposalRecord α ρ)) (id : Nat) :
    Except VaultError Unit :=
  match proposals[id]? with
  | none => .error (.unknownProposal id)
  | some p =>
    match p.action with
    | .vaultUpgradeViaUpgrader _ =>
      if p.outcome = .outcomeUnknown ∨ p.outcome = .executing then .ok ()
      else .error .illegalSourceState
    | _ => .error .illegalSourceState

def validateAction (g : GovernanceCellData) (proposals : StableMap Nat (ProposalRecord α ρ)) :
    VaultActionKind α ρ → Except VaultError Unit
  | .application req => do
    E.validateApplication req
    checkSize (E.encodeApplication req).length (E.maxRequestBytes req)
  | .management m => do
    validateManagementTarget E.selfId g m
    match m with
    | .upgrade _ wasmHash argHash wasm arg | .installCode _ wasmHash argHash wasm arg => do
      checkHashes E wasmHash argHash wasm arg
      checkInstallSize wasm arg
    | _ => .ok ()
  | .upgraderUpgrade uu => do
    checkHashes E uu.expectedWasmHash uu.expectedArgHash uu.wasmBytes uu.argBytes
    checkInstallSize uu.wasmBytes uu.argBytes
  | .reconcileUpgraderUpgrade rec => reconcilesUpgrade proposals rec.proposalId
  | .reconcileUpgraderStart rec =>
    checkSize (E.encodeReconcileStart rec).length reconcileVaultUpgradeReqCeilingBytes
  | .readModel req => E.validateReadModel req
  | .updateSignerSet signers threshold => validateSignerSet signers threshold g.bootstrap.counterpart
  | .vaultUpgradeViaUpgrader vu =>
    -- The caller leaves the id open; it is bound when the proposal is created.
    if vu.requestId ≠ 0 then .error .illegalSourceState
    else do
      checkHashes E vu.expectedWasmHash vu.expectedArgHash vu.wasmBytes vu.argBytes
      checkSize (E.encodeUpgrade vu).length vaultUpgradeViaUpgraderReqCeilingBytes
  | .reconcileVaultUpgradeViaUpgrader rec => do
    checkSize (E.encodeReconcile rec).length reconcileVaultUpgradeReqCeilingBytes
    reconcilesVaultUpgrade proposals rec.requestId

/-- The open intent against a target, other than the excluded one. -/
def openMutatingIntent (target : Principal) (exclude : Option Nat) : Plane α ρ (Option Nat) := do
  companionValidate E
  read fun s => (s.openMutating.keys.find? fun k => decide (k.1 = target ∧ some k.2 ≠ exclude)).map
    Prod.snd

/-- The open creation for a purpose, other than the excluded one. -/
def openCreationIntent (purpose : String) (exclude : Option Nat) : Plane α ρ (Option Nat) := do
  companionValidate E
  read fun s => (s.openCreation.keys.find? fun k =>
    decide (k.1 = (E.sha256 (Token.tag purpose)).toNat ∧ some k.2 ≠ exclude)).map Prod.snd

def checkSingleFlight (counterpart : Principal) (action : VaultActionKind α ρ) : Plane α ρ Unit := do
  match action.mutatingTarget E.selfId counterpart with
  | some target => do
    let other ← openMutatingIntent E target none
    demand (other = none) .illegalSourceState
  | none => pure ()
  match action.creationPurpose with
  | some purpose => do
    let other ← openCreationIntent E purpose none
    demand (other = none) .illegalSourceState
  | none => pure ()

/-- `check_nonterminal_caps`: the open proposals of all, and of one. -/
def checkNonterminalCaps (who : Principal) : Plane α ρ Unit :=
  match vaultNonterminalCaps with
  | none => pure ()
  | some caps => do
    let index ← read State.nonterminalProposals
    demand (index.size < caps.globalCap ∧ nonterminalOf index who < caps.perSigner) .illegalSourceState

/-- The bytes the action would retain, if there is room for them. -/
def checkRetainedBytes (who : Principal) (action : VaultActionKind α ρ) : Plane α ρ Nat := do
  let cs ← companionLoad
  let delta := action.logicalBytes
  lift (checkSize (satAdd64 (cs.retainedFor who) delta) perSignerByteQuota)
  lift (checkSize (satAdd64 cs.retainedBytesTotal delta) globalLogicalByteQuota)
  pure delta

/-- Charges one entry event, or refuses with nothing stored. -/
def chargeEntryEvent (who : Principal) (now : Nat) : Plane α ρ Unit :=
  match entryRateParams with
  | none => pure ()
  | some params => do
    let ledger ← read State.entryRate
    let charged ← need (ledger.charge params who now) .illegalSourceState
    write fun s => {s with entryRate := charged, charged := (who, now) :: s.charged}

end Checks

/-! ### Proposing -/

section Proposing
variable (E : Env α ρ)

/-- `commitment_for(..).hash()`, of the action without its artifact bytes. -/
def commitmentHash (rec : ProposalRecord α ρ) : Bytes :=
  digestBytes (E.sha256 (E.encodeCommitment
    ⟨E.selfId, rec.proposalId, rec.epoch, rec.expiresAtNs, E.encodeCanonical rec.action.cleared⟩))

/-- The request id of a vault upgrade is the id of its proposal. -/
def bindRequest (id : Nat) : VaultActionKind α ρ → VaultActionKind α ρ
  | .vaultUpgradeViaUpgrader vu => .vaultUpgradeViaUpgrader {vu with requestId := id}
  | other => other

/-- What is stored once the charge is made. -/
def createProposal (caller : Principal) (action : VaultActionKind α ρ) (retainedDelta now : Nat)
    (expiresAtNs : Option Nat) : Plane α ρ Nat := do
  let id ← nextProposalId E
  let g ← govLoad
  proposalPut E
    ⟨id, bindRequest id action, caller, now, g.epoch, .pending, none, none, none, none, expiresAtNs, []⟩
  let created ← read fun s => s.proposals[id]?
  let created ← expect created .recordMissing
  proposalPut E {created with commitmentHash := commitmentHash E created}
  retainedAdmit E caller retainedDelta
  commitId E .proposal id
  audit E now .proposalCreated (some id) caller none
  pure id

def proposeInner (caller : Principal) (action : VaultActionKind α ρ) (now : Nat)
    (requestedLifetimeNs : Option Nat) : Plane α ρ Nat := do
  let g ← requireSigner caller
  let proposals ← read State.proposals
  lift (validateAction E g proposals action)
  checkSingleFlight E g.bootstrap.counterpart action
  let expiresAtNs ← lift ((resolveExpiryWith proposalLifetimeBounds now requestedLifetimeNs).mapError
    .lifetimeOutOfBounds)
  checkNonterminalCaps caller
  let retainedDelta ← checkRetainedBytes caller action
  chargeEntryEvent caller now
  createProposal E caller action retainedDelta now expiresAtNs

end Proposing

end StshProtocol.Custody.VaultPlane
