import StshProtocol.Custody.RecoveryPlane

/-! Entering a proposal on the recovery plane.

Whoever proposes must be a member; what would be refused without a record is refused first, then the
caps on open proposals and retained bytes, and only then is the entry event charged. After the charge
nothing refuses any more. A rotation to a roster that cannot be is rejected on record, and that
record is charged like a proposal. -/
namespace StshProtocol.Custody.RecoveryPlane
open Foundation ShieldedPool
open Foundation.Handler

/-! ### Checks -/

def isRecoveryMember (s : State) (caller : Principal) : Bool :=
  decide (caller ≠ Principal.anonymous) && decide (caller ∈ s.members)

def requireMember (caller : Principal) : Plane Unit := do
  let s ← read id
  demand (s.vaultPrincipal.isSome = true ∧ isRecoveryMember s caller = true) .notAuthorized

section Checks
variable (E : Env)

def sha256Bytes (bytes : Bytes) : Bytes := digestBytes (E.sha256 bytes)

def validateArtifact (expectedWasmHash expectedArgHash wasmBytes argBytes : Bytes) :
    Except RecoveryError Unit :=
  let encoded := wasmBytes.length + argBytes.length + expectedWasmHash.length + expectedArgHash.length
  if encoded > gateSizeBoundBytes then .error (.sizeLimitExceeded encoded gateSizeBoundBytes)
  else if expectedWasmHash.length ≠ 32 ∨ expectedArgHash.length ≠ 32 then .error .hashMismatch
  else if sha256Bytes E wasmBytes ≠ expectedWasmHash ∨ sha256Bytes E argBytes ≠ expectedArgHash then
    .error .hashMismatch
  else .ok ()

/-- Another intent than `except` is open. -/
def nonterminalIntentInFlight (except : Option IntentKey) : Plane Bool := do
  companionValidate E
  read fun s => s.nonterminalIntents.keys.any fun k => decide (except ≠ some k)

/-- A stored proposal that carries start state. -/
def startProposal (s : State) (id : Nat) : Option RecoveryProposal :=
  match s.proposals[id]? with
  | some (.recovery _ p) => if p.start.isSome then some p else none
  | _ => none

/-- Another start than `except` is in flight. -/
def startInFlight (except : Option Nat) : Plane Bool := do
  companionValidate E
  read fun s => s.nonterminalProposals.keys.any fun k =>
    decide (except ≠ some k.2) &&
      ((startProposal s k.2).any fun p => p.outcome.holdsSingleFlight)

/-- What is refused of a trigger before anything is charged. -/
def checkTrigger (action : RecoveryAction) : Plane Unit :=
  match action with
  | .triggerVaultUpgrade wasmHash argHash wasm arg => do
    lift (validateArtifact E wasmHash argHash wasm arg)
    -- `||`: the starts are looked at only where no intent is in flight.
    let intent ← nonterminalIntentInFlight E none
    demand (intent = false) .illegalSourceState
    let start ← startInFlight E none
    demand (start = false) .illegalSourceState
  | _ => pure ()

def checkNonterminalCaps (who : Principal) : Plane Unit := do
  companionValidate E
  match recoveryNonterminalCaps with
  | none => pure ()
  | some caps => do
    let index ← read State.nonterminalProposals
    demand (index.size < caps.globalCap ∧ nonterminalOf index who < caps.perSigner) .illegalSourceState

end Checks

def intentArtifactBytes (intent : UpgradeIntent) : Nat :=
  (intent.wasmBytes.getD []).length + (intent.argBytes.getD []).length

/-- The artifact bytes of the open intents, of one proposer or of all. -/
def recoveryRetainedBytes (s : State) (who : Option Principal) : Nat :=
  s.nonterminalIntents.keys.foldl (fun total k =>
    match s.intents[k]? with
    | none => total
    | some intent =>
      if intentArtifactBytes intent = 0 then total
      else match who with
        | none => satAdd64 total (intentArtifactBytes intent)
        | some w =>
          if (s.proposals[intent.id]?).map StoredProposal.proposer = some w then
            satAdd64 total (intentArtifactBytes intent)
          else total) 0

/-- The artifact bytes an action would retain. -/
def artifactBytes : RecoveryAction → Nat
  | .triggerVaultUpgrade _ _ wasm arg => wasm.length + arg.length
  | .reconcileVaultUpgrade .. => 0
  | .startVault | .reconcileVaultStart .. => 0

def checkRecoveryRetainedBytes (who : Principal) (action : RecoveryAction) : Plane Unit :=
  if artifactBytes action = 0 then pure ()
  else do
    let s ← read id
    let mine := satAdd64 (recoveryRetainedBytes s (some who)) (artifactBytes action)
    demand (mine ≤ perSignerByteQuota) (.sizeLimitExceeded mine perSignerByteQuota)
    let total := satAdd64 (recoveryRetainedBytes s none) (artifactBytes action)
    demand (total ≤ globalLogicalByteQuota) (.sizeLimitExceeded total globalLogicalByteQuota)

/-- Charges one entry event, or refuses with nothing stored. -/
def chargeEntryEvent (who : Principal) (now : Nat) : Plane Unit :=
  match entryRateParams with
  | none => pure ()
  | some params => do
    let ledger ← read State.entryRate
    let charged ← need (ledger.charge params who now) .thresholdViolation
    write fun s => {s with entryRate := charged, charged := (who, now) :: s.charged}

/-! ### Messages -/

section Messages
variable (E : Env)

def canonicalStoredBytes : StoredProposal → Bytes
  | .recovery _ p => E.encodeAction (redactAction p.action)
  | .rotation r => E.encodeMembers r.newMembers

def commitmentForStored (id : Nat) (stored : StoredProposal) : Bytes :=
  sha256Bytes E (E.encodeCommitment
    ⟨E.selfId, id, stored.epoch, stored.expiresAtNs, canonicalStoredBytes E stored⟩)

/-- The proposal is stored, and then its commitment with it. -/
def admitProposal (id : Nat) (stored : StoredProposal) : Plane Unit := do
  putStoredProposal E id stored
  let created ← read fun s => s.proposals[id]?
  let created ← expect created .recordMissing
  putStoredProposal E id (created.withCommitment (commitmentForStored E id created))
  commitProposalId E id

/-- The artifacts of a trigger are kept in its intent. -/
def recordIntent (id now : Nat) (action : RecoveryAction) : Plane Unit :=
  match action with
  | .triggerVaultUpgrade wasmHash argHash wasm arg => do
    putIntent E (IntentKey.recovery id)
      ⟨id, .recovery, wasmHash, argHash, some wasm, some arg, .pending, now, none⟩
    appendAudit now (.vaultUpgradeIntentRecorded id .recovery wasmHash argHash)
  | _ => pure ()

def proposeRecovery (caller : Principal) (action : RecoveryAction) (now : Nat)
    (requestedLifetimeNs : Option Nat) : Plane Nat := do
  requireMember caller
  let expiresAtNs ← lift ((resolveExpiryWith proposalLifetimeBounds now requestedLifetimeNs).mapError
    .lifetimeOutOfBounds)
  checkTrigger E action
  checkNonterminalCaps E caller
  checkRecoveryRetainedBytes caller action
  chargeEntryEvent caller now
  let proposalId ← nextProposalId E
  let threshold ← read State.threshold
  recordIntent E proposalId now action
  let epoch ← read State.epoch
  admitProposal E proposalId (.recovery epoch
    ⟨proposalId, redactAction action, caller, [], threshold, now, .pending, expiresAtNs, [], none⟩)
  appendAudit now (.recoveryProposalCreated proposalId caller (actionTag action))
  pure proposalId

/-- A roster that cannot be is rejected on record, and the record is charged. -/
def rejectRotation (caller : Principal) (now : Nat) (reason : InitValidationError) : Plane Nat := do
  chargeEntryEvent caller now
  appendAudit now (.membershipRotationRejected caller reason)
  fail .thresholdViolation

def proposeMembershipRotation (caller : Principal) (newMembers : List Principal) (now : Nat)
    (requestedLifetimeNs : Option Nat) : Plane Nat := do
  requireMember caller
  let vault ← read State.vaultPrincipal
  let vault ← need vault .notAuthorized
  match checkRecoveryRosterSize newMembers.length with
  | .error e => rejectRotation caller now (.tooManyMembers e.requested e.maximum)
  | .ok _ =>
    match validateBootstrapQuorum newMembers initialThreshold vault with
    | .error reason => rejectRotation caller now reason
    | .ok _ => do
      let expiresAtNs ← lift ((resolveExpiryWith proposalLifetimeBounds now
        requestedLifetimeNs).mapError .lifetimeOutOfBounds)
      checkNonterminalCaps E caller
      chargeEntryEvent caller now
      let proposalId ← nextProposalId E
      let threshold ← read State.threshold
      let epoch ← read State.epoch
      admitProposal E proposalId (.rotation
        ⟨proposalId, epoch, newMembers, caller, [], threshold, now, .pending, expiresAtNs, []⟩)
      appendAudit now (.membershipRotationProposed proposalId caller newMembers.length)
      pure proposalId

end Messages

end StshProtocol.Custody.RecoveryPlane
