import StshProtocol.Foundation.Sha256
import StshProtocol.ShieldedPool.PrivateSpend.Security

/-! `private_spend` from its call to the reservation of its nullifiers and the answer of the
registry, and `set_verifier_canister`, which awaits too.

A spend awaits six times or more on the way. Between two awaits it runs alone; each piece
is a `Spending Next`, which ends by awaiting under a continuation or by ending the call.
What the call holds until it ends, its slot, its place among the verifies and the guard on
its nullifiers, is given back however the call ends, by `leaving` and by `cleanup`. -/
namespace StshProtocol.ShieldedPool.PrivateSpend
open Foundation FeePolicy Handler

/-! ### Calls and replies -/

inductive RejectionCode where
  | noError
  | sysFatal
  | sysTransient
  | destinationInvalid
  | canisterReject
  | canisterError
  | unknown
  deriving DecidableEq, Repr

structure Rejection where
  code : RejectionCode
  message : String
  deriving DecidableEq, Repr

inductive DeviceCheckRefusal where
  | callerNotConfigured
  | callerNotAuthorized
  deriving DecidableEq, Repr

inductive Request where
  | rawRand
  | containsNullifier (registry : Principal) (nullifier : Bytes32)
  | token (ledger : Principal) (call : LedgerCall)
  | hasActiveDevice (vetkeys caller : Principal)
  | vkHash (verifier : Principal)
  | verifySpendCanister (verifier : Principal) (proof : Bytes) (signals : List Bytes)
  | insertBatch (registry : Principal) (nullifiers : List Bytes32)
  deriving DecidableEq, Repr

inductive Reply where
  | blob (bytes : Bytes)
  | flag (value : Bool)
  | amount (value : Nat)
  | device (result : Except DeviceCheckRefusal Bool)
  | verdict (result : Except String Unit)
  | rejected (rejection : Rejection)
  deriving DecidableEq

section Decode
variable (D : Deployment)

/-- A reply of another type does not decode, which is a rejection too. -/
def Deployment.rejection : Reply → Rejection
  | .rejected r => r
  | _ => ⟨.canisterError, D.undecodable⟩

def checkNullifierSpent : Reply → Except PoolError Bool
  | .flag spent => .ok spent
  | r => .error (.transferFailed s!"nullifier check call failed: {(D.rejection r).message}")

def queryLedgerFee : Reply → Except PoolError Nat
  | .amount n => if n ≤ u128Max then .ok n else .error (.transferFailed "icrc1_fee does not fit u128")
  | r => .error (.transferFailed s!"icrc1_fee query failed: {(D.rejection r).message}")

def queryPoolLedgerBalance : Reply → Except PoolError Nat
  | .amount n =>
    if n ≤ u128Max then .ok n else .error (.transferFailed "icrc1_balance_of does not fit u128")
  | r => .error (.transferFailed s!"icrc1_balance_of failed: {(D.rejection r).message}")

/-- Only `Ok(false)` speaks of the caller. -/
def mapDeviceCheck : Reply → Except PoolError Unit
  | .device (.ok true) => .ok ()
  | .device (.ok false) => .error (spendAdmissionError "NO_ACTIVE_DEVICE" 0)
  | _ => .error (spendAdmissionError "DEVICE_CHECK_UNAVAILABLE" 0)

def reportedVkHash (what : String) : Reply → Except PoolError Bytes
  | .blob bytes => .ok bytes
  | r => .error (.verifierUnavailable (what ++ (D.rejection r).message))

inductive VerifierCallOutcome where
  | accepted
  | rejected (reason : String)
  | unavailable (reason : String)
  deriving DecidableEq, Repr

def verifierCallOutcome : Reply → VerifierCallOutcome
  | .verdict (.ok ()) => .accepted
  | .verdict (.error e) => .rejected e
  | r => .unavailable s!"verify_spend_canister call failed: {(D.rejection r).message}"

end Decode

/-! ### What a suspended call holds -/

/-- What a spend takes from its first segment. -/
structure SpendFrame where
  caller : Principal
  args : PrivateSpendArgs
  feeParams : GovernanceFeeParams
  signals : List Bytes
  debit : Nat
  capturedEpoch : Nat
  deriving DecidableEq, Repr

structure Callees where
  token : Principal
  merkle : Principal
  nullifier : Principal
  deriving DecidableEq, Repr

/-- A spend whose record is written: the verifier it asks, the record as it was written,
and the nullifiers it guards. -/
structure AdmittedSpend where
  frame : SpendFrame
  callees : Callees
  verifier : Principal
  pending : PendingSpend
  guarded : List Bytes32
  submitter : pending.submitter = some frame.caller
  deriving DecidableEq

inductive Cont where
  | memoKey (f : SpendFrame) (boot : Nat)
  | precheckNullifier (f : SpendFrame) (c : Callees) (nullifier : Bytes32) (rest : List Bytes32)
  | precheckFee (f : SpendFrame) (c : Callees) (payout : PrivateSpendPublicPayout)
  | precheckBalance (f : SpendFrame) (c : Callees) (payout : PrivateSpendPublicPayout)
  | device (f : SpendFrame) (c : Callees) (vetkeys : Principal)
  | attest (f : SpendFrame) (c : Callees) (verifier : Principal) (pin : Bytes32)
  | verify (a : AdmittedSpend)
  | recheckNullifier (a : AdmittedSpend) (nullifier : Bytes32) (rest : List Bytes32)
  | recheckFee (a : AdmittedSpend) (payout : PrivateSpendPublicPayout)
  | recheckBalance (a : AdmittedSpend) (payout : PrivateSpendPublicPayout)
  | insertBatch (a : AdmittedSpend)
  | setVerifier (verifier : Principal) (pin : Bytes32)
  deriving DecidableEq

/-- The call each continuation waits for. -/
def Cont.request (D : Deployment) : Cont → Request
  | .memoKey _ _ => .rawRand
  | .precheckNullifier _ c n _ => .containsNullifier c.nullifier n
  | .precheckFee _ c _ => .token c.token .icrc1Fee
  | .precheckBalance _ c _ => .token c.token (.icrc1BalanceOf ⟨D.self, none⟩)
  | .device f _ vetkeys => .hasActiveDevice vetkeys f.caller
  | .attest _ _ verifier _ => .vkHash verifier
  | .verify a => .verifySpendCanister a.verifier a.frame.args.envelope.proofBytes a.frame.signals
  | .recheckNullifier a n _ => .containsNullifier a.callees.nullifier n
  | .recheckFee a _ => .token a.callees.token .icrc1Fee
  | .recheckBalance a _ => .token a.callees.token (.icrc1BalanceOf ⟨D.self, none⟩)
  | .insertBatch a => .insertBatch a.callees.nullifier a.frame.args.nullifiers
  | .setVerifier verifier _ => .vkHash verifier

/-- How a segment ends: with an await, with the promotion of the staged outputs, or with
the call. -/
inductive Next where
  | awaits (cont : Cont)
  | promotes
  | done
  deriving DecidableEq

/-- What is held is given back when the call ends; when it awaits, it is held on. -/
def leaving (leave : SpendState → SpendState) (x : Spending Next) : Spending Next := fun s =>
  match x.exec s with
  | .error t => .error t
  | .ok (.ok (.awaits k), s') => .ok (.ok (.awaits k), s')
  | .ok (r, s') => .ok (r, leave s')

/-! ### Before the verifier -/

def gate : Spending Unit := fun s =>
  match Recovery.recoveryGate s.toPool with
  | .error t => .error (.recovery t)
  | .ok (p, r) => .ok (r, {s with toPool := p})

def deploymentConfigDomain : Bytes := Token.tag "stsh.deployment-config.v1"

def deploymentConfigVersion : Nat := 1

/-- `u8(len) ‖ principal bytes`. -/
def lengthPrefixed (p : Principal) : Bytes :=
  UInt8.ofNat (Token.principalSlice p).length :: Token.principalSlice p

def computeDeploymentConfigHash (D : Deployment) (w : Wiring) : Except PoolError Bytes32 := do
  let token ← w.token.elim (.error .notInitialised) .ok
  let merkle ← w.merkle.elim (.error .notInitialised) .ok
  let nullifier ← w.nullifier.elim (.error .notInitialised) .ok
  .ok (Sha256.sha256 (deploymentConfigDomain ++ Bytes.toBe 4 deploymentConfigVersion ++
    ([D.self, token, merkle, nullifier].map lengthPrefixed).flatten))

/-- A caller that names no deployment is let through. -/
def assertDeploymentConfig (D : Deployment) (expected : Option Bytes32) : Spending Unit :=
  match expected with
  | none => pure ()
  | some expected => do
    let wiring ← read fun s => s.wiring
    let hash ← lift (computeDeploymentConfigHash D wiring)
    demand (expected = hash) .deploymentConfigMismatch

/-- The pre-mutation end of a spend: the record fails, and the call with it. -/
def failBeforeStateChange {α : Type} (nowNs : Nat) (id : SpendId) (reason : String) (e : PoolError) :
    Spending α := do
  write fun s => {s with spends := s.spends.endSpend id (failedBeforeStateChange reason) nowNs}
  fail e

def isAcceptedAnchor (root : Bytes32) (s : SpendState) : Bool := s.roots.accepted.contains root

/-- The payout exceeds the ledger's fee and the escrow covers it. -/
def checkPayoutFee (D : Deployment) (payout : PrivateSpendPublicPayout) (reply : Reply) :
    Spending Unit := do
  let ledgerFee ← lift (queryLedgerFee D reply)
  demand (ledgerFee < payout.publicAmount) (.grossAmountBelowFees payout.publicAmount ledgerFee)
  let escrow ← read fun s => s.accounting.heap .escrowBacking
  demand (payout.publicAmount ≤ escrow) (.escrowUnderfunded payout.publicAmount escrow)

/-- The pool's balance covers it too. -/
def checkPayoutBalance (D : Deployment) (payout : PrivateSpendPublicPayout) (reply : Reply) :
    Spending Unit := do
  let available ← lift (queryPoolLedgerBalance D reply)
  demand (payout.publicAmount ≤ available) (.escrowUnderfunded payout.publicAmount available)

/-- The record a spend is admitted with. -/
def pendingSpend (now : Nat) (f : SpendFrame) (retry : Option PayoutRetryState) : PendingSpend :=
  let split := feeSplitSnapshot f.args.fee f.feeParams
  { spendId := f.args.spendId
    nullifiers := f.args.nullifiers
    outputCommitments := f.args.outputCommitments
    publicPayout := f.args.publicPayout.map fun p =>
      { destination := p.destination
        destinationSubaccount := p.destinationSubaccount
        publicAmount := p.publicAmount
        protocolFee := f.args.fee
        blockIndex := none
        ledgerCreatedAtTimeNs := none
        retry := retry }
    outputsCommitted := 0
    fee := some f.args.fee
    status := .verificationPending
    createdAtNs := now
    submitter := some f.caller
    finalizedAtNs := none
    feeSplitOps := split.1
    feeSplitInsurance := split.2.1
    feeSplitStaking := split.2.2 }

def reservePayout (payout : Option PrivateSpendPublicPayout) : Spending (Option PayoutRetryState) :=
  match payout with
  | some _ => do
    let retry ← reservePayoutSequence
    pure (some retry)
  | none => pure none

/-- The record, its locator and the verifier's call are written in one segment. -/
def recordSpend (now : Nat) (f : SpendFrame) (c : Callees) (verifier : Principal) : Spending Next := do
  let existing ← read fun s => s.spends.pending[f.args.spendId]?
  demand existing.isNone .duplicateSpendId
  let guarded ← guardNullifiers f.args.nullifiers
  leaving (dropNullifierGuard guarded) do
    admitVerify f.caller now
    leaving (releaseVerifySlot f.caller) do
      let retry ← reservePayout f.args.publicPayout
      let pending := pendingSpend now f retry
      write fun s => {s with spends := (s.spends.setPendingSpend f.args.spendId pending
        ).insertActiveSpendIndex f.caller f.args.spendId}
      pure (.awaits (.verify ⟨f, c, verifier, pending, guarded, rfl⟩))

def verifierUnset : PoolError := .verifierUnavailable
  ("verifier canister not configured (VERIFIER_CANISTER is None) — " ++
    "call set_verifier_canister() as controller")

/-- `get_verifier` and `ensure_verifier_vk_attested`, up to its query. -/
def attestVerifier (now : Nat) (f : SpendFrame) (c : Callees) : Spending Next := do
  let stored ← read fun s => s.security.verifierCanister
  let verifier ← need stored verifierUnset
  let pin ← read fun s => s.security.pinnedVkHash
  let attestation ← read fun s => s.attestation
  if attestation = .matched verifier pin then
    recordSpend now f c verifier
  else
    pure (.awaits (.attest f c verifier pin))

def invalidateVerifierVkAttestation : Spending Unit :=
  write fun s => {s with attestation := .unattested}

/-- `ensure_verifier_vk_attested`, on the reply. -/
def attested (D : Deployment) (verifier : Principal) (pin : Bytes32) (reply : Reply) :
    Spending Unit := do
  let reported ← lift (reportedVkHash D "vk_hash attestation call failed: " reply)
  if reported ≠ le32 pin then do
    invalidateVerifierVkAttestation
    fail .verifierKeyHashMismatch
  else do
    let current ← read fun s => (s.security.pinnedVkHash, s.security.verifierCanister)
    demand (current = (pin, some verifier)) .verifierKeyHashChangedDuringAttestation
    write fun s => {s with attestation := .matched verifier pin}

/-- A caller has to hold a device, once there is a canister to ask. -/
def requireActiveDevice (now : Nat) (f : SpendFrame) (c : Callees) : Spending Next := do
  let vetkeys ← read fun s => s.wiring.vetkeys
  match vetkeys with
  | none => attestVerifier now f c
  | some vetkeys => pure (.awaits (.device f c vetkeys))

/-- The prechecks behind the nullifiers. -/
def precheckLiability (now : Nat) (f : SpendFrame) (c : Callees) : Spending Next := do
  let liability ← read fun s => s.accounting.heap .privateLiability
  demand (f.debit ≤ liability) (.insufficientPrivateLiability f.debit liability)
  match f.args.publicPayout with
  | some payout => pure (.awaits (.precheckFee f c payout))
  | none => requireActiveDevice now f c

def precheckNullifiers (now : Nat) (f : SpendFrame) (c : Callees) : List Bytes32 → Spending Next
  | [] => precheckLiability now f c
  | n :: rest => pure (.awaits (.precheckNullifier f c n rest))

/-- `precheck_private_spend_before_verify`, up to its first query. -/
def precheckPrivateSpend (now : Nat) (f : SpendFrame) : Spending Next := do
  let wiring ← read fun s => s.wiring
  let token ← need wiring.token .notInitialised
  let merkle ← need wiring.merkle .notInitialised
  let nullifier ← need wiring.nullifier .notInitialised
  let accepted ← read (isAcceptedAnchor f.args.envelope.rootReference)
  demand (accepted = true) .anchorNotFound
  demand f.args.nullifiers.Nodup .nullifierAlreadySpent
  precheckNullifiers now f ⟨token, merkle, nullifier⟩ f.args.nullifiers

/-- A payout needs the memo key, and asks for one if there is none yet. -/
def ensurePayoutMemoKey (now : Nat) (f : SpendFrame) : Spending Next := do
  let control ← read fun s => s.payouts
  if f.args.publicPayout.isSome ∧ control.key.isNone then
    pure (.awaits (.memoKey f control.boot))
  else
    precheckPrivateSpend now f

/-- `ensure_payout_memo_key`, on the reply: a key that came meanwhile stays. -/
def provisionMemoKey (boot : Nat) (reply : Reply) : Spending Unit := do
  match reply with
  | .blob bytes => do
    demand (bytes.length = 32) .payoutMemoKeyNotReady
    let latest ← read fun s => s.payouts
    demand (latest.boot = boot) .payoutStateInvalid
    if latest.key.isNone then
      write fun s => {s with payouts := {latest with key := some (BitVec.ofNat 256 (Bytes.ofBe bytes))}}
    else
      pure ()
  | _ => fail .payoutMemoKeyNotReady

/-- The validation of a new spend and the capture of the epoch. -/
def captureSpend (now : Nat) (caller : Principal) (args : PrivateSpendArgs) : Spending SpendFrame := do
  let feeParams ← read fun s => s.feeParams
  let signals ← validatePrivateSpendStatic now args feeParams
  let debit ← lift (privateSpendPrivateLiabilityDebit args)
  let epoch ← read fun s => s.security.securityEpoch
  pure ⟨caller, args, feeParams, signals, debit, epoch⟩

/-- What a call does once it has its slot: answer for a spend that is known, or begin one. -/
def admitSpend (now : Nat) (caller : Principal) (args : PrivateSpendArgs) : Spending Next := do
  let status ← read fun s => s.admission.failedVerifyStatus caller now
  demand (status.1 < perPrincipalFailedVerifyLimit) (spendAdmissionError "FAILED_VERIFY_LIMIT" status.2)
  let existing ← read fun s => s.spends.pending[args.spendId]?
  match existing with
  | some record => do
    lift (answerExisting caller record args)
    pure .done
  | none => do
    let f ← captureSpend now caller args
    ensurePayoutMemoKey now f

/-- `private_spend`, up to its first await. -/
def privateSpend (D : Deployment) (now : Nat) (caller : Principal) (args : PrivateSpendArgs) :
    Spending Next := do
  demand (caller ≠ Principal.anonymous) .anonymousCaller
  let paused ← read fun s => s.security.spendsPaused
  demand (paused = false) .paused
  gate
  assertDeploymentConfig D args.expectedDeploymentConfigHash
  enterTicket caller
  leaving (releaseSpendSlot caller) (admitSpend now caller args)

/-! ### The reservation -/

def changedBeforeReservation (id : SpendId) : PoolError := .transferFailed
  s!"spend {id.toNat} record changed unexpectedly before nullifier reservation"

/-- The live record is the one this call wrote, or one like it. -/
def recordIsOurs (submitter : Option Principal) (record : Option PendingSpend) : Bool :=
  match record with
  | some r => r.status == .verificationPending && r.submitter == submitter
  | none => false

def stagedOutputs (now : Nat) (args : PrivateSpendArgs) : PendingOutputRecord where
  spendId := args.spendId
  outputCommitments := args.outputCommitments
  encryptedOutputs := (List.range args.outputCommitments.length).map fun i =>
    args.encryptedOutputs.getD i []
  preAppendRoot := none
  preAppendLeafCount := none
  expectedFirstLeafIndex := none
  expectedOutputCount := args.outputCommitments.length
  resultingRoot := none
  createdAtNs := now

def setSpendStatus (a : AdmittedSpend) (status : SpendStatus) : Spending Unit :=
  write fun s => {s with
    spends := s.spends.setPendingSpend a.frame.args.spendId {a.pending with status := status}}

/-- From the reservation in the heap to the registry's call. -/
def reserveNullifiers (now : Nat) (a : AdmittedSpend) : Spending Next := do
  let args := a.frame.args
  let holder ← read fun s => args.nullifiers.findSome? fun n => s.withdrawalNullifiers[n]?
  match holder with
  | some id =>
    failBeforeStateChange now args.spendId
      s!"NullifierReserved: withdrawal {id} holds this nullifier" .nullifierReserved
  | none => do
    let busy ← read fun s => args.nullifiers.any fun n => s.spends.inflight.contains n
    if busy then
      failBeforeStateChange now args.spendId
        "NullifierReserved: concurrent spend holds this nullifier" .nullifierReserved
    else do
      write fun s => {s with spends.inflight := insertAll s.spends.inflight args.nullifiers}
      setSpendStatus a .nullifierReserved
      write fun s => {s with spends.outputs := s.spends.outputs.insert args.spendId (stagedOutputs now args)}
      setSpendStatus a .outputsStaged
      pure (.awaits (.insertBatch a))

/-- `commit_private_spend`: what is overdue is activated, then the epoch is compared, and
acted on once the record is known to be this call's. -/
def commitPrivateSpend (now : Nat) (a : AdmittedSpend) : Spending Next := do
  maybeActivatePendingVk now
  let epoch ← read fun s => s.security.securityEpoch
  let record ← read fun s => s.spends.pending[a.frame.args.spendId]?
  demand (recordIsOurs a.pending.submitter record = true)
    (changedBeforeReservation a.frame.args.spendId)
  if epoch ≠ a.frame.capturedEpoch then do
    write fun s => {s with spends := s.spends.discardSpend a.pending.submitter a.frame.args.spendId}
    fail .securityEpochChanged
  else
    reserveNullifiers now a

/-! ### After the verifier -/

def changedDuringVerification (id : SpendId) : PoolError := .transferFailed
  s!"spend {id.toNat} record changed unexpectedly during verification"

/-- The end of the recheck. -/
def recheckRecord (now : Nat) (a : AdmittedSpend) : Spending Next := do
  let record ← read fun s => s.spends.pending[a.frame.args.spendId]?
  demand (record.map (·.status) = some .verificationPending)
    (changedDuringVerification a.frame.args.spendId)
  commitPrivateSpend now a

/-- The rechecks behind the nullifiers. -/
def recheckLiability (now : Nat) (a : AdmittedSpend) : Spending Next := do
  let f := a.frame
  let expected ← lift (expectedPrivateSpendFee f.args.publicPayout f.feeParams)
  if f.args.fee ≠ expected then
    failBeforeStateChange now f.args.spendId
      s!"fee snapshot mismatch at step 14c: snapshot_total={expected} args.fee={f.args.fee}"
      (.privateSpendFeeMismatch expected f.args.fee)
  else do
    let liability ← read fun s => s.accounting.heap .privateLiability
    if liability < f.debit then
      failBeforeStateChange now f.args.spendId
        "private liability insufficient to absorb spend debit after verification"
        (.insufficientPrivateLiability f.debit liability)
    else
      match f.args.publicPayout with
      | some payout => pure (.awaits (.recheckFee a payout))
      | none => recheckRecord now a

def recheckNullifiers (now : Nat) (a : AdmittedSpend) : List Bytes32 → Spending Next
  | [] => recheckLiability now a
  | n :: rest => pure (.awaits (.recheckNullifier a n rest))

/-- `recheck_private_spend_after_verify`, up to its first query. -/
def recheckPrivateSpend (now : Nat) (a : AdmittedSpend) : Spending Next := do
  let accepted ← read (isAcceptedAnchor a.frame.args.envelope.rootReference)
  if accepted then
    recheckNullifiers now a a.frame.args.nullifiers
  else
    failBeforeStateChange now a.frame.args.spendId
      "anchor not in accepted_spend_roots at post-verification recheck" .anchorNotFound

/-- A precondition of the payout that fails now ends the record with its own error. -/
def recheckPayout (D : Deployment) (now : Nat) (a : AdmittedSpend) (check : Spending Unit) :
    Spending Unit := fun s =>
  match check.exec s with
  | .ok (.error e, s') =>
    (failBeforeStateChange now a.frame.args.spendId
      s!"public payout precondition changed during verification: {D.debugError e}" e).exec s'
  | r => r

def recipientMismatch : String :=
  "DEF-026: recipient signal mismatch (proof not bound to call recipient)"

/-- The signals the proof was verified against carry the recipient of this call. -/
def bindsRecipient (f : SpendFrame) : Bool :=
  let (recipient, subaccountLo, subaccountHi) := encodeRecipientSignals f.args.publicPayout
  f.signals[6]? == some recipient && f.signals[7]? == some subaccountLo
    && f.signals[8]? == some subaccountHi

/-- The verifier's verdict. -/
def settleVerify (D : Deployment) (now : Nat) (a : AdmittedSpend) (reply : Reply) :
    Spending Next := do
  let id := a.frame.args.spendId
  match verifierCallOutcome D reply with
  | .accepted => do
    resolveVerify a.frame.caller now false
    if bindsRecipient a.frame then
      recheckPrivateSpend now a
    else
      failBeforeStateChange now id recipientMismatch (.proofRejected recipientMismatch)
  | .rejected e => do
    resolveVerify a.frame.caller now true
    invalidateVerifierVkAttestation
    failBeforeStateChange now id e (.proofRejected e)
  | .unavailable e => do
    resolveVerify a.frame.caller now false
    write fun s => {s with spends := s.spends.discardSpend (some a.frame.caller) id}
    fail (.verifierUnavailable e)

/-! ### The registry's answer -/

def definiteNonCommit (code : RejectionCode) : Bool :=
  code == .canisterError || code == .destinationInvalid

/-- The registry has not committed: the staged outputs go, and the reservation with them. -/
def failStaged (now : Nat) (a : AdmittedSpend) (reason : String) (e : PoolError) : Spending Next := do
  write fun s => {s with spends.outputs := s.spends.outputs.erase a.frame.args.spendId}
  write fun s => {s with
    spends := s.spends.endSpend a.frame.args.spendId (failedAfterOutputsStaged reason) now}
  write fun s => {s with spends.inflight := eraseAll s.spends.inflight a.frame.args.nullifiers}
  fail e

/-- The answer of `insert_batch`; what follows an accepted one is the promotion. -/
def settleInsert (D : Deployment) (now : Nat) (a : AdmittedSpend) (reply : Reply) : Spending Next :=
  match reply with
  | .verdict (.ok ()) => do
    write fun s => {s with spends.inflight := eraseAll s.spends.inflight a.frame.args.nullifiers}
    setSpendStatus a .nullifierFinalizedOutputsPending
    pure .promotes
  | .verdict (.error e) =>
    failStaged now a e (if (e.splitOn "NullifierAlreadySpent").length > 1 then .nullifierAlreadySpent
      else .transferFailed s!"nullifier batch insert error: {e}")
  | r =>
    let rejection := D.rejection r
    if definiteNonCommit rejection.code then
      let reason :=
        s!"nullifier registry insert_batch rejected (definite non-commit): {rejection.message}"
      failStaged now a reason (.transferFailed reason)
    else do
      let reason :=
        s!"nullifier registry insert_batch transport outcome unknown: {rejection.message}"
      setSpendStatus a (.nullifierInsertUnknown reason)
      fail (.transferFailed reason)

/-! ### `set_verifier_canister` -/

def setVerifierCanister (caller verifier : Principal) (expectedVkHash : Bytes) : Spending Next := do
  assertOperatorController caller
  demand (expectedVkHash.length = 32) (.invalidVerifierKeyHashLength expectedVkHash.length)
  let pin ← read fun s => s.security.pinnedVkHash
  demand (expectedVkHash = le32 pin) .verifierKeyHashMismatch
  let inProgress ← read fun s => s.setVerifierInProgress
  demand (inProgress = false) .verifierConfigInProgress
  write fun s => {s with setVerifierInProgress := true}
  pure (.awaits (.setVerifier verifier pin))

def attestSetVerifier (D : Deployment) (verifier : Principal) (pin : Bytes32) (reply : Reply) :
    Spending Unit := do
  let reported ← lift (reportedVkHash D "vk_hash call to proposed verifier failed: " reply)
  demand (reported = le32 pin) .verifierKeyHashMismatch
  let current ← read fun s => s.security.pinnedVkHash
  demand (current = pin) .verifierKeyHashChangedDuringAttestation
  setSecurity fun c => {c with verifierCanister := some verifier}
  write fun s => {s with attestation := .matched verifier pin}
  bumpSecurityEpoch

def settleSetVerifier (D : Deployment) (verifier : Principal) (pin : Bytes32) (reply : Reply) :
    Spending Next :=
  leaving (fun s => {s with setVerifierInProgress := false}) do
    attestSetVerifier D verifier pin reply
    pure .done

end StshProtocol.ShieldedPool.PrivateSpend
