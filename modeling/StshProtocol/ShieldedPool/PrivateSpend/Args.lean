import StshProtocol.FeePolicy.Fees
import StshProtocol.MerkleTree.State
import StshProtocol.ShieldedPool.Records
import StshProtocol.Token.Basic

/-! The arguments of `private_spend`, what they must carry, and the nine public signals
that bind the proof to them. -/
namespace StshProtocol.ShieldedPool.PrivateSpend
open Foundation FeePolicy

def expectedGroth16ProofBytes : Nat := 256
def maxEncryptedOutputBytes : Nat := 1024

structure ProofEnvelope where
  circuitVersion : Nat
  proofSystemId : String
  verifyingKeyHash : Bytes32
  rootReference : Bytes32
  poolVersion : Nat
  proofBytes : Bytes
  deriving DecidableEq, Repr

structure PrivateSpendPublicPayout where
  destination : Principal
  destinationSubaccount : Option Bytes32
  publicAmount : Nat
  deriving DecidableEq, Repr

structure PrivateSpendArgs where
  spendId : SpendId
  envelope : ProofEnvelope
  nullifiers : List Bytes32
  outputCommitments : List Bytes32
  encryptedOutputs : List Bytes
  fee : Nat
  publicPayout : Option PrivateSpendPublicPayout
  expectedDeploymentConfigHash : Option Bytes32
  deriving DecidableEq, Repr

/-! ### Amounts -/

def privateSpendPublicAmount (args : PrivateSpendArgs) : Except PoolError Nat :=
  match args.publicPayout with
  | some payout => if payout.publicAmount = 0 then .error .malformedSpendArgs else .ok payout.publicAmount
  | none => .ok 0

def privateSpendPrivateLiabilityDebit (args : PrivateSpendArgs) : Except PoolError Nat := do
  let publicAmount ← privateSpendPublicAmount args
  match checkedAdd128 args.fee publicAmount with
  | some debit => .ok debit
  | none => .error .sumOverflow

def feePolicyError (e : FeePolicyError) : PoolError :=
  .transferFailed s!"private spend fee policy error: {e.debug}"

/-- A spend with a payout is an exit, and pays the unshielding fee on what leaves. -/
def expectedPrivateSpendFee (payout : Option PrivateSpendPublicPayout) (p : GovernanceFeeParams) :
    Except PoolError Nat :=
  match payout with
  | some payout => (p.unshieldProtocolFee payout.publicAmount).mapError feePolicyError
  | none => (computePrivateSpendFeePreview false none p).mapError feePolicyError

/-- The split frozen into the record; a policy that gives none freezes none. -/
def feeSplitSnapshot (fee : Nat) (p : GovernanceFeeParams) : Option Nat × Option Nat × Option Nat :=
  if 0 < fee then
    match splitProtocolFeeToReserves fee p with
    | .ok s => (some s.operationsReserve, some s.insuranceReserve, some s.stakingRewardsReserve)
    | .error _ => (none, none, none)
  else
    (some 0, some 0, some 0)

/-! ### Public signals -/

/-- The bytes of a signal. -/
def le32 (x : Bytes32) : Bytes := Bytes.toBe 32 x.toNat

def padTo32 (bytes : Bytes) : Bytes := bytes ++ List.replicate (32 - bytes.length) 0

def u128ToFrLe (x : Nat) : Bytes := padTo32 (Bytes.toBe 16 x).reverse

/-- The recipient, its length in the last byte, and the halves of its subaccount. -/
def encodeRecipientSignals (payout : Option PrivateSpendPublicPayout) : Bytes × Bytes × Bytes :=
  match payout with
  | none => (List.replicate 32 0, List.replicate 32 0, List.replicate 32 0)
  | some p =>
    let slice := Token.principalSlice p.destination
    let sub := le32 (p.destinationSubaccount.getD 0)
    ((padTo32 slice).take 31 ++ [UInt8.ofNat slice.length], padTo32 (sub.take 16),
      padTo32 (sub.drop 16))

def checkCanonicalSignal (signal : Bytes32 × String) : Except PoolError Unit :=
  if MerkleTree.isCanonicalFrLe (le32 signal.1) then
    .ok ()
  else
    .error (.proofRejected s!"NonCanonicalSignal: {signal.2} bytes >= BN254 Fr modulus")

def buildSpendPublicSignals (args : PrivateSpendArgs) : Except PoolError (List Bytes) :=
  match args.nullifiers, args.outputCommitments with
  | [nullifier], [oc1, oc2] => do
    let publicAmount ← privateSpendPublicAmount args
    [(args.envelope.rootReference, "anchor"), (nullifier, "nullifier_hash"),
      (oc1, "output_commitment_1"), (oc2, "output_commitment_2")].forM checkCanonicalSignal
    let (recipient, subaccountLo, subaccountHi) := encodeRecipientSignals args.publicPayout
    .ok [le32 args.envelope.rootReference, le32 nullifier, le32 oc1, le32 oc2,
      u128ToFrLe publicAmount, u128ToFrLe args.fee, recipient, subaccountLo, subaccountHi]
  | _, _ => .error .malformedSpendArgs

/-! ### Static validation -/

/-- Oversized inputs are refused before anything is done with them. -/
def checkSizes (args : PrivateSpendArgs) : Except PoolError Unit :=
  if expectedGroth16ProofBytes < args.envelope.proofBytes.length then
    .error (.invalidProofLength args.envelope.proofBytes.length expectedGroth16ProofBytes)
  else
    args.encryptedOutputs.zipIdx.forM fun out =>
      if maxEncryptedOutputBytes < out.1.length then
        .error (.encryptedOutputTooLarge out.2 out.1.length maxEncryptedOutputBytes)
      else
        .ok ()

def checkFee (args : PrivateSpendArgs) (p : GovernanceFeeParams) : Except PoolError Unit := do
  let expected ← expectedPrivateSpendFee args.publicPayout p
  if args.fee ≠ expected then
    .error (.privateSpendFeeMismatch expected args.fee)
  else
    .ok ()

/-- One nullifier, two outputs, and a payload for each output. -/
def checkShape (args : PrivateSpendArgs) : Except PoolError Unit :=
  if args.encryptedOutputs.length ≠ args.outputCommitments.length then
    .error .malformedSpendArgs
  else if args.nullifiers.length ≠ 1 ∨ args.outputCommitments.length ≠ 2 then
    .error .malformedSpendArgs
  else
    .ok ()

/-- The two outputs are distinct and neither is zero. -/
def checkOutputs (outputCommitments : List Bytes32) : Except PoolError Unit :=
  if outputCommitments[0]? = outputCommitments[1]? then
    .error .duplicateOutputCommitment
  else if outputCommitments[0]? = some 0 ∨ outputCommitments[1]? = some 0 then
    .error .invalidOutputCommitment
  else
    .ok ()

/-- The resubmission carries the intent of the record. -/
def spendIntentMatches (existing : PendingSpend) (args : PrivateSpendArgs) : Bool :=
  existing.nullifiers == args.nullifiers && existing.outputCommitments == args.outputCommitments
    && existing.fee.getD 0 == args.fee
    && match existing.publicPayout, args.publicPayout with
      | none, none => true
      | some e, some a => e.destination == a.destination
          && e.destinationSubaccount == a.destinationSubaccount && e.publicAmount == a.publicAmount
      | _, _ => false

/-- What a resubmission of the same intent is answered. -/
def existingSpendAnswer (id : SpendId) (status : SpendStatus) : Except PoolError Unit :=
  match status with
  | .finalized => .ok ()
  | .failedBeforeStateChange reason => .error (.transferFailed
      s!"spend {id.toNat} previously failed (before state): {reason}")
  | .failedAfterOutputsStaged reason => .error (.transferFailed
      (s!"spend {id.toNat} previously failed (parent nullifier not committed; staged outputs " ++
        s!"discarded): {reason}"))
  | .payoutPending reason => .error (.transferFailed
      s!"spend {id.toNat} public payout pending; call retry_private_spend_payout: {reason}")
  | .activeAppendUnknown reason => .error (.transferFailed
      (s!"spend {id.toNat} output promotion outcome unknown; call reconcile_pending_spend: " ++
        s!"{reason}"))
  | .activeAppendRejected reason => .error (.transferFailed
      s!"spend {id.toNat} output promotion failed; call reconcile_pending_spend to retry: {reason}")
  | _ => .error .duplicateSpendId

/-- A foreign or unattributed record is not spoken of. -/
def answerExisting (caller : Principal) (existing : PendingSpend) (args : PrivateSpendArgs) :
    Except PoolError Unit :=
  if existing.submitter = some caller then
    if spendIntentMatches existing args then existingSpendAnswer args.spendId existing.status
    else .error .idempotencyKeyConflict
  else
    .error .duplicateSpendId

end StshProtocol.ShieldedPool.PrivateSpend
