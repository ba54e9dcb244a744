import StshProtocol.Foundation.StableMap

/-! The words the pool is written in: principals, 32-byte strings, the unsigned
integers with their checked and saturating arithmetic, the errors an endpoint
answers with and the traps that roll a message back. -/
namespace StshProtocol.ShieldedPool

/-- A 32-byte string read as a big-endian number, so that the order of the
numbers is the order of the strings. -/
abbrev Bytes32 : Type := BitVec 256

/-- A principal: its length byte and its bytes, padded to 29, read the same way. -/
abbrev Principal : Type := BitVec 240

/-- The anonymous principal is the one-byte string `0x04`. -/
def Principal.anonymous : Principal := (1#240 <<< 232) + (4#240 <<< 224)

/-- A `spend_id`, chosen by the caller: any `u64`. -/
abbrev SpendId : Type := BitVec 64

abbrev Bytes : Type := List UInt8

instance : Std.TransOrd Bytes32 := inferInstance

instance : Std.TransOrd SpendId := inferInstance

instance : LawfulBEq Principal := inferInstance

def u32Max : Nat := 2 ^ 32 - 1
def u64Max : Nat := 2 ^ 64 - 1
def u128Max : Nat := 2 ^ 128 - 1

/-- `u64::saturating_add`. -/
def satAdd64 (a b : Nat) : Nat := min (a + b) u64Max

/-- `u64::saturating_mul`. -/
def satMul64 (a b : Nat) : Nat := min (a * b) u64Max

/-- `u128::saturating_add`. -/
def satAdd128 (a b : Nat) : Nat := min (a + b) u128Max

/-- `u128::checked_add`. -/
def checkedAdd128 (a b : Nat) : Option Nat := if a + b ≤ u128Max then some (a + b) else none

/-- `checked_sub`, the same at every width. -/
def checkedSub (a b : Nat) : Option Nat := if b ≤ a then some (a - b) else none

theorem satAdd64_eq {a b : Nat} (h : a + b ≤ u64Max) : satAdd64 a b = a + b := Nat.min_eq_left h

theorem satMul64_eq {a b : Nat} (h : a * b ≤ u64Max) : satMul64 a b = a * b := Nat.min_eq_left h

theorem satAdd128_eq {a b : Nat} (h : a + b ≤ u128Max) : satAdd128 a b = a + b :=
  Nat.min_eq_left h

/-- `PoolError`: what an endpoint answers instead of a result. -/
inductive PoolError where
  | payoutExecutorBusy
  | payoutMemoKeyNotReady
  | payoutLegacyHold
  | payoutStateInvalid
  | invalidDenomination
  | invalidProof
  | nullifierAlreadySpent
  | nullifierReserved
  | anchorNotFound
  | transferFailed (reason : String)
  | insufficientOperationsReserve (needed available : Nat)
  | paused
  | recoveryInProgress (reason : String)
  | solvencyCheckFailed
  | notInitialised
  | commitmentAppendFailed (reason : String)
  | depositCommitmentPending
  | idempotencyKeyConflict
  | sumOverflow
  | escrowUnderfunded (required available : Nat)
  | disbursementNotFound
  | disbursementNotReconcilable
  | disbursementProposalIdRetired
  | anonymousCaller
  | deploymentConfigMismatch
  | verifierUnavailable (reason : String)
  | duplicateSpendId
  | spendNotFound
  | securityEpochChanged
  | invalidProofLength (len expected : Nat)
  | encryptedOutputTooLarge (index len max : Nat)
  | circuitVersionMismatch (expected got : Nat)
  | verifyingKeyMismatch
  | poolVersionMismatch
  | proofSystemMismatch
  | privateSpendFeeMismatch (expected got : Nat)
  | malformedSpendArgs
  | proofRejected (reason : String)
  | duplicateOutputCommitment
  | invalidOutputCommitment
  | insufficientPrivateLiability (required available : Nat)
  | grossAmountBelowFees (withdrawGrossAmount totalFee : Nat)
  | verifierKeyHashMismatch
  | verifierKeyHashChangedDuringAttestation
  | invalidVerifierKeyHashLength (len : Nat)
  | verifierConfigInProgress
  deriving DecidableEq, Repr

end StshProtocol.ShieldedPool
