import StshProtocol.Foundation.Bytes
import Mathlib.Logic.Function.Basic

/-! What the wallet's note cache holds: the notes it has recovered, how far it has scanned, and
the journals of the intents it has on the wire.

A number the record keeps as decimal text is the number here, and bytes it keeps as hex text are
the bytes. -/
namespace StshProtocol.Wallet

abbrev Bytes := List UInt8

/-! ### Notes -/

inductive NoteLifecycleState where
  | spendable
  | pending
  | spent
  | dummy
  | quarantined
  deriving DecidableEq, Repr

inductive FirstSeenVia where
  | liveScan
  | recoveryImport
  deriving DecidableEq, Repr

/-- A recovered note. An absent `verified` reads as unverified. -/
structure ScannedNote where
  leafIndex : Nat
  value : Nat
  rho : Bytes
  rseed : Bytes
  recipientPk : Bytes
  nonce : Option Bytes
  commitment : Option Bytes
  nullifier : Option Bytes
  state : Option NoteLifecycleState
  verified : Bool
  firstSeenAtNs : Option Nat
  firstSeenVia : Option FirstSeenVia
  deriving DecidableEq, Repr

/-- A note without a lifecycle is a legacy one, and counts as quarantined. -/
def noteLifecycle (n : ScannedNote) : NoteLifecycleState := n.state.getD .quarantined

/-- The notes that make up the balance and are selected for a spend. -/
def spendableNotes (notes : List ScannedNote) : List ScannedNote :=
  notes.filter fun n => noteLifecycle n = .spendable

inductive QuarantineReason where
  | legacyV1Payload
  | malformedPayload
  | fieldMismatch
  | leafMismatch
  | legacyV1Note
  deriving DecidableEq, Repr

structure QuarantineEntry where
  leafIndex : Nat
  reason : QuarantineReason
  deriving DecidableEq, Repr

/-- A count of all the candidates turned away, and the latest of them. -/
structure QuarantineState where
  total : Nat
  ring : List QuarantineEntry
  deriving DecidableEq, Repr

def quarantineRingCap : Nat := 32

structure MirrorHead where
  leafCount : Nat
  root : Bytes
  deriving DecidableEq, Repr

/-! ### The spend journal -/

inductive SpendEntryStatus where
  | planned
  | dispatched
  | finalized
  | payoutPending
  | failed
  | recoveryRequired
  deriving DecidableEq, Repr

structure PublicPayout where
  destinationText : String
  subaccountHex : Option Bytes
  publicAmount : Nat
  recipientNet : Nat
  deriving DecidableEq, Repr

/-- One spend intent. The input leaf is absent where it is not known here. -/
structure SpendJournalEntryState where
  spendId : Nat
  nullifierHex : Bytes
  inputLeafIndex : Option Nat
  outputLeavesHex : List Bytes
  outNoncesHex : List Bytes
  encryptedOutputsHex : List Bytes
  requestJson : String
  intentFingerprintHex : Bytes
  feeStsh : Nat
  publicPayout : Option PublicPayout
  acceptedRootHex : Bytes
  manifestVersion : Nat
  status : SpendEntryStatus
  createdAtNs : Nat
  dispatchedAtNs : Option Nat
  collisionOf : Option Nat
  failureReason : Option String
  deriving DecidableEq, Repr

structure SpendJournalState where
  entries : List SpendJournalEntryState
  deriving DecidableEq, Repr

/-! ### The shield journal -/

inductive ShieldEntryStatus where
  | planned
  | deposited
  | unknown
  | failed
  | accepted
  deriving DecidableEq, Repr

/-- One shield intent, for one note. -/
structure ShieldJournalEntryState where
  commitmentHex : Bytes
  denom : Nat
  nonceHex : Bytes
  protoFee : Nat
  ledgerFee : Nat
  encryptedPayloadHex : Bytes
  status : ShieldEntryStatus
  createdAtNs : Nat
  dispatchedAtNs : Option Nat
  successObserved : Bool
  poolStatus : Option String
  failureReason : Option String
  deriving DecidableEq, Repr

inductive ShieldApprovalStatus where
  | planned
  | approved
  | unknown
  | failed
  deriving DecidableEq, Repr

/-- The approval of a batch. -/
structure ShieldApprovalState where
  totalAllowance : Nat
  expectedAllowance : Nat
  createdAtTimeNs : Nat
  ledgerFee : Nat
  status : ShieldApprovalStatus
  blockIndex : Option Nat
  failureReason : Option String
  deriving DecidableEq, Repr

structure ShieldJournalState where
  entries : List ShieldJournalEntryState
  approval : Option ShieldApprovalState
  deriving DecidableEq, Repr

/-! ### Verified scans -/

/-- Evidence of one completed verified sweep. -/
structure VerifiedScanMetadata where
  configHash : Bytes
  acceptedRoot : Bytes
  acceptedLeafCount : Nat
  securityEpoch : Nat
  spentCount : Nat
  spentSetDigest : Bytes
  validatedAtMs : Nat
  freshnessBudgetMs : Nat
  deriving DecidableEq, Repr

structure VerifiedScanFloor where
  highestAcceptedLeafCount : Nat
  rootAtCount : Bytes
  deriving DecidableEq, Repr

/-- `verifiedFloorKey`. -/
structure FloorKey where
  configHash : Bytes
  securityEpoch : Nat
  deriving DecidableEq, Repr

/-- The floors by key, as an object with one property a key. -/
abbrev VerifiedFloors := List (FloorKey × VerifiedScanFloor)

structure CachedScanState where
  notes : List ScannedNote
  lastScannedIndex : Nat
  shieldJournal : Option ShieldJournalState
  mirrorHead : Option MirrorHead
  quarantine : Option QuarantineState
  spendJournal : Option SpendJournalState
  verifiedScan : Option VerifiedScanMetadata
  verifiedFloors : Option VerifiedFloors
  migratedFromV2 : Bool
  deriving DecidableEq, Repr

def emptyScanState : CachedScanState where
  notes := []
  lastScannedIndex := 0
  shieldJournal := none
  mirrorHead := none
  quarantine := none
  spendJournal := none
  verifiedScan := none
  verifiedFloors := none
  migratedFromV2 := false

end StshProtocol.Wallet
