import StshProtocol.Foundation.TimeIndex
import StshProtocol.Vesting.State

/-! The state of the key canister.

A principal derives its key through the platform, which costs the canister cycles: what a
principal has derived lately, what it has under way, and what all principals have dispatched in
the last hour bound it. A principal enrols devices; a device's public key checks what the device
signs, and the canister keeps for it an envelope that only the device can open. -/
namespace StshProtocol.Vetkeys
open Foundation ShieldedPool Vesting

/-! ### Pins -/

def deriveQuota : Nat := 5

def deriveWindowNs : Nat := 86_400_000_000_000

def bootstrapTicketTtlNs : Nat := 600_000_000_000

def registrationQuota : Nat := 5

def registrationWindowNs : Nat := 86_400_000_000_000

def replaceQuota : Nat := 5

def replaceWindowNs : Nat := 86_400_000_000_000

def revokeQuota : Nat := 5

def revokeWindowNs : Nat := 86_400_000_000_000

def noncePruneMax : Nat := 16

def maxActiveDevices : Nat := 10

def stalePredispatchTtlNs : Nat := 300_000_000_000

def staleDispatchedChargeNs : Nat := 86_400_000_000_000

def eligibilityMinBalanceE8s : Nat := 10_000_000

def deriveCycleFloorCycles : Nat := 500_000_000_000

def globalDeriveBudget : Nat := 100

def perPrincipalHourlyDeriveCap : Nat := 2

def globalDeriveWindowNs : Nat := 3_600_000_000_000

def maxDeviceIdBytes : Nat := 64

def eligibilityMinAgeNs : Nat := 120_000_000_000

def sightingRetentionNs : Nat := 604_800_000_000_000

def maxSightings : Nat := 10_000

def sightingPruneMax : Nat := 16

def deviceApprovalClearDelayNs : Nat := 86_400_000_000_000

/-! ### Keys -/

def principalMaxBytes : Nat := 29

/-- A principal as a map's key: its bytes behind their number, filled up with zeros. -/
abbrev PrincipalKey : Type := Bytes

def PrincipalKey.new (p : PrincipalBytes) : PrincipalKey :=
  p.sized ++ List.replicate (principalMaxBytes - p.asSlice.length) 0

/-- A device's id, by the bytes of its text. -/
abbrev DeviceIdKey : Type := Bytes

def DeviceIdKey.new (deviceId : Bytes) : Option DeviceIdKey :=
  if deviceId = [] ∨ maxDeviceIdBytes < deviceId.length then none
  else some (UInt8.ofNat deviceId.length :: deviceId ++
    List.replicate (maxDeviceIdBytes - deviceId.length) 0)

/-- The owner's key, then the device's. -/
def deviceKey (owner : PrincipalKey) (deviceId : DeviceIdKey) : Bytes := owner ++ deviceId

/-- The keys between an owner's least and greatest. -/
def InOwnerRange (owner : PrincipalKey) (k : Bytes) : Prop :=
  (compare (deviceKey owner (List.replicate (1 + maxDeviceIdBytes) 0)) k).isLE = true ∧
    (compare k (deviceKey owner (List.replicate (1 + maxDeviceIdBytes) 255))).isLE = true

instance (owner : PrincipalKey) (k : Bytes) : Decidable (InOwnerRange owner k) :=
  inferInstanceAs (Decidable (_ ∧ _))

def nonceKey (owner : PrincipalKey) (issuer : DeviceIdKey) (nonce : Bytes) : Bytes :=
  owner ++ issuer ++ nonce

/-! ### Records -/

inductive DeviceStatus where
  | active
  | revoked
  deriving DecidableEq, Repr

inductive ApprovedBy where
  | bootstrap
  | device (issuer : DeviceIdKey)
  deriving DecidableEq, Repr

structure DeviceRecord where
  encPubkeySpki : Bytes
  signPubkeySpki : Bytes
  status : DeviceStatus
  addedAtNs : Nat
  revokedAtNs : Option Nat
  approvedBy : ApprovedBy
  deriving DecidableEq, Repr

structure RebootstrapPolicyV1 where
  allowReBootstrap : Bool
  authorizedByDevice : Option DeviceIdKey
  authorizedAtNs : Nat
  deriving DecidableEq, Repr

structure DeviceApprovalPolicyV1 where
  requireDeviceApproval : Bool
  setByDevice : DeviceIdKey
  setAtNs : Nat
  pendingClearAtNs : Option Nat
  deriving DecidableEq, Repr

structure BootstrapTicket where
  mintedAtNs : Nat
  expiresAtNs : Nat
  used : Bool
  deriving DecidableEq, Repr

inductive ReservationPhase where
  | preDispatch
  | dispatched
  deriving DecidableEq, Repr

structure Reservation where
  id : Nat
  createdAtNs : Nat
  phase : ReservationPhase
  deriving DecidableEq, Repr

/-- What a principal has been charged for lately, and what it has under way. -/
structure AdmissionState where
  committed : List Nat
  reservations : List Reservation
  nextReservationId : Nat
  deriving DecidableEq, Repr

def AdmissionState.default : AdmissionState := ⟨[], [], 0⟩

structure RegistrationWindow where
  attempts : List Nat
  deriving DecidableEq, Repr

def RegistrationWindow.default : RegistrationWindow := ⟨[]⟩

structure DispatchRecord where
  atNs : Nat
  who : Option PrincipalKey
  firstDerive : Bool
  deriving DecidableEq, Repr

structure GlobalDeriveWindow where
  dispatched : List DispatchRecord
  deriving DecidableEq, Repr

structure MeterEntry where
  windowStartNs : Nat
  count : Nat
  deriving DecidableEq, Repr

structure MeterState where
  entries : StableMap Bytes MeterEntry
  lastSweepNs : Option Nat
  sweeps : Nat
  entriesExamined : Nat

def MeterState.default : MeterState := ⟨∅, none, 0, 0⟩

/-- The counters of the monitoring surface. -/
structure Stats where
  refusalsBudgetTotal : Nat
  sightingsRecordedTotal : Nat
  ageRefusalsTotal : Nat
  deriving DecidableEq, Repr

/-! ### State -/

/-- A management call: of which principal, for which reservation, and when. -/
structure Dispatch where
  who : PrincipalKey
  id : Nat
  atNs : Nat
  deriving DecidableEq, Repr

/-- What no code reads, the latest first: the reservations made, the management calls
dispatched, the reservations released, and those charged with their calls still out. -/
structure History where
  admitted : List (PrincipalKey × Nat)
  dispatched : List Dispatch
  released : List (PrincipalKey × Nat)
  charged : List (PrincipalKey × Nat)
  deriving DecidableEq, Repr

/-- What no code reads, either: a ticket minted by a derive that is done, a device enrolled, and
a re-bootstrap authorised by a device, with its record at that time. -/
inductive Mark where
  | minted (who : PrincipalKey) (atNs : Nat)
  | enrolled (owner : PrincipalKey) (device : Bytes) (approvedBy : ApprovedBy)
  | authorized (owner : PrincipalKey) (issuer : DeviceIdKey) (record : DeviceRecord)
  deriving DecidableEq, Repr

/-- The stable maps and cells; on the heap the meter and the counters; and the history and the
marks, the latest first. -/
structure VetkeysState where
  devices : StableMap Bytes DeviceRecord
  wrappedSecrets : StableMap Bytes Bytes
  bootstrapTickets : StableMap PrincipalKey BootstrapTicket
  consumedNonces : Timed Bytes Nat
  admission : StableMap PrincipalKey AdmissionState
  established : StableMap PrincipalKey Nat
  registrations : StableMap PrincipalKey RegistrationWindow
  tokenCanister : Option PrincipalBytes
  replacements : StableMap PrincipalKey RegistrationWindow
  revocationRate : StableMap PrincipalKey RegistrationWindow
  globalDeriveBudgetWindow : GlobalDeriveWindow
  eligibilitySightings : Timed PrincipalKey Nat
  reBootstrapPolicy : StableMap PrincipalKey RebootstrapPolicyV1
  deviceApprovalPolicy : StableMap PrincipalKey DeviceApprovalPolicyV1
  meter : MeterState
  stats : Stats
  history : History
  marks : List Mark

/-- The state before `init`. -/
def VetkeysState.fresh : VetkeysState where
  devices := ∅
  wrappedSecrets := ∅
  bootstrapTickets := ∅
  consumedNonces := .empty
  admission := ∅
  established := ∅
  registrations := ∅
  tokenCanister := none
  replacements := ∅
  revocationRate := ∅
  globalDeriveBudgetWindow := ⟨[]⟩
  eligibilitySightings := .empty
  reBootstrapPolicy := ∅
  deviceApprovalPolicy := ∅
  meter := .default
  stats := ⟨0, 0, 0⟩
  history := ⟨[], [], [], []⟩
  marks := []

/-! ### Errors -/

inductive VetkeysError where
  | anonymousCaller
  | rateLimited (message : String)
  | derivationQuotaExceeded (retryAfterNs : Nat)
  | admissionLapsed
  | invalidTransportKey (message : String)
  | notAuthorized (reason : String)
  | invalidRequest (message : String)
  | bootstrapNotAuthorized (reason : String)
  | approvalRejected (reason : String)
  | registrationRateExceeded (retryAfterNs : Nat)
  | revocationRateExceeded (retryAfterNs : Nat)
  | deviceLimitReached (active : Nat)
  | unknownDevice
  | principalNotEligible (message : String)
  | eligibilityCheckUnavailable (message : String)
  | cycleFloorReached (liquidCycles requiredCycles : Nat)
  | globalDerivationBudgetExceeded (retryAfterNs : Nat)
  | eligibilityAgeNotMet (retryAfterNs : Nat)
  | principalHourlyDerivationCapExceeded (retryAfterNs : Nat)
  deriving DecidableEq, Repr

end StshProtocol.Vetkeys
