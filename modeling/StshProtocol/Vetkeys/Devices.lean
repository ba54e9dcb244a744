import StshProtocol.Foundation.Handler
import StshProtocol.Vetkeys.State

/-! Devices and who may enrol them.

A device is enrolled by one that is already active, which signs for exactly what is stored, or by
a ticket that a derive left shortly before and that serves once. The ticket path is shut while
the principal demands a device's approval and has an active device, and once all its devices are
revoked, unless one of them has signed before that it may be opened once more. No message here
awaits. -/
namespace StshProtocol.Vetkeys
open Foundation ShieldedPool Vesting

/-! ### Transcripts: the bytes a device signs

Each of the five signed operations has its own: the protocol and its version, the canister, the
action, the principal, and the operation's fields, every field of variable length behind its
length. What is signed of a public key or an envelope is its hash. -/

abbrev Hash32 : Type := {b : Bytes // b.length = 32}

abbrev Nonce16 : Type := {b : Bytes // b.length = 16}

def transcriptProtocol : Bytes := Token.tag "stsh.vetkeys.device-approval"

def transcriptVersion : Nat := 1

def actionRegisterDevice : Bytes := Token.tag "register_device"

def actionRevokeDevice : Bytes := Token.tag "revoke_device"

def actionReplaceEnvelope : Bytes := Token.tag "replace_envelope"

def actionAuthorizeReBootstrap : Bytes := Token.tag "authorize_re_bootstrap"

def actionSetDeviceApprovalPolicy : Bytes := Token.tag "set_device_approval_policy"

/-- A field of variable length, behind its length. -/
def pushVar (field : Bytes) : Bytes := Bytes.toLe 4 field.length ++ field

/-- What every transcript begins with. -/
def transcriptHead (canisterId principal : PrincipalBytes) (action : Bytes) : Bytes :=
  pushVar transcriptProtocol ++ Bytes.toLe 2 transcriptVersion ++ pushVar canisterId.asSlice ++
    pushVar action ++ pushVar principal.asSlice

/-- What every transcript ends with. -/
def transcriptTail (nonce : Nonce16) (expiryNs : Nat) : Bytes := nonce.val ++ Bytes.toLe 8 expiryNs

structure ApprovalV1 where
  canisterId : PrincipalBytes
  principal : PrincipalBytes
  issuerDeviceId : Bytes
  newDeviceId : Bytes
  encPubkeyHash : Hash32
  signPubkeyHash : Hash32
  wrappedSecretHash : Hash32
  nonce : Nonce16
  expiryNs : Nat
  deriving DecidableEq

def ApprovalV1.encode (t : ApprovalV1) : Bytes :=
  transcriptHead t.canisterId t.principal actionRegisterDevice ++ pushVar t.issuerDeviceId ++
    pushVar t.newDeviceId ++ t.encPubkeyHash.val ++ t.signPubkeyHash.val ++
    t.wrappedSecretHash.val ++ transcriptTail t.nonce t.expiryNs

structure RevokeV1 where
  canisterId : PrincipalBytes
  principal : PrincipalBytes
  issuerDeviceId : Bytes
  targetDeviceId : Bytes
  nonce : Nonce16
  expiryNs : Nat
  deriving DecidableEq

def RevokeV1.encode (t : RevokeV1) : Bytes :=
  transcriptHead t.canisterId t.principal actionRevokeDevice ++ pushVar t.issuerDeviceId ++
    pushVar t.targetDeviceId ++ transcriptTail t.nonce t.expiryNs

structure ReBootstrapV1 where
  canisterId : PrincipalBytes
  principal : PrincipalBytes
  issuerDeviceId : Bytes
  nonce : Nonce16
  expiryNs : Nat
  deriving DecidableEq

def ReBootstrapV1.encode (t : ReBootstrapV1) : Bytes :=
  transcriptHead t.canisterId t.principal actionAuthorizeReBootstrap ++ pushVar t.issuerDeviceId ++
    transcriptTail t.nonce t.expiryNs

structure SetDeviceApprovalPolicyV1 where
  canisterId : PrincipalBytes
  principal : PrincipalBytes
  issuerDeviceId : Bytes
  requireDeviceApproval : Bool
  nonce : Nonce16
  expiryNs : Nat
  deriving DecidableEq

def SetDeviceApprovalPolicyV1.encode (t : SetDeviceApprovalPolicyV1) : Bytes :=
  transcriptHead t.canisterId t.principal actionSetDeviceApprovalPolicy ++
    pushVar t.issuerDeviceId ++ [if t.requireDeviceApproval then 1 else 0] ++
    transcriptTail t.nonce t.expiryNs

structure ReplaceV1 where
  canisterId : PrincipalBytes
  principal : PrincipalBytes
  deviceId : Bytes
  oldEnvelopeHash : Hash32
  newEnvelopeHash : Hash32
  nonce : Nonce16
  expiryNs : Nat
  deriving DecidableEq

def ReplaceV1.encode (t : ReplaceV1) : Bytes :=
  transcriptHead t.canisterId t.principal actionReplaceEnvelope ++ pushVar t.deviceId ++
    t.oldEnvelopeHash.val ++ t.newEnvelopeHash.val ++ transcriptTail t.nonce t.expiryNs

/-! ### Devices -/

/-- The parts of the signature library the canister calls. -/
structure P256 where
  publicKeyFromDer : (spki : Bytes) → Bool
  signatureFromSlice : (signature : Bytes) → Bool
  highS : (signature : Bytes) → Bool
  verifies : (spki transcript signature : Bytes) → Bool

/-- What the code takes from outside: its own principal, the hash, the signature library, the
check of a transport key, and how an undecodable answer prints. -/
structure Deployment where
  self : PrincipalBytes
  sha256 : Bytes → Hash32
  p256 : P256
  validTransportKey : Bytes → Bool
  undecodable : String

/-! ### Signatures -/

def signatureBytes : Nat := 64

inductive SignatureRejection where
  | malformedPublicKey
  | malformedSignature
  | highS
  | doesNotVerify
  deriving DecidableEq, Repr

def SignatureRejection.reason : SignatureRejection → String
  | .malformedPublicKey =>
    "the approving device's signing key is not a parseable P-256 SPKI public key"
  | .malformedSignature => "the approval signature is not a 64-byte P-256 (r || s) signature"
  | .highS =>
    "the approval signature has a high-S scalar and is REFUSED (low-S is required; accepting a " ++
      "normalized high-S signature would make two byte strings verify against one transcript)"
  | .doesNotVerify =>
    "the approval signature does not verify against the approving device's key over the " ++
      "canonical transcript"

def P256.verifyTranscript (P : P256) (spki transcript signature : Bytes) :
    Except SignatureRejection Unit :=
  if ¬P.publicKeyFromDer spki then .error .malformedPublicKey
  else if signature.length ≠ signatureBytes then .error .malformedSignature
  else if ¬P.signatureFromSlice signature then .error .malformedSignature
  else if P.highS signature then .error .highS
  else if ¬P.verifies spki transcript signature then .error .doesNotVerify
  else .ok ()

theorem P256.verifyTranscript_ok {P : P256} {spki transcript signature : Bytes}
    (h : P.verifyTranscript spki transcript signature = .ok ()) :
    P.verifies spki transcript signature = true := by
  by_contra hnot
  grind [P256.verifyTranscript]

/-! ### Tickets -/

inductive TicketRejection where
  | noTicket
  | expired
  | alreadyUsed
  deriving DecidableEq, Repr

def TicketRejection.reason : TicketRejection → String
  | .noTicket =>
    "no bootstrap ticket for this principal — a first device may only be registered immediately " ++
      "after a successful vetKey derivation"
  | .expired =>
    "the bootstrap ticket has expired — re-derive (quota permitting) and register within the " ++
      "ticket lifetime"
  | .alreadyUsed =>
    "the bootstrap ticket has already been consumed — a ticket authorizes exactly one device " ++
      "registration"

def BootstrapTicket.mint (nowNs : Nat) : BootstrapTicket :=
  ⟨nowNs, satAdd64 nowNs bootstrapTicketTtlNs, false⟩

def checkConsumable (ticket : Option BootstrapTicket) (nowNs : Nat) :
    Except TicketRejection BootstrapTicket :=
  match ticket with
  | none => .error .noTicket
  | some ticket =>
    if ticket.used then .error .alreadyUsed
    else if ticket.expiresAtNs ≤ nowNs then .error .expired
    else .ok ticket

def BootstrapTicket.consume (ticket : BootstrapTicket) : BootstrapTicket :=
  {ticket with used := true}

/-! ### Rates -/

/-- The answer of a window, a refusal telling how long to wait, and the window it leaves. -/
def RegistrationWindow.charge (nowNs quota windowNs : Nat) (w : RegistrationWindow) :
    Except Nat Unit × RegistrationWindow :=
  let attempts := w.attempts.filter fun t => decide (nowNs - t < windowNs)
  if quota ≤ attempts.length then
    (.error (satAdd64 (attempts.min?.getD nowNs) windowNs - nowNs), ⟨attempts⟩)
  else (.ok (), ⟨attempts ++ [nowNs]⟩)

def chargeRegistration (nowNs : Nat) (w : RegistrationWindow) : Except Nat Unit × RegistrationWindow :=
  w.charge nowNs registrationQuota registrationWindowNs

def chargeReplacement (nowNs : Nat) (w : RegistrationWindow) : Except Nat Unit × RegistrationWindow :=
  w.charge nowNs replaceQuota replaceWindowNs

def chargeRevocation (nowNs : Nat) (w : RegistrationWindow) : Except Nat Unit × RegistrationWindow :=
  w.charge nowNs revokeQuota revokeWindowNs

/-! ### What is stored -/

def wrappedSecretMaxBytes : Nat := 1024

def deviceRecordMaxBytes : Nat := 1024

def wrappedSecretFits (length : Nat) : Bool := decide (length ≤ wrappedSecretMaxBytes)

/-- The stored size of a revoked record that a device approved, the largest there is. -/
def deviceRecordFits (encLength signLength : Nat) : Bool :=
  decide (1 + (4 + encLength) + (4 + signLength) + 1 + 8 + (1 + 8) + (1 + (1 + maxDeviceIdBytes)) ≤
    deviceRecordMaxBytes)

namespace VetkeysState

/-- The owner's rows. -/
def devicesOf (s : VetkeysState) (owner : PrincipalKey) : List DeviceRecord :=
  (s.devices.toList.filter fun e => decide (InOwnerRange owner e.1)).map (·.2)

def activeDevices (s : VetkeysState) (owner : PrincipalKey) : List DeviceRecord :=
  (s.devicesOf owner).filter fun r => decide (r.status = .active)

def hasEverEnrolled (s : VetkeysState) (owner : PrincipalKey) : Bool := !(s.devicesOf owner).isEmpty

def deviceApprovalRequired (s : VetkeysState) (owner : PrincipalKey) (nowNs : Nat) : Bool :=
  s.deviceApprovalPolicy[owner]?.any fun p =>
    p.requireDeviceApproval && !p.pendingClearAtNs.any fun t => decide (t ≤ nowNs)

def bootstrapPathOpen (s : VetkeysState) (owner : PrincipalKey) (nowNs : Nat) : Bool :=
  if ¬(s.activeDevices owner).isEmpty then !s.deviceApprovalRequired owner nowNs
  else if ¬s.hasEverEnrolled owner then true
  else (s.reBootstrapPolicy[owner]?.map (·.allowReBootstrap)).getD false

end VetkeysState

/-! ### Endpoints -/

/-- A message of the canister that does not await. -/
abbrev Endpoint (α : Type) : Type := Handler String VetkeysState VetkeysError α

open Handler

def deviceApprovalRequiredReason : String :=
  "this principal requires an existing device to approve new devices — approve from an enrolled " ++
    "device, or request a policy clear (takes effect after 24 hours)"

def reBootstrapNotAuthorized : String :=
  "every device of this principal has been revoked — a further bootstrap registration needs an " ++
    "authorize_re_bootstrap approval signed by a device that was active before the revocation"

def deviceIdKey (deviceId : Bytes) : Except VetkeysError DeviceIdKey :=
  match DeviceIdKey.new deviceId with
  | some k => .ok k
  | none => .error (.invalidRequest s!"device_id must be 1..={maxDeviceIdBytes} UTF-8 bytes")

structure SignedApproval where
  issuerDeviceId : Bytes
  nonce : Bytes
  expiryNs : Nat
  signature : Bytes
  deriving DecidableEq, Repr

inductive DeviceApproval where
  | bootstrap
  | device (signed : SignedApproval)
  deriving DecidableEq, Repr

/-- One victim is taken out of both structures. -/
def removeNonce (b : Timed Bytes Nat) (k : TimeKey Bytes) : Option (Timed Bytes Nat) :=
  if b.byTime.contains k ∧ b.rows[k.key]? = some k.time then
    some ⟨b.rows.erase k.key, b.byTime.erase k⟩
  else none

def pruneExpiredNonces (nowNs : Nat) (b : Timed Bytes Nat) : Option (Timed Bytes Nat) :=
  let victims := (b.byTime.keys.takeWhile fun k => decide (k.time < nowNs)).take noncePruneMax
  victims.foldlM removeNonce b

/-- The expired nonces go, and then this one is taken, unless it has been. -/
def consumeNonce (owner : PrincipalKey) (issuer : DeviceIdKey) (nonce : Nonce16)
    (expiryNs nowNs : Nat) : Endpoint Unit := do
  let nonces ← read (·.consumedNonces)
  let pruned ← expect (pruneExpiredNonces nowNs nonces)
    "CONSUMED_NONCES/NONCE_EXPIRY_INDEX bijection violated during prune"
  write fun s => {s with consumedNonces := pruned}
  let key := nonceKey owner issuer nonce.val
  demand (¬pruned.rows.contains key) (.approvalRejected
    ("this approval nonce has already been used — an approval authorizes exactly one operation"))
  assert (¬pruned.byTime.contains ⟨expiryNs, key⟩)
    "NONCE_EXPIRY_INDEX invariant violated: index row existed without its primary row"
  write fun s => {s with consumedNonces :=
    ⟨pruned.rows.insert key expiryNs, pruned.byTime.insert ⟨expiryNs, key⟩ ()⟩}

/-- The issuer's id, its record and the nonce, if it may sign. -/
def checkIssuer (owner : PrincipalKey) (signed : SignedApproval) (nowNs : Nat) :
    Endpoint (DeviceIdKey × DeviceRecord × Nonce16) := do
  let issuerKey ← lift (deviceIdKey signed.issuerDeviceId)
  let nonce ← need (if h : signed.nonce.length = 16 then some (⟨signed.nonce, h⟩ : Nonce16) else none)
    (.invalidRequest "an approval nonce is exactly 16 bytes")
  demand (signed.signature.length = signatureBytes)
    (.approvalRejected SignatureRejection.malformedSignature.reason)
  demand (nowNs < signed.expiryNs) (.approvalRejected "the approval has expired")
  let row ← read (·.devices[deviceKey owner issuerKey]?)
  let record ← need row
    (.approvalRejected "the approving device is not registered to this principal")
  demand (record.status = .active) (.approvalRejected "the approving device has been revoked")
  pure (issuerKey, record, nonce)

/-- The signature is the issuer's, over the transcript. -/
def verifySigned (D : Deployment) (issuer : DeviceRecord) (transcript signature : Bytes) :
    Endpoint Unit :=
  lift ((D.p256.verifyTranscript issuer.signPubkeySpki transcript signature).mapError
    fun r => .approvalRejected r.reason)

/-- One attempt is charged to a window, whatever comes of the call. -/
def chargeRate (get : VetkeysState → StableMap PrincipalKey RegistrationWindow)
    (set : StableMap PrincipalKey RegistrationWindow → VetkeysState → VetkeysState)
    (charge : RegistrationWindow → Except Nat Unit × RegistrationWindow)
    (refusal : Nat → VetkeysError) (owner : PrincipalKey) : Endpoint Unit := do
  let windows ← read get
  let out := charge (windows[owner]?.getD .default)
  write (set (windows.insert owner out.2))
  lift (out.1.mapError refusal)

def chargeRegistrations (nowNs : Nat) (owner : PrincipalKey) : Endpoint Unit :=
  chargeRate (·.registrations) (fun m s => {s with registrations := m}) (chargeRegistration nowNs)
    .registrationRateExceeded owner

def chargeReplacements (nowNs : Nat) (owner : PrincipalKey) : Endpoint Unit :=
  chargeRate (·.replacements) (fun m s => {s with replacements := m}) (chargeReplacement nowNs)
    .registrationRateExceeded owner

def chargeRevocationRate (nowNs : Nat) (owner : PrincipalKey) : Endpoint Unit :=
  chargeRate (·.revocationRate) (fun m s => {s with revocationRate := m}) (chargeRevocation nowNs)
    .revocationRateExceeded owner

/-- The ticket serves, and with it the policy row. -/
def consumeBootstrap (owner : PrincipalKey) (nowNs : Nat) : Endpoint ApprovedBy := do
  let s ← read id
  demand (s.bootstrapPathOpen owner nowNs) (.bootstrapNotAuthorized
    (if ¬(s.activeDevices owner).isEmpty then deviceApprovalRequiredReason
      else reBootstrapNotAuthorized))
  let ticket ← lift ((checkConsumable s.bootstrapTickets[owner]? nowNs).mapError
    fun r => .bootstrapNotAuthorized r.reason)
  write fun s => {s with
    bootstrapTickets := s.bootstrapTickets.insert owner ticket.consume
    reBootstrapPolicy := s.reBootstrapPolicy.erase owner}
  pure .bootstrap

structure RegisterArgs where
  deviceId : Bytes
  encPubkeySpki : Bytes
  signPubkeySpki : Bytes
  wrappedSecret : Bytes
  approval : DeviceApproval
  deriving DecidableEq, Repr

/-- What a device signs to enrol another. -/
def RegisterArgs.transcript (D : Deployment) (caller : PrincipalBytes) (args : RegisterArgs)
    (signed : SignedApproval) (nonce : Nonce16) : ApprovalV1 where
  canisterId := D.self
  principal := caller
  issuerDeviceId := signed.issuerDeviceId
  newDeviceId := args.deviceId
  encPubkeyHash := D.sha256 args.encPubkeySpki
  signPubkeyHash := D.sha256 args.signPubkeySpki
  wrappedSecretHash := D.sha256 args.wrappedSecret
  nonce := nonce
  expiryNs := signed.expiryNs

def approveBySignature (D : Deployment) (nowNs : Nat) (caller : PrincipalBytes)
    (args : RegisterArgs) (signed : SignedApproval) : Endpoint ApprovedBy := do
  let owner := PrincipalKey.new caller
  let (issuerKey, issuer, nonce) ← checkIssuer owner signed nowNs
  verifySigned D issuer (args.transcript D caller signed nonce).encode signed.signature
  consumeNonce owner issuerKey nonce signed.expiryNs nowNs
  pure (.device issuerKey)

/-- By a ticket or by a device, as the caller says. -/
def approve (D : Deployment) (nowNs : Nat) (caller : PrincipalBytes) (args : RegisterArgs) :
    Endpoint ApprovedBy :=
  match args.approval with
  | .bootstrap => consumeBootstrap (PrincipalKey.new caller) nowNs
  | .device signed => approveBySignature D nowNs caller args signed

/-- The record of a device that is enrolled. -/
def RegisterArgs.record (args : RegisterArgs) (nowNs : Nat) (approvedBy : ApprovedBy) :
    DeviceRecord where
  encPubkeySpki := args.encPubkeySpki
  signPubkeySpki := args.signPubkeySpki
  status := .active
  addedAtNs := nowNs
  revokedAtNs := none
  approvedBy := approvedBy

def VetkeysState.enrol (s : VetkeysState) (owner : PrincipalKey) (key : Bytes)
    (args : RegisterArgs) (nowNs : Nat) (approvedBy : ApprovedBy) : VetkeysState :=
  {s with
    devices := s.devices.insert key (args.record nowNs approvedBy)
    wrappedSecrets := s.wrappedSecrets.insert key args.wrappedSecret
    marks := .enrolled owner key approvedBy :: s.marks}

/-- What is asked of a new device before it is asked who approves it. -/
def checkNewDevice (owner : PrincipalKey) (args : RegisterArgs) : Endpoint Bytes := do
  let newDevice ← lift (deviceIdKey args.deviceId)
  demand (args.encPubkeySpki ≠ [] ∧ args.signPubkeySpki ≠ [])
    (.invalidRequest "both device public keys are required (SPKI DER)")
  demand (args.wrappedSecret ≠ [])
    (.invalidRequest "the wrapped master-secret envelope is required")
  demand (wrappedSecretFits args.wrappedSecret.length)
    (.invalidRequest "the wrapped envelope exceeds the maximum stored size")
  demand (deviceRecordFits args.encPubkeySpki.length args.signPubkeySpki.length)
    (.invalidRequest "the device public keys exceed the maximum stored size")
  let key := deviceKey owner newDevice
  let known ← read (·.devices.contains key)
  demand (¬known) (.invalidRequest
    ("a device with this id is already registered to this principal (revoked ids are retained " ++
      "as evidence and are never reusable)"))
  let active ← read fun s => (s.activeDevices owner).length
  demand (active < maxActiveDevices) (.deviceLimitReached active)
  pure key

def registerDevice (D : Deployment) (nowNs : Nat) (caller : PrincipalBytes) (args : RegisterArgs) :
    Endpoint Unit := do
  demand (caller ≠ .anonymous) .anonymousCaller
  let owner := PrincipalKey.new caller
  chargeRegistrations nowNs owner
  let key ← checkNewDevice owner args
  let approvedBy ← approve D nowNs caller args
  write (·.enrol owner key args nowNs approvedBy)

def VetkeysState.revoke (s : VetkeysState) (key : Bytes) (record : DeviceRecord) (nowNs : Nat) :
    VetkeysState :=
  {s with
    devices := s.devices.insert key {record with status := .revoked, revokedAtNs := some nowNs}
    wrappedSecrets := s.wrappedSecrets.erase key}

def revokeDevice (D : Deployment) (nowNs : Nat) (caller : PrincipalBytes) (deviceId : Bytes)
    (approval : SignedApproval) : Endpoint Unit := do
  demand (caller ≠ .anonymous) .anonymousCaller
  let owner := PrincipalKey.new caller
  chargeRevocationRate nowNs owner
  let target ← lift (deviceIdKey deviceId)
  let (issuerKey, issuer, nonce) ← checkIssuer owner approval nowNs
  let transcript : RevokeV1 :=
    ⟨D.self, caller, approval.issuerDeviceId, deviceId, nonce, approval.expiryNs⟩
  verifySigned D issuer transcript.encode approval.signature
  let key := deviceKey owner target
  let row ← read (·.devices[key]?)
  let record ← need row .unknownDevice
  demand (record.status = .active) (.invalidRequest "that device is already revoked")
  consumeNonce owner issuerKey nonce approval.expiryNs nowNs
  write (·.revoke key record nowNs)

def verifyReplacement (D : Deployment) (issuer : DeviceRecord) (transcript signature : Bytes) :
    Endpoint Unit :=
  lift ((D.p256.verifyTranscript issuer.signPubkeySpki transcript signature).mapError fun r =>
    .approvalRejected (r.reason ++ " (a stale `old_envelope_hash` — a rollback or a lost update " ++
      "— fails here too, because the canister rebuilds the transcript from what is stored NOW)"))

def replaceEnvelope (D : Deployment) (nowNs : Nat) (caller : PrincipalBytes)
    (deviceId newEnvelope : Bytes) (approval : SignedApproval) : Endpoint Unit := do
  demand (caller ≠ .anonymous) .anonymousCaller
  let owner := PrincipalKey.new caller
  chargeReplacements nowNs owner
  let subject ← lift (deviceIdKey deviceId)
  demand (newEnvelope ≠ [] ∧ wrappedSecretFits newEnvelope.length) (.invalidRequest
    "the replacement envelope is empty or exceeds the maximum stored size")
  demand (approval.issuerDeviceId = deviceId) (.approvalRejected
    ("a device may replace only its OWN envelope — the signing device and the subject device " ++
      "must be the same"))
  let (issuerKey, record, nonce) ← checkIssuer owner approval nowNs
  let key := deviceKey owner subject
  let stored ← read (·.wrappedSecrets[key]?)
  let current ← need stored .unknownDevice
  let transcript : ReplaceV1 :=
    ⟨D.self, caller, deviceId, D.sha256 current, D.sha256 newEnvelope, nonce, approval.expiryNs⟩
  verifyReplacement D record transcript.encode approval.signature
  consumeNonce owner issuerKey nonce approval.expiryNs nowNs
  write fun s => {s with wrappedSecrets := s.wrappedSecrets.insert key newEnvelope}

def setDeviceApprovalPolicy (D : Deployment) (nowNs : Nat) (caller : PrincipalBytes)
    (require : Bool) (approval : SignedApproval) : Endpoint Unit := do
  demand (caller ≠ .anonymous) .anonymousCaller
  let owner := PrincipalKey.new caller
  chargeRevocationRate nowNs owner
  let (issuerKey, issuer, nonce) ← checkIssuer owner approval nowNs
  let transcript : SetDeviceApprovalPolicyV1 :=
    ⟨D.self, caller, approval.issuerDeviceId, require, nonce, approval.expiryNs⟩
  verifySigned D issuer transcript.encode approval.signature
  consumeNonce owner issuerKey nonce approval.expiryNs nowNs
  write fun s => {s with deviceApprovalPolicy :=
    if require then s.deviceApprovalPolicy.insert owner ⟨true, issuerKey, nowNs, none⟩
    else s.deviceApprovalPolicy.erase owner}

def requestDeviceApprovalPolicyClear (nowNs : Nat) (caller : PrincipalBytes) : Endpoint Nat := do
  demand (caller ≠ .anonymous) .anonymousCaller
  let owner := PrincipalKey.new caller
  chargeRevocationRate nowNs owner
  let stored ← read (·.deviceApprovalPolicy[owner]?)
  let row ← need stored (.invalidRequest "no device-approval policy is set")
  match row.pendingClearAtNs with
  | some existing => pure existing
  | none => do
    let effective := satAdd64 nowNs deviceApprovalClearDelayNs
    write fun s => {s with deviceApprovalPolicy :=
      s.deviceApprovalPolicy.insert owner {row with pendingClearAtNs := some effective}}
    pure effective

def authorizeReBootstrap (D : Deployment) (nowNs : Nat) (caller target : PrincipalBytes)
    (approval : SignedApproval) : Endpoint Unit := do
  demand (caller ≠ .anonymous) .anonymousCaller
  demand (caller = target) (.invalidRequest
    "authorize_re_bootstrap is caller-scoped: target must be the caller")
  let owner := PrincipalKey.new target
  chargeRevocationRate nowNs owner
  let (issuerKey, issuer, nonce) ← checkIssuer owner approval nowNs
  let transcript : ReBootstrapV1 :=
    ⟨D.self, target, approval.issuerDeviceId, nonce, approval.expiryNs⟩
  verifySigned D issuer transcript.encode approval.signature
  consumeNonce owner issuerKey nonce approval.expiryNs nowNs
  write fun s => {s with
    reBootstrapPolicy := s.reBootstrapPolicy.insert owner ⟨true, some issuerKey, nowNs⟩
    marks := .authorized owner issuerKey issuer :: s.marks}

end StshProtocol.Vetkeys
