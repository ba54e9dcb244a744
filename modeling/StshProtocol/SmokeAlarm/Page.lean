import StshProtocol.Foundation.Utf8
import StshProtocol.SmokeAlarm.Snapshot

/-! The page that shows the alarm: it parses the leaf's bytes and derives what it shows.

The parser takes schemas 2 and 3, each under its own mask of reserved bits. A light is green
only when no reason stands against it. -/
namespace StshProtocol.SmokeAlarm.Page
open Foundation Foundation.Bytes ShieldedPool

/-- `'stsh-smoke-alarm-v1'`, by its code points. -/
def domainTagText : List Nat := domainTag.map UInt8.toNat

def schemaVersionV2 : Nat := 2

def schemaVersionV3 : Nat := 3

def acceptedSchemaVersions : List Nat := [schemaVersionV2, schemaVersionV3]

def pageCanonicalLen : Nat := 131

structure ParsedSnapshot where
  schemaVersion : Nat
  status : SnapshotStatus
  supplyInvariantHolds : Bool
  healthy : Bool
  fixedMaxSupplyE8s : Nat
  sumAllBalancesE8s : Nat
  poolBalanceE8s : Nat
  refreshedAtNs : Nat
  maxStalenessNs : Nat
  poolAttestationSourceStatus : SourceReadStatus
  poolDeltaHealthy : Bool
  poolPublicDeltaE8s : Int
  poolAttestedAtNs : Nat
  treasuryReadStatus : SourceReadStatus
  treasuryStrayFundsE8s : Nat
  supplyInvariantUnavailable : Bool
  deriving DecidableEq, Repr

/-- The errors the parser throws, with what their texts name. -/
inductive ParseError where
  /-- `canonical snapshot must be 131 bytes, got …` -/
  | length (got : Nat)
  /-- `bad domain tag: …` -/
  | domainTag (tag : List Nat)
  /-- `unsupported schema_version …` -/
  | schemaVersion (version : Nat)
  /-- `reserved flag bits set: …` -/
  | reservedFlagBits (flags : UInt8)
  /-- `unknown status byte …` -/
  | statusByte (status : UInt8)
  /-- `pool delta must never be positive: …` -/
  | positiveDelta (delta : Int)
  /-- `unknown source read status …` -/
  | sourceReadStatus (status : UInt8)
  deriving DecidableEq, Repr

/-! ### Reading fields -/

/-- `bytes.subarray(start, start + len)`. -/
def slice (bs : Bytes) (start len : Nat) : Bytes := (bs.drop start).take len

/-- `bytes[i]`, within the length. -/
def byteAt (bs : Bytes) (i : Nat) : UInt8 := bs[i]?.getD 0

def beUint (bs : Bytes) (start len : Nat) : Nat := ofBe (slice bs start len)

def beInt (bs : Bytes) (start len : Nat) : Int :=
  let u := beUint bs start len
  if 2 ^ (len * 8 - 1) ≤ u then (u : Int) - 2 ^ (len * 8) else u

/-- `flags & bit`, as a condition. -/
def hasBit (flags bit : UInt8) : Bool := decide (flags &&& bit ≠ 0)

/-- The status a byte is cast to, unless it is over the last one. -/
def snapshotStatus (b : UInt8) : Except ParseError SnapshotStatus :=
  if b = 0 then .ok .fresh
  else if b = 1 then .ok .stale
  else if b = 2 then .ok .refreshFailed
  else if b = 3 then .ok .sourceCallFailed
  else .error (.statusByte b)

def readStatus (b : UInt8) : Except ParseError SourceReadStatus :=
  if b = 0 then .ok .ok
  else if b = 1 then .ok .callFailed
  else if b = 2 then .ok .malformed
  else if b = 3 then .ok .stale
  else .error (.sourceReadStatus b)

/-- The bits of the flag byte a schema leaves out: `~0b11111` or `~0b1111`, of a byte. -/
def reservedMask (schemaVersion : Nat) : UInt8 :=
  if schemaVersion = schemaVersionV3 then 0b11100000 else 0b11110000

def checkLength (bs : Bytes) : Except ParseError Unit :=
  if bs.length = pageCanonicalLen then .ok () else .error (.length bs.length)

def checkTag (bs : Bytes) : Except ParseError Unit :=
  let tag := Utf8.decode (slice bs 0 19)
  if tag = domainTagText then .ok () else .error (.domainTag tag)

def checkSchema (schemaVersion : Nat) : Except ParseError Unit :=
  if schemaVersion ∈ acceptedSchemaVersions then .ok () else .error (.schemaVersion schemaVersion)

def checkReserved (schemaVersion : Nat) (flags : UInt8) : Except ParseError Unit :=
  if flags &&& reservedMask schemaVersion = 0 then .ok () else .error (.reservedFlagBits flags)

def checkDelta (delta : Int) : Except ParseError Unit :=
  if 0 < delta then .error (.positiveDelta delta) else .ok ()

/-- `parseCanonicalSnapshot`, its checks in order. -/
def parseCanonicalSnapshot (bs : Bytes) : Except ParseError ParsedSnapshot := do
  checkLength bs
  checkTag bs
  let schemaVersion := beUint bs 19 4
  checkSchema schemaVersion
  let flags := byteAt bs 24
  checkReserved schemaVersion flags
  let status ← snapshotStatus (byteAt bs 23)
  let poolPublicDeltaE8s := beInt bs 91 16
  checkDelta poolPublicDeltaE8s
  let poolAttestationSourceStatus ← readStatus (byteAt bs 89)
  let treasuryReadStatus ← readStatus (byteAt bs 90)
  return {
    schemaVersion := schemaVersion
    status := status
    supplyInvariantHolds := hasBit flags 0b01
    healthy := hasBit flags 0b10
    fixedMaxSupplyE8s := beUint bs 25 16
    sumAllBalancesE8s := beUint bs 41 16
    poolBalanceE8s := beUint bs 57 16
    refreshedAtNs := beUint bs 73 8
    maxStalenessNs := beUint bs 81 8
    poolAttestationSourceStatus := poolAttestationSourceStatus
    poolDeltaHealthy := hasBit flags 0b0100
    poolPublicDeltaE8s := poolPublicDeltaE8s
    poolAttestedAtNs := beUint bs 107 8
    treasuryReadStatus := treasuryReadStatus
    treasuryStrayFundsE8s := beUint bs 115 16
    supplyInvariantUnavailable :=
      if schemaVersion = schemaVersionV3 then hasBit flags 0b10000 else false }

/-! ### What is shown -/

inductive HealthLight where
  | green
  | red
  | unknown
  deriving DecidableEq, Repr

inductive TreasuryKind where
  | none
  | stray
  | unknown
  deriving DecidableEq, Repr

structure TreasuryDisplay where
  kind : TreasuryKind
  amountE8s : Option Nat
  deriving DecidableEq, Repr

/-- The reasons a light is not green, with what their texts name. -/
inductive Reason where
  /-- `certificate did not verify — data cannot be trusted` -/
  | unverified
  /-- `verified response is incomplete — treating as unverifiable` -/
  | incomplete
  /-- `canonical snapshot failed to parse: …` -/
  | unparsable (error : ParseError)
  /-- `snapshot is stale — the monitor has not refreshed within its staleness bound` -/
  | stale
  /-- `monitor status is … — last refresh did not succeed` -/
  | notFresh (status : SnapshotStatus)
  /-- `token supply invariant could not be computed — arithmetic error at the ledger` -/
  | supplyUnavailable
  /-- `token supply invariant is NOT proven to hold` -/
  | supplyNotProven
  /-- `monitor reports unhealthy` -/
  | unhealthy
  /-- `pool solvency attestation not proven (…)` -/
  | attestationNotProven (status : SourceReadStatus)
  /-- `POOL BACKING BROKEN — shortfall … STSH` -/
  | backingBroken (shortfall : Int)
  /-- `inconsistent snapshot: healthy flag contradicts status/invariant` -/
  | inconsistent
  deriving DecidableEq, Repr

structure DisplayState where
  light : HealthLight
  reasons : List Reason
  snapshot : Option ParsedSnapshot
  ageNs : Option Nat
  treasury : TreasuryDisplay
  deriving DecidableEq, Repr

def treasuryUnknown : TreasuryDisplay := ⟨.unknown, none⟩

def deriveTreasuryDisplay (snapshot : ParsedSnapshot) : TreasuryDisplay :=
  if snapshot.treasuryReadStatus ≠ .ok then ⟨.unknown, none⟩
  else if 0 < snapshot.treasuryStrayFundsE8s then ⟨.stray, some snapshot.treasuryStrayFundsE8s⟩
  else ⟨.none, some 0⟩

structure DeriveInput where
  certificateVerified : Bool
  canonicalBytes : Option Bytes
  certTimeNs : Option Nat
  deriving DecidableEq, Repr

/-- A state that shows nothing but why. -/
def unreadable (reason : Reason) : DisplayState := ⟨.unknown, [reason], none, none, treasuryUnknown⟩

/-- What is pushed under a condition. -/
def reasonIf (p : Prop) [Decidable p] (reason : Reason) : List Reason := if p then [reason] else []

/-- What stands against a parsed snapshot of this age. -/
def snapshotReasons (snapshot : ParsedSnapshot) (ageNs : Nat) : List Reason :=
  reasonIf (snapshot.maxStalenessNs < ageNs) .stale ++
  reasonIf (snapshot.status ≠ .fresh) (.notFresh snapshot.status) ++
  (if snapshot.supplyInvariantUnavailable then [.supplyUnavailable]
    else reasonIf (snapshot.supplyInvariantHolds = false) .supplyNotProven) ++
  reasonIf (snapshot.healthy = false) .unhealthy ++
  (if snapshot.poolAttestationSourceStatus ≠ .ok then
      [.attestationNotProven snapshot.poolAttestationSourceStatus]
    else reasonIf (snapshot.poolDeltaHealthy = false) (.backingBroken (-snapshot.poolPublicDeltaE8s))) ++
  reasonIf (snapshot.healthy = true ∧ (snapshot.status ≠ .fresh ∨ snapshot.supplyInvariantHolds = false))
    .inconsistent

/-- What a parsed snapshot shows at the certificate's time. -/
def displaySnapshot (snapshot : ParsedSnapshot) (certTimeNs : Nat) : DisplayState :=
  let ageNs := certTimeNs - snapshot.refreshedAtNs
  let reasons := snapshotReasons snapshot ageNs
  {light := if reasons = [] then .green
            else if snapshot.maxStalenessNs < ageNs then .unknown
            else .red
   reasons := reasons
   snapshot := some snapshot
   ageNs := some ageNs
   treasury := deriveTreasuryDisplay snapshot}

def deriveDisplayState (input : DeriveInput) : DisplayState :=
  if input.certificateVerified = false then unreadable .unverified
  else
    match input.canonicalBytes, input.certTimeNs with
    | some bs, some certTimeNs =>
      match parseCanonicalSnapshot bs with
      | .error e => unreadable (.unparsable e)
      | .ok snapshot => displaySnapshot snapshot certTimeNs
    | _, _ => unreadable .incomplete

/-! ### When the light is green -/

/-- Every condition behind a healthy snapshot, as its fields say it. -/
structure ParsedSnapshot.AllWell (s : ParsedSnapshot) : Prop where
  fresh : s.status = .fresh
  supply : s.supplyInvariantHolds = true
  computed : s.supplyInvariantUnavailable = false
  healthy : s.healthy = true
  attested : s.poolAttestationSourceStatus = .ok
  backed : s.poolDeltaHealthy = true

theorem reasonIf_eq_nil_iff {p : Prop} [Decidable p] {reason : Reason} :
    reasonIf p reason = [] ↔ ¬p := by
  unfold reasonIf
  by_cases hp : p
  · rw [if_pos hp]
    exact ⟨nofun, fun h => (h hp).elim⟩
  · rw [if_neg hp]
    exact ⟨fun _ => hp, fun _ => rfl⟩

theorem snapshotReasons_eq_nil_iff {s : ParsedSnapshot} {ageNs : Nat} :
    snapshotReasons s ageNs = [] ↔ ageNs ≤ s.maxStalenessNs ∧ s.AllWell := by
  simp only [snapshotReasons, List.append_eq_nil_iff, reasonIf_eq_nil_iff, not_lt, not_not]
  constructor
  · rintro ⟨⟨⟨⟨⟨hage, hfresh⟩, hsupply⟩, hhealthy⟩, hpool⟩, -⟩
    cases hunavailable : s.supplyInvariantUnavailable with
    | true => simp [hunavailable] at hsupply
    | false =>
      by_cases hattested : s.poolAttestationSourceStatus = .ok
      · rw [if_neg (not_not.2 hattested), reasonIf_eq_nil_iff] at hpool
        simp only [hunavailable, Bool.false_eq_true, if_false, reasonIf_eq_nil_iff] at hsupply
        exact ⟨hage, hfresh, eq_true_of_ne_false hsupply, hunavailable,
          eq_true_of_ne_false hhealthy, hattested, eq_true_of_ne_false hpool⟩
      · rw [if_pos hattested] at hpool
        exact nomatch hpool
  · rintro ⟨hage, h⟩
    simp [hage, h.fresh, h.supply, h.computed, h.healthy, h.attested, h.backed,
      reasonIf_eq_nil_iff]

/-- The light is green exactly on a verified certificate over bytes that parse, young enough,
with every condition met. -/
theorem deriveDisplayState_green_iff (input : DeriveInput) :
    (deriveDisplayState input).light = .green ↔
      input.certificateVerified = true ∧ ∃ bs certTimeNs s, input.canonicalBytes = some bs ∧
        input.certTimeNs = some certTimeNs ∧ parseCanonicalSnapshot bs = .ok s ∧
        certTimeNs - s.refreshedAtNs ≤ s.maxStalenessNs ∧ s.AllWell := by
  obtain ⟨verified, canonical, time⟩ := input
  cases verified with
  | false => exact ⟨fun h => (nomatch h), fun ⟨h, _⟩ => nomatch h⟩
  | true =>
    cases canonical with
    | none => exact ⟨fun h => (nomatch h), fun ⟨_, _, _, _, h, _⟩ => nomatch h⟩
    | some bs =>
      cases time with
      | none => exact ⟨fun h => (nomatch h), fun ⟨_, _, _, _, _, h, _⟩ => nomatch h⟩
      | some certTimeNs =>
        show (match parseCanonicalSnapshot bs with
          | .error e => unreadable (.unparsable e)
          | .ok snapshot => displaySnapshot snapshot certTimeNs).light = .green ↔ _
        cases hparse : parseCanonicalSnapshot bs with
        | error e =>
          refine ⟨fun h => (nomatch h), ?_⟩
          rintro ⟨-, _, _, s, ⟨⟩, -, hs, -⟩
          exact nomatch hparse.symm.trans hs
        | ok s =>
          show (if snapshotReasons s _ = [] then HealthLight.green else _) = .green ↔ _
          by_cases hreasons : snapshotReasons s (certTimeNs - s.refreshedAtNs) = []
          · rw [if_pos hreasons]
            have hwell := snapshotReasons_eq_nil_iff.1 hreasons
            exact ⟨fun _ => ⟨rfl, bs, certTimeNs, s, rfl, rfl, hparse, hwell⟩, fun _ => rfl⟩
          · rw [if_neg hreasons]
            constructor
            · intro h
              split at h <;> exact nomatch h
            · rintro ⟨-, _, _, s', ⟨⟩, ⟨⟩, hs, hwell⟩
              cases Except.ok.inj (hparse.symm.trans hs)
              exact (hreasons (snapshotReasons_eq_nil_iff.2 hwell)).elim

end StshProtocol.SmokeAlarm.Page
