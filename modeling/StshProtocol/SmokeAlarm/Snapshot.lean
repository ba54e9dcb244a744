import StshProtocol.ShieldedPool.Attestation

/-! The monitor's snapshot and its canonical bytes.

The leaf under the monitor's certified root is exactly these bytes. Every field has a
fixed place and width, the two verdicts and the three notes are bits of one byte, and
the signed delta is in two's complement. -/
namespace StshProtocol.SmokeAlarm
open Foundation Foundation.Bytes ShieldedPool

/-- `b"stsh-smoke-alarm-v1"`. -/
def domainTag : Bytes :=
  [115, 116, 115, 104, 45, 115, 109, 111, 107, 101, 45, 97, 108, 97, 114, 109, 45, 118, 49]

def schemaVersion : Nat := 3

def canonicalLen : Nat := 131

inductive SnapshotStatus where
  | fresh
  | stale
  | refreshFailed
  | sourceCallFailed
  deriving DecidableEq, Repr

def SnapshotStatus.asU8 : SnapshotStatus → UInt8
  | .fresh => 0
  | .stale => 1
  | .refreshFailed => 2
  | .sourceCallFailed => 3

inductive SourceReadStatus where
  | ok
  | callFailed
  | malformed
  | stale
  deriving DecidableEq, Repr

def SourceReadStatus.asU8 : SourceReadStatus → UInt8
  | .ok => 0
  | .callFailed => 1
  | .malformed => 2
  | .stale => 3

structure SolvencySnapshot where
  supplyInvariantHolds : Bool
  fixedMaxSupplyE8s : Nat
  sumAllBalancesE8s : Nat
  poolBalanceE8s : Nat
  poolAttestationSourceStatus : SourceReadStatus
  poolDeltaHealthy : Bool
  poolPublicDeltaE8s : Int
  poolAttestedAtNs : Nat
  treasuryReadStatus : SourceReadStatus
  treasuryStrayFundsE8s : Nat
  supplyInvariantUnavailable : Bool
  refreshedAtNs : Nat
  maxStalenessNs : Nat
  status : SnapshotStatus
  healthy : Bool
  schemaVersion : Nat
  deriving DecidableEq, Repr

/-- `bool as u8`. -/
def asU8 (b : Bool) : UInt8 := if b then 1 else 0

/-- The flag byte; the presence of stray funds is a bit of its own. -/
def flagByte (holds healthy deltaHealthy stray unavailable : Bool) : UInt8 :=
  asU8 holds ||| asU8 healthy <<< 1 ||| asU8 deltaHealthy <<< 2 ||| asU8 stray <<< 3 |||
    asU8 unavailable <<< 4

namespace SolvencySnapshot

def flags (s : SolvencySnapshot) : UInt8 :=
  flagByte s.supplyInvariantHolds s.healthy s.poolDeltaHealthy (decide (0 < s.treasuryStrayFundsE8s))
    s.supplyInvariantUnavailable

def canonicalBytes (s : SolvencySnapshot) : Bytes :=
  domainTag ++ (toBe 4 s.schemaVersion ++ (s.status.asU8 :: s.flags ::
    (toBe 16 s.fixedMaxSupplyE8s ++ (toBe 16 s.sumAllBalancesE8s ++ (toBe 16 s.poolBalanceE8s ++
      (toBe 8 s.refreshedAtNs ++ (toBe 8 s.maxStalenessNs ++
        (s.poolAttestationSourceStatus.asU8 :: s.treasuryReadStatus.asU8 ::
          (i128ToBeBytes s.poolPublicDeltaE8s ++ (toBe 8 s.poolAttestedAtNs ++
            toBe 16 s.treasuryStrayFundsE8s))))))))))

theorem length_canonicalBytes (s : SolvencySnapshot) : s.canonicalBytes.length = canonicalLen := by
  simp [canonicalBytes, canonicalLen, domainTag, i128ToBeBytes]

end SolvencySnapshot

/-! ### What the monitor reads -/

/-- Which sum of the token's report overflowed. -/
structure ArithmeticErrorReport where
  balancesOverflow : Bool
  stakingLocksOverflow : Bool
  balancesPlusFeeOverflow : Bool
  deriving DecidableEq, Repr

/-- The token's report, as far as the monitor reads it. -/
structure SupplyInvariantReport where
  fixedMaxSupply : Nat
  sumAllBalances : Nat
  invariantHolds : Bool
  arithmeticError : Option ArithmeticErrorReport
  deriving DecidableEq, Repr

abbrev SolvencyAttestationMirror : Type := SolvencyAttestation

abbrev CertifiedSolvencyAttestationMirror : Type := CertifiedSolvencyAttestation

/-- The monitor's own idea of the bytes of the pool's leaf. -/
def solvencyAttestationBytesMismatch (c : CertifiedSolvencyAttestationMirror) : Bool :=
  let a := c.attestation
  let expect := attestationDomainTag ++ toBe 4 a.schemaVersion ++ [asU8 a.healthy] ++
    i128ToBeBytes a.publicDeltaE8s ++ toBe 8 a.attestedAtNs
  decide (c.canonicalBytes ≠ expect)

end StshProtocol.SmokeAlarm
