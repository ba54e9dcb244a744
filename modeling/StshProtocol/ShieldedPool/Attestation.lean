import StshProtocol.Foundation.Bytes
import StshProtocol.ShieldedPool.Accounting
import Mathlib.Data.Int.Order.Basic

/-! The pool's public solvency attestation: the sign of the backing over the liability,
clamped so that every healthy pool publishes the same zero, at a time floored to a bucket. -/
namespace StshProtocol.ShieldedPool
open Foundation Foundation.Bytes

/-- `i128::to_be_bytes`, two's complement. -/
def i128ToBeBytes (n : Int) : Bytes := toBe 16 (n % 2 ^ 128).toNat

/-- The values of an `i128`. -/
def IsI128 (n : Int) : Prop := -2 ^ 127 ≤ n ∧ n < 2 ^ 127

instance (n : Int) : Decidable (IsI128 n) := inferInstanceAs (Decidable (_ ∧ _))

/-- `i128::try_from` on a `u128`. -/
def i128OfU128 (n : Nat) : Option Int := if n < 2 ^ 127 then some n else none

/-- `i128::checked_add`, and `checked_sub` of the negated summand. -/
def checkedI128 (n : Int) : Option Int := if IsI128 n then some n else none

/-- `b"stsh-pool-attestation-v1"`. -/
def attestationDomainTag : Bytes :=
  [115, 116, 115, 104, 45, 112, 111, 111, 108, 45, 97, 116, 116, 101, 115, 116, 97, 116, 105, 111,
    110, 45, 118, 49]

def attestationSchemaVersion : Nat := 1

def attestationBucketNs : Nat := 300000000000

/-- `i128::MIN`, which no clamped delta is. -/
def attestationOverflowSentinel : Int := -2 ^ 127

structure SolvencyAttestation where
  publicDeltaE8s : Int
  healthy : Bool
  attestedAtNs : Nat
  schemaVersion : Nat
  deriving DecidableEq, Repr

structure CertifiedSolvencyAttestation where
  attestation : SolvencyAttestation
  canonicalBytes : Bytes
  deriving DecidableEq, Repr

def attestationBucket (now : Nat) : Nat := now / attestationBucketNs * attestationBucketNs

def rawSolvencyDelta (words : AccountingWords) : Option Int := do
  let escrow ← i128OfU128 (words .escrowBacking)
  let pending ← i128OfU128 (words .pendingFeeReimbursements)
  let liability ← i128OfU128 (words .privateLiability)
  let backing ← checkedI128 (escrow + pending)
  checkedI128 (backing - liability)

def solvencyAttestationPayload (words : AccountingWords) (now : Nat) : SolvencyAttestation :=
  match rawSolvencyDelta words with
  | some raw => ⟨min raw 0, decide (0 ≤ raw), attestationBucket now, attestationSchemaVersion⟩
  | none =>
    ⟨attestationOverflowSentinel, false, attestationBucket now, attestationSchemaVersion⟩

def solvencyAttestationBytes (a : SolvencyAttestation) : Bytes :=
  attestationDomainTag ++ toBe 4 a.schemaVersion ++ [if a.healthy then 1 else 0] ++
    i128ToBeBytes a.publicDeltaE8s ++ toBe 8 a.attestedAtNs

/-- What `get_solvency_attestation` answers with once these words were certified. -/
def getSolvencyAttestation (words : AccountingWords) (certifiedAt : Nat) :
    CertifiedSolvencyAttestation :=
  let attestation := solvencyAttestationPayload words certifiedAt
  ⟨attestation, solvencyAttestationBytes attestation⟩

theorem isI128_of_checked {n d : Int} (h : checkedI128 n = some d) : IsI128 d := by
  unfold checkedI128 at h
  split at h
  · next hn =>
    cases h
    exact hn
  · cases h

/-- The published delta is an `i128` and never positive. -/
theorem solvencyAttestationPayload_delta (words : AccountingWords) (now : Nat) :
    IsI128 (solvencyAttestationPayload words now).publicDeltaE8s ∧
      (solvencyAttestationPayload words now).publicDeltaE8s ≤ 0 := by
  unfold solvencyAttestationPayload
  cases hraw : rawSolvencyDelta words with
  | none =>
    have hsentinel : IsI128 attestationOverflowSentinel ∧ attestationOverflowSentinel ≤ 0 := by decide
    exact hsentinel
  | some raw =>
    have hrange : IsI128 raw := by
      simp only [rawSolvencyDelta, Option.bind_eq_bind, Option.bind_eq_some_iff] at hraw
      obtain ⟨_, -, _, -, _, -, _, -, hchecked⟩ := hraw
      exact isI128_of_checked hchecked
    refine ⟨⟨?_, ?_⟩, Int.min_le_right _ _⟩
    · exact Int.le_min.2 ⟨hrange.1, by decide⟩
    · exact Int.lt_of_le_of_lt (Int.min_le_right _ _) (by decide)

end StshProtocol.ShieldedPool
