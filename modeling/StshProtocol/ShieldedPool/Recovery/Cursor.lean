import StshProtocol.Foundation.Bytes
import StshProtocol.ShieldedPool.Basic

/-! The cursor of the post-upgrade recovery scan: the phase, the last key seen
in it, the totals snapshotted when the scan began and the counts since. It lives
in a stable cell, and what cannot be decoded from there, or decodes to something
its own arithmetic contradicts, reads as a scan that has not begun. -/
namespace StshProtocol.ShieldedPool.Recovery
open Foundation (Bytes.toBe Bytes.ofBe Bytes.take Bytes.take_append Bytes.length_toBe Bytes.ofBe_toBe)

structure RecoveryCursor where
  phase : Nat
  lastDeposit : Option Bytes32
  lastSpend : Option SpendId
  depositsTotal : Nat
  spendsTotal : Nat
  scanned : Nat
  expectedDeposits : Nat
  expectedSpends : Nat
  removedVisits : Nat
  deriving DecidableEq, Repr

/-- The phase of a finished scan. Before it: 0 deposits and 1 spends, the lease
check; 2 spends and 3 deposits, normalization; 4 deposits and 5 spends, the index. -/
def cursorPhaseComplete : Nat := 6

/-- How many times the scan walks each record. -/
def recoveryPassesPerRecord : Nat := 3

/-- Records examined in one message. -/
def upgradeScanChunk : Nat := 1000

namespace RecoveryCursor

def complete : RecoveryCursor := ⟨cursorPhaseComplete, none, none, 0, 0, 0, 0, 0, 0⟩

/-- What an absent or undecodable cell reads as. -/
def pendingMaximal : RecoveryCursor := ⟨0, none, none, u64Max, 0, 0, 0, 0, 0⟩

def isFailClosedDefault (c : RecoveryCursor) : Bool :=
  c.phase == 0 && c.depositsTotal == u64Max && c.scanned == 0

def isComplete (c : RecoveryCursor) : Bool := decide (cursorPhaseComplete ≤ c.phase)

/-- The snapshotted work less what was scanned and what the scan itself cancelled. -/
def remaining (c : RecoveryCursor) : Nat :=
  satMul64 (satAdd64 c.depositsTotal c.spendsTotal) recoveryPassesPerRecord
    - c.scanned - c.removedVisits

def decodesConsistently (c : RecoveryCursor) : Bool :=
  if c.phase > cursorPhaseComplete then false
  else if c.phase == cursorPhaseComplete && c.remaining != 0 then false
  else decide (satAdd64 c.scanned c.removedVisits ≤
    satMul64 (satAdd64 c.depositsTotal c.spendsTotal) recoveryPassesPerRecord)

/-! ### The stable cell -/

def encodeOption (payload : Option Bytes) : Bytes :=
  match payload with
  | none => [0]
  | some b => 1 :: b

def toBytes (c : RecoveryCursor) : Bytes :=
  [2, UInt8.ofNat c.phase]
    ++ encodeOption (c.lastDeposit.map fun k => Bytes.toBe 32 k.toNat)
    ++ encodeOption (c.lastSpend.map fun id => Bytes.toBe 8 id.toNat)
    ++ Bytes.toBe 8 c.depositsTotal ++ Bytes.toBe 8 c.spendsTotal ++ Bytes.toBe 8 c.scanned
    ++ Bytes.toBe 8 c.expectedDeposits ++ Bytes.toBe 8 c.expectedSpends
    ++ Bytes.toBe 8 c.removedVisits

/-- A tag byte, then `n` bytes after the tag 1 and none after the tag 0. -/
def takeOption (n : Nat) (b : Bytes) : Option (Option Bytes × Bytes) :=
  match Bytes.take 1 b with
  | some ([0], b) => some (none, b)
  | some ([1], b) => (Bytes.take n b).map fun r => (some r.1, r.2)
  | _ => none

/-- The part of `from_bytes` that can fail. -/
def decode (b : Bytes) : Option RecoveryCursor := do
  let (version, b) ← Bytes.take 1 b
  guard (version = [2])
  let (phase, b) ← Bytes.take 1 b
  let (lastDeposit, b) ← takeOption 32 b
  let (lastSpend, b) ← takeOption 8 b
  let (d, b) ← Bytes.take 8 b
  let (sp, b) ← Bytes.take 8 b
  let (sc, b) ← Bytes.take 8 b
  let (ed, b) ← Bytes.take 8 b
  let (es, b) ← Bytes.take 8 b
  let (rv, _) ← Bytes.take 8 b
  return {
    phase := Bytes.ofBe phase
    lastDeposit := lastDeposit.map fun k => BitVec.ofNat 256 (Bytes.ofBe k)
    lastSpend := lastSpend.map fun id => BitVec.ofNat 64 (Bytes.ofBe id)
    depositsTotal := Bytes.ofBe d
    spendsTotal := Bytes.ofBe sp
    scanned := Bytes.ofBe sc
    expectedDeposits := Bytes.ofBe ed
    expectedSpends := Bytes.ofBe es
    removedVisits := Bytes.ofBe rv }

def fromBytes (b : Bytes) : RecoveryCursor :=
  match decode b with
  | none => pendingMaximal
  | some decoded => if decoded.decodesConsistently then decoded else pendingMaximal

/-- Every field is in the range of its machine type. -/
structure InRange (c : RecoveryCursor) : Prop where
  phase : c.phase ≤ cursorPhaseComplete
  depositsTotal : c.depositsTotal ≤ u64Max
  spendsTotal : c.spendsTotal ≤ u64Max
  scanned : c.scanned ≤ u64Max
  expectedDeposits : c.expectedDeposits ≤ u64Max
  expectedSpends : c.expectedSpends ≤ u64Max
  removedVisits : c.removedVisits ≤ u64Max

theorem takeOption_encodeOption {n : Nat} {payload : Option Bytes} (rest : Bytes)
    (h : ∀ b ∈ payload, b.length = n) :
    takeOption n (encodeOption payload ++ rest) = some (payload, rest) := by
  cases payload with
  | none => rfl
  | some b =>
    have hb := Bytes.take_append rest (h b rfl)
    simp only [encodeOption, takeOption, List.cons_append]
    rw [show (1 : UInt8) :: (b ++ rest) = [1] ++ (b ++ rest) from rfl,
      Bytes.take_append (b ++ rest) (n := 1) rfl]
    simp [hb]

theorem ofBe_phase {n : Nat} (h : n < 256) : Bytes.ofBe [UInt8.ofNat n] = n := by
  have : [UInt8.ofNat n] = Bytes.toBe 1 n := rfl
  rw [this, Bytes.ofBe_toBe (by omega)]

theorem ofBe_word {n : Nat} (h : n ≤ u64Max) : Bytes.ofBe (Bytes.toBe 8 n) = n :=
  Bytes.ofBe_toBe (by unfold u64Max at h; omega)

theorem ofBe_key (k : Bytes32) : BitVec.ofNat 256 (Bytes.ofBe (Bytes.toBe 32 k.toNat)) = k := by
  rw [Bytes.ofBe_toBe (by have := k.isLt; omega), BitVec.ofNat_toNat, BitVec.setWidth_eq]

theorem ofBe_spendId (id : SpendId) : BitVec.ofNat 64 (Bytes.ofBe (Bytes.toBe 8 id.toNat)) = id := by
  rw [Bytes.ofBe_toBe (by have := id.isLt; omega), BitVec.ofNat_toNat, BitVec.setWidth_eq]

theorem decode_toBytes {c : RecoveryCursor} (h : c.InRange) : decode c.toBytes = some c := by
  have hp : c.phase < 256 := Nat.lt_of_le_of_lt h.phase (by decide)
  have hd : ∀ rest : Bytes, takeOption 32
      (encodeOption (c.lastDeposit.map fun k => Bytes.toBe 32 k.toNat) ++ rest) = _ := fun rest =>
    takeOption_encodeOption rest (by cases c.lastDeposit <;> simp)
  have hs : ∀ rest : Bytes, takeOption 8
      (encodeOption (c.lastSpend.map fun id => Bytes.toBe 8 id.toNat) ++ rest) = _ := fun rest =>
    takeOption_encodeOption rest (by cases c.lastSpend <;> simp)
  have hk : (c.lastDeposit.map fun k => Bytes.toBe 32 k.toNat).map
      (fun k => BitVec.ofNat 256 (Bytes.ofBe k)) = c.lastDeposit := by
    cases c.lastDeposit with
    | none => rfl
    | some k => simp [ofBe_key]
  have hi : (c.lastSpend.map fun id => Bytes.toBe 8 id.toNat).map
      (fun id => BitVec.ofNat 64 (Bytes.ofBe id)) = c.lastSpend := by
    cases c.lastSpend with
    | none => rfl
    | some id => simp [ofBe_spendId]
  have ht : ∀ (n : Nat) (rest : Bytes),
      Bytes.take 8 (Bytes.toBe 8 n ++ rest) = some (Bytes.toBe 8 n, rest) := fun n rest =>
    Bytes.take_append rest (Bytes.length_toBe 8 n)
  have ht' : ∀ n : Nat, Bytes.take 8 (Bytes.toBe 8 n) = some (Bytes.toBe 8 n, []) := fun n => by
    simpa using ht n []
  have h2 : ∀ rest : Bytes, Bytes.take 1 (2 :: rest) = some ([2], rest) := fun rest => rfl
  have h1 : ∀ (b : UInt8) (rest : Bytes), Bytes.take 1 (b :: rest) = some ([b], rest) :=
    fun b rest => rfl
  simp only [decode, toBytes, List.append_assoc, List.cons_append, List.nil_append, h2, h1, hd, hs,
    ht, ht', Option.bind_eq_bind, Option.bind_some, guard_true, Option.pure_def, hk, hi,
    ofBe_phase hp, ofBe_word h.depositsTotal, ofBe_word h.spendsTotal, ofBe_word h.scanned,
    ofBe_word h.expectedDeposits, ofBe_word h.expectedSpends, ofBe_word h.removedVisits]

/-- A cursor that its own arithmetic allows is read back as it was stored. -/
theorem fromBytes_toBytes {c : RecoveryCursor} (h : c.InRange) (hc : c.decodesConsistently) :
    fromBytes c.toBytes = c := by
  rw [fromBytes, decode_toBytes h]
  simp [hc]

end RecoveryCursor
end StshProtocol.ShieldedPool.Recovery
