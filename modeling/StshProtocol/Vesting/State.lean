import StshProtocol.Foundation.ByteKeys
import StshProtocol.Foundation.Except
import StshProtocol.ShieldedPool.Ledger
import StshProtocol.Token.Basic

/-! The vesting canister: schedules, the marker of a claim that is not yet resolved, and the
tombstones of those that are.

A claim counts its amount as claimed before it asks the ledger to pay it, and leaves a marker
with the amount and the identity of the operation: the beneficiary and a number, which is how
many tombstones the beneficiary has. Resolving the operation writes its tombstone and removes
the marker; a claim found not to have been paid is taken off what is claimed. -/
namespace StshProtocol.Vesting
open Foundation ShieldedPool

/-! ### Principals and keys -/

/-- A principal by its bytes. -/
structure PrincipalBytes where
  asSlice : Bytes
  short : asSlice.length ≤ 29
  deriving DecidableEq, Repr

/-- The bytes behind their number. -/
def PrincipalBytes.sized (p : PrincipalBytes) : Bytes := UInt8.ofNat p.asSlice.length :: p.asSlice

/-- The principal as the ledger's accounts name it. -/
def PrincipalBytes.toPrincipal (p : PrincipalBytes) : Principal :=
  BitVec.ofNat 240 (Bytes.ofBe (p.sized ++ List.replicate (29 - p.asSlice.length) 0))

def PrincipalBytes.anonymous : PrincipalBytes := ⟨[4], by decide⟩

/-- The management canister. -/
def PrincipalBytes.management : PrincipalBytes := ⟨[], Nat.zero_le _⟩

/-- A principal of one byte. -/
def PrincipalBytes.single (b : UInt8) : PrincipalBytes := ⟨[b], Nat.le_of_ble_eq_true rfl⟩

def principalKey (p : PrincipalBytes) : Bytes := p.asSlice

def tombstoneKey (beneficiary : PrincipalBytes) (claimSeq : Nat) : Bytes :=
  beneficiary.sized ++ Bytes.toBe 8 claimSeq

def claimMemo (beneficiary : PrincipalBytes) (claimSeq : Nat) : Bytes :=
  Token.tag "STSH-VESTING-CLAIM\x00" ++ (beneficiary.sized ++ Bytes.toBe 8 claimSeq)

/-! ### Schedules -/

def nsPerMonth : Nat := 30 * 24 * 60 * 60 * 1_000_000_000

def maxScheduleMonths : Nat := 480

structure VestingSchedule where
  beneficiary : PrincipalBytes
  totalAmount : Nat
  cliffEndNs : Nat
  vestingEndNs : Nat
  claimed : Nat
  startNs : Nat
  deriving DecidableEq, Repr

namespace VestingSchedule

/-- What is vested once the cliff is over. -/
def linearAt (s : VestingSchedule) (nowNs : Nat) : Nat :=
  let linearDuration := s.vestingEndNs - s.cliffEndNs
  let elapsed := min (nowNs - s.cliffEndNs) linearDuration
  if linearDuration = 0 then s.totalAmount
  else min (s.totalAmount * elapsed) u128Max / linearDuration

def claimableAt (s : VestingSchedule) (nowNs : Nat) : Nat :=
  if nowNs < s.cliffEndNs then 0 else s.linearAt nowNs - s.claimed

/-- The vested amount at a time. -/
def vestedAt (s : VestingSchedule) (nowNs : Nat) : Nat :=
  if nowNs < s.cliffEndNs then 0 else s.linearAt nowNs

theorem claimableAt_eq (s : VestingSchedule) (now : Nat) :
    s.claimableAt now = s.vestedAt now - s.claimed := by
  unfold claimableAt vestedAt
  split
  · exact (Nat.zero_sub _).symm
  · rfl

theorem vestedAt_le_total (s : VestingSchedule) (now : Nat) : s.vestedAt now ≤ s.totalAmount := by
  unfold vestedAt linearAt
  split
  · exact Nat.zero_le _
  · simp only
    split
    · exact Nat.le_refl _
    · refine Nat.div_le_of_le_mul ?_
      refine Nat.le_trans (Nat.min_le_left _ _) ?_
      rw [Nat.mul_comm]
      exact Nat.mul_le_mul_right _ (Nat.min_le_right _ _)

theorem linearAt_mono (s : VestingSchedule) {t t' : Nat} (h : t ≤ t') :
    s.linearAt t ≤ s.linearAt t' := by
  unfold linearAt
  by_cases hzero : s.vestingEndNs - s.cliffEndNs = 0
  · simp only [hzero, if_true]
    exact Nat.le_refl _
  · simp only [hzero, if_false]
    refine Nat.div_le_div_right ?_
    have helapsed : min (t - s.cliffEndNs) (s.vestingEndNs - s.cliffEndNs) ≤
        min (t' - s.cliffEndNs) (s.vestingEndNs - s.cliffEndNs) := by omega
    have hmul := Nat.mul_le_mul_left s.totalAmount helapsed
    omega

theorem vestedAt_mono (s : VestingSchedule) {t t' : Nat} (h : t ≤ t') :
    s.vestedAt t ≤ s.vestedAt t' := by
  unfold vestedAt
  by_cases hcliff : t < s.cliffEndNs
  · rw [if_pos hcliff]
    exact Nat.zero_le _
  · rw [if_neg hcliff, if_neg (by omega)]
    exact s.linearAt_mono h

@[simp] theorem vestedAt_claimed (s : VestingSchedule) (c now : Nat) :
    {s with claimed := c}.vestedAt now = s.vestedAt now := rfl

end VestingSchedule

structure NewSchedule where
  beneficiary : PrincipalBytes
  totalAmount : Nat
  cliffMonths : Nat
  linearMonths : Nat
  deriving DecidableEq, Repr

/-- What the code takes from outside: its own principal, how a principal and a transfer
error print, and who controls the canister. -/
structure Deployment where
  self : PrincipalBytes
  toText : PrincipalBytes → String
  debugTransferError : IcrcTransferError → String
  isController : PrincipalBytes → Bool

/-- `validate_init_schedules`, from the schedules seen so far. -/
def validateFrom (D : Deployment) (seen : List PrincipalBytes) :
    List NewSchedule → Except String Unit
  | [] => .ok ()
  | s :: rest =>
    if s.totalAmount = 0 then
      .error s!"vesting schedule for {D.toText s.beneficiary} has zero amount"
    else if s.cliffMonths = 0 ∧ s.linearMonths = 0 then
      .error (s!"vesting schedule for {D.toText s.beneficiary} has zero total duration " ++
        "(cliff 0 + linear 0)")
    else if maxScheduleMonths < s.cliffMonths + s.linearMonths then
      .error (s!"vesting schedule for {D.toText s.beneficiary}: cliff {s.cliffMonths} + linear " ++
        s!"{s.linearMonths} months exceeds MAX_SCHEDULE_MONTHS {maxScheduleMonths}")
    else if s.beneficiary ∈ seen then
      .error (s!"duplicate vesting beneficiary {D.toText s.beneficiary} — schedules are " ++
        "beneficiary-keyed; a duplicate would silently overwrite the earlier schedule")
    else validateFrom D (s.beneficiary :: seen) rest

def validateInitSchedules (D : Deployment) (schedules : List NewSchedule) : Except String Unit :=
  validateFrom D [] schedules

/-- A checked product or sum of `u64`s. -/
def checked64 (n : Nat) (e : String) : Except String Nat :=
  if n ≤ u64Max then .ok n else .error e

def buildSchedule (nowNs : Nat) (s : NewSchedule) : Except String VestingSchedule := do
  let cliffNs ← checked64 (s.cliffMonths * nsPerMonth)
    s!"cliff_months {s.cliffMonths} overflows ns conversion"
  let linearNs ← checked64 (s.linearMonths * nsPerMonth)
    s!"linear_months {s.linearMonths} overflows ns conversion"
  let cliffEndNs ← checked64 (nowNs + cliffNs) "cliff end timestamp overflows u64 ns"
  let vestingEndNs ← checked64 (cliffEndNs + linearNs) "vesting end timestamp overflows u64 ns"
  return {beneficiary := s.beneficiary
          totalAmount := s.totalAmount
          cliffEndNs := cliffEndNs
          vestingEndNs := vestingEndNs
          claimed := 0
          startNs := nowNs}

/-! ### State -/

structure TransferOutcomeMarker where
  unknown : Bool
  pendingAmount : Option Nat
  claimSeq : Option Nat
  createdAtTimeNs : Option Nat
  deriving DecidableEq, Repr

inductive ClaimResolution where
  | executed
  | reverted
  deriving DecidableEq, Repr

structure TerminalClaimTombstone where
  claimSeq : Option Nat
  amount : Option Nat
  createdAtTimeNs : Option Nat
  resolution : ClaimResolution
  recordedAtNs : Nat
  deriving DecidableEq, Repr

/-- The stable maps and cell, the references on the heap, and, read by no code, the operations
begun so far, the latest first. -/
structure VestingState where
  schedules : StableMap Bytes VestingSchedule
  transferOutcomeUnknown : StableMap Bytes TransferOutcomeMarker
  terminalClaimTombstones : StableMap Bytes TerminalClaimTombstone
  canisterRefs : Option (PrincipalBytes × PrincipalBytes)
  tokenCanister : Option PrincipalBytes
  controller : Option PrincipalBytes
  operations : List (PrincipalBytes × Nat)

namespace VestingState

def setCanisterRefs (s : VestingState) (token controller : PrincipalBytes) : VestingState :=
  {s with
    canisterRefs := some (token, controller)
    tokenCanister := some token
    controller := some controller}

/-- The largest count an iterator of the canister's 32-bit machine can come to. -/
def usizeMax : Nat := 2 ^ 32 - 1

/-- How many tombstones the beneficiary has, unless counting them overflows. -/
def nextClaimSeq (s : VestingState) (beneficiary : PrincipalBytes) : Option Nat :=
  let count := s.terminalClaimTombstones.rangeCount (tombstoneKey beneficiary 0)
    (tombstoneKey beneficiary u64Max)
  if count ≤ usizeMax then some count else none

/-- Insert-once. -/
def writeTombstone (s : VestingState) (key : Bytes) (t : TerminalClaimTombstone) : VestingState :=
  if s.terminalClaimTombstones.contains key then s
  else {s with terminalClaimTombstones := s.terminalClaimTombstones.insert key t}

def removeMarker (s : VestingState) (beneficiary : PrincipalBytes) : VestingState :=
  {s with transferOutcomeUnknown := s.transferOutcomeUnknown.erase (principalKey beneficiary)}

def resolveMarkerWithTombstone (s : VestingState) (beneficiary : PrincipalBytes)
    (marker : TransferOutcomeMarker) (resolution : ClaimResolution) (recordedAtNs : Nat) :
    Option VestingState := do
  let seq ← marker.claimSeq <|> s.nextClaimSeq beneficiary
  return (s.writeTombstone (tombstoneKey beneficiary seq)
    {claimSeq := marker.claimSeq
     amount := marker.pendingAmount
     createdAtTimeNs := marker.createdAtTimeNs
     resolution := resolution
     recordedAtNs := recordedAtNs}).removeMarker beneficiary

def markerBlocksClaim (s : VestingState) (beneficiary : PrincipalBytes) : Bool :=
  s.transferOutcomeUnknown.contains (principalKey beneficiary)

def putMarker (s : VestingState) (beneficiary : PrincipalBytes) (m : TransferOutcomeMarker) :
    VestingState :=
  {s with transferOutcomeUnknown := s.transferOutcomeUnknown.insert (principalKey beneficiary) m}

def putSchedule (s : VestingState) (beneficiary : PrincipalBytes) (schedule : VestingSchedule) :
    VestingState :=
  {s with schedules := s.schedules.insert (principalKey beneficiary) schedule}

def revertClaimed (s : VestingState) (beneficiary : PrincipalBytes) (amount : Nat) : VestingState :=
  match s.schedules[principalKey beneficiary]? with
  | some schedule => s.putSchedule beneficiary {schedule with claimed := schedule.claimed - amount}
  | none => s

/-- Every marker in flight is now stuck. -/
def sweepInflightMarkersOnUpgrade (s : VestingState) : VestingState :=
  {s with
    transferOutcomeUnknown :=
      s.transferOutcomeUnknown.map fun _ m => if m.unknown then m else {m with unknown := true}}

end VestingState

end StshProtocol.Vesting
