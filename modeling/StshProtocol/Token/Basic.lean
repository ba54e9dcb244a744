import StshProtocol.ShieldedPool.Basic
import StshProtocol.Foundation.Bytes

/-! The words of the token ledger: its constants, accounts and their keys, the
arguments and errors of its endpoints, and what makes a message trap. -/
namespace StshProtocol.Token
open Foundation ShieldedPool

def totalSupply : Nat := 1_000_000_000 * 100_000_000
def defaultFee : Nat := 0
def txDedupWindowNs : Nat := 24 * 60 * 60 * 1_000_000_000
def maxApprovalTtlNs : Nat := 24 * 60 * 60 * 1_000_000_000
def permittedDriftNs : Nat := 5 * 60 * 1_000_000_000
def maxAllowancePrunePerCall : Nat := 100
def maxPrunePerCall : Nat := 100
def maxMigrationEntries : Nat := 200_000
def maxDepositMemoLen : Nat := 256
def maxDepositReceipts : Nat := 65_536
def rollbackProbeEntries : Nat := 256
def reconcileRowBudget : Nat := 60_000
def stateVersion : Nat := 3

def errCodeZeroAmount : Nat := 5
def errCodeReceiptCapacity : Nat := 9
def errCodeDepositUnreceiptable : Nat := 10
def errCodeDepositFenced : Nat := 11
def errCodeReceiptConflict : Nat := 12

def errMsgZeroAmount : String :=
  "amount must be greater than zero (R10-1: zero-amount transfers are refused)"

/-- The ASCII bytes of a domain tag. -/
def tag (s : String) : Bytes := s.toUTF8.data.toList

def receiptOpidDomain : Bytes := tag "stsh.deposit.receipt.opid.v1"
def receiptRequestDomain : Bytes := tag "stsh.deposit.receipt.request.v1"

/-! ### Accounts -/

/-- `Principal::as_slice`: the bytes behind the length byte. -/
def principalSlice (p : Principal) : Bytes :=
  match Bytes.toBe 30 p.toNat with
  | [] => []
  | len :: bytes => bytes.take len.toNat

/-- A principal is at most 29 bytes, whatever its length byte says. -/
theorem length_principalSlice (p : Principal) : (principalSlice p).length ≤ 29 := by
  have hlen : (Bytes.toBe 30 p.toNat).length = 30 := Bytes.length_toBe _ _
  rw [principalSlice]
  cases hbytes : Bytes.toBe 30 p.toNat with
  | nil => exact Nat.zero_le _
  | cons len bytes =>
    rw [hbytes, List.length_cons] at hlen
    rw [List.length_take]
    omega

structure Account where
  owner : Principal
  subaccount : Option Bytes32
  deriving DecidableEq, Repr

/-- The storage key of an account; the zero subaccount is the default one. -/
def Account.encodeKey (a : Account) : Bytes :=
  let bytes := principalSlice a.owner
  let key := UInt8.ofNat bytes.length :: bytes
  match a.subaccount with
  | some sub => if sub ≠ 0 then key ++ Bytes.toBe 32 sub.toNat else key
  | none => key

/-- The key of an allowance: each half behind its length. -/
def compoundKey (a b : Bytes) : Bytes :=
  Bytes.toLe 4 a.length ++ a ++ Bytes.toLe 4 b.length ++ b

/-- `to_u128` of a candid `nat`. -/
def toU128 (n : Nat) : Option Nat := if n ≤ u128Max then some n else none

/-! ### Arguments -/

structure TransferArgs where
  fromSubaccount : Option Bytes32
  dest : Account
  amount : Nat
  fee : Option Nat
  memo : Option Bytes
  createdAtTime : Option Nat
  deriving DecidableEq, Repr

structure ApproveArgs where
  fromSubaccount : Option Bytes32
  spender : Account
  amount : Nat
  expectedAllowance : Option Nat
  expiresAt : Option Nat
  fee : Option Nat
  memo : Option Bytes
  createdAtTime : Option Nat
  deriving DecidableEq, Repr

structure TransferFromArgs where
  spenderSubaccount : Option Bytes32
  source : Account
  dest : Account
  amount : Nat
  fee : Option Nat
  memo : Option Bytes
  createdAtTime : Option Nat
  deriving DecidableEq, Repr

structure AllowanceArgs where
  account : Account
  spender : Account

structure Allowance where
  allowance : Nat
  expiresAt : Option Nat
  deriving DecidableEq, Repr

/-- The identity of a deposit transfer, as the pool presents it. -/
structure DepositAttemptArgs where
  source : Account
  spenderSubaccount : Option Bytes32
  dest : Account
  amount : Nat
  fee : Option Nat
  memo : Option Bytes
  createdAtTime : Option Nat
  deriving DecidableEq, Repr

/-! ### Errors -/

inductive TransferError where
  | badFee (expectedFee : Nat)
  | badBurn (minBurnAmount : Nat)
  | insufficientFunds (balance : Nat)
  | tooOld
  | createdInFuture (ledgerTime : Nat)
  | duplicate (duplicateOf : Nat)
  | temporarilyUnavailable
  | genericError (errorCode : Nat) (message : String)
  deriving DecidableEq, Repr

inductive ApproveError where
  | badFee (expectedFee : Nat)
  | insufficientFunds (balance : Nat)
  | allowanceChanged (currentAllowance : Nat)
  | expired (ledgerTime : Nat)
  | tooOld
  | createdInFuture (ledgerTime : Nat)
  | duplicate (duplicateOf : Nat)
  | temporarilyUnavailable
  | genericError (errorCode : Nat) (message : String)
  deriving DecidableEq, Repr

inductive TransferFromError where
  | badFee (expectedFee : Nat)
  | badBurn (minBurnAmount : Nat)
  | insufficientFunds (balance : Nat)
  | insufficientAllowance (allowance : Nat)
  | tooOld
  | createdInFuture (ledgerTime : Nat)
  | duplicate (duplicateOf : Nat)
  | temporarilyUnavailable
  | genericError (errorCode : Nat) (message : String)
  deriving DecidableEq, Repr

/-- `From<TransferError>`. -/
def TransferFromError.ofTransfer : TransferError → TransferFromError
  | .badFee expectedFee => .badFee expectedFee
  | .badBurn minBurnAmount => .badBurn minBurnAmount
  | .insufficientFunds balance => .insufficientFunds balance
  | .tooOld => .tooOld
  | .createdInFuture ledgerTime => .createdInFuture ledgerTime
  | .duplicate duplicateOf => .duplicate duplicateOf
  | .temporarilyUnavailable => .temporarilyUnavailable
  | .genericError errorCode message => .genericError errorCode message

inductive ReceiptError where
  | unauthorized
  | requestMismatch
  | unsupportedProtocol
  deriving DecidableEq, Repr

/-- Why a message is rolled back. `runningTotal` is the `expect` of the write
funnel: a running total that cannot represent the ledger. -/
inductive Trap where
  | arithmeticOverflow
  | runningTotal
  | stakingCanisterNotConfigured
  | notStakingCanister
  | notController
  | mintAlreadyPerformed
  | genesisRejected (reason : String)
  | genesisCreditOverflow
  | treasuryNotInitialised
  | noCheckpoint
  | checkpointCorrupt (field : String)
  | migrationLimit (entries : Nat)
  | seedLimit (rows : Nat)
  | seedOverflow
  | unsupportedStateVersion (stored : Nat)
  | staleCheckpoint (observed height : Nat)
  deriving DecidableEq, Repr

/-- The installed module: its own principal, its hash and its controllers. -/
structure Env where
  self : Principal
  sha256 : Bytes → Bytes32
  isController : Principal → Bool

/-- `Err` of a total debit that does not fit. -/
def checkedTotalDebit (amount fee : Nat) : Except TransferError Nat :=
  match checkedAdd128 amount fee with
  | some total => .ok total
  | none => .error (.genericError 3 "total_debit overflow (amount + fee exceeds u128)")

def checkedCredit (balance amount : Nat) : Except TransferError Nat :=
  match checkedAdd128 balance amount with
  | some credited => .ok credited
  | none => .error (.genericError 4 "balance credit overflow (exceeds u128)")

theorem checkedAdd128_eq {a b c : Nat} (h : checkedAdd128 a b = some c) :
    c = a + b ∧ a + b ≤ u128Max := by
  unfold checkedAdd128 at h
  split at h
  · next hle => exact ⟨(Option.some.inj h).symm, hle⟩
  · nomatch h

theorem checkedSub_eq {a b c : Nat} (h : checkedSub a b = some c) : c = a - b ∧ b ≤ a := by
  unfold checkedSub at h
  split at h
  · next hle => exact ⟨(Option.some.inj h).symm, hle⟩
  · nomatch h

theorem checkedTotalDebit_ok {amount fee total : Nat}
    (h : checkedTotalDebit amount fee = .ok total) : total = amount + fee := by
  unfold checkedTotalDebit at h
  split at h
  · next hc =>
    cases h
    exact (checkedAdd128_eq hc).1
  · nomatch h

theorem checkedCredit_ok {balance amount credited : Nat}
    (h : checkedCredit balance amount = .ok credited) : credited = balance + amount := by
  unfold checkedCredit at h
  split at h
  · next hc =>
    cases h
    exact (checkedAdd128_eq hc).1
  · nomatch h

end StshProtocol.Token
