import StshProtocol.Foundation.Canister
import StshProtocol.ShieldedPool.Basic

/-! The token ledger as the pool meets it: ICRC-1 calls that are carried out at any
time after they were sent, and answers that may be lost. A transfer is carried out
at most once per call; what it may be refused for is up to the ledger, but an
accepted one is a block and a duplicate is a block with the same arguments. -/
namespace StshProtocol.ShieldedPool
open Foundation

structure IcrcAccount where
  owner : Principal
  subaccount : Option Bytes32
  deriving DecidableEq, Repr

structure IcrcTransferArgs where
  fromSubaccount : Option Bytes32
  dest : IcrcAccount
  amount : Nat
  fee : Option Nat
  memo : Option Bytes
  createdAtTime : Option Nat
  deriving DecidableEq, Repr

inductive IcrcTransferError where
  | badFee (expectedFee : Nat)
  | badBurn (minBurnAmount : Nat)
  | insufficientFunds (balance : Nat)
  | tooOld
  | createdInFuture (ledgerTime : Nat)
  | duplicate (duplicateOf : Nat)
  | temporarilyUnavailable
  | genericError (errorCode : Nat) (message : String)
  deriving DecidableEq, Repr

inductive LedgerSettleOutcome where
  | confirmed
  | dedupWindowExhausted
  | definiteError
  deriving DecidableEq, Repr

/-- `classify_ledger_settlement`. -/
def classifyLedgerSettlement : Except IcrcTransferError Nat → LedgerSettleOutcome
  | .ok _ => .confirmed
  | .error (.duplicate _) => .confirmed
  | .error .tooOld => .dedupWindowExhausted
  | .error (.createdInFuture _) => .dedupWindowExhausted
  | .error _ => .definiteError

/-- The block a confirmed settlement names. -/
def settledBlock : Except IcrcTransferError Nat → Option Nat
  | .ok b => some b
  | .error (.duplicate b) => some b
  | .error _ => none

/-- The methods the pool calls on the token canister. -/
inductive LedgerCall where
  | icrc1Fee
  | icrc1BalanceOf (account : IcrcAccount)
  | icrc1Transfer (args : IcrcTransferArgs)
  deriving DecidableEq, Repr

/-- What comes back from a call: the method's own answer, or a rejection, which says
nothing about whether the call was carried out. -/
inductive LedgerReply where
  | fee (amount : Nat)
  | balance (amount : Nat)
  | transfer (result : Except IcrcTransferError Nat)
  | rejected (message : String)
  deriving DecidableEq

/-- A block of the ledger: a transfer this part of the pool asked for, or another. -/
inductive Block where
  | own (args : IcrcTransferArgs)
  | foreign
  deriving DecidableEq, Repr

/-- The ledger, the calls it has yet to carry out, and its answers by call number. -/
structure Ledger where
  blocks : List Block
  inFlight : Nat → Option LedgerCall
  replies : Nat → Option LedgerReply

namespace Ledger

/-- A ledger with no call under way. -/
def idle (blocks : List Block) : Ledger :=
  {blocks := blocks, inFlight := fun _ => none, replies := fun _ => none}

/-- What carrying out a call does to the blocks, and its answer. -/
inductive Executes (fresh : List Block → IcrcTransferArgs → Prop) (bs : List Block) :
    LedgerCall → List Block → LedgerReply → Prop where
  | fee (n : Nat) : Executes fresh bs .icrc1Fee bs (.fee n)
  | balance (a : IcrcAccount) (n : Nat) : Executes fresh bs (.icrc1BalanceOf a) bs (.balance n)
  | transferred {a : IcrcTransferArgs} (h : fresh bs a) :
      Executes fresh bs (.icrc1Transfer a) (bs ++ [.own a]) (.transfer (.ok bs.length))
  | duplicate {a : IcrcTransferArgs} {b : Nat} (h : bs[b]? = some (.own a)) :
      Executes fresh bs (.icrc1Transfer a) bs (.transfer (.error (.duplicate b)))
  | refused {a : IcrcTransferArgs} {e : IcrcTransferError}
      (h : settledBlock (.error e) = none) :
      Executes fresh bs (.icrc1Transfer a) bs (.transfer (.error e))

/-- Call `t` is answered with `r`, and the blocks become `bs`. -/
def carryOut (l : Ledger) (t : Nat) (bs : List Block) (r : LedgerReply) : Ledger :=
  {blocks := bs, inFlight := Function.update l.inFlight t none,
   replies := Function.update l.replies t (some r)}

/-- The ledger moves: it carries out a call, or somebody else's transfer. -/
inductive Moves (fresh : List Block → IcrcTransferArgs → Prop) (l : Ledger) : Ledger → Prop where
  | execute {t : Nat} {q : LedgerCall} {bs : List Block} {r : LedgerReply}
      (hq : l.inFlight t = some q) (h : Executes fresh l.blocks q bs r) :
      Moves fresh l (l.carryOut t bs r)
  | foreign : Moves fresh l {l with blocks := l.blocks ++ [.foreign]}

/-- The ledger as a callee. `fresh` says which transfers it may carry out. -/
def service (fresh : List Block → IcrcTransferArgs → Prop) : Service Ledger LedgerCall LedgerReply where
  accept t q l l' := l' = {l with inFlight := Function.update l.inFlight t (some q)}
  answer t r l := l.replies t = some r ∨ ∃ message, r = .rejected message
  move := Moves fresh

/-! ### Playing the ledger -/

/-- What the ledger does next, on given inputs. -/
inductive Play where
  | fee (call amount : Nat)
  | balance (call amount : Nat)
  | transfer (call : Nat)
  | refuse (call : Nat) (error : IcrcTransferError)
  | foreign

variable (fresh : List Block → IcrcTransferArgs → Prop) [∀ bs a, Decidable (fresh bs a)]

def play (l : Ledger) : Play → Option Ledger
  | .fee t n => if l.inFlight t = some .icrc1Fee then some (l.carryOut t l.blocks (.fee n)) else none
  | .balance t n =>
      match l.inFlight t with
      | some (.icrc1BalanceOf _) => some (l.carryOut t l.blocks (.balance n))
      | _ => none
  | .transfer t =>
      match l.inFlight t with
      | some (.icrc1Transfer a) =>
          if fresh l.blocks a then
            some (l.carryOut t (l.blocks ++ [.own a]) (.transfer (.ok l.blocks.length)))
          else none
      | _ => none
  | .refuse t e =>
      match l.inFlight t with
      | some (.icrc1Transfer _) =>
          if settledBlock (.error e) = none then
            some (l.carryOut t l.blocks (.transfer (.error e)))
          else none
      | _ => none
  | .foreign => some {l with blocks := l.blocks ++ [.foreign]}

theorem play_moves {l l' : Ledger} {m : Play} (h : play fresh l m = some l') : Moves fresh l l' := by
  cases m with
  | fee t n =>
    simp only [play] at h
    split at h
    · next hq => cases h; exact .execute hq (.fee n)
    · cases h
  | balance t n =>
    simp only [play] at h
    split at h
    · next a hq => cases h; exact .execute hq (.balance a n)
    · cases h
  | transfer t =>
    simp only [play] at h
    split at h
    · next a hq =>
      split at h
      · next hf => cases h; exact .execute hq (.transferred hf)
      · cases h
    · cases h
  | refuse t e =>
    simp only [play] at h
    split at h
    · next a hq =>
      split at h
      · next hn => cases h; exact .execute hq (.refused hn)
      · cases h
    · cases h
  | foreign => cases h; exact .foreign

def player : Player (service fresh) Play where
  take t q l := {l with inFlight := Function.update l.inFlight t (some q)}
  take_ok _ _ _ := rfl
  answers t r l := decide (l.replies t = some r)
  answers_ok _ _ _ h := .inl (of_decide_eq_true h)
  play m l := play fresh l m
  play_ok _ _ _ h := play_moves fresh h

end Ledger

end StshProtocol.ShieldedPool
