import Mathlib.Logic.Function.Basic
import StshProtocol.ShieldedPool.Basic

/-! The six accounting scalars: a durable cell and its heap mirror, written by one
function only, the cell first. Adding and subtracting are checked; what would wrap
traps instead. -/
namespace StshProtocol.ShieldedPool

/-- The words of the cell, `ACCT_W_*`. -/
inductive AcctWord where
  | privateLiability
  | escrowBacking
  | operationsReserve
  | insuranceReserve
  | governanceRewardsReserve
  | pendingFeeReimbursements
  deriving DecidableEq, Repr

abbrev AccountingWords : Type := AcctWord → Nat

/-- `POOL_ACCOUNTING_CELL` and the six heap scalars. -/
structure Accounting where
  cell : AccountingWords
  heap : AccountingWords

namespace Accounting

/-- `commit_pool_accounting`. -/
def commit (words : AccountingWords) : Accounting := {cell := words, heap := words}

/-- `acct_add`; `none` is its trap. -/
def add (a : Accounting) (word : AcctWord) (amount : Nat) : Option Accounting :=
  (checkedAdd128 (a.heap word) amount).map fun v => commit (Function.update a.heap word v)

/-- `acct_sub`; `none` is its trap. -/
def sub (a : Accounting) (word : AcctWord) (amount : Nat) : Option Accounting :=
  (checkedSub (a.heap word) amount).map fun v => commit (Function.update a.heap word v)

/-- The heap scalars are read back from the cell after an upgrade. -/
def reload (a : Accounting) : Accounting := {a with heap := a.cell}

end Accounting

end StshProtocol.ShieldedPool
