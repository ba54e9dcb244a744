import StshProtocol.ShieldedPool.State

/-! The end of a record: the status it ends in, the time it ended, its row in the terminal
index, and its locator taken off the active one. -/
namespace StshProtocol.ShieldedPool
open Foundation

/-- A status a spend may end in. -/
abbrev TerminalSpendStatus : Type := {status : SpendStatus // isTerminalSpendStatus status = true}

def failedBeforeStateChange (reason : String) : TerminalSpendStatus :=
  ⟨.failedBeforeStateChange reason, rfl⟩

def failedAfterOutputsStaged (reason : String) : TerminalSpendStatus :=
  ⟨.failedAfterOutputsStaged reason, rfl⟩

namespace SpendBook

def insertActiveSpendIndex (b : SpendBook) (owner : Principal) (id : SpendId) : SpendBook :=
  {b with active := b.active.insert (owner, id) ()}

def removeActiveSpendIndex (b : SpendBook) (owner : Principal) (id : SpendId) : SpendBook :=
  {b with active := b.active.erase (owner, id)}

def insertTerminalSpendIndex (b : SpendBook) (finalizedAtNs : Nat) (id : SpendId) : SpendBook :=
  {b with terminal := b.terminal.insert (finalizedAtNs, id) ()}

def setPendingSpend (b : SpendBook) (id : SpendId) (record : PendingSpend) : SpendBook :=
  {b with pending := b.pending.insert id record}

/-- The locator of a record without a submitter was never written. -/
def dropLocator (b : SpendBook) (owner : Option Principal) (id : SpendId) : SpendBook :=
  match owner with
  | some o => b.removeActiveSpendIndex o id
  | none => b

/-- The record and its locator go together. -/
def discardSpend (b : SpendBook) (owner : Option Principal) (id : SpendId) : SpendBook :=
  {b with pending := b.pending.erase id}.dropLocator owner id

/-- `mark_spend_terminal`: a record that has ended keeps its status, and only a missing
time and its rows are made up for. -/
def markSpendTerminal (b : SpendBook) (id : SpendId) (status : TerminalSpendStatus) (nowNs : Nat) :
    Except PoolError SpendBook :=
  match b.pending[id]? with
  | none => .error .spendNotFound
  | some record =>
    if isTerminalSpendStatus record.status then
      let finalized := record.finalizedAtNs.getD nowNs
      .ok (((b.setPendingSpend id {record with finalizedAtNs := some finalized}
        ).insertTerminalSpendIndex finalized id).dropLocator record.submitter id)
    else
      .ok (((b.setPendingSpend id {record with finalizedAtNs := some nowNs, status := status}
        ).insertTerminalSpendIndex nowNs id).dropLocator record.submitter id)

/-- `let _ = mark_spend_terminal(..)`. -/
def endSpend (b : SpendBook) (id : SpendId) (status : TerminalSpendStatus) (nowNs : Nat) : SpendBook :=
  (b.markSpendTerminal id status nowNs).toOption.getD b

end SpendBook

def isTerminalDepositStatus : DepositStatus → Bool
  | .commitmentRootAccepted _ _ => true
  | _ => false

end StshProtocol.ShieldedPool
