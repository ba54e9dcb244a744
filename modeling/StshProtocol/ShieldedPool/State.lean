import StshProtocol.ShieldedPool.Records
import StshProtocol.ShieldedPool.Recovery.Cursor

/-! The pool-wide append lease: one cell, held by one deposit or one spend from
the leaf-count snapshot of its Merkle append until the covering root is accepted.
Everything but acquiring compares the owner and the generation first, so that a
continuation that resumes late can neither advance nor free its successor's
lease. -/
namespace StshProtocol.ShieldedPool

inductive AppendLeaseOwner where
  | deposit (commitment : Bytes32)
  | spend (spendId : SpendId)
  deriving DecidableEq, Repr

inductive LeasePhase where
  | snapshotting
  | appendInFlight
  | appendUnknown
  | reconcileInFlight
  | appendConfirmedRootPending
  deriving DecidableEq, Repr

structure AppendLease where
  owner : AppendLeaseOwner
  generation : Nat
  phase : LeasePhase
  acquiredAtNs : Nat
  phaseStartedAtNs : Nat
  deriving DecidableEq, Repr

structure AppendLeaseCellState where
  nextGeneration : Nat
  lease : Option AppendLease
  deriving DecidableEq, Repr

/-- What a continuation holding `(owner, generation)` compares the lease with. -/
def AppendLease.heldBy (l : AppendLease) (owner : AppendLeaseOwner) (generation : Nat) : Bool :=
  l.owner == owner && l.generation == generation

/-- `lease_expect`. -/
def leaseExpect (cell : AppendLeaseCellState) (owner : AppendLeaseOwner) (generation : Nat)
    (expectedPhase : LeasePhase) : Bool :=
  match cell.lease with
  | some l => l.heldBy owner generation && l.phase == expectedPhase
  | none => false

/-- `lease_acquire`, when the cell is free: the new cell and the generation. The
counter's increment is overflow-checked, and an overflow traps. -/
def leaseAcquire (cell : AppendLeaseCellState) (owner : AppendLeaseOwner) (nowNs : Nat) :
    Option (AppendLeaseCellState × Nat) :=
  match cell.lease with
  | some _ => none
  | none => some
      ({ nextGeneration := cell.nextGeneration + 1
         lease := some ⟨owner, cell.nextGeneration, .snapshotting, nowNs, nowNs⟩ },
        cell.nextGeneration)

/-- `lease_transition`. -/
def leaseTransition (cell : AppendLeaseCellState) (owner : AppendLeaseOwner) (generation : Nat)
    (source target : LeasePhase) (nowNs : Nat) : Option AppendLeaseCellState :=
  match cell.lease with
  | some l =>
      if l.heldBy owner generation && l.phase == source then
        some {cell with lease := some {l with phase := target, phaseStartedAtNs := nowNs}}
      else none
  | none => none

/-- `lease_release`. -/
def leaseRelease (cell : AppendLeaseCellState) (owner : AppendLeaseOwner) (generation : Nat) :
    Option AppendLeaseCellState :=
  match cell.lease with
  | some l => if l.heldBy owner generation then some {cell with lease := none} else none
  | none => none

inductive LeaseUpgradeAction where
  | releaseRetryable
  | normalizeToAppendUnknown
  | retainForReconciliation
  | normalizeReconcileToAppendUnknown
  | retainContinueFinalization
  | trap
  deriving DecidableEq, Repr

def depositLeaseTupleAction : LeasePhase → DepositStatus → LeaseUpgradeAction
  | .snapshotting, .transferConfirmedCommitmentPending => .releaseRetryable
  | .snapshotting, .commitmentPending => .releaseRetryable
  | .appendInFlight, .commitmentAppendInFlight => .normalizeToAppendUnknown
  | .appendUnknown, .commitmentAppendUnknown => .retainForReconciliation
  | .reconcileInFlight, .commitmentReconcileInFlight => .normalizeReconcileToAppendUnknown
  | .appendConfirmedRootPending, .commitmentAppended _ => .retainContinueFinalization
  | _, _ => .trap

def spendLeaseTupleAction : LeasePhase → SpendStatus → LeaseUpgradeAction
  | .snapshotting, .nullifierFinalizedOutputsPending => .releaseRetryable
  | .snapshotting, .activeAppendRejected _ => .releaseRetryable
  | .appendInFlight, .activeAppendInFlight => .normalizeToAppendUnknown
  | .appendUnknown, .activeAppendUnknown _ => .retainForReconciliation
  | .reconcileInFlight, .activeAppendUnknown _ => .normalizeReconcileToAppendUnknown
  | .appendConfirmedRootPending, .activeRootPending => .retainContinueFinalization
  | _, _ => .trap

end StshProtocol.ShieldedPool

/-! The state of the pool: the maps and cells it keeps in stable memory, and the
heap an upgrade clears. Each subsystem has a book of its own, so that a handler
of one can be seen not to touch another. -/
namespace StshProtocol.ShieldedPool
open Foundation

/-- A set of keys, in key order. -/
abbrev StableSet (κ : Type) [Ord κ] : Type := StableMap κ Unit

instance principalBytesOrd : Ord (Principal × Bytes32) := lexOrd
instance principalSpendOrd : Ord (Principal × SpendId) := lexOrd
instance natBytesOrd : Ord (Nat × Bytes32) := lexOrd
instance natSpendOrd : Ord (Nat × SpendId) := lexOrd

instance : Std.TransOrd (Principal × Bytes32) := inferInstance
instance : Std.TransOrd (Principal × SpendId) := inferInstance
instance : Std.TransOrd (Nat × Bytes32) := inferInstance
instance : Std.TransOrd (Nat × SpendId) := inferInstance

/-- The deposit maps: `PENDING_DEPOSITS`, `DEPOSIT_NONCES`, `DEPOSIT_SETTLEMENT`,
`ACTIVE_DEPOSIT_INDEX` and `TERMINAL_DEPOSIT_INDEX`. -/
structure DepositBook where
  pending : StableMap Bytes32 PendingDeposit
  nonces : StableMap Bytes32 Bytes32
  settlement : StableMap Bytes32 DepositSettlement
  active : StableSet (Principal × Bytes32)
  terminal : StableSet (Nat × Bytes32)

/-- The spend maps: `PENDING_SPENDS`, `PENDING_OUTPUTS`, `ACTIVE_SPEND_INDEX` and
`TERMINAL_SPEND_INDEX`; and the heap sets `INFLIGHT_NULLIFIERS` and
`VERIFY_PENDING_NULLIFIERS`. -/
structure SpendBook where
  pending : StableMap SpendId PendingSpend
  outputs : StableMap SpendId PendingOutputRecord
  active : StableSet (Principal × SpendId)
  terminal : StableSet (Nat × SpendId)
  inflight : StableSet Bytes32
  verifyPending : StableSet Bytes32

structure AcceptedRootHead where
  root : Bytes32
  leafCount : Nat
  deriving DecidableEq, Repr

/-- `ACCEPTED_SPEND_ROOTS` and `ACCEPTED_ROOT_HEAD`. -/
structure AcceptedRoots where
  accepted : StableSet Bytes32
  head : Option AcceptedRootHead

/-- The recovery cells: the encoded cursor and `RECOVERY_INDEX_VERSION`. `visits`
and `checked` are ghost: the records the scan has looked at, phase by phase, and
the index sizes the completing call compared with the cursor's tallies. -/
structure RecoveryCells where
  cursor : Bytes
  indexVersion : Nat
  visits : List (Nat × AppendLeaseOwner)
  checked : Option (Nat × Nat)

structure Pool where
  deposits : DepositBook
  spends : SpendBook
  lease : AppendLeaseCellState
  roots : AcceptedRoots
  recovery : RecoveryCells

/-- A pool whose records fit in stable memory: each takes a byte at least, and there
are fewer than `2 ^ 40`. -/
structure StablePool extends Pool where
  fits : deposits.pending.size + spends.pending.size ≤ 2 ^ 40

end StshProtocol.ShieldedPool
