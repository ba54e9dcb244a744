import StshProtocol.ShieldedPool.Accounting
import StshProtocol.ShieldedPool.Ledger
import StshProtocol.ShieldedPool.PrivateSpend.Args
import StshProtocol.ShieldedPool.Recovery.Scan
import StshProtocol.ShieldedPool.Terminal

/-! What `private_spend` reads and writes: the security cells, the wiring, the payout
control, and the counts that admission keeps for each caller. -/
namespace StshProtocol.ShieldedPool.PrivateSpend
open Foundation FeePolicy Handler

def perPrincipalFailedVerifyLimit : Nat := 3
def failedVerifyWindowNs : Nat := 3600000000000
def failedVerifyPruneMax : Nat := 16
def perPrincipalMaxInflightSpends : Nat := 3

/-- The pins, the activation that waits for its time, the verifier, the pause of spends and
the epoch that counts their changes. -/
structure SecurityCells where
  pinnedCircuitVersion : Nat
  pinnedVkHash : Bytes32
  pinnedPoolVersion : Nat
  pinnedProofSystem : String
  pendingVkHash : Option Bytes32
  pendingVkVersion : Option Nat
  pendingVkActiveAt : Option Nat
  oldVkCutoffAt : Option Nat
  verifierCanister : Option Principal
  spendsPaused : Bool
  securityEpoch : Nat
  deriving DecidableEq, Repr

/-- The canisters the pool knows, and who may configure it. -/
structure Wiring where
  token : Option Principal
  merkle : Option Principal
  nullifier : Option Principal
  staking : Option Principal
  controller : Option Principal
  vetkeys : Option Principal
  deriving DecidableEq, Repr

/-- The payout control: a boot is one installed module, and a sequence number is given out
once. -/
structure PayoutControl where
  boot : Nat
  next : Nat
  key : Option Bytes32
  deriving DecidableEq, Repr

structure SpendInflight where
  spends : Nat
  verifiesPending : Nat
  deriving DecidableEq, Repr

/-- `FAILED_VERIFY_LOG`, three times at most for each caller and in ascending order;
`FAILED_VERIFY_PRUNE_CURSOR`; and `SPEND_INFLIGHT`. -/
structure Admission where
  failedVerifyLog : StableMap Principal (List Nat)
  pruneCursor : Option Principal
  inflight : StableMap Principal SpendInflight

/-- `VERIFIER_VK_ATTESTATION`. -/
inductive VerifierVkAttestation where
  | unattested
  | matched (verifier : Principal) (pin : Bytes32)
  deriving DecidableEq, Repr

structure SpendState extends Pool where
  security : SecurityCells
  wiring : Wiring
  payouts : PayoutControl
  admission : Admission
  attestation : VerifierVkAttestation
  setVerifierInProgress : Bool
  accounting : Accounting
  withdrawalNullifiers : StableMap Bytes32 Nat
  feeParams : GovernanceFeeParams

/-- Why a message is rolled back. -/
inductive Trap where
  | controllerUnset
  | stakingUnset
  | notController
  | notGovernance
  | notAuthorized
  | securityEpochOverflow
  | payoutBootExhausted
  | recovery (trap : Recovery.RecoveryTrap)
  deriving DecidableEq, Repr

abbrev Message (ε α : Type) : Type := Handler Trap SpendState ε α

abbrev Spending (α : Type) : Type := Message PoolError α

/-- The pool's own principal, the `{:?}` of an error, and what a call comes back with when
its reply does not decode. -/
structure Deployment where
  self : Principal
  debugError : PoolError → String
  undecodable : String

/-! ### Admission -/

def spendAdmissionError (code : String) (retryAfterNs : Nat) : PoolError :=
  .verifierUnavailable s!"SPEND_ADMISSION;code={code};retry_after_ns={retryAfterNs}"

def inWindow (nowNs ts : Nat) : Bool := decide (nowNs - ts < failedVerifyWindowNs)

/-- How many failures the window holds, and the oldest of them. -/
def failuresInWindow (log : List Nat) (nowNs : Nat) : Nat × Option Nat :=
  let live := log.filter (inWindow nowNs)
  (live.length, live.min?)

/-- Three failures are kept, the oldest makes room. -/
def logWithFailure (log : List Nat) (nowNs : Nat) : List Nat :=
  let live := (log.filter (inWindow nowNs)).mergeSort
  (if 3 ≤ live.length then live.drop 1 else live) ++ [nowNs]

namespace Admission

/-- The failures in the window, and how long until the oldest leaves it. -/
def failedVerifyStatus (a : Admission) (caller : Principal) (nowNs : Nat) : Nat × Nat :=
  match a.failedVerifyLog[caller]? with
  | none => (0, 0)
  | some log =>
    let (n, oldest) := failuresInWindow log nowNs
    (n, (oldest.map fun o => satAdd64 o failedVerifyWindowNs - nowNs).getD 0)

def recordFailedVerify (a : Admission) (caller : Principal) (nowNs : Nat) : Admission :=
  {a with failedVerifyLog := a.failedVerifyLog.insert caller
            (logWithFailure (a.failedVerifyLog.getD caller []) nowNs)}

/-- The rows to look at: those after the cursor, and from the start again up to it. -/
def pruneBatch (a : Admission) : List (Principal × List Nat) :=
  let after := (a.failedVerifyLog.entriesAfter a.pruneCursor).take failedVerifyPruneMax
  match a.pruneCursor with
  | none => after
  | some cursor =>
    after ++ (a.failedVerifyLog.toList.filter fun row => (compare row.1 cursor).isLE).take
      (failedVerifyPruneMax - after.length)

/-- A bounded number of rows is looked at, and those without a live failure go. -/
def pruneFailedVerifyLog (a : Admission) (nowNs : Nat) : Admission :=
  let batch := a.pruneBatch
  {a with failedVerifyLog := batch.foldl (fun log row =>
            if (failuresInWindow row.2 nowNs).1 = 0 then log.erase row.1 else log) a.failedVerifyLog
          pruneCursor := batch.getLast?.map (·.1)}

def inflightOf (a : Admission) (caller : Principal) : SpendInflight :=
  a.inflight.getD caller ⟨0, 0⟩

def setInflight (a : Admission) (caller : Principal) (e : SpendInflight) : Admission :=
  {a with inflight := a.inflight.insert caller e}

/-- The spend slot is given back; a caller with nothing in flight is forgotten. -/
def releaseSpend (a : Admission) (caller : Principal) : Admission :=
  match a.inflight[caller]? with
  | none => a
  | some e =>
    if e.spends - 1 = 0 ∧ e.verifiesPending = 0 then {a with inflight := a.inflight.erase caller}
    else a.setInflight caller {e with spends := e.spends - 1}

def releaseVerify (a : Admission) (caller : Principal) : Admission :=
  match a.inflight[caller]? with
  | none => a
  | some e => a.setInflight caller {e with verifiesPending := e.verifiesPending - 1}

end Admission

/-- `SpendAdmissionTicket::enter`. -/
def enterTicket (caller : Principal) : Spending Unit := do
  let e ← read fun s => s.admission.inflightOf caller
  demand (e.spends < perPrincipalMaxInflightSpends) (spendAdmissionError "INFLIGHT_LIMIT" 0)
  write fun s => {s with admission := s.admission.setInflight caller {e with spends := e.spends + 1}}

/-- `SpendAdmissionTicket::admit_verify`. -/
def admitVerify (caller : Principal) (nowNs : Nat) : Spending Unit := do
  write fun s => {s with admission := s.admission.pruneFailedVerifyLog nowNs}
  let status ← read fun s => s.admission.failedVerifyStatus caller nowNs
  let e ← read fun s => s.admission.inflightOf caller
  demand (status.1 + e.verifiesPending < perPrincipalFailedVerifyLimit)
    (spendAdmissionError "FAILED_VERIFY_LIMIT" (if 0 < status.1 then status.2 else 0))
  write fun s => {s with
    admission := s.admission.setInflight caller {e with verifiesPending := e.verifiesPending + 1}}

/-- `SpendAdmissionTicket::resolve_verify`; the slot is held until here. -/
def resolveVerify (caller : Principal) (nowNs : Nat) (failed : Bool) : Spending Unit := do
  write fun s => {s with admission := s.admission.releaseVerify caller}
  if failed then
    write fun s => {s with admission := s.admission.recordFailedVerify caller nowNs}
  else
    pure ()

def releaseSpendSlot (caller : Principal) (s : SpendState) : SpendState :=
  {s with admission := s.admission.releaseSpend caller}

def releaseVerifySlot (caller : Principal) (s : SpendState) : SpendState :=
  {s with admission := s.admission.releaseVerify caller}

def insertAll (set : StableSet Bytes32) (nullifiers : List Bytes32) : StableSet Bytes32 :=
  nullifiers.foldl (fun set n => set.insert n ()) set

def eraseAll (set : StableSet Bytes32) (nullifiers : List Bytes32) : StableSet Bytes32 :=
  nullifiers.foldl (fun set n => set.erase n) set

/-- `VerifyPendingNullifierGuard::try_new`: the nullifiers it marks, which are those its
drop takes off again. -/
def guardNullifiers (nullifiers : List Bytes32) : Spending (List Bytes32) := do
  let busy ← read fun s => nullifiers.any fun n =>
    s.spends.verifyPending.contains n || s.spends.inflight.contains n
  demand (busy = false) .nullifierReserved
  write fun s => {s with spends.verifyPending := insertAll s.spends.verifyPending nullifiers}
  pure nullifiers.eraseDups

def dropNullifierGuard (guarded : List Bytes32) (s : SpendState) : SpendState :=
  {s with spends.verifyPending := eraseAll s.spends.verifyPending guarded}

/-! ### Payout control -/

/-- `reserve_payout_sequence`. -/
def reservePayoutSequence : Spending PayoutRetryState := do
  let c ← read fun s => s.payouts
  demand c.key.isSome .payoutMemoKeyNotReady
  demand (c.next + 1 ≤ u128Max) .payoutStateInvalid
  write fun s => {s with payouts := {c with next := c.next + 1}}
  pure ⟨c.next, 0, c.boot, .preDispatch, false, false, none⟩

end StshProtocol.ShieldedPool.PrivateSpend
