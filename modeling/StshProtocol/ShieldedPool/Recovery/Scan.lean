import StshProtocol.ShieldedPool.State

/-! The post-upgrade recovery scan as the pool runs it: the two H-1
normalizations, one slice of a phase, the budgeted loop over the phases, the
check that ends it and the gate at the head of every endpoint.

A trap inside any of these rolls the whole message back, so what a trapping call
wrote is never seen; the functions answer in `Except RecoveryTrap`. -/
namespace StshProtocol.ShieldedPool.Recovery
open Foundation

inductive RecoveryTrap where
  | appendInFlightWithoutIndex (commitment : Bytes32) (duringPostUpgrade : Bool)
  | depositWithoutLease (commitment : Bytes32) (status : DepositStatus) (duringPostUpgrade : Bool)
  | spendWithoutLease (spendId : SpendId) (status : SpendStatus) (duringPostUpgrade : Bool)
  | invalidAppendInFlight (commitment : Bytes32)
  | spendWithoutSubmitter (spendId : SpendId)
  | unknownPhase (phase : Nat)
  | indexCardinality (builtDeposits expectedDeposits builtSpends expectedSpends : Nat)
  deriving DecidableEq, Repr

def recoveryIndexVersionCurrent : Nat := 2

def recoveryIndexStamped (p : Pool) : Bool := p.recovery.indexVersion == recoveryIndexVersionCurrent

def settledLeaseOwner (p : Pool) : Option AppendLeaseOwner := p.lease.lease.map (·.owner)

/-! ### The books -/

def setPendingSpend (p : Pool) (id : SpendId) (spend : PendingSpend) : Pool :=
  {p with spends.pending := p.spends.pending.insert id spend}

def setPendingDeposit (p : Pool) (key : Bytes32) (dep : PendingDeposit) : Pool :=
  {p with deposits.pending := p.deposits.pending.insert key dep}

/-- `deindex_spend_record`: a record without a submitter was never indexed. -/
def deindexSpendRecord (p : Pool) (spend : PendingSpend) : Pool :=
  match spend.submitter with
  | some owner => {p with spends.active := p.spends.active.erase (owner, spend.spendId)}
  | none => p

def insertActiveDepositIndex (p : Pool) (owner : Principal) (commitment : Bytes32) : Pool :=
  {p with deposits.active := p.deposits.active.insert (owner, commitment) ()}

def insertActiveSpendIndex (p : Pool) (owner : Principal) (spendId : SpendId) : Pool :=
  {p with spends.active := p.spends.active.insert (owner, spendId) ()}

/-- The ghost note that a record was looked at. -/
def logVisit (p : Pool) (phase : Nat) (key : AppendLeaseOwner) : Pool :=
  {p with recovery.visits := p.recovery.visits ++ [(phase, key)]}

/-! ### Normalization -/

def restoredInsertReason : String :=
  "restored by post_upgrade (H-1): insert_batch outcome unproven when the canister upgraded — reconcile_nullifier_insert resolves"

def restoredAppendReason : String :=
  "restored by post_upgrade (H-1): active append was in flight when the canister upgraded — reconcile_pending_spend resolves"

/-- The status `normalize_spend_record_for_upgrade` leaves in the caller's copy of
the record; `has_index` is the staged outputs' answer. -/
def normalizedSpendStatus (status : SpendStatus) (hasIndex : Bool) : SpendStatus :=
  match classifySpendStatusForUpgrade status with
  | .preserve | .removeRecord => status
  | .normalizeToNullifierInsertUnknown => .nullifierInsertUnknown restoredInsertReason
  | .resolveActiveAppendInFlightByIndex =>
      if hasIndex then .activeAppendUnknown restoredAppendReason
      else .nullifierFinalizedOutputsPending

def hasExpectedIndex (p : Pool) (id : SpendId) : Bool :=
  (p.spends.outputs[id]?.bind (·.expectedFirstLeafIndex)).isSome

/-- `normalize_spend_record_for_upgrade`: the pool, and the record as the caller
holds it afterwards. -/
def normalizeSpendRecordForUpgrade (p : Pool) (id : SpendId) (spend : PendingSpend) :
    Pool × PendingSpend :=
  let spend' := {spend with status := normalizedSpendStatus spend.status (hasExpectedIndex p id)}
  match classifySpendStatusForUpgrade spend.status with
  | .preserve => (p, spend')
  | .removeRecord =>
      (deindexSpendRecord {p with spends.pending := p.spends.pending.erase id} spend, spend')
  | .normalizeToNullifierInsertUnknown => (setPendingSpend p id spend', spend')
  | .resolveActiveAppendInFlightByIndex => (setPendingSpend p id spend', spend')

def normalizeDepositRecordForUpgrade (p : Pool) (key : Bytes32) (dep : PendingDeposit) :
    Except RecoveryTrap Pool :=
  match classifyDepositStatusForUpgrade dep.status with
  | .preserve => .ok p
  | .normalizeReconcileToAppendUnknown =>
      .ok (setPendingDeposit p key {dep with status := .commitmentAppendUnknown})
  | .resolveAppendInFlightByIndex =>
      match dep.expectedLeafIndex with
      | some _ => .ok (setPendingDeposit p key {dep with status := .commitmentAppendUnknown})
      | none => .error (.invalidAppendInFlight key)

def rebuildInflightNullifiers (spends : List PendingSpend) (set : StableSet Bytes32) :
    StableSet Bytes32 :=
  spends.foldl (fun set spend =>
    if isTerminalSpendStatus spend.status then set
    else if reservesNullifiers spend.status then
      spend.nullifiers.foldl (fun set nf => set.insert nf ()) set
    else set) set

/-! ### One slice

Each phase looks at the next records of its map after the last key it saw. -/

/-- What a phase's loop carries: the cursor and the pool. -/
structure ScanState where
  cur : RecoveryCursor
  pool : Pool

def depositBatch (s : ScanState) (budget : Nat) : List (Bytes32 × PendingDeposit) :=
  (s.pool.deposits.pending.entriesAfter s.cur.lastDeposit).take budget

def spendBatch (s : ScanState) (budget : Nat) : List (SpendId × PendingSpend) :=
  (s.pool.spends.pending.entriesAfter s.cur.lastSpend).take budget

def sawDeposit (s : ScanState) (phase : Nat) (key : Bytes32) : ScanState :=
  ⟨{s.cur with lastDeposit := some key}, logVisit s.pool phase (.deposit key)⟩

def sawSpend (s : ScanState) (phase : Nat) (id : SpendId) : ScanState :=
  ⟨{s.cur with lastSpend := some id}, logVisit s.pool phase (.spend id)⟩

/-- What phase 0 asks of a deposit: an append in flight has its index, and a
deposit that needs the lease is its owner. -/
def depositLeaseCheck (owner : Option AppendLeaseOwner) (duringPostUpgrade : Bool) (key : Bytes32)
    (dep : PendingDeposit) : Except RecoveryTrap Unit :=
  if dep.status = .commitmentAppendInFlight ∧ dep.expectedLeafIndex = none then
    .error (.appendInFlightWithoutIndex key duringPostUpgrade)
  else if depositStatusRequiresLease dep.status ∧ owner ≠ some (.deposit key) then
    .error (.depositWithoutLease key dep.status duringPostUpgrade)
  else .ok ()

def visitDepositLease (duringPostUpgrade : Bool) (s : ScanState)
    (entry : Bytes32 × PendingDeposit) : Except RecoveryTrap ScanState := do
  depositLeaseCheck (settledLeaseOwner s.pool) duringPostUpgrade entry.1 entry.2
  return sawDeposit s 0 entry.1

/-- What phase 1 asks of a spend: one that needs the lease is its owner. -/
def spendLeaseCheck (owner : Option AppendLeaseOwner) (duringPostUpgrade : Bool) (id : SpendId)
    (spend : PendingSpend) : Except RecoveryTrap Unit :=
  if spendStatusRequiresLease spend.status ∧ owner ≠ some (.spend id) then
    .error (.spendWithoutLease id spend.status duringPostUpgrade)
  else .ok ()

def visitSpendLease (duringPostUpgrade : Bool) (s : ScanState) (entry : SpendId × PendingSpend) :
    Except RecoveryTrap ScanState := do
  spendLeaseCheck (settledLeaseOwner s.pool) duringPostUpgrade entry.1 entry.2
  return sawSpend s 1 entry.1

/-- A record that normalization removed cancels its visit in phase 5. -/
def noteRemoval (gone : Bool) (cur : RecoveryCursor) : RecoveryCursor :=
  if gone then {cur with removedVisits := satAdd64 cur.removedVisits 1} else cur

/-- Phase 2: normalize a spend and count the visit its removal cancels. The
second component collects the records to reinstate from. -/
def visitSpendNormalize (acc : ScanState × List PendingSpend) (entry : SpendId × PendingSpend) :
    ScanState × List PendingSpend :=
  let (s, reinstate) := acc
  let (id, spend) := entry
  let (pool, spend) := normalizeSpendRecordForUpgrade s.pool id spend
  let cur := noteRemoval (pool.spends.pending[id]?.isNone) s.cur
  (sawSpend ⟨cur, pool⟩ 2 id, reinstate ++ [spend])

/-- Phase 3: normalize a deposit. -/
def visitDepositNormalize (s : ScanState) (entry : Bytes32 × PendingDeposit) :
    Except RecoveryTrap ScanState :=
  let (key, dep) := entry
  match normalizeDepositRecordForUpgrade s.pool key dep with
  | .ok pool => .ok (sawDeposit {s with pool} 3 key)
  | .error trap => .error trap

/-- Phase 4: index a deposit that still needs recovery. -/
def visitDepositIndex (s : ScanState) (entry : Bytes32 × PendingDeposit) : ScanState :=
  let (key, dep) := entry
  if depositRecoveryRequired dep.status then
    match dep.depositor with
    | some owner => sawDeposit
        ⟨{s.cur with expectedDeposits := satAdd64 s.cur.expectedDeposits 1},
          insertActiveDepositIndex s.pool owner key⟩ 4 key
    | none => sawDeposit s 4 key
  else sawDeposit s 4 key

/-- Phase 5: index a spend that still needs recovery; one without a submitter traps. -/
def visitSpendIndex (s : ScanState) (entry : SpendId × PendingSpend) : Except RecoveryTrap ScanState :=
  let (id, spend) := entry
  if spendRecoveryRequired spend.status then
    match spend.submitter with
    | some owner => .ok (sawSpend
        ⟨{s.cur with expectedSpends := satAdd64 s.cur.expectedSpends 1},
          insertActiveSpendIndex s.pool owner id⟩ 5 id)
    | none => .error (.spendWithoutSubmitter id)
  else .ok (sawSpend s 5 id)

/-- `recovery_scan_slice`: the state after the slice and the records it scanned. -/
def recoveryScanSlice (s : ScanState) (budget : Nat) (duringPostUpgrade : Bool) :
    Except RecoveryTrap (ScanState × Nat) := do
  match s.cur.phase with
  | 0 =>
    let batch := depositBatch s budget
    return (← batch.foldlM (visitDepositLease duringPostUpgrade) s, batch.length)
  | 1 =>
    let batch := spendBatch s budget
    return (← batch.foldlM (visitSpendLease duringPostUpgrade) s, batch.length)
  | 2 =>
    let batch := spendBatch s budget
    let (s, reinstate) := batch.foldl visitSpendNormalize (s, [])
    let inflight := rebuildInflightNullifiers reinstate s.pool.spends.inflight
    return ({s with pool.spends.inflight := inflight}, batch.length)
  | 3 =>
    let batch := depositBatch s budget
    return (← batch.foldlM visitDepositNormalize s, batch.length)
  | 4 =>
    let batch := depositBatch s budget
    return (batch.foldl visitDepositIndex s, batch.length)
  | 5 =>
    let batch := spendBatch s budget
    return (← batch.foldlM visitSpendIndex s, batch.length)
  | other => .error (.unknownPhase other)

/-! ### The loop, the final check and the gate -/

def recoveryCursor (p : Pool) : RecoveryCursor := .fromBytes p.recovery.cursor

def commitRecoveryCursor (p : Pool) (cur : RecoveryCursor) : Pool :=
  {p with recovery.cursor := cur.toBytes}

def recoveryPending (p : Pool) : Bool := !(recoveryCursor p).isComplete

/-- An exhausted phase gives way to the next one, which walks from the start. -/
def nextPhase (s : ScanState) : ScanState :=
  {s with cur := {s.cur with phase := s.cur.phase + 1, lastDeposit := none, lastSpend := none}}

/-- The `while budget > 0 && !cur.is_complete()` loop. Each turn ends a phase or
spends budget, so `budget + 6` turns are enough (`advanceLoop_steps`). -/
def advanceLoop (duringPostUpgrade : Bool) : Nat → ScanState → Nat → Except RecoveryTrap ScanState
  | 0, s, _ => .ok s
  | turns + 1, s, budget =>
    if budget = 0 || s.cur.isComplete then .ok s
    else do
      let (s, done) ← recoveryScanSlice s budget duringPostUpgrade
      if done = 0 then advanceLoop duringPostUpgrade turns (nextPhase s) budget
      else
        let cur := {s.cur with scanned := satAdd64 s.cur.scanned done}
        advanceLoop duringPostUpgrade turns {s with cur} (budget - min done budget)

/-- `finish_recovery_build`: compare the built index with the tallies, then stamp. -/
def finishRecoveryBuild (p : Pool) (cur : RecoveryCursor) : Except RecoveryTrap Pool :=
  if recoveryIndexStamped p then .ok p
  else
    let actualDeposits := p.deposits.active.size
    let actualSpends := p.spends.active.size
    if actualDeposits ≠ cur.expectedDeposits ∨ actualSpends ≠ cur.expectedSpends then
      .error (.indexCardinality actualDeposits cur.expectedDeposits actualSpends cur.expectedSpends)
    else .ok {p with
      recovery.indexVersion := recoveryIndexVersionCurrent
      recovery.checked := some (actualDeposits, actualSpends)}

/-- The final check belongs to the chunk that completes the cursor. -/
def finishIfComplete (s : ScanState) : Except RecoveryTrap Pool :=
  if s.cur.isComplete then finishRecoveryBuild s.pool s.cur else .ok s.pool

/-- A cursor that measures nothing takes the totals before it counts against them. -/
def snapshotTotals (p : Pool) (cur : RecoveryCursor) : RecoveryCursor :=
  if cur.isFailClosedDefault then
    {cur with depositsTotal := p.deposits.pending.size, spendsTotal := p.spends.pending.size}
  else cur

/-- `advance_recovery_cursor_ctx`, with the chunk's size as an argument: the pool
and the work remaining after the chunk. -/
def advanceRecoveryCursorCtx (chunk : Nat) (duringPostUpgrade : Bool) (p : Pool) :
    Except RecoveryTrap (Pool × Nat) :=
  if (recoveryCursor p).isComplete then .ok (p, 0)
  else do
    let s ← advanceLoop duringPostUpgrade (chunk + cursorPhaseComplete)
      ⟨snapshotTotals p (recoveryCursor p), p⟩ chunk
    let pool ← finishIfComplete s
    return (commitRecoveryCursor pool s.cur, s.cur.remaining)

/-- The cursor of a scan that begins: it snapshots the work. -/
def firstCursor (p : Pool) : RecoveryCursor where
  phase := 0
  lastDeposit := none
  lastSpend := none
  depositsTotal := p.deposits.pending.size
  spendsTotal := p.spends.pending.size
  scanned := 0
  expectedDeposits := 0
  expectedSpends := 0
  removedVisits := 0

/-- `run_first_recovery_chunk`: snapshot the work, then spend one chunk on it. -/
def runFirstRecoveryChunk (chunk : Nat) (p : Pool) : Except RecoveryTrap Pool := do
  let (p, _) ← advanceRecoveryCursorCtx chunk true (commitRecoveryCursor p (firstCursor p))
  return p

/-- What the gate answers a caller it turns away. -/
def recoveryInProgress (remaining : Nat) : PoolError :=
  .recoveryInProgress ("post-upgrade recovery scan in progress: ~" ++ toString remaining ++
    " records remaining. This is TEMPORARY and SELF-CLEARING — each call advances the scan, so the count falls as callers retry. Do NOT intervene and do NOT toggle the operator pause: an operator pause returns Paused, which is a different state.")

/-- `recovery_gate`: open, or one chunk of work and then a refusal unless that was
the last of it. -/
def recoveryGate (p : Pool) : Except RecoveryTrap (Pool × Except PoolError Unit) := do
  if !recoveryPending p then return (p, .ok ())
  let (p, remaining) ← advanceRecoveryCursorCtx upgradeScanChunk false p
  if remaining = 0 then return (p, .ok ())
  return (p, .error (recoveryInProgress remaining))

end StshProtocol.ShieldedPool.Recovery
