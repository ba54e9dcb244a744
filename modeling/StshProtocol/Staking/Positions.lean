import StshProtocol.Staking.State

/-! Staking and unstaking.

Both record what they are about to do, call the token, and finish when it answers; where the
answer is lost a controller finishes in their place by `reconcile_lock` or
`reconcile_unlock`. An operation ends in one of three ways, whoever ends it: the position is
active (`activate`), it was never there (`cancelStake`), or it is closed (`closePosition`). -/
namespace StshProtocol.Staking
open Foundation ShieldedPool Handler

variable {ε : Type}

/-! ### Calls and replies -/

/-- The operation a call to the token is made for is ghost. -/
inductive Request where
  | lockForStaking (token : Principal) (opId : Nat) (holder : Principal) (amount : Nat)
  | unlockFromStaking (token : Principal) (opId : Nat) (holder : Principal) (amount : Nat)
  | scheduleVkActivation (pool : Principal) (circuitVersion : Nat) (newVerifyingKeyHash : Bytes32)
      (activationTimestampNs oldKeyCutoffNs : Nat)
  | emergencyPauseDeposits (pool : Principal)
  | emergencyPauseSpends (pool : Principal)
  deriving DecidableEq, Repr

inductive Reply where
  | result (r : Except String Unit)
  | unit
  | rejected (message : String)

/-- What the replica says of a reply that does not decode. -/
structure Deployment where
  undecodable : String

/-- A reply read as `(Result<(), String>,)`. -/
def Deployment.decodeResult (D : Deployment) : Reply → Except String (Except String Unit)
  | .result r => .ok r
  | .unit => .error D.undecodable
  | .rejected e => .error e

/-- A reply read as `()`. -/
def decodeUnit : Reply → Except String Unit
  | .result _ | .unit => .ok ()
  | .rejected e => .error e

/-! ### How an operation ends -/

/-- The position while its operation awaits the answer. -/
def StakePosition.pending (opId : Nat) (p : StakePosition) : StakePosition :=
  {p with votingWeight := 0
          opId := some opId}

def StakePosition.close (p : StakePosition) : StakePosition :=
  {p with votingWeight := 0
          closed := true
          opId := none}

/-- The operation is no longer pending. -/
def settleOp (positionId opId : Nat) (b : StakeBook) : StakeBook :=
  {b with pendingPositions := b.pendingPositions.erase positionId
          pendingLockOps := b.pendingLockOps.erase opId}

/-- The position is active and its weight counts. -/
def activate (positionId opId : Nat) (active : StakePosition) (b : StakeBook) : StakeBook :=
  settleOp positionId opId (addTotalVotingWeight active.votingWeight
    {b with positions := b.positions.insert positionId active})

/-- The position is removed, and its dedup key is free. -/
def cancelStake (ddk : Option DedupKey) (positionId opId : Nat) (b : StakeBook) : StakeBook :=
  settleOp positionId opId
    {b with stakeDedup := ddk.elim b.stakeDedup b.stakeDedup.erase
            positions := b.positions.erase positionId}

/-- The position is closed; its weight was taken away before. -/
def closePosition (positionId opId : Nat) (snapshot : StakePosition) (b : StakeBook) : StakeBook :=
  settleOp positionId opId {b with positions := b.positions.insert positionId snapshot.close}

/-! ### Rewards -/

/-- `u128::saturating_mul`. -/
def satMul128 (a b : Nat) : Nat := min (a * b) u128Max

/-- A position's share of what was emitted since its last claim. -/
def grossReward (now : Nat) (position : StakePosition) (s : StakingState) : Nat :=
  satMul128 (satMul128 position.votingWeight s.rewardState.emissionRatePerDay)
    ((now - position.lastClaimNs) / dayNs) / s.book.totalVotingWeight

def calculateClaimable (now : Nat) (position : StakePosition) : Endpoint ε Nat := do
  let s ← read id
  let balance := s.rewardState.rewardsPoolBalance + s.rewardState.feeRevenueBalance
  if s.book.totalVotingWeight = 0 ∨ position.closed = true ∨
      (pendingStakeState s.book position.positionId).isSome = true then
    pure 0
  else do
    assert (balance ≤ u128Max) .arithmeticOverflow
    pure (min (grossReward now position s) balance)

/-- `claim_rewards_internal`: nothing is paid out yet. -/
def claimRewardsInternal (now : Nat) (position : StakePosition) : Endpoint ε (Except String Nat) := do
  let claimable ← calculateClaimable now position
  if claimable = 0 then
    pure (.ok 0)
  else
    pure (.error ("NotImplemented: reward claiming is disabled until the staking-reward " ++
      s!"token transfer path is wired (claimable={claimable}). No reward-pool debit and no " ++
      "rewards_claimed mutation has occurred."))

/-- The position a holder names, if it is open and not pending. -/
def openPosition (holder : Principal) (positionId : Nat) (closed : String) :
    Endpoint String StakePosition := do
  let found ← read fun s => s.book.positions[positionId]?
  let position ← need found "Position not found"
  demand (position.holder = holder) "Not your position"
  demand (position.closed = false) closed
  let pending ← read fun s => pendingStakeState s.book positionId
  refuseSome (pending.map fun p => s!"Position pending reconciliation: {p.debug}")
  pure position

def claimRewards (now : Nat) (holder : Principal) (positionId : Nat) : Endpoint String Nat := do
  let position ← openPosition holder positionId "Position closed"
  let claimed ← claimRewardsInternal now position
  lift claimed

def receiveFeeRevenue (caller : Principal) (amount : Nat) : Endpoint Empty Unit := do
  let configured ← read fun s => s.treasuryCanister
  let treasury ← expect configured .treasuryUnset
  assert (caller = treasury) .notTreasury
  write fun s => setRewardState
    {s.rewardState with feeRevenueBalance := satAdd128 s.rewardState.feeRevenueBalance amount} s

/-! ### Staking -/

/-- What a suspended `stake` holds. -/
structure LockTask where
  positionId : Nat
  opId : Nat
  active : StakePosition
  ddk : DedupKey
  deriving DecidableEq, Repr

/-- What a suspended `unstake` holds. -/
structure UnlockTask where
  positionId : Nat
  opId : Nat
  snapshot : StakePosition
  deriving DecidableEq, Repr

/-- A first segment of `stake`: an earlier stake is found, or the token is called. -/
inductive Staked where
  | earlier (positionId : Nat)
  | locking (token : Principal) (task : LockTask)

/-- The duration of a stake that is well formed. -/
def checkStakeArgs (amount lockDays : Nat) (dedupKey : Bytes) : Except String Nat := do
  if amount = 0 then
    throw "stake amount must be greater than zero"
  match checkedMul64 lockDays dayNs with
  | none => throw "lock duration overflow"
  | some duration =>
    if duration < minLockDurationNs then
      throw s!"lock_days {lockDays} is below the {minLockDays}-day minimum"
    if maxLockDurationNs < duration then
      throw s!"lock_days {lockDays} exceeds the {maxLockDays}-day maximum"
    if dedupKey = [] then
      throw "dedup_key must not be empty"
    if 64 < dedupKey.length then
      throw "dedup_key must be at most 64 bytes"
    pure duration

/-- What the first stake under this key came to. -/
def originalOutcome (prior : DedupRecord) : Endpoint String (Option Nat) := do
  let pending ← read fun s => pendingStakeState s.book prior.positionId
  demand (pending ≠ some .lockPending)
    (s!"LockPending: lock_for_staking outcome unknown (op_id={prior.opId}): duplicate " ++
      "request, original still awaiting reconcile")
  pure (some prior.positionId)

/-- The key was used before. A record whose position is gone is dropped. -/
def replayRecord (amount lockDays : Nat) (ddk : DedupKey) (prior : DedupRecord) :
    Endpoint String (Option Nat) := do
  demand (prior.amount = amount ∧ prior.lockDays = lockDays)
    ("dedup_key already used with different arguments " ++
      s!"(original amount={prior.amount} lock_days={prior.lockDays}, " ++
      s!"retry amount={amount} lock_days={lockDays})")
  let known ← read fun s => s.book.positions.contains prior.positionId
  if known = true then
    originalOutcome prior
  else do
    writeBook fun b => {b with stakeDedup := b.stakeDedup.erase ddk}
    pure none

def replayStake (amount lockDays : Nat) (ddk : DedupKey) : Endpoint String (Option Nat) := do
  let prior ← read fun s => s.book.stakeDedup[ddk]?
  match prior with
  | none => pure none
  | some prior => replayRecord amount lockDays ddk prior

def allocPositionId : Endpoint ε Nat := do
  let id ← read fun s => s.book.nextPositionId
  assert (id + 1 ≤ u64Max) .positionIdsExhausted
  writeBook fun b => {b with nextPositionIdCell := some (id + 1)
                             nextPositionId := id + 1}
  pure id

/-- The counter stays at its last value. -/
def nextOpId : Endpoint ε Nat := do
  let cur ← read fun s => s.book.opIdCounter
  writeBook fun b => {b with opIdCounter := satAdd64 cur 1}
  pure cur

/-- `u128::checked_mul`. -/
def checkedMul128 (a b : Nat) : Option Nat := if a * b ≤ u128Max then some (a * b) else none

/-- What is written before the token is called. -/
def recordStake (now : Nat) (dedupKey : Bytes) (t : LockTask) (b : StakeBook) : StakeBook :=
  {b with
    stakeDedup := b.stakeDedup.insert t.ddk
      ⟨t.active.amount, t.active.lockDays, t.positionId, t.opId⟩
    pendingLockOps := b.pendingLockOps.insert t.opId
      ⟨t.opId, t.positionId, t.active.holder, t.active.amount, .lock, now, t.active, some dedupKey⟩
    positions := b.positions.insert t.positionId (t.active.pending t.opId)
    pendingPositions := b.pendingPositions.insert t.positionId .lockPending
    stakedUnder := fun p => if p = t.positionId then some t.ddk else b.stakedUnder p}

/-- The position a stake is to become. -/
def intendedPosition (now positionId : Nat) (holder : Principal)
    (amount lockDays lockEndNs votingWeight : Nat) : StakePosition where
  positionId := positionId
  holder := holder
  amount := amount
  lockDays := lockDays
  lockEndNs := lockEndNs
  votingWeight := votingWeight
  rewardsClaimed := 0
  lastClaimNs := now
  createdAtNs := now
  closed := false
  opId := none

/-- A stake that is new: every check first, then the ids, the records, and the call. -/
def beginStake (now : Nat) (holder : Principal) (amount lockDays duration : Nat)
    (dedupKey : Bytes) : Endpoint String Staked := do
  let token ← getToken
  let weighted ← need (checkedMul128 amount (lockMultiplierBps lockDays)) "voting weight overflow"
  let lockEndNs ← need (checkedAdd64 now duration)
    "lock_end_ns overflow: lock_start too close to u64::MAX"
  let positionId ← allocPositionId
  let opId ← nextOpId
  let active := intendedPosition now positionId holder amount lockDays lockEndNs (weighted / 10000)
  let task : LockTask := ⟨positionId, opId, active, DedupKey.new holder dedupKey⟩
  writeBook (recordStake now dedupKey task)
  pure (.locking token task)

def stake (now : Nat) (holder : Principal) (amount lockDays : Nat) (dedupKey : Bytes) :
    Endpoint String Staked := do
  let duration ← lift (checkStakeArgs amount lockDays dedupKey)
  let prior ← replayStake amount lockDays (DedupKey.new holder dedupKey)
  match prior with
  | some positionId => pure (.earlier positionId)
  | none => beginStake now holder amount lockDays duration dedupKey

/-- The rest of `stake`, behind the token's answer. -/
def lockAnswered (D : Deployment) (t : LockTask) (r : Reply) : Endpoint String Nat :=
  match D.decodeResult r with
  | .ok (.ok ()) => do
    writeBook (activate t.positionId t.opId t.active)
    pure t.positionId
  | .ok (.error e) => do
    writeBook (cancelStake (some t.ddk) t.positionId t.opId)
    fail e
  | .error e => fail s!"LockPending: lock_for_staking outcome unknown (op_id={t.opId}): {e}"

/-! ### Unstaking -/

/-- What is written before the token is called: the weight no longer counts. -/
def recordUnstake (now : Nat) (t : UnlockTask) (b : StakeBook) : StakeBook :=
  let b := {b with
    pendingLockOps := b.pendingLockOps.insert t.opId
      ⟨t.opId, t.positionId, t.snapshot.holder, t.snapshot.amount, .unlock, now, t.snapshot, none⟩}
  let b := subTotalVotingWeight t.snapshot.votingWeight b
  {b with
    positions := b.positions.insert t.positionId (t.snapshot.pending t.opId)
    pendingPositions := b.pendingPositions.insert t.positionId .unlockPending}

def unstake (now : Nat) (holder : Principal) (positionId : Nat) :
    Endpoint String (Principal × UnlockTask) := do
  let position ← openPosition holder positionId "Position already closed"
  demand (position.lockEndNs ≤ now)
    s!"Lock period active — {(position.lockEndNs - now) / 1_000_000_000} seconds remaining"
  let _ ← claimRewardsInternal now position
  let token ← getToken
  let opId ← nextOpId
  let task : UnlockTask := ⟨positionId, opId, position⟩
  writeBook (recordUnstake now task)
  pure (token, task)

/-- The rest of `unstake`, behind the token's answer. -/
def unlockAnswered (D : Deployment) (t : UnlockTask) (r : Reply) : Endpoint String Unit :=
  match D.decodeResult r with
  | .ok (.ok ()) => writeBook (closePosition t.positionId t.opId t.snapshot)
  | .ok (.error e) => do
    writeBook (activate t.positionId t.opId t.snapshot)
    fail e
  | .error e => fail s!"UnlockPending: unlock_from_staking outcome unknown (op_id={t.opId}): {e}"

/-! ### Reconciliation -/

def debugOption {α : Type} (debug : α → String) : Option α → String
  | some a => s!"Some({debug a})"
  | none => "None"

/-- `load_and_verify_pending_op`. -/
def loadAndVerifyPendingOp (opId : Nat) (expected : LockOpType) : Endpoint String PendingLockOp := do
  let found ← read fun s => s.book.pendingLockOps[opId]?
  let op ← need found s!"No pending lock op with op_id {opId}"
  demand (op.opType = expected)
    (s!"op_id {opId} is a {op.opType.debug} op, not {expected.debug} " ++ "— wrong reconcile endpoint")
  let held ← read fun s => s.book.positions[op.positionId]?
  let position ← need held s!"op_id {opId} references missing position {op.positionId}"
  demand (position.opId = some opId)
    (s!"position {op.positionId} does not reference op_id {opId} " ++
      s!"(found {debugOption toString position.opId})")
  demand (position.holder = op.holder)
    s!"holder mismatch for op_id {opId} on position {op.positionId}"
  demand (op.amount = position.amount)
    s!"amount mismatch for op_id {opId} on position {op.positionId}"
  let pending ← read fun s => pendingStakeState s.book op.positionId
  demand (pending = some expected.pendingState)
    (s!"position {op.positionId} is not in {expected.pendingState.debug} " ++
      s!"(found {debugOption PendingStakeState.debug pending}) " ++ "— not reconcilable")
  pure op

def ensureIcController (isController : Bool) : Endpoint String Unit :=
  demand (isController = true) "caller is not an IC controller"

def reconcileLock (isController : Bool) (opId : Nat) (decision : LockDecision) :
    Endpoint String Unit := do
  ensureIcController isController
  let op ← loadAndVerifyPendingOp opId .lock
  match decision with
  | .executed => writeBook (activate op.positionId opId {op.snapshot with opId := none})
  | .notExecuted =>
    writeBook (cancelStake (op.dedupKey.map (DedupKey.new op.holder)) op.positionId opId)

def reconcileUnlock (isController : Bool) (opId : Nat) (decision : LockDecision) :
    Endpoint String Unit := do
  ensureIcController isController
  let op ← loadAndVerifyPendingOp opId .unlock
  match decision with
  | .executed => writeBook (closePosition op.positionId opId op.snapshot)
  | .notExecuted => writeBook (activate op.positionId opId op.snapshot)

end StshProtocol.Staking
