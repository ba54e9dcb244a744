import StshProtocol.Token.Endpoints

/-! The token's genesis, its upgrades, and the two reports on its supply. -/
namespace StshProtocol.Token
open Foundation ShieldedPool Handler

/-! ### Genesis -/

structure AllocationCategory where
  categoryId : String
  categoryName : String
  amount : Nat
  recipient : Principal
  subaccount : Option Bytes32
  deriving DecidableEq, Repr

structure InitArgs where
  allocations : List AllocationCategory
  treasury : Principal
  stakingCanister : Principal
  feeCollector : Option Principal
  poolCanister : Option Principal

/-- `checked_sum`: no sum on any overflow. -/
def checkedSum (values : List Nat) : Option Nat := values.foldlM checkedAdd128 0

/-- What is wrong with one allocation. -/
def allocationError (a : AllocationCategory) : Option String :=
  if a.categoryId = "" then
    some "All allocation categories must have a non-empty category_id"
  else if a.categoryName = "" then
    some "All allocation categories must have a non-empty category_name"
  else if a.amount = 0 then
    some s!"Allocation '{a.categoryId}' has zero amount — remove it"
  else
    none

/-- The first category that was seen before. -/
def duplicateCategory (seen : List String) : List AllocationCategory → Option String
  | [] => none
  | a :: rest =>
    if a.categoryId ∈ seen then some a.categoryId else duplicateCategory (a.categoryId :: seen) rest

def validateInitAllocations (allocations : List AllocationCategory) : Except String Unit :=
  match checkedSum (allocations.map AllocationCategory.amount) with
  | none => .error "Allocation sum overflows u128 — genesis manifest invalid, deploy aborted"
  | some total =>
    if total ≠ totalSupply then
      .error s!"Allocation sum {total} != TOTAL_SUPPLY {totalSupply}. Every token must be accounted for."
    else
      match allocations.findSome? allocationError with
      | some e => .error e
      | none =>
        match duplicateCategory [] allocations with
        | some id => .error s!"Duplicate category_id: {id}"
        | none => .ok ()

/-- A module just installed, with the fee it is built with. -/
def TokenState.fresh (transferFee : Nat) : TokenState where
  vault := .empty
  allowances := .empty
  dedup := .empty
  receipts := ∅
  checkpoint := none
  blockHeight := 0
  transferFee := transferFee
  mintDone := false
  treasury := none
  feeCollector := none
  stakingCanister := none
  poolCanister := none

/-- `seed_at_genesis(0)`. -/
def seedAtGenesis (s : TokenState) : TokenState :=
  {s with vault := {s.vault with balances := {s.vault.balances with sum := 0}
                                 locks := {s.vault.locks with sum := 0}}}

/-- One allocation, through the same funnel as every later write. -/
def mint (a : AllocationCategory) : Endpoint Empty Unit := do
  let key := (⟨a.recipient, a.subaccount⟩ : Account).encodeKey
  let existing ← getBalance key
  let credited ← expect (checkedAdd128 existing a.amount) .genesisCreditOverflow
  writeBalance key existing credited

def mintAll : List AllocationCategory → Endpoint Empty Unit
  | [] => pure ()
  | a :: rest => do
    mint a
    mintAll rest

def validated (allocations : List AllocationCategory) : Endpoint Empty Unit :=
  match validateInitAllocations allocations with
  | .error e => trap (.genesisRejected e)
  | .ok () => pure ()

/-- The principals bound at install, and the mint done for good. -/
def configure (args : InitArgs) (s : TokenState) : TokenState :=
  {s with treasury := some args.treasury
          feeCollector := args.feeCollector
          poolCanister := args.poolCanister
          stakingCanister := some args.stakingCanister
          mintDone := true}

def init (args : InitArgs) : Endpoint Empty Unit := do
  let done ← read fun s => s.mintDone
  assert (done = false) .mintAlreadyPerformed
  validated args.allocations
  write seedAtGenesis
  mintAll args.allocations
  write (configure args)

/-! ### Upgrade -/

def preUpgrade : Endpoint Empty Unit := do
  let s ← read id
  let treasury ← expect s.treasury .treasuryNotInitialised
  let stakingCanister ← expect s.stakingCanister .stakingCanisterNotConfigured
  write fun s => {s with checkpoint := some {
    stateVersion := stateVersion
    blockHeight := s.blockHeight
    transferFee := s.transferFee
    feeReserve := s.vault.feeReserve
    mintDone := s.mintDone
    treasury := treasury
    stakingCanister := stakingCanister
    feeCollector := s.feeCollector
    sumBalances := some s.vault.balances.sum
    sumStakingLocks := some s.vault.locks.sum
    poolCanister := s.poolCanister }}

/-- The new module finds stable memory as it was, and its heap at its initial values. -/
def reboot (s : TokenState) : TokenState :=
  {TokenState.fresh defaultFee with
    vault := {balances := ⟨s.vault.balances.rows, 0⟩, locks := ⟨s.vault.locks.rows, 0⟩,
              feeReserve := 0, saturated := s.vault.saturated}
    allowances := s.allowances
    dedup := s.dedup
    receipts := s.receipts
    checkpoint := s.checkpoint}

/-- `backfill_dedup_index`: live rows are indexed, expired ones dropped. -/
def backfillDedupIndex (now : Nat) (b : Dedup) : Dedup :=
  let cutoff := now - txDedupWindowNs
  let live := b.rows.toList.filter fun r => cutoff ≤ r.2.createdAt
  let old := b.rows.toList.filter fun r => r.2.createdAt < cutoff
  ⟨old.foldl (fun rows r => rows.erase r.1) b.rows,
   live.foldl (fun index r => index.insert ⟨r.2.createdAt, r.1⟩ ()) b.byTime⟩

def migrateDedupIndexV1ToV2 (now : Nat) : Endpoint Empty Unit := do
  let total ← read fun s => s.dedup.rows.size
  assert (total ≤ maxMigrationEntries) (.migrationLimit total)
  write fun s => {s with dedup := backfillDedupIndex now s.dedup}

/-- A row count, as the saturating sum of two `u64` lengths. -/
def rowCount (v : Vault) : Nat := satAdd64 v.balances.rows.size v.locks.rows.size

/-- The amounts of a map, in key order. -/
def LedgerMap.values (m : LedgerMap) : List Nat := m.rows.toList.map Prod.snd

def seedTotalsState (state : TokenStableState) : Endpoint Empty TokenStableState := do
  let v ← read fun s => s.vault
  assert (rowCount v ≤ maxMigrationEntries) (.seedLimit (rowCount v))
  let sumBalances ← expect (checkedSum v.balances.values) .seedOverflow
  let sumStakingLocks ← expect (checkedSum v.locks.values) .seedOverflow
  pure {state with sumBalances := some sumBalances, sumStakingLocks := some sumStakingLocks}

/-- A missing total is a corrupt checkpoint, never a zero. -/
def restoreFromCheckpoint (state : TokenStableState) : Endpoint Empty Unit := do
  let sb ← expect state.sumBalances (.checkpointCorrupt "sum_balances")
  let sl ← expect state.sumStakingLocks (.checkpointCorrupt "sum_staking_locks")
  write fun s => {s with vault := {s.vault with balances := {s.vault.balances with sum := sb}
                                                locks := {s.vault.locks with sum := sl}}}

/-- The highest block recorded among the newest rows of the index. -/
def observedDurableBlockIndex (b : Dedup) : Option Nat :=
  let keys := (b.byTime.keys.reverse.take rollbackProbeEntries).map TimeKey.key
  ((keys.filterMap fun k => b.rows[k]?).map DedupValue.blockIndex).max?

def checkpointRollbackDetected (observed : Option Nat) (checkpointHeight : Nat) : Bool :=
  match observed with
  | some o => o > checkpointHeight
  | none => false

/-- The arm of the stored version: 3 is steady, 2 and 1 are seeded, 1 is indexed first. -/
def versionArm (now : Nat) (state : TokenStableState) : Endpoint Empty TokenStableState :=
  if state.stateVersion = stateVersion then
    pure state
  else if state.stateVersion = 2 then
    seedTotalsState state
  else if state.stateVersion = 1 then do
    migrateDedupIndexV1ToV2 now
    seedTotalsState state
  else
    trap (.unsupportedStateVersion state.stateVersion)

def postUpgrade (now : Nat) : Endpoint Empty Unit := do
  let cell ← read fun s => s.checkpoint
  let state ← expect cell .noCheckpoint
  let restoreState ← versionArm now state
  restoreFromCheckpoint restoreState
  let observed ← read fun s => observedDurableBlockIndex s.dedup
  assert (checkpointRollbackDetected observed state.blockHeight = false)
    (.staleCheckpoint (observed.getD 0) state.blockHeight)
  write fun s => {s with blockHeight := state.blockHeight
                         transferFee := state.transferFee
                         vault := {s.vault with feeReserve := state.feeReserve}
                         mintDone := state.mintDone
                         treasury := some state.treasury
                         feeCollector := state.feeCollector
                         poolCanister := state.poolCanister
                         stakingCanister := some state.stakingCanister}

/-- Both hooks; a trap in either leaves the old module running on the old state. -/
def upgrade (now : Nat) : Endpoint Empty Unit := do
  preUpgrade
  write reboot
  postUpgrade now

/-! ### Supply reports -/

structure ArithmeticErrorReport where
  balancesOverflow : Bool
  stakingLocksOverflow : Bool
  balancesPlusFeeOverflow : Bool
  deriving DecidableEq, Repr

structure SupplyInvariantReport where
  fixedMaxSupply : Nat
  sumAllBalances : Nat
  stakingLockedTotal : Nat
  feeReserveTotal : Nat
  invariantHolds : Bool
  checkedAtNs : Nat
  violationDetail : Option String
  arithmeticError : Option ArithmeticErrorReport
  deriving DecidableEq, Repr

structure InvariantEvaluation where
  sumBalances : Nat
  feeReserve : Nat
  stakingLocked : Nat
  invariantHolds : Bool
  balancesOverflow : Bool
  stakingLocksOverflow : Bool
  balancesPlusFeeOverflow : Bool

/-- From the maintained totals, without a fold. -/
def evaluateSupplyInvariant (v : Vault) : InvariantEvaluation :=
  let balancesPlusFee := checkedAdd128 v.balances.sum v.feeReserve
  { sumBalances := v.balances.sum
    feeReserve := v.feeReserve
    stakingLocked := v.locks.sum
    invariantHolds := balancesPlusFee == some totalSupply
    balancesOverflow := false
    stakingLocksOverflow := false
    balancesPlusFeeOverflow := balancesPlusFee.isNone }

def verifySupplyInvariant (now : Nat) (s : TokenState) : SupplyInvariantReport :=
  let eval := evaluateSupplyInvariant s.vault
  let anyArithmeticError :=
    eval.balancesOverflow || eval.stakingLocksOverflow || eval.balancesPlusFeeOverflow
  let sites :=
    (if eval.balancesOverflow then ["balances_fold_overflow"] else []) ++
    (if eval.stakingLocksOverflow then ["staking_locks_fold_overflow"] else []) ++
    (if eval.balancesPlusFeeOverflow then ["balances_plus_fee_overflow"] else [])
  let siteText := "; ".intercalate sites
  { fixedMaxSupply := totalSupply
    sumAllBalances := eval.sumBalances
    stakingLockedTotal := eval.stakingLocked
    feeReserveTotal := eval.feeReserve
    invariantHolds := eval.invariantHolds
    checkedAtNs := now
    violationDetail :=
      if anyArithmeticError then
        some ("arithmetic overflow in supply-invariant evaluation: " ++ siteText ++
          " (affected totals reported as 0)")
      else if eval.invariantHolds = false then
        some s!"sum_balances({eval.sumBalances}) + fee_reserve({eval.feeReserve}) != TOTAL_SUPPLY({totalSupply})"
      else
        none
    arithmeticError :=
      if anyArithmeticError then
        some ⟨eval.balancesOverflow, eval.stakingLocksOverflow, eval.balancesPlusFeeOverflow⟩
      else
        none }

structure SupplyReconciliation where
  maintainedSumBalances : Nat
  foldedSumBalances : Nat
  maintainedSumStakingLocks : Nat
  foldedSumStakingLocks : Nat
  feeReserve : Nat
  rowsExamined : Nat
  totalsConsistent : Bool
  foldedFirstLawHolds : Bool
  detail : Option String
  deriving DecidableEq, Repr

/-- What the audit finds once it folds both maps. -/
def foldedReconciliation (v : Vault) : SupplyReconciliation :=
  let foldedBalances := checkedSum v.balances.values
  let foldedLocks := checkedSum v.locks.values
  let foldedSumBalances := foldedBalances.getD 0
  let foldedSumStakingLocks := foldedLocks.getD 0
  let totalsConsistent := foldedBalances == some v.balances.sum && foldedLocks == some v.locks.sum
  let foldedFirstLawHolds := (foldedBalances.bind (checkedAdd128 · v.feeReserve)) == some totalSupply
  let notes :=
    (if foldedBalances.isNone then
      ["BALANCES fold overflowed (folded_sum_balances reported as 0)"] else []) ++
    (if foldedLocks.isNone then
      ["STAKING_LOCKS fold overflowed (folded_sum_staking_locks reported as 0)"] else []) ++
    (if totalsConsistent = false then
      [s!"DRIFT: maintained/folded balances {v.balances.sum}/{foldedSumBalances}, locks {v.locks.sum}/{foldedSumStakingLocks}"]
    else []) ++
    (if foldedFirstLawHolds = false then
      [s!"FIRST LAW (from the fold): folded_sum_balances({foldedSumBalances}) + fee_reserve({v.feeReserve}) != TOTAL_SUPPLY({totalSupply})"]
    else [])
  { maintainedSumBalances := v.balances.sum
    foldedSumBalances := foldedSumBalances
    maintainedSumStakingLocks := v.locks.sum
    foldedSumStakingLocks := foldedSumStakingLocks
    feeReserve := v.feeReserve
    rowsExamined := rowCount v
    totalsConsistent := totalsConsistent
    foldedFirstLawHolds := foldedFirstLawHolds
    detail := if notes = [] then none else some ("; ".intercalate notes) }

/-- Past its row budget the audit answers that it is incomplete. -/
def incompleteReconciliation (v : Vault) : SupplyReconciliation :=
  let rows := rowCount v
  { maintainedSumBalances := v.balances.sum
    foldedSumBalances := 0
    maintainedSumStakingLocks := v.locks.sum
    foldedSumStakingLocks := 0
    feeReserve := v.feeReserve
    rowsExamined := 0
    totalsConsistent := false
    foldedFirstLawHolds := false
    detail := some
      (s!"reconciliation INCOMPLETE: {rows} rows (BALANCES + STAKING_LOCKS) exceeds the measured " ++
      s!"budget {reconcileRowBudget}. No fold was run, so both booleans are reported false because " ++
      "they are UNKNOWN, not because a violation was observed.") }

def reconcileSupplyInvariant (E : Env) (caller : Principal) (s : TokenState) :
    Except Trap SupplyReconciliation :=
  if E.isController caller = false then
    .error .notController
  else if rowCount s.vault > reconcileRowBudget then
    .ok (incompleteReconciliation s.vault)
  else
    .ok (foldedReconciliation s.vault)

end StshProtocol.Token
