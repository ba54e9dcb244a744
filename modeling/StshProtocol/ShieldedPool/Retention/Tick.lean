import StshProtocol.ShieldedPool.Terminal

/-! The retention tick: principals are stripped of the records that ended seven days ago, by a sweep
of the two terminal indexes that resumes where it stopped; then the records that ended thirty days ago
are removed. The controller may prune with a cutoff of its own. -/
namespace StshProtocol.ShieldedPool.Retention
open Foundation

def redactionAgeNs : Nat := 7 * 24 * 60 * 60 * 1000000000
def recordRetentionNs : Nat := 30 * 24 * 60 * 60 * 1000000000
def maxRedactRecordsPerTick : Nat := 1000
def maxRedactScanPerTick : Nat := 10000
def maxPruneRecordsPerCall : Nat := 1000
def maxLegacyScanRecordsPerCall : Nat := 10000

structure RedactionCursor where
  lastDeposit : Option (Nat × Bytes32)
  lastSpend : Option (Nat × SpendId)
  generation : Nat

/-- What the retention tick works on. -/
structure RetentionBook where
  deposits : DepositBook
  spends : SpendBook
  cursor : RedactionCursor

/-! ### Redaction -/

/-- The principal a record carries, and the record without it. -/
structure Stripping (ν : Type) where
  principal : ν → Option Principal
  strip : ν → ν
  principal_strip : ∀ record, principal (strip record) = none
  strip_of_none : ∀ record, principal record = none → strip record = record

def depositStripping : Stripping PendingDeposit where
  principal := PendingDeposit.depositor
  strip record := {record with depositor := none}
  principal_strip _ := rfl
  strip_of_none record h := by
    cases record
    cases h
    rfl

def spendStripping : Stripping PendingSpend where
  principal := PendingSpend.submitter
  strip record := {record with submitter := none}
  principal_strip _ := rfl
  strip_of_none record h := by
    cases record
    cases h
    rfl

/-- The records with one stripped, and whether it carried a principal. -/
def redactInPlace {α ν : Type} [Ord α] [Std.TransOrd α] (S : Stripping ν) (records : StableMap α ν)
    (id : α) : StableMap α ν × Bool :=
  match records[id]? with
  | some record =>
    if (S.principal record).isSome then (records.insert id (S.strip record), true)
    else (records, false)
  | none => (records, false)

def redactDepositInPlace (b : DepositBook) (commitment : Bytes32) : DepositBook × Bool :=
  let (pending, carried) := redactInPlace depositStripping b.pending commitment
  ({b with pending := pending}, carried)

def redactSpendInPlace (b : SpendBook) (id : SpendId) : SpendBook × Bool :=
  let (pending, carried) := redactInPlace spendStripping b.pending id
  ({b with pending := pending}, carried)

/-- A walk over a terminal index: the keys it collected, how many it and the walk before it scanned
in this tick, the last key scanned, and whether it came to the end of the window. -/
structure IndexWalk (α : Type) where
  keys : List (Nat × α)
  scanned : Nat
  last : Option (Nat × α)
  done : Bool

def walkKeys {α : Type} (newest : Nat) : List (Nat × α) → IndexWalk α → IndexWalk α
  | [], w => {w with done := true}
  | key :: rest, w =>
    if newest < key.1 then
      {w with done := true}
    else if maxRedactScanPerTick ≤ w.scanned ∨ maxRedactRecordsPerTick ≤ w.keys.length then
      {w with done := false}
    else
      walkKeys newest rest
        {w with keys := w.keys ++ [key], scanned := w.scanned + 1, last := some key}

/-- The walk of one index, from the key after the cursor or after the window's oldest edge. -/
def walkIndex {α : Type} [Ord (Nat × α)] [Std.TransOrd (Nat × α)] (index : StableSet (Nat × α))
    (last : Option (Nat × α)) (edge : Nat × α) (newest scanned : Nat) : IndexWalk α :=
  walkKeys newest ((index.entriesAfter (some (last.getD edge))).map Prod.fst) ⟨[], scanned, last, true⟩

/-- One record after another, and how many of them had a principal. -/
def redactEach {σ κ : Type} (redact : σ → κ → σ × Bool) (b : σ) (keys : List κ) : σ × Nat :=
  keys.foldl (fun acc key =>
    let (b, carried) := redact acc.1 key
    (b, if carried then acc.2 + 1 else acc.2)) (b, 0)

structure RedactionTick where
  redacted : Nat
  scanned : Nat
  sweepCompleted : Bool
  deriving DecidableEq, Repr

/-- One redaction pass, with the keys it scanned. -/
structure RedactionPass where
  book : RetentionBook
  depositKeys : List (Nat × Bytes32)
  spendKeys : List (Nat × SpendId)
  tick : RedactionTick

def redactEligibleTerminalRecords (b : RetentionBook) (now : Nat) : RedactionPass :=
  let oldest := now - recordRetentionNs
  let newest := now - redactionAgeNs
  if newest ≤ oldest then
    ⟨b, [], [], ⟨0, 0, false⟩⟩
  else
    let depositWalk := walkIndex b.deposits.terminal b.cursor.lastDeposit (oldest, 0) newest 0
    let (deposits, depositsRedacted) :=
      redactEach redactDepositInPlace b.deposits (depositWalk.keys.map Prod.snd)
    let spendWalk := walkIndex b.spends.terminal b.cursor.lastSpend (oldest, 0) newest
      depositWalk.scanned
    let (spends, spendsRedacted) :=
      redactEach redactSpendInPlace b.spends (spendWalk.keys.map Prod.snd)
    let completed := depositWalk.done && spendWalk.done
    let cursor : RedactionCursor :=
      if completed then ⟨none, none, satAdd64 b.cursor.generation 1⟩
      else ⟨depositWalk.last, spendWalk.last, b.cursor.generation⟩
    ⟨⟨deposits, spends, cursor⟩, depositWalk.keys, spendWalk.keys,
      ⟨depositsRedacted + spendsRedacted, spendWalk.scanned, completed⟩⟩

/-! ### Pruning -/

structure PruneRequest where
  olderThanNs : Nat
  maxRecords : Nat
  pruneSpends : Bool
  pruneDeposits : Bool
  scanLegacySpends : Bool
  scanLegacyDeposits : Bool
  maxScanRecords : Nat
  legacySpendCursor : Option SpendId
  legacyDepositCursor : Option Bytes32

structure PruneResult where
  spendsPruned : Nat
  depositsPruned : Nat
  legacySpendsPruned : Nat
  legacyDepositsPruned : Nat
  stoppedDueToRecordLimit : Bool
  nextLegacySpendCursor : Option SpendId
  legacySpendScanComplete : Bool
  nextLegacyDepositCursor : Option Bytes32
  legacyDepositScanComplete : Bool
  deriving DecidableEq, Repr

/-- Which caller drives a prune. Only the timer keeps a record that still has its principal. -/
inductive PrunePath where
  | manualOverride
  | timer
  deriving DecidableEq, Repr

/-- The expired keys a prune takes, and whether its budget stopped it. -/
def expiredKeys {α : Type} (olderThan budget : Nat) : List (Nat × α) → List (Nat × α) →
    List (Nat × α) × Bool
  | [], taken => (taken, false)
  | key :: rest, taken =>
    if olderThan ≤ key.1 then
      (taken, false)
    else if budget ≤ taken.length then
      (taken, true)
    else
      expiredKeys olderThan budget rest (taken ++ [key])

/-- The keys of one kind that a prune takes, if it is to take any. -/
def takenKeys {α : Type} (wanted : Bool) (olderThan budget : Nat) (index : List (Nat × α)) :
    List (Nat × α) × Bool :=
  if wanted ∧ 0 < budget then expiredKeys olderThan budget index [] else ([], false)

/-- What a prune does with an expired key. A removed record is noted with the principal it had. -/
inductive PruneFate where
  | deferred
  | removed (principal : Option Principal)
  | stale
  deriving DecidableEq, Repr

/-- The records of one kind and the index of those that ended. -/
structure Rows (α ν : Type) [Ord α] [Ord (Nat × α)] where
  records : StableMap α ν
  index : StableSet (Nat × α)

def removedFate {ν : Type} (S : Stripping ν) : Option ν → PruneFate
  | some record => .removed (S.principal record)
  | none => .stale

def pruneKey {α ν : Type} [Ord α] [Std.TransOrd α] [Ord (Nat × α)] [Std.TransOrd (Nat × α)]
    (S : Stripping ν) (path : PrunePath) (rows : Rows α ν) (key : Nat × α) :
    Rows α ν × PruneFate :=
  let (redacted, carried) := redactInPlace S rows.records key.2
  if path = .timer ∧ carried then
    ({rows with records := redacted}, .deferred)
  else
    (⟨rows.records.erase key.2, rows.index.erase key⟩, removedFate S rows.records[key.2]?)

def pruneSpend (path : PrunePath) (b : SpendBook) (key : Nat × SpendId) : SpendBook × PruneFate :=
  let (rows, fate) := pruneKey spendStripping path ⟨b.pending, b.terminal⟩ key
  ({b with pending := rows.records, terminal := rows.index}, fate)

/-- A deposit takes its nonce and its settlement with it. -/
def pruneDeposit (path : PrunePath) (b : DepositBook) (key : Nat × Bytes32) :
    DepositBook × PruneFate :=
  let (rows, fate) := pruneKey depositStripping path ⟨b.pending, b.terminal⟩ key
  if fate = .deferred then
    ({b with pending := rows.records, terminal := rows.index}, fate)
  else
    ({b with
      pending := rows.records
      terminal := rows.index
      nonces := b.nonces.erase key.2
      settlement := b.settlement.erase key.2}, fate)

/-- One key after another, with the fate of each. -/
def pruneEach {σ κ : Type} (prune : σ → κ → σ × PruneFate) (b : σ) (keys : List κ) :
    σ × List (κ × PruneFate) :=
  keys.foldl (fun acc key =>
    let (b, fate) := prune acc.1 key
    (b, acc.2 ++ [(key, fate)])) (b, [])

/-- How many of the keys had their record removed. -/
def removedCount {κ : Type} (fates : List (κ × PruneFate)) : Nat :=
  fates.countP fun f =>
    match f.2 with
    | .removed _ => true
    | _ => false

/-- A scan for records that ended before there was an index. -/
structure LegacyScan (κ : Type) where
  toRemove : List κ
  lastExamined : Option κ
  reachedEnd : Bool
  budget : Nat

def legacyScan {κ ν : Type} (eligible : ν → Bool) : List (κ × ν) → LegacyScan κ → LegacyScan κ
  | [], scan => {scan with reachedEnd := decide (scan.budget ≠ 0)}
  | (key, record) :: rest, scan =>
    match scan.budget with
    | 0 => {scan with reachedEnd := false}
    | budget + 1 =>
      legacyScan eligible rest
        {scan with
          toRemove := if eligible record then scan.toRemove ++ [key] else scan.toRemove
          lastExamined := some key
          budget := budget}

def legacySpendEligible (olderThan : Nat) (record : PendingSpend) : Bool :=
  record.finalizedAtNs.isNone && isTerminalSpendStatus record.status &&
    decide (record.createdAtNs < olderThan)

def legacyDepositEligible (olderThan : Nat) (record : PendingDeposit) : Bool :=
  record.finalizedAtNs.isNone && isTerminalDepositStatus record.status &&
    decide (record.createdAtNs < olderThan)

def removeLegacySpend (b : SpendBook) (id : SpendId) : SpendBook × PruneFate :=
  ({b with pending := b.pending.erase id}, removedFate spendStripping b.pending[id]?)

def removeLegacyDeposit (b : DepositBook) (c : Bytes32) : DepositBook × PruneFate :=
  ({b with
    pending := b.pending.erase c
    nonces := b.nonces.erase c
    settlement := b.settlement.erase c}, removedFate depositStripping b.pending[c]?)

/-- A prune, with the fate of every key it took. -/
structure Pruning where
  book : RetentionBook
  depositFates : List ((Nat × Bytes32) × PruneFate)
  spendFates : List ((Nat × SpendId) × PruneFate)
  result : PruneResult

/-- The body behind the recovery gate. It gives nothing where it traps. -/
def pruneTerminalRecordsInner (b : RetentionBook) (request : PruneRequest) (path : PrunePath) :
    Option Pruning :=
  if maxPruneRecordsPerCall < request.maxRecords then
    none
  else if maxLegacyScanRecordsPerCall < request.maxScanRecords then
    none
  else
    let (spendKeys, spendStopped) :=
      takenKeys request.pruneSpends request.olderThanNs request.maxRecords b.spends.terminal.keys
    let (spends, spendFates) := pruneEach (pruneSpend path) b.spends spendKeys
    let budget := request.maxRecords - spendKeys.length
    let (depositKeys, depositStopped) :=
      takenKeys request.pruneDeposits request.olderThanNs budget b.deposits.terminal.keys
    let (deposits, depositFates) := pruneEach (pruneDeposit path) b.deposits depositKeys
    let spendScan : LegacyScan SpendId :=
      if request.scanLegacySpends then
        legacyScan (legacySpendEligible request.olderThanNs)
          (spends.pending.entriesAfter request.legacySpendCursor) ⟨[], none, false, request.maxScanRecords⟩
      else ⟨[], none, false, request.maxScanRecords⟩
    let (spends, legacySpendFates) := pruneEach removeLegacySpend spends spendScan.toRemove
    let depositScan : LegacyScan Bytes32 :=
      if request.scanLegacyDeposits then
        legacyScan (legacyDepositEligible request.olderThanNs)
          (deposits.pending.entriesAfter request.legacyDepositCursor) ⟨[], none, false, spendScan.budget⟩
      else ⟨[], none, false, spendScan.budget⟩
    let (deposits, legacyDepositFates) :=
      pruneEach removeLegacyDeposit deposits depositScan.toRemove
    some ⟨{b with deposits := deposits, spends := spends}, depositFates, spendFates,
      { spendsPruned := removedCount spendFates
        depositsPruned := removedCount depositFates
        legacySpendsPruned := removedCount legacySpendFates
        legacyDepositsPruned := removedCount legacyDepositFates
        stoppedDueToRecordLimit := spendStopped || depositStopped
        nextLegacySpendCursor := if spendScan.reachedEnd then none else spendScan.lastExamined
        legacySpendScanComplete := spendScan.reachedEnd
        nextLegacyDepositCursor := if depositScan.reachedEnd then none else depositScan.lastExamined
        legacyDepositScanComplete := depositScan.reachedEnd }⟩

/-! ### The tick -/

def timerRequest (now : Nat) : PruneRequest where
  olderThanNs := now - recordRetentionNs
  maxRecords := maxPruneRecordsPerCall
  maxScanRecords := maxLegacyScanRecordsPerCall
  pruneSpends := true
  pruneDeposits := true
  scanLegacySpends := false
  scanLegacyDeposits := false
  legacySpendCursor := none
  legacyDepositCursor := none

/-- A retention tick: its redaction pass and then its prune. -/
structure RetentionTick where
  redaction : RedactionPass
  pruning : Pruning

def runRetentionTick (b : RetentionBook) (now : Nat) : Option RetentionTick :=
  let redaction := redactEligibleTerminalRecords b now
  (pruneTerminalRecordsInner redaction.book (timerRequest now) .timer).map fun pruning =>
    ⟨redaction, pruning⟩

end StshProtocol.ShieldedPool.Retention
