import StshProtocol.Foundation.FirstMatch
import StshProtocol.Wallet.Cache.Format
import StshProtocol.Foundation.StableMap
import StshProtocol.Foundation.Transition

/-! The transitions of the spend journal, each a function of the cached state.

They are given to `PrincipalNoteCache.update`, which applies them to the state it writes over; one
that throws writes nothing. -/
namespace StshProtocol.Wallet.SpendJournal
open Foundation

def journalOf (state : CachedScanState) : SpendJournalState := state.spendJournal.getD ⟨[]⟩

def withJournal (state : CachedScanState) (journal : SpendJournalState) : CachedScanState :=
  {state with spendJournal := some journal}

/-- An entry to be; its status and what comes after are not its own yet. -/
abbrev NewSpendEntry := SpendJournalEntryState

def entryAt (entry : NewSpendEntry) (status : SpendEntryStatus) : SpendJournalEntryState :=
  {entry with status := status, dispatchedAtNs := none, failureReason := none}

/-- `SpendJournalStateError`. -/
def stateError (message : String) : CacheError := .updateRejected message

def findEntry (journal : SpendJournalState) (spendId : Nat) : Option SpendJournalEntryState :=
  journal.entries.find? fun e => e.spendId = spendId

def setEntry (journal : SpendJournalState) (spendId : Nat)
    (f : SpendJournalEntryState → SpendJournalEntryState) : SpendJournalState :=
  ⟨modifyFirst (fun e => e.spendId = spendId) f journal.entries⟩

/-- The entry of this id. -/
def knownEntry (state : CachedScanState) (spendId : Nat) : Except CacheError SpendJournalEntryState :=
  match findEntry (journalOf state) spendId with
  | none => .error (stateError ("unknown spend-journal entry: " ++ toString spendId))
  | some entry => .ok entry

def statusText : SpendEntryStatus → String
  | .planned => "planned"
  | .dispatched => "dispatched"
  | .finalized => "finalized"
  | .payoutPending => "payout-pending"
  | .failed => "failed"
  | .recoveryRequired => "recovery-required"

def lifecycleText : NoteLifecycleState → String
  | .spendable => "spendable"
  | .pending => "pending"
  | .spent => "spent"
  | .dummy => "dummy"
  | .quarantined => "quarantined"

/-- The entry of this id, which must never have been dispatched; the message ends on why. -/
def plannedEntry (state : CachedScanState) (spendId : Nat) (why : String) :
    Except CacheError SpendJournalEntryState := do
  let entry ← knownEntry state spendId
  if entry.status ≠ .planned then
    throw (stateError ("entry " ++ toString spendId ++ " is '" ++ statusText entry.status ++ "'" ++ why))
  return entry

def beginSpend (inputLeafIndex : Nat) (entry : NewSpendEntry) (state : CachedScanState) :
    Except CacheError CachedScanState :=
  match state.notes.find? fun n => n.leafIndex = inputLeafIndex with
  | none => .error (stateError ("spend input note at leaf " ++ toString inputLeafIndex ++
      " is not in the cache"))
  | some note =>
    if noteLifecycle note ≠ .spendable then
      .error (stateError ("spend input note at leaf " ++ toString inputLeafIndex ++ " is '" ++
        lifecycleText (noteLifecycle note) ++ "', not spendable"))
    else if note.nonce = none ∨ note.commitment = none ∨ note.nullifier = none then
      .error (stateError ("spend input note at leaf " ++ toString inputLeafIndex ++
        " has incomplete v2 material"))
    else if (journalOf state).entries.any fun e => e.spendId = entry.spendId then
      .error (stateError ("duplicate spend_id in journal: " ++ toString entry.spendId))
    else
      .ok (withJournal
        {state with
          notes := modifyFirst (fun n => n.leafIndex = inputLeafIndex)
            (fun n => {n with state := some .pending}) state.notes}
        ⟨(journalOf state).entries ++ [entryAt entry .planned]⟩)

def markDispatched (spendId atNs : Nat) (state : CachedScanState) :
    Except CacheError CachedScanState := do
  let _ ← plannedEntry state spendId ", expected 'planned' before dispatch"
  return withJournal state (setEntry (journalOf state) spendId fun e =>
    {e with status := .dispatched, dispatchedAtNs := some atNs})

/-- The one way to unlock: an intent that was never dispatched. -/
def archiveNeverDispatched (spendId : Nat) (inputLeafIndex : Option Nat) (reason : String)
    (state : CachedScanState) : Except CacheError CachedScanState := do
  let _ ← plannedEntry state spendId " — a dispatched intent can never be unlocked locally"
  let notes := match inputLeafIndex with
    | none => state.notes
    | some leaf => modifyFirst (fun n => n.leafIndex = leaf)
        (fun n => if n.state = some .pending then {n with state := some .spendable} else n) state.notes
  return withJournal {state with notes := notes} (setEntry (journalOf state) spendId fun e =>
    {e with status := .failed, failureReason := some reason})

def persistFinalRequest (spendId : Nat) (requestJson : String) (state : CachedScanState) :
    Except CacheError CachedScanState := do
  let _ ← plannedEntry state spendId
    " — the final request can only be persisted while never-dispatched"
  return withJournal state (setEntry (journalOf state) spendId fun e =>
    {e with requestJson := requestJson})

/-- The input is marked spent where its leaf is known and the note there carries the entry's
nullifier, of 32 bytes. -/
def finalizeFromSpendOk (spendId : Nat) (inputLeafIndex : Option Nat) (state : CachedScanState) :
    Except CacheError CachedScanState := do
  let entry ← knownEntry state spendId
  let notes := match inputLeafIndex with
    | none => state.notes
    | some leaf => modifyFirst (fun n => n.leafIndex = leaf)
        (fun n => if entry.nullifierHex.length = 32 ∧ n.nullifier = some entry.nullifierHex then
          {n with state := some .spent} else n) state.notes
  return withJournal {state with notes := notes} (setEntry (journalOf state) spendId fun e =>
    {e with status := .finalized})

def markPayoutPending (spendId : Nat) (reason : String) (state : CachedScanState) :
    Except CacheError CachedScanState := do
  let _ ← knownEntry state spendId
  return withJournal state (setEntry (journalOf state) spendId fun e =>
    {e with status := .payoutPending, failureReason := some reason})

/-- A spend the pool reports, of which there is no output material here; any note with its
nullifier is locked with it. -/
def importRecoveryRequired (entry : NewSpendEntry) (state : CachedScanState) :
    Except CacheError CachedScanState :=
  if (journalOf state).entries.any fun e => e.spendId = entry.spendId then .ok state
  else
    .ok (withJournal
      {state with
        notes :=
          if entry.nullifierHex = [] then state.notes
          else state.notes.map fun n =>
            if n.nullifier = some entry.nullifierHex ∧ n.state = some .spendable then
              {n with state := some .pending}
            else n}
      ⟨(journalOf state).entries ++ [entryAt entry .recoveryRequired]⟩)

/-- The entry that collided is kept as failed, and the fresh attempt is planned. -/
def recordCollisionRetry (originalSpendId : Nat) (newEntry : NewSpendEntry) (state : CachedScanState) :
    Except CacheError CachedScanState := do
  let _ ← knownEntry state originalSpendId
  if (journalOf state).entries.any fun e => e.spendId = newEntry.spendId then
    throw (stateError ("collision-retry id already in journal: " ++ toString newEntry.spendId))
  let failed := setEntry (journalOf state) originalSpendId fun e =>
    {e with
      status := .failed
      failureReason := some ("spend_id collision — retried as " ++ toString newEntry.spendId)}
  return withJournal state ⟨failed.entries ++ [entryAt newEntry .planned]⟩

end StshProtocol.Wallet.SpendJournal

/-! Merging what scans found into the cache.

A scan's outcome is merged by a pure function, applied to whatever state it writes over, so it may
come after the outcome of a later scan. What a note was first seen at, how far was scanned and the
floors of the deployments only ever move one way, and a note of an active spend is not left
spendable. A note's own state is the last outcome's: an outcome that is older than the record of a
spend makes the note spendable again. -/
namespace StshProtocol.Wallet
open Foundation

/-! ### The merge -/

structure ScanOutcome where
  notes : List ScannedNote
  scannedUpTo : Nat
  mirrorHead : MirrorHead
  quarantine : QuarantineState
  spentSet : List Bytes
  deriving DecidableEq, Repr

/-- The note with the sighting of another: its time, and how it was established where that is
known. -/
def carry (n source : ScannedNote) : ScannedNote :=
  {n with
    firstSeenAtNs := source.firstSeenAtNs
    firstSeenVia := source.firstSeenVia.or n.firstSeenVia}

/-- What is kept of a note where one was cached at its leaf: the earlier sighting. -/
def mergedNote (before : Option ScannedNote) (n : ScannedNote) : ScannedNote :=
  match before with
  | none => n
  | some b =>
    match b.firstSeenAtNs, n.firstSeenAtNs with
    | none, _ => n
    | some _, none => carry n b
    | some seen, some now => if seen ≤ now then carry n b else carry n n

def indexNotes (notes : List ScannedNote) : StableMap Nat ScannedNote :=
  notes.foldl (fun byIndex n => byIndex.insert n.leafIndex n) ∅

def mergeInto (byIndex : StableMap Nat ScannedNote) (next : List ScannedNote) :
    StableMap Nat ScannedNote :=
  next.foldl (fun byIndex n => byIndex.insert n.leafIndex (mergedNote byIndex[n.leafIndex]? n)) byIndex

/-- Deduplicated by leaf, in the order of the leaves. -/
def mergeScannedNotes (prev next : List ScannedNote) : List ScannedNote :=
  (mergeInto (indexNotes prev) next).toList.map Prod.snd

def mergeQuarantine (prev : Option QuarantineState) (delta : QuarantineState) : QuarantineState :=
  let ring := (prev.map QuarantineState.ring).getD [] ++ delta.ring
  ⟨(prev.map QuarantineState.total).getD 0 + delta.total, ring.drop (ring.length - quarantineRingCap)⟩

def SpendEntryStatus.active : SpendEntryStatus → Bool
  | .planned | .dispatched | .payoutPending | .recoveryRequired => true
  | .finalized | .failed => false

/-- The nullifiers the active entries of the journal own. -/
def journalOwnedNullifiers (state : CachedScanState) : List Bytes :=
  (((SpendJournal.journalOf state).entries.filter fun e => e.status.active).map
    SpendJournalEntryState.nullifierHex).filter fun h => h.length = 32

/-- A first sighting, on a note that has none. -/
def stamp (nowNs : Option Nat) (firstSeenVia : Option FirstSeenVia) (n : ScannedNote) : ScannedNote :=
  match nowNs, n.firstSeenAtNs with
  | some now, none => {n with
      firstSeenAtNs := some now
      firstSeenVia := firstSeenVia.or n.firstSeenVia}
  | _, _ => n

/-- A merged note against the spent set and the journal. -/
def reconcile (outcome : ScanOutcome) (owned : List Bytes) (n : ScannedNote) : ScannedNote :=
  if n.state = some .spendable then
    match n.nullifier with
    | none => n
    | some nf =>
      if n.leafIndex ∉ outcome.notes.map ScannedNote.leafIndex ∧ nf ∈ outcome.spentSet then
        {n with state := some .spent}
      else if nf ∈ owned then {n with state := some .pending}
      else n
  else n

def mergeScanOutcome (state : CachedScanState) (outcome : ScanOutcome) (nowNs : Option Nat)
    (firstSeenVia : Option FirstSeenVia) : CachedScanState :=
  {state with
    notes := (mergeScannedNotes state.notes (outcome.notes.map (stamp nowNs firstSeenVia))).map
      (reconcile outcome (journalOwnedNullifiers state))
    lastScannedIndex := max state.lastScannedIndex outcome.scannedUpTo
    mirrorHead := some outcome.mirrorHead
    quarantine := some (mergeQuarantine state.quarantine outcome.quarantine)}

/-! ### The floors -/

def VerifiedScanMetadata.floorKey (m : VerifiedScanMetadata) : FloorKey :=
  ⟨m.configHash, m.securityEpoch⟩

/-- The floor of a key. -/
def CachedScanState.floorAt (state : CachedScanState) (key : FloorKey) : Option VerifiedScanFloor :=
  ((state.verifiedFloors.getD []).find? fun e => e.1 = key).map Prod.snd

def rollbackError : CacheError := .updateRejected "VerifiedFloorRollbackError"

def checkVerifiedFloor (state : CachedScanState) (m : VerifiedScanMetadata) : Except CacheError Unit :=
  match state.floorAt m.floorKey with
  | none => .ok ()
  | some floor =>
    if m.acceptedLeafCount < floor.highestAcceptedLeafCount then .error rollbackError
    else if m.acceptedLeafCount = floor.highestAcceptedLeafCount ∧ m.acceptedRoot ≠ floor.rootAtCount then
      .error rollbackError
    else .ok ()

/-- An object with this property set. -/
def setFloor (floors : VerifiedFloors) (key : FloorKey) (floor : VerifiedScanFloor) : VerifiedFloors :=
  if floors.any fun e => e.1 = key then floors.map fun e => if e.1 = key then (key, floor) else e
  else floors ++ [(key, floor)]

def advanceVerifiedFloor (state : CachedScanState) (m : VerifiedScanMetadata) : CachedScanState :=
  let observed : VerifiedScanFloor := ⟨m.acceptedLeafCount, m.acceptedRoot⟩
  let next := match state.floorAt m.floorKey with
    | none => observed
    | some floor => if floor.highestAcceptedLeafCount < m.acceptedLeafCount then observed else floor
  {state with
    verifiedScan := some m
    verifiedFloors := some (setFloor (state.verifiedFloors.getD []) m.floorKey next)}

def resetVerifiedHistory (configHash : Bytes) (securityEpoch : Nat) (state : CachedScanState) :
    CachedScanState :=
  let key : FloorKey := ⟨configHash, securityEpoch⟩
  {state with
    verifiedScan := if state.verifiedScan.any fun m => m.floorKey = key then none else state.verifiedScan
    verifiedFloors := some ((state.verifiedFloors.getD []).filter fun e => e.1 ≠ key)}

def commitVerifiedScan (state : CachedScanState) (outcome : ScanOutcome) (m : VerifiedScanMetadata)
    (seenAtNs : Nat) (firstSeenVia : Option FirstSeenVia) : Except CacheError CachedScanState := do
  checkVerifiedFloor state m
  return advanceVerifiedFloor (mergeScanOutcome state outcome (some seenAtNs) firstSeenVia) m

/-! ### The changes of the cache -/

/-- What the tabs give to `cache.update`. -/
inductive CacheChange where
  | merge (outcome : ScanOutcome) (nowNs : Option Nat) (via : Option FirstSeenVia)
  | commitVerified (outcome : ScanOutcome) (m : VerifiedScanMetadata) (seenAtNs : Nat)
      (via : Option FirstSeenVia)
  | beginSpend (inputLeafIndex : Nat) (entry : SpendJournal.NewSpendEntry)
  | markDispatched (spendId atNs : Nat)
  | archiveNeverDispatched (spendId : Nat) (inputLeafIndex : Option Nat) (reason : String)
  | persistFinalRequest (spendId : Nat) (requestJson : String)
  | finalizeFromSpendOk (spendId : Nat) (inputLeafIndex : Option Nat)
  | markPayoutPending (spendId : Nat) (reason : String)
  | importRecoveryRequired (entry : SpendJournal.NewSpendEntry)
  | recordCollisionRetry (originalSpendId : Nat) (newEntry : SpendJournal.NewSpendEntry)
  | resetVerifiedHistory (configHash : Bytes) (securityEpoch : Nat)

def CacheChange.apply (state : CachedScanState) : CacheChange → Except CacheError CachedScanState
  | .merge outcome nowNs via => .ok (mergeScanOutcome state outcome nowNs via)
  | .commitVerified outcome m seenAtNs via => commitVerifiedScan state outcome m seenAtNs via
  | .beginSpend leaf entry => SpendJournal.beginSpend leaf entry state
  | .markDispatched id atNs => SpendJournal.markDispatched id atNs state
  | .archiveNeverDispatched id leaf reason => SpendJournal.archiveNeverDispatched id leaf reason state
  | .persistFinalRequest id request => SpendJournal.persistFinalRequest id request state
  | .finalizeFromSpendOk id leaf => SpendJournal.finalizeFromSpendOk id leaf state
  | .markPayoutPending id reason => SpendJournal.markPayoutPending id reason state
  | .importRecoveryRequired entry => SpendJournal.importRecoveryRequired entry state
  | .recordCollisionRetry id entry => SpendJournal.recordCollisionRetry id entry state
  | .resetVerifiedHistory hash epoch => .ok (Wallet.resetVerifiedHistory hash epoch state)

/-- The outcome a change merges. -/
def CacheChange.outcome? : CacheChange → Option ScanOutcome
  | .merge outcome _ _ | .commitVerified outcome _ _ _ => some outcome
  | _ => none

/-- The notes of the tree, and the registry of the spent ones, which only grows. -/
structure NoteWorld where
  valueAt : Nat → Nat
  nullifierAt : Nat → Bytes
  nullifier_length : ∀ leaf, (nullifierAt leaf).length = 32
  registry : Nat → Bytes → Prop
  grows : ∀ {a b : Nat} {nf : Bytes}, a ≤ b → registry a nf → registry b nf

/-- An outcome that was right at some time, when its scan ended. -/
structure NoteWorld.Correct (W : NoteWorld) (outcome : ScanOutcome) (endedAt : Nat) : Prop where
  distinct : (outcome.notes.map ScannedNote.leafIndex).Nodup
  spentSet : ∀ nf, nf ∈ outcome.spentSet ↔ W.registry endedAt nf
  notes : ∀ n ∈ outcome.notes, n.value = W.valueAt n.leafIndex ∧
    n.nullifier = some (W.nullifierAt n.leafIndex) ∧
      n.state = some (if n.value = 0 then .dummy
        else if W.nullifierAt n.leafIndex ∈ outcome.spentSet then .spent else .spendable)

/-- The cache under the changes of any number of tabs, in any order: each is applied to the state
it writes over, and one that throws writes nothing. -/
def cacheSystem (W : NoteWorld) (s₀ : CachedScanState) : System CachedScanState CacheChange where
  init s := s = s₀
  step s c s' := (∀ outcome, c.outcome? = some outcome → ∃ endedAt, W.Correct outcome endedAt) ∧
    (c.apply s = .ok s' ∨ (∃ e, c.apply s = .error e) ∧ s' = s)

end StshProtocol.Wallet
