import StshProtocol.Foundation.FirstMatch
import StshProtocol.Wallet.Cache.Format

/-! The transitions of the shield journal, each a function of the cached state.

They write the shield journal and nothing else (`ShieldChange.apply_keeps`). -/
namespace StshProtocol.Wallet
open Foundation

namespace ShieldJournal

def emptyShieldJournal : ShieldJournalState := ⟨[], none⟩

def journalOf (state : CachedScanState) : ShieldJournalState :=
  state.shieldJournal.getD emptyShieldJournal

def withJournal (state : CachedScanState) (journal : ShieldJournalState) : CachedScanState :=
  {state with shieldJournal := some journal}

def activeEntryStatuses : List ShieldEntryStatus := [.planned, .deposited, .unknown]

def activeApprovalStatuses : List ShieldApprovalStatus := [.planned, .unknown]

def hasActiveShieldIntent (journal : ShieldJournalState) : Bool :=
  journal.entries.any (fun e => e.status ∈ activeEntryStatuses) ||
    journal.approval.any fun a => a.status ∈ activeApprovalStatuses

def entryStatusText : ShieldEntryStatus → String
  | .planned => "planned"
  | .deposited => "deposited"
  | .unknown => "unknown"
  | .failed => "failed"
  | .accepted => "accepted"

def approvalStatusText : ShieldApprovalStatus → String
  | .planned => "planned"
  | .approved => "approved"
  | .unknown => "unknown"
  | .failed => "failed"

def hexText (bytes : Bytes) : String := String.join (bytes.map fun b =>
  String.ofList [Nat.digitChar (b.toNat / 16), Nat.digitChar (b.toNat % 16)])

/-- `ShieldJournalStateError`. -/
def stateError (message : String) : CacheError := .updateRejected message

def busyError : CacheError := .updateRejected
  "an unresolved shield intent exists for this account — reconcile it before starting a new shield"

/-- A batch's commitments, against those known and each other. -/
def checkCommitments : List Bytes → List ShieldJournalEntryState → Except CacheError Unit
  | _, [] => .ok ()
  | known, entry :: entries =>
    if entry.commitmentHex ∈ known then
      .error (stateError
        ("duplicate note commitment in shield journal: " ++ hexText entry.commitmentHex))
    else checkCommitments (entry.commitmentHex :: known) entries

/-- The entries given have no status, dispatch, success, pool status or failure of their own. -/
def plannedEntry (entry : ShieldJournalEntryState) : ShieldJournalEntryState :=
  {entry with
    status := .planned
    dispatchedAtNs := none
    successObserved := false
    poolStatus := none
    failureReason := none}

def plannedApproval (approval : ShieldApprovalState) : ShieldApprovalState :=
  {approval with status := .planned, blockIndex := none, failureReason := none}

def beginBatch (entries : List ShieldJournalEntryState) (approval : ShieldApprovalState)
    (state : CachedScanState) : Except CacheError CachedScanState :=
  if entries = [] then .error (stateError "refusing to begin an empty shield batch")
  else if hasActiveShieldIntent (journalOf state) then .error busyError
  else do
    checkCommitments ((journalOf state).entries.map ShieldJournalEntryState.commitmentHex) entries
    .ok (withJournal state
      ⟨(journalOf state).entries ++ entries.map plannedEntry, some (plannedApproval approval)⟩)

/-- What a patch of an approval sets where it says anything. -/
structure ApprovalPatch where
  blockIndex : Option Nat
  failureReason : Option String
  deriving DecidableEq, Repr

def setApprovalStatus (froms : List ShieldApprovalStatus) (next : ShieldApprovalStatus)
    (patch : ApprovalPatch) (state : CachedScanState) : Except CacheError CachedScanState :=
  match (journalOf state).approval with
  | none => .error (stateError "no approval intent exists to transition")
  | some approval =>
    if approval.status = next then .ok state
    else if approval.status ∉ froms then
      .error (stateError ("approval is '" ++ approvalStatusText approval.status ++
        "', expected one of [" ++ ", ".intercalate (froms.map approvalStatusText) ++ "] -> '" ++
          approvalStatusText next ++ "'"))
    else .ok (withJournal state {journalOf state with
      approval := some {approval with
        blockIndex := patch.blockIndex.or approval.blockIndex
        failureReason := patch.failureReason.or approval.failureReason
        status := next}})

/-- The entry of this commitment. -/
def knownEntry (state : CachedScanState) (commitmentHex : Bytes) :
    Except CacheError ShieldJournalEntryState :=
  match (journalOf state).entries.find? fun e => e.commitmentHex = commitmentHex with
  | none => .error (stateError ("unknown shield-journal entry: " ++ hexText commitmentHex))
  | some entry => .ok entry

def setEntry (state : CachedScanState) (commitmentHex : Bytes) (entry : ShieldJournalEntryState) :
    CachedScanState :=
  withJournal state {journalOf state with
    entries := modifyFirst (fun e => e.commitmentHex = commitmentHex) (fun _ => entry)
      (journalOf state).entries}

structure EntryPatch where
  poolStatus : Option String
  failureReason : Option String
  deriving DecidableEq, Repr

def transitionEntry (commitmentHex : Bytes) (froms : List ShieldEntryStatus) (next : ShieldEntryStatus)
    (patch : EntryPatch) (state : CachedScanState) : Except CacheError CachedScanState := do
  let entry ← knownEntry state commitmentHex
  if entry.status = next then .ok state
  else if entry.status ∉ froms then
    .error (stateError ("entry " ++ hexText commitmentHex ++ " is '" ++ entryStatusText entry.status ++
      "', expected one of [" ++ ", ".intercalate (froms.map entryStatusText) ++ "] -> '" ++
        entryStatusText next ++ "'"))
  else .ok (setEntry state commitmentHex {entry with
    poolStatus := patch.poolStatus.or entry.poolStatus
    failureReason := patch.failureReason.or entry.failureReason
    status := next})

/-- The claim that must be won before a deposit goes on the wire. -/
def claimEntryDispatch (commitmentHex : Bytes) (atNs : Nat) (state : CachedScanState) :
    Except CacheError CachedScanState := do
  let entry ← knownEntry state commitmentHex
  if entry.status ≠ .planned ∨ entry.dispatchedAtNs ≠ none then .ok state
  else .ok (setEntry state commitmentHex {entry with status := .unknown, dispatchedAtNs := some atNs})

/-- `accepted` is never downgraded, and `deposited` stays. -/
def depositedStatus : ShieldEntryStatus → ShieldEntryStatus
  | .planned | .unknown => .deposited
  | .deposited => .deposited
  | .failed => .failed
  | .accepted => .accepted

def recordDepositSuccess (commitmentHex : Bytes) (state : CachedScanState) :
    Except CacheError CachedScanState := do
  let entry ← knownEntry state commitmentHex
  if entry.status = .failed then
    .error (stateError ("entry " ++ hexText commitmentHex ++
      " is 'failed' but a shield_deposit Ok was observed — " ++
        "conflicting settlement; refusing to merge (operator attention)"))
  else if entry.successObserved ∧ entry.status = depositedStatus entry.status then .ok state
  else .ok (setEntry state commitmentHex
    {entry with status := depositedStatus entry.status, successObserved := true})

def notePoolStatus (commitmentHex : Bytes) (poolStatus : String) (state : CachedScanState) :
    Except CacheError CachedScanState := do
  let entry ← knownEntry state commitmentHex
  if entry.poolStatus = some poolStatus then .ok state
  else .ok (setEntry state commitmentHex {entry with poolStatus := some poolStatus})

def importEntry (entry : ShieldJournalEntryState) (state : CachedScanState) :
    Except CacheError CachedScanState :=
  if (journalOf state).entries.any fun e => e.commitmentHex = entry.commitmentHex then .ok state
  else .ok (withJournal state
    {journalOf state with entries := (journalOf state).entries ++ [entry]})

end ShieldJournal

open ShieldJournal

/-- What the shield flow gives to `cache.update`. -/
inductive ShieldChange where
  | beginBatch (entries : List ShieldJournalEntryState) (approval : ShieldApprovalState)
  | setApprovalStatus (froms : List ShieldApprovalStatus) (next : ShieldApprovalStatus)
      (patch : ApprovalPatch)
  | transitionEntry (commitmentHex : Bytes) (froms : List ShieldEntryStatus) (next : ShieldEntryStatus)
      (patch : EntryPatch)
  | claimEntryDispatch (commitmentHex : Bytes) (atNs : Nat)
  | recordDepositSuccess (commitmentHex : Bytes)
  | notePoolStatus (commitmentHex : Bytes) (poolStatus : String)
  | importEntry (entry : ShieldJournalEntryState)

def ShieldChange.apply (state : CachedScanState) : ShieldChange → Except CacheError CachedScanState
  | .beginBatch entries approval => ShieldJournal.beginBatch entries approval state
  | .setApprovalStatus froms next patch => ShieldJournal.setApprovalStatus froms next patch state
  | .transitionEntry c froms next patch => ShieldJournal.transitionEntry c froms next patch state
  | .claimEntryDispatch c atNs => ShieldJournal.claimEntryDispatch c atNs state
  | .recordDepositSuccess c => ShieldJournal.recordDepositSuccess c state
  | .notePoolStatus c poolStatus => ShieldJournal.notePoolStatus c poolStatus state
  | .importEntry entry => ShieldJournal.importEntry entry state

/-- The states that differ in their shield journals alone. -/
def ShieldsOnly (s s' : CachedScanState) : Prop := s' = {s with shieldJournal := s'.shieldJournal}

/-- What is known of an entry's change where the entry is known. -/
theorem shieldsOnly_of_entry {s s' : CachedScanState} {commitmentHex : Bytes}
    {f : ShieldJournalEntryState → Except CacheError CachedScanState}
    (hf : ∀ entry s', f entry = .ok s' → ShieldsOnly s s')
    (h : (knownEntry s commitmentHex >>= f) = .ok s') : ShieldsOnly s s' := by
  obtain ⟨entry, -, h⟩ := bind_ok h
  exact hf entry s' h

theorem ShieldChange.apply_keeps {s s' : CachedScanState} {c : ShieldChange} (h : c.apply s = .ok s') :
    ShieldsOnly s s' := by
  have hsame : ∀ {t : CachedScanState}, (.ok s : Except CacheError CachedScanState) = .ok t →
      ShieldsOnly s t := by
    rintro t ⟨⟩
    rfl
  have hset : ∀ {t : CachedScanState} {journal : ShieldJournalState},
      (.ok (withJournal s journal) : Except CacheError CachedScanState) = .ok t → ShieldsOnly s t := by
    rintro t journal ⟨⟩
    rfl
  cases c with
  | beginBatch entries approval =>
    change ShieldJournal.beginBatch entries approval s = .ok s' at h
    unfold ShieldJournal.beginBatch at h
    split at h
    · exact nomatch h
    · split at h
      · exact nomatch h
      · obtain ⟨_, -, h⟩ := bind_ok h
        exact hset h
  | setApprovalStatus froms next patch =>
    change ShieldJournal.setApprovalStatus froms next patch s = .ok s' at h
    unfold ShieldJournal.setApprovalStatus at h
    split at h
    · exact nomatch h
    · split at h
      · exact hsame h
      · split at h
        · exact nomatch h
        · exact hset h
  | transitionEntry c froms next patch =>
    refine shieldsOnly_of_entry (fun entry t h => ?_) h
    split at h
    · exact hsame h
    · split at h
      · exact nomatch h
      · exact hset h
  | claimEntryDispatch c atNs =>
    refine shieldsOnly_of_entry (fun entry t h => ?_) h
    split at h
    · exact hsame h
    · exact hset h
  | recordDepositSuccess c =>
    refine shieldsOnly_of_entry (fun entry t h => ?_) h
    split at h
    · exact nomatch h
    · split at h
      · exact hsame h
      · exact hset h
  | notePoolStatus c poolStatus =>
    refine shieldsOnly_of_entry (fun entry t h => ?_) h
    split at h
    · exact hsame h
    · exact hset h
  | importEntry entry =>
    change ShieldJournal.importEntry entry s = .ok s' at h
    unfold ShieldJournal.importEntry at h
    split at h
    · exact hsame h
    · exact hset h

end StshProtocol.Wallet
