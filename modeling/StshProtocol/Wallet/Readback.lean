import StshProtocol.Wallet.MergeRuns
import StshProtocol.Wallet.Writes

/-! Whether what is written to the cache can be read back.

The checks of a record stand on the reader's side, and a record they refuse is lost with all its
journals. A state is read back as it was written if and only if it is `WellFormed`. The writes keep
that from whatever the canisters reply, but for two that store a reply as it came: a verified scan
the attested config hash, and an import of the recovery the outputs of the pool's record. -/
namespace StshProtocol.Wallet
open Foundation Scan

/-! ### What the flows give to the journal -/

structure SpendOutput where
  leaf : Bytes
  nonce : Bytes
  encrypted : Bytes
  deriving DecidableEq, Repr

/-- A private spend before it is proved: the change, and a dummy of no value. -/
structure SpendIntent where
  spendId : Nat
  nullifier : Bytes
  inputLeafIndex : Nat
  change : SpendOutput
  zeroDummy : SpendOutput
  requestJson : String
  intentFingerprint : Bytes
  fee : Nat
  publicPayout : Option PublicPayout
  acceptedRoot : Bytes
  createdAtNs : Nat
  deriving DecidableEq, Repr

def SpendIntent.outNotes (intent : SpendIntent) : List SpendOutput := [intent.change, intent.zeroDummy]

def SpendIntent.entry (intent : SpendIntent) : SpendJournal.NewSpendEntry where
  spendId := intent.spendId
  nullifierHex := intent.nullifier
  inputLeafIndex := some intent.inputLeafIndex
  outputLeavesHex := intent.outNotes.map SpendOutput.leaf
  outNoncesHex := intent.outNotes.map SpendOutput.nonce
  encryptedOutputsHex := intent.outNotes.map SpendOutput.encrypted
  requestJson := intent.requestJson
  intentFingerprintHex := intent.intentFingerprint
  feeStsh := intent.fee
  publicPayout := intent.publicPayout
  acceptedRootHex := intent.acceptedRoot
  manifestVersion := 1
  status := .planned
  createdAtNs := intent.createdAtNs
  dispatchedAtNs := none
  collisionOf := none
  failureReason := none

/-- What the pool lists of an active spend. -/
structure PoolSpendRecord where
  spendId : Nat
  nullifiers : List Bytes
  outputCommitments : List Bytes
  createdAtNs : Nat
  deriving DecidableEq, Repr

structure ActiveSpendsPage where
  spends : List PoolSpendRecord
  nextCursor : Option Nat
  deriving DecidableEq, Repr

def recoveryPageLimit : Nat := 100

def maxRecoveryPages : Nat := 100

/-- The records of a page that come before one that does not ascend, and the last id if all do. -/
def ascendingRecords : Option Nat → List PoolSpendRecord → List PoolSpendRecord × Option (Option Nat)
  | lastId, [] => ([], some lastId)
  | lastId, record :: rest =>
    if lastId.any fun id => record.spendId ≤ id then ([], none)
    else
      let (taken, last) := ascendingRecords (some record.spendId) rest
      (record :: taken, last)

/-- The records of a listing that are imported, in the order of the pages, up to where the listing is
refused. -/
def recoveryRecords : Nat → Option Nat → Option Nat → List ActiveSpendsPage → List PoolSpendRecord
  | 0, _, _, _ => []
  | _ + 1, _, _, [] => []
  | n + 1, prevCursor, lastId, page :: rest =>
    if recoveryPageLimit < page.spends.length then []
    else
      match ascendingRecords lastId page.spends with
      | (taken, none) => taken
      | (taken, some last) =>
        match page.nextCursor with
        | none => taken
        | some cursor =>
          if (last.any fun id => cursor < id) || prevCursor.any fun prev => cursor ≤ prev then taken
          else taken ++ recoveryRecords n (some cursor) last rest

/-- What is imported of a listing. -/
def recoverSpendsFromPool (pages : List ActiveSpendsPage) : List PoolSpendRecord :=
  recoveryRecords maxRecoveryPages none none pages

/-- A record as it is imported. -/
def PoolSpendRecord.entry (record : PoolSpendRecord) : SpendJournal.NewSpendEntry where
  spendId := record.spendId
  nullifierHex := record.nullifiers.headD []
  inputLeafIndex := none
  outputLeavesHex := record.outputCommitments
  outNoncesHex := [[], []]
  encryptedOutputsHex := [[], []]
  requestJson := ""
  intentFingerprintHex := []
  feeStsh := 0
  publicPayout := none
  acceptedRootHex := []
  manifestVersion := 1
  status := .recoveryRequired
  createdAtNs := record.createdAtNs
  dispatchedAtNs := none
  collisionOf := none
  failureReason := none

/-- `recoverSpendFreshId`: the fresh attempt at an entry, with the spent set it is checked against. -/
def freshAttempt (spentSet : List Bytes) (newSpendId : Nat) (requestJson : String) (createdAtNs : Nat)
    (entry : SpendJournalEntryState) : Option SpendJournal.NewSpendEntry :=
  if entry.collisionOf ≠ none ∨ entry.requestJson = "" ∨ entry.nullifierHex.length ≠ 32 ∨
      entry.nullifierHex ∈ spentSet then none
  else some {entry with
    spendId := newSpendId
    requestJson := requestJson
    collisionOf := some entry.spendId
    createdAtNs := createdAtNs}

/-! ### The cache and its journal so far -/

def journalEntries (s : CachedScanState) : List SpendJournalEntryState :=
  (SpendJournal.journalOf s).entries

/-- The cache, and every entry its journal has held: a flow may act on one it looked up before. -/
structure CacheHistory where
  cache : CachedScanState
  held : List SpendJournalEntryState
  deriving DecidableEq, Repr

/-- What is given to the journal comes from the flows. -/
def WalletWrite.Flows (h : CacheHistory) : WalletWrite → Prop
  | .change (.beginSpend _ entry) => ∃ intent : SpendIntent, entry = intent.entry
  | .change (.importRecoveryRequired entry) =>
    ∃ pages, ∃ record ∈ recoverSpendsFromPool pages, entry = record.entry
  | .change (.recordCollisionRetry spendId entry) =>
    ∃ old ∈ h.held, old.spendId = spendId ∧ ∃ spentSet newSpendId requestJson createdAtNs,
      freshAttempt spentSet newSpendId requestJson createdAtNs old = some entry
  | _ => True

/-- A new cache, or one that is migrated from schema 2. -/
def Begun (s : CachedScanState) : Prop :=
  s = emptyScanState ∨
    ∃ payload old, deserializeScanStateV2 payload = .ok old ∧ s = migrateV2StateToV3 old

def cacheHistory (C : NoteCrypto) : System CacheHistory WalletWrite where
  init h := Begun h.cache ∧ h.held = journalEntries h.cache
  step h w h' := w.Flows h ∧ w.apply C h.cache = some h'.cache ∧
    h'.held = journalEntries h'.cache ++ h.held

/-- A reply that is stored as it came has the lengths that are read. -/
def WalletWrite.Fits (h : CacheHistory) : WalletWrite → Prop
  | .verifiedScan _ _ replies _ _ => ∀ a ∈ replies.attestation, a.configHash.length = 32
  | .change (.importRecoveryRequired entry) =>
    (∃ e ∈ journalEntries h.cache, e.spendId = entry.spendId) ∨ entry.outputLeavesHex.length = 2
  | _ => True

/-! ### What is read back -/

structure TwoOutputs (e : SpendJournalEntryState) : Prop where
  leaves : e.outputLeavesHex.length = 2
  nonces : e.outNoncesHex.length = 2
  encrypted : e.encryptedOutputsHex.length = 2

structure MetadataFits (m : VerifiedScanMetadata) : Prop where
  configHash : m.configHash.length = 32
  acceptedRoot : m.acceptedRoot.length = 32
  spentSetDigest : m.spentSetDigest.length = 32

/-- What the reader asks of a state. -/
structure WellFormed (s : CachedScanState) : Prop where
  entries : ∀ e ∈ journalEntries s, TwoOutputs e
  nonces : ∀ n ∈ s.notes, ∀ nonce ∈ n.nonce, nonce.length = 16
  mirrorHead : ∀ head ∈ s.mirrorHead, head.root.length = 32
  quarantine : ∀ q ∈ s.quarantine, q.ring.length ≤ quarantineRingCap
  verifiedScan : ∀ m ∈ s.verifiedScan, MetadataFits m
  floors : ∀ floors ∈ s.verifiedFloors, ∀ e ∈ floors, e.2.rootAtCount.length = 32

section
variable {s s' : CachedScanState} {e : SpendJournalEntryState} {n n' : ScannedNote}

theorem checked_ok {ε : Type} {b : Bool} {err : ε} {rest : Except ε Unit} :
    (if b then .error err else rest) = .ok () ↔ b = false ∧ rest = .ok () := by
  cases b with
  | true => exact ⟨(fun h => nomatch h), fun h => nomatch h.1⟩
  | false => exact ⟨fun h => ⟨rfl, h⟩, fun h => h.2⟩

theorem any_eq_false {α : Type} {x : Option α} {p : α → Bool} :
    x.any p = false ↔ ∀ a ∈ x, p a = false := by
  cases x with
  | none => exact ⟨fun _ => by nofun, fun _ => rfl⟩
  | some a => exact ⟨fun h b hb => Option.mem_some.1 hb ▸ h, fun h => h a rfl⟩

theorem readSpendJournal_ok_iff :
    readSpendJournal ⟨cacheSchemaV3, s⟩ = .ok () ↔ ∀ e ∈ journalEntries s, TwoOutputs e := by
  have hentry : ∀ e : SpendJournalEntryState, (e.outputLeavesHex.length != 2 ||
      e.outNoncesHex.length != 2 || e.encryptedOutputsHex.length != 2) = false ↔ TwoOutputs e := by
    intro e
    simp only [Bool.or_eq_false_iff, bne_eq_false_iff_eq]
    exact ⟨fun ⟨⟨hl, hn⟩, he⟩ => ⟨hl, hn, he⟩, fun h => ⟨⟨h.leaves, h.nonces⟩, h.encrypted⟩⟩
  unfold readSpendJournal journalEntries SpendJournal.journalOf
  cases s.spendJournal with
  | none => exact ⟨fun _ => by nofun, fun _ => rfl⟩
  | some journal =>
    show validateSpendJournal journal = .ok () ↔ ∀ e ∈ journal.entries, TwoOutputs e
    rw [validateSpendJournal, checked_ok, List.any_eq_false]
    simp only [and_true, Bool.not_eq_true, hentry]

theorem validateScanAdditions_ok_iff :
    validateScanAdditions s = .ok () ↔ (∀ n ∈ s.notes, ∀ nonce ∈ n.nonce, nonce.length = 16) ∧
      (∀ head ∈ s.mirrorHead, head.root.length = 32) ∧
        ∀ q ∈ s.quarantine, q.ring.length ≤ quarantineRingCap := by
  rw [validateScanAdditions, checked_ok, checked_ok, checked_ok]
  simp only [List.any_eq_false, Bool.not_eq_true, any_eq_false, bne_eq_false_iff_eq,
    decide_eq_false_iff_not, not_lt, and_true]

theorem validateVerifiedScanAdditions_ok_iff :
    validateVerifiedScanAdditions s = .ok () ↔ (∀ m ∈ s.verifiedScan, MetadataFits m) ∧
      ∀ floors ∈ s.verifiedFloors, ∀ e ∈ floors, e.2.rootAtCount.length = 32 := by
  rw [validateVerifiedScanAdditions, checked_ok, checked_ok, checked_ok, checked_ok]
  simp only [List.any_eq_false, Bool.not_eq_true, any_eq_false, bne_eq_false_iff_eq, and_true]
  constructor
  · rintro ⟨hconfig, hroot, hdigest, hfloors⟩
    exact ⟨fun m hm => ⟨hconfig m hm, hroot m hm, hdigest m hm⟩, hfloors⟩
  · rintro ⟨hm, hfloors⟩
    exact ⟨fun m h => (hm m h).configHash, fun m h => (hm m h).acceptedRoot,
      fun m h => (hm m h).spentSetDigest, hfloors⟩

/-- The well-formed states, and no others, are read back as they were written. -/
theorem readable_iff_wellFormed : Readable s ↔ WellFormed s := by
  rw [readable_iff, readSpendJournal_ok_iff, validateScanAdditions_ok_iff,
    validateVerifiedScanAdditions_ok_iff]
  constructor
  · rintro ⟨hentries, ⟨hnonces, hhead, hring⟩, hmetadata, hfloors⟩
    exact ⟨hentries, hnonces, hhead, hring, hmetadata, hfloors⟩
  · intro h
    exact ⟨h.entries, ⟨h.nonces, h.mirrorHead, h.quarantine⟩, h.verifiedScan, h.floors⟩

/-! ### Migration -/

/-- What is read at schema 2 carries nothing verified, and the migration changes none of it. -/
theorem migrate_of_read {payload : SerializedState} (h : deserializeScanStateV2 payload = .ok s) :
    (∀ n ∈ s.notes, n.verified = false) ∧ s.verifiedScan = none ∧ s.verifiedFloors = none ∧
      migrateV2StateToV3 s = {s with migratedFromV2 := true} := by
  unfold deserializeScanStateV2 at h
  split at h
  · exact nomatch h
  obtain ⟨_, -, h⟩ := bind_ok h
  obtain ⟨_, -, h⟩ := bind_ok h
  obtain rfl := Except.ok.inj h
  have hunverified : ∀ n ∈ payload.state.notes.map ScannedNote.unverified, n.verified = false := by
    intro n hn
    obtain ⟨m, -, rfl⟩ := List.mem_map.1 hn
    rfl
  refine ⟨hunverified, rfl, rfl, ?_⟩
  have hsame : (payload.state.notes.map ScannedNote.unverified).map ScannedNote.unverified =
      payload.state.notes.map ScannedNote.unverified := by
    rw [List.map_map]
    rfl
  show CachedScanState.mk _ .. = CachedScanState.mk ..
  exact congrArg (fun notes => CachedScanState.mk notes ..) hsame

theorem Begun.wellFormed (h : Begun s) : WellFormed s := by
  rcases h with rfl | ⟨payload, old, hread, rfl⟩
  · exact readable_iff_wellFormed.1 readable_empty
  · exact readable_iff_wellFormed.1 (readable_of_migrated hread)

end

/-! ### Writes to the journal -/

/-- An entry with another's output material. -/
structure SameOutputs (e e' : SpendJournalEntryState) : Prop where
  leaves : e'.outputLeavesHex = e.outputLeavesHex
  nonces : e'.outNoncesHex = e.outNoncesHex
  encrypted : e'.encryptedOutputsHex = e.encryptedOutputsHex

/-- The entry a change adds to the journal. -/
def CacheChange.added (s : CachedScanState) : CacheChange → Option SpendJournal.NewSpendEntry
  | .beginSpend _ entry | .recordCollisionRetry _ entry => some entry
  | .importRecoveryRequired entry =>
    if (journalEntries s).any fun e => e.spendId = entry.spendId then none else some entry
  | _ => none

/-- The notes and the journal written: the entries have the outputs of those before, or of the one
that is added. -/
structure JournalWritten (s : CachedScanState) (added : Option SpendJournal.NewSpendEntry)
    (s' : CachedScanState) : Prop where
  only : s' = {s with notes := s'.notes, spendJournal := s'.spendJournal}
  entries : ∀ e' ∈ journalEntries s', ∃ e, (e ∈ journalEntries s ∨ added = some e) ∧ SameOutputs e e'
  adds : ∀ e, added = some e → ∃ e' ∈ journalEntries s', SameOutputs e e'

section
variable {s s' : CachedScanState} {e e' : SpendJournalEntryState} {notes : List ScannedNote}
  {spendId : Nat} {f : SpendJournalEntryState → SpendJournalEntryState} {c : CacheChange}
  {status : SpendEntryStatus} {entry : SpendJournal.NewSpendEntry}

theorem TwoOutputs.same (h : TwoOutputs e) (hsame : SameOutputs e e') : TwoOutputs e' where
  leaves := hsame.leaves ▸ h.leaves
  nonces := hsame.nonces ▸ h.nonces
  encrypted := hsame.encrypted ▸ h.encrypted

theorem sameOutputs_entryAt (entry : SpendJournal.NewSpendEntry) (status : SpendEntryStatus) :
    SameOutputs entry (SpendJournal.entryAt entry status) := ⟨rfl, rfl, rfl⟩

/-- Each entry that is set has the outputs of one before. -/
theorem sameOutputs_setEntry (hf : ∀ e, SameOutputs e (f e)) {e' : SpendJournalEntryState}
    (he' : e' ∈ (SpendJournal.setEntry (SpendJournal.journalOf s) spendId f).entries) :
    ∃ e ∈ journalEntries s, SameOutputs e e' := by
  have hset : List.Forall₂ SameOutputs (journalEntries s)
      (SpendJournal.setEntry (SpendJournal.journalOf s) spendId f).entries :=
    forall₂_modifyFirst (fun _ => ⟨rfl, rfl, rfl⟩) fun e _ => hf e
  exact forall₂_left hset.flip he'

theorem journalWritten_set (hf : ∀ e, SameOutputs e (f e)) :
    JournalWritten s none (SpendJournal.withJournal {s with notes := notes}
      (SpendJournal.setEntry (SpendJournal.journalOf s) spendId f)) where
  only := rfl
  entries e' he' := by
    obtain ⟨e, he, hsame⟩ := sameOutputs_setEntry hf he'
    exact ⟨e, .inl he, hsame⟩
  adds e h := nomatch h

theorem journalWritten_append {old : List SpendJournalEntryState}
    (hold : ∀ e' ∈ old, ∃ e ∈ journalEntries s, SameOutputs e e') :
    JournalWritten s (some entry) (SpendJournal.withJournal {s with notes := notes}
      ⟨old ++ [SpendJournal.entryAt entry status]⟩) where
  only := rfl
  entries e' he' := by
    rcases List.mem_append.1 he' with he' | he'
    · obtain ⟨e, he, hsame⟩ := hold e' he'
      exact ⟨e, .inl he, hsame⟩
    · obtain rfl := List.mem_singleton.1 he'
      exact ⟨entry, .inr rfl, sameOutputs_entryAt entry status⟩
  adds e h := by
    obtain rfl := Option.some.inj h
    exact ⟨_, List.mem_append_right _ List.mem_cons_self, sameOutputs_entryAt entry status⟩

theorem beginSpend_writes {leaf : Nat} (h : SpendJournal.beginSpend leaf entry s = .ok s') :
    JournalWritten s (some entry) s' := by
  unfold SpendJournal.beginSpend at h
  split at h
  · exact nomatch h
  · split at h
    · exact nomatch h
    · split at h
      · exact nomatch h
      · split at h
        · exact nomatch h
        · obtain rfl := Except.ok.inj h
          exact journalWritten_append fun e he => ⟨e, he, rfl, rfl, rfl⟩

theorem importRecoveryRequired_writes (h : SpendJournal.importRecoveryRequired entry s = .ok s') :
    JournalWritten s (CacheChange.added s (.importRecoveryRequired entry)) s' := by
  unfold SpendJournal.importRecoveryRequired at h
  show JournalWritten s
    (if (SpendJournal.journalOf s).entries.any fun e => e.spendId = entry.spendId then none
      else some entry) s'
  split at h
  · rename_i hknown
    obtain rfl := Except.ok.inj h
    rw [if_pos hknown]
    exact ⟨rfl, fun e he => ⟨e, .inl he, rfl, rfl, rfl⟩, fun _ h => nomatch h⟩
  · rename_i hknown
    obtain rfl := Except.ok.inj h
    rw [if_neg hknown]
    exact journalWritten_append fun e he => ⟨e, he, rfl, rfl, rfl⟩

theorem recordCollisionRetry_writes
    (h : SpendJournal.recordCollisionRetry spendId entry s = .ok s') :
    JournalWritten s (some entry) s' := by
  obtain ⟨_, -, h⟩ := bind_ok h
  dsimp only at h
  split at h
  · exact nomatch h
  · obtain rfl := Except.ok.inj h
    refine journalWritten_append fun e he => sameOutputs_setEntry (fun _ => ?_) he
    exact ⟨rfl, rfl, rfl⟩

/-- A change that neither merges nor resets a floor writes to the journal. -/
theorem change_writes (hmerge : c.outcome? = none) (hreset : ∀ key, ¬c.resets key)
    (h : c.apply s = .ok s') : JournalWritten s (c.added s) s' := by
  cases c with
  | merge | commitVerified => exact nomatch hmerge
  | beginSpend => exact beginSpend_writes h
  | importRecoveryRequired => exact importRecoveryRequired_writes h
  | recordCollisionRetry => exact recordCollisionRetry_writes h
  | resetVerifiedHistory hash epoch => exact (hreset ⟨hash, epoch⟩ rfl).elim
  | _ =>
    obtain ⟨_, _, rfl⟩ := ok_of_entry h
    exact journalWritten_set fun _ => ⟨rfl, rfl, rfl⟩

end

/-! ### What each write keeps -/

section
variable {s s' : CachedScanState} {outcome : ScanOutcome} {m : VerifiedScanMetadata}
  {notes prev next : List ScannedNote} {byIndex : StableMap Nat ScannedNote}
  {added : Option SpendJournal.NewSpendEntry}

/-- A note's nonce, where it has one, is of 16 bytes. -/
def NonceFits (n : ScannedNote) : Prop := ∀ nonce ∈ n.nonce, nonce.length = 16

def NoncesFit (byIndex : StableMap Nat ScannedNote) : Prop :=
  ∀ (leaf : Nat) (n : ScannedNote), byIndex[leaf]? = some n → NonceFits n

theorem NoncesFit.insert {n : ScannedNote} (h : NoncesFit byIndex) (hn : NonceFits n) (leaf : Nat) :
    NoncesFit (byIndex.insert leaf n) := by
  intro k b hb
  rw [StableMap.get_insert] at hb
  split at hb
  · obtain rfl := Option.some.inj hb
    exact hn
  · exact h k b hb

theorem noncesFit_indexNotes (h : ∀ n ∈ notes, NonceFits n) : NoncesFit (indexNotes notes) := by
  have hfold : ∀ byIndex : StableMap Nat ScannedNote, NoncesFit byIndex →
      NoncesFit (notes.foldl (fun byIndex n => byIndex.insert n.leafIndex n) byIndex) := by
    induction notes with
    | nil => exact fun _ h => h
    | cons a notes ih =>
      obtain ⟨ha, hnotes⟩ := List.forall_mem_cons.1 h
      exact fun byIndex hmap => ih hnotes _ (hmap.insert ha a.leafIndex)
  refine hfold ∅ fun k b h => ?_
  rw [Std.ExtTreeMap.getElem?_empty] at h
  exact nomatch h

theorem noncesFit_mergeInto (h : ∀ n ∈ next, NonceFits n) (hmap : NoncesFit byIndex) :
    NoncesFit (mergeInto byIndex next) := by
  induction next generalizing byIndex with
  | nil => exact hmap
  | cons a next ih =>
    obtain ⟨ha, hnext⟩ := List.forall_mem_cons.1 h
    obtain ⟨seen, via, hmerged⟩ := mergedNote_eq byIndex[a.leafIndex]? a
    exact ih hnext (hmap.insert (hmerged ▸ ha) a.leafIndex)

/-- A merge brings in no nonces but those of its notes. -/
theorem nonceFits_merged (hprev : ∀ n ∈ prev, NonceFits n) (hnext : ∀ n ∈ next, NonceFits n) :
    ∀ n ∈ mergeScannedNotes prev next, NonceFits n := by
  intro n hn
  obtain ⟨⟨k, b⟩, hb, rfl⟩ := List.mem_map.1 hn
  exact noncesFit_mergeInto hnext (noncesFit_indexNotes hprev) k b (StableMap.mem_toList.1 hb)

theorem ring_mergeQuarantine (prev : Option QuarantineState) (delta : QuarantineState) :
    (mergeQuarantine prev delta).ring.length ≤ quarantineRingCap := by
  show (List.drop _ _).length ≤ _
  rw [List.length_drop]
  omega

/-- The notes that are merged, and the head. -/
structure OutcomeFits (outcome : ScanOutcome) : Prop where
  nonces : ∀ n ∈ outcome.notes, NonceFits n
  root : outcome.mirrorHead.root.length = 32

theorem outcomeOf_fits {C : NoteCrypto} {entries : List ScanPageEntry} {fromIndex : Nat}
    {markVerified : Bool} (h : OutcomeOf C entries fromIndex markVerified outcome) :
    OutcomeFits outcome := by
  refine ⟨fun n hn nonce hnonce => ?_, h.root⟩
  rw [h.notes] at hn
  obtain ⟨entry, -, -, fields, hopens, rfl⟩ := mem_validateCandidates.1 hn
  obtain rfl := Option.mem_some.1 hnonce
  exact nonce_length hopens

theorem WellFormed.merge (h : WellFormed s) (hout : OutcomeFits outcome) (nowNs : Option Nat)
    (via : Option FirstSeenVia) : WellFormed (mergeScanOutcome s outcome nowNs via) where
  entries := h.entries
  nonces n hn := by
    obtain ⟨k, hk, rfl⟩ := List.mem_map.1 hn
    rw [(reconcile_lowered outcome (journalOwnedNullifiers s) k).eq]
    refine nonceFits_merged h.nonces (fun b hb => ?_) k hk
    obtain ⟨a, ha, rfl⟩ := List.mem_map.1 hb
    obtain ⟨seen, how, hstamp⟩ := stamp_eq nowNs via a
    rw [hstamp]
    exact hout.nonces a ha
  mirrorHead head hhead := Option.mem_some.1 hhead ▸ hout.root
  quarantine q hq := Option.mem_some.1 hq ▸ ring_mergeQuarantine ..
  verifiedScan := h.verifiedScan
  floors := h.floors

theorem floors_of_getD (h : ∀ floors ∈ s.verifiedFloors, ∀ e ∈ floors, e.2.rootAtCount.length = 32) :
    ∀ e ∈ s.verifiedFloors.getD [], e.2.rootAtCount.length = 32 := by
  cases hfloors : s.verifiedFloors with
  | none => exact fun e he => nomatch he
  | some floors => exact h floors hfloors

theorem floors_setFloor {floors : VerifiedFloors} {key : FloorKey} {floor : VerifiedScanFloor}
    (h : ∀ e ∈ floors, e.2.rootAtCount.length = 32) (hfloor : floor.rootAtCount.length = 32) :
    ∀ e ∈ setFloor floors key floor, e.2.rootAtCount.length = 32 := by
  intro e he
  unfold setFloor at he
  split at he
  · obtain ⟨b, hb, rfl⟩ := List.mem_map.1 he
    split
    · exact hfloor
    · exact h b hb
  · rcases List.mem_append.1 he with he | he
    · exact h e he
    · exact List.mem_singleton.1 he ▸ hfloor

theorem WellFormed.advance (h : WellFormed s) (hm : MetadataFits m) :
    WellFormed (advanceVerifiedFloor s m) where
  entries := h.entries
  nonces := h.nonces
  mirrorHead := h.mirrorHead
  quarantine := h.quarantine
  verifiedScan k hk := Option.mem_some.1 hk ▸ hm
  floors floors hfloors := by
    obtain rfl := Option.mem_some.1 hfloors
    refine floors_setFloor (floors_of_getD h.floors) ?_
    cases hat : s.floorAt m.floorKey with
    | none => exact hm.acceptedRoot
    | some floor =>
      dsimp only
      split
      · exact hm.acceptedRoot
      · obtain ⟨e, he, rfl⟩ := Option.map_eq_some_iff.1 hat
        exact floors_of_getD h.floors e (List.mem_of_find?_eq_some he)

theorem WellFormed.reset (h : WellFormed s) (hash : Bytes) (epoch : Nat) :
    WellFormed (resetVerifiedHistory hash epoch s) where
  entries := h.entries
  nonces := h.nonces
  mirrorHead := h.mirrorHead
  quarantine := h.quarantine
  verifiedScan m hm := by
    change m ∈ (if _ then none else s.verifiedScan) at hm
    split at hm
    · exact nomatch hm
    · exact h.verifiedScan m hm
  floors floors hfloors e he := by
    obtain rfl := Option.mem_some.1 hfloors
    exact floors_of_getD h.floors e (List.mem_filter.1 he).1

theorem WellFormed.written (h : WellFormed s) (hw : JournalWritten s added s')
    (hr : Relabelled s s') (hadded : ∀ e ∈ added, TwoOutputs e) : WellFormed s' := by
  have hnonces : ∀ n ∈ s'.notes, NonceFits n := by
    intro n hn
    obtain ⟨b, hb, hrelabel⟩ := forall₂_left hr.notes.flip hn
    have hfits := h.nonces b hb
    cases hrelabel <;> exact hfits
  have hentries : ∀ e ∈ journalEntries s', TwoOutputs e := by
    intro e he
    obtain ⟨old, hold | hold, hsame⟩ := hw.entries e he
    · exact (h.entries old hold).same hsame
    · exact (hadded old hold).same hsame
  have honly := hw.only
  refine ⟨hentries, hnonces, ?_, ?_, ?_, ?_⟩ <;> rw [honly]
  · exact h.mirrorHead
  · exact h.quarantine
  · exact h.verifiedScan
  · exact h.floors

theorem WellFormed.shielded (h : WellFormed s) (hs : ShieldsOnly s s') : WellFormed s' := by
  rw [show s' = _ from hs]
  exact ⟨h.entries, h.nonces, h.mirrorHead, h.quarantine, h.verifiedScan, h.floors⟩

end

/-! ### Runs -/

section
variable {C : NoteCrypto} {h h' : CacheHistory} {s s' : CachedScanState} {w : WalletWrite}
  {c : CacheChange} {entry : SpendJournal.NewSpendEntry}

/-- What is cached can be read, and every entry held so far is of two outputs. -/
structure Readably (h : CacheHistory) : Prop where
  cache : WellFormed h.cache
  held : ∀ e ∈ h.held, TwoOutputs e

theorem SpendIntent.entry_two (intent : SpendIntent) : TwoOutputs intent.entry := ⟨rfl, rfl, rfl⟩

theorem freshAttempt_same {spentSet : List Bytes} {newSpendId createdAtNs : Nat} {requestJson : String}
    {old : SpendJournalEntryState}
    (h : freshAttempt spentSet newSpendId requestJson createdAtNs old = some entry) :
    SameOutputs old entry := by
  obtain ⟨-, h⟩ := Option.ite_none_left_eq_some.1 h
  obtain rfl := Option.some.inj h
  exact ⟨rfl, rfl, rfl⟩

/-- The entry that is added has two outputs, unless it is imported. -/
theorem added_two (hh : Readably h) (hflows : (WalletWrite.change c).Flows h)
    (hfits : (WalletWrite.change c).Fits h) : ∀ e ∈ c.added h.cache, TwoOutputs e := by
  intro e he
  cases c with
  | beginSpend leaf entry =>
    obtain ⟨intent, rfl⟩ := hflows
    exact Option.some.inj he ▸ intent.entry_two
  | recordCollisionRetry spendId entry =>
    obtain ⟨old, hold, -, _, _, _, _, hfresh⟩ := hflows
    exact Option.some.inj he ▸ (hh.held old hold).same (freshAttempt_same hfresh)
  | importRecoveryRequired entry =>
    obtain ⟨hnew, he⟩ := Option.ite_none_left_eq_some.1 he
    obtain rfl := Option.some.inj he
    obtain ⟨pages, record, -, rfl⟩ := hflows
    rcases hfits with ⟨e, he, hid⟩ | hlength
    · exact (hnew (List.any_eq_true.2 ⟨e, he, decide_eq_true hid⟩)).elim
    · exact ⟨hlength, rfl, rfl⟩
  | _ => exact nomatch he

/-- An import that adds an entry the reader refuses leaves a state it refuses. -/
theorem fits_of_wellFormed (hs : WellFormed s')
    (h : SpendJournal.importRecoveryRequired entry s = .ok s') :
    (∃ e ∈ journalEntries s, e.spendId = entry.spendId) ∨ entry.outputLeavesHex.length = 2 := by
  by_cases hknown : ∃ e ∈ journalEntries s, e.spendId = entry.spendId
  · exact .inl hknown
  · have hadded : CacheChange.added s (.importRecoveryRequired entry) = some entry := by
      refine if_neg fun hany => hknown ?_
      obtain ⟨e, he, hid⟩ := List.any_eq_true.1 hany
      exact ⟨e, he, of_decide_eq_true hid⟩
    obtain ⟨e, he, hsame⟩ := (importRecoveryRequired_writes h).adds entry hadded
    exact .inr (hsame.leaves ▸ (hs.entries e he).leaves)

theorem change_readable (hh : Readably h) (hflows : (WalletWrite.change c).Flows h)
    (hwritten : (WalletWrite.change c).apply C h.cache = some s') :
    WellFormed s' ↔ (WalletWrite.change c).Fits h := by
  obtain ⟨hmerge, happly⟩ := change_written hwritten
  constructor
  · intro hs
    cases c with
    | importRecoveryRequired entry => exact fits_of_wellFormed hs happly
    | _ => trivial
  · intro hfits
    by_cases hreset : ∃ key, c.resets key
    · obtain ⟨key, hkey⟩ := hreset
      cases c with
      | resetVerifiedHistory hash epoch =>
        obtain rfl := Except.ok.inj happly
        exact hh.cache.reset hash epoch
      | _ => exact hkey.elim
    · have hno : ∀ key, ¬c.resets key := fun key hkey => hreset ⟨key, hkey⟩
      rcases other_cases hmerge happly with hr | ⟨hash, epoch, rfl, -⟩
      · exact hh.cache.written (change_writes hmerge hno happly) hr (added_two hh hflows hfits)
      · exact (hno ⟨hash, epoch⟩ rfl).elim

theorem verifiedScan_readable {options : VerifiedScanOptions} {binding : DeploymentBinding}
    {replies : VerifiedReplies} {seenAtNs : Nat} {via : Option FirstSeenVia} (hs : WellFormed s)
    (hwritten : (WalletWrite.verifiedScan options binding replies seenAtNs via).apply C s = some s') :
    WellFormed s' ↔ ∀ a ∈ replies.attestation, a.configHash.length = 32 := by
  obtain ⟨outcome, m, hscan, rfl⟩ := verifiedScan_written hwritten
  obtain ⟨⟨attestation, hattestation, hconfig⟩, hroot, hdigest, _, _, _, _, _, _, hof⟩ :=
    scanAndValidateVerified_ok hscan
  rw [hattestation]
  constructor
  · intro hs' a ha
    obtain rfl := Option.mem_some.1 ha
    exact hconfig ▸ (hs'.verifiedScan m rfl).configHash
  · intro hlength
    exact (hs.merge (outcomeOf_fits hof) _ _).advance
      ⟨hconfig ▸ hlength attestation rfl, hroot, hdigest⟩

/-- Of a state that can be read, a write leaves one that can if and only if it fits. -/
theorem write_readable (hh : Readably h) (hflows : w.Flows h) (hwritten : w.apply C h.cache = some s') :
    WellFormed s' ↔ w.Fits h := by
  cases w with
  | scan options replies nowNs via =>
    obtain ⟨outcome, hscan, rfl⟩ := scan_written hwritten
    obtain ⟨_, _, _, _, hof⟩ := scanAttempts_ok hscan
    exact iff_of_true (hh.cache.merge (outcomeOf_fits hof) nowNs via) trivial
  | verifiedScan options binding replies seenAtNs via => exact verifiedScan_readable hh.cache hwritten
  | change c => exact change_readable hh hflows hwritten
  | shield c => exact iff_of_true (hh.cache.shielded (shield_written hwritten)) trivial

theorem run_readable (run : (cacheHistory C).RunIf (fun h w => w.Fits h) h) : Readably h := by
  refine System.RunIf.invariant (I := Readably) ?_ ?_ run
  · rintro h ⟨hbegun, hheld⟩
    exact ⟨hbegun.wellFormed, hheld ▸ hbegun.wellFormed.entries⟩
  · rintro h w h' - hh hfits ⟨hflows, hwritten, hheld⟩
    have hs := (write_readable hh hflows hwritten).2 hfits
    refine ⟨hs, fun e he => ?_⟩
    rcases List.mem_append.1 (hheld ▸ he) with he | he
    · exact hs.entries e he
    · exact hh.held e he

/-- In a run whose writes fit, what is cached is read back as it was written, and one more write
leaves it so if and only if that write fits; and nothing that is verified comes out of schema 2, nor
is anything else lost from it. -/
theorem cache_reads_back (run : (cacheHistory C).RunIf (fun h w => w.Fits h) h) :
    Readable h.cache ∧
    (∀ w h', (cacheHistory C).step h w h' → (Readable h'.cache ↔ w.Fits h)) ∧
    ∀ payload old, deserializeScanStateV2 payload = .ok old →
      (∀ n ∈ old.notes, n.verified = false) ∧ old.verifiedScan = none ∧ old.verifiedFloors = none ∧
        migrateV2StateToV3 old = {old with migratedFromV2 := true} := by
  have hh := run_readable run
  refine ⟨readable_iff_wellFormed.2 hh.cache, ?_, fun payload old => migrate_of_read⟩
  rintro w h' ⟨hflows, hwritten, -⟩
  exact readable_iff_wellFormed.trans (write_readable hh hflows hwritten)

end

/-! ### A listing of one output -/

/-- A spend as the pool lists it, with these outputs. -/
def sampleListed (outputs : List Bytes) : PoolSpendRecord := ⟨1, [sampleNullifier], outputs, 0⟩

def sampleListing (outputs : List Bytes) : List ActiveSpendsPage := [⟨[sampleListed outputs], none⟩]

def sampleImported (outputs : List Bytes) : CacheHistory where
  cache := SpendJournal.withJournal emptyScanState
    ⟨[SpendJournal.entryAt (sampleListed outputs).entry .recoveryRequired]⟩
  held := [SpendJournal.entryAt (sampleListed outputs).entry .recoveryRequired]

theorem sampleImport_step (C : NoteCrypto) (outputs : List Bytes) :
    (cacheHistory C).step ⟨emptyScanState, []⟩
      (.change (.importRecoveryRequired (sampleListed outputs).entry)) (sampleImported outputs) :=
  ⟨⟨sampleListing outputs, sampleListed outputs, List.mem_cons_self, rfl⟩, rfl, rfl⟩

/-- A wallet that opens no payload. -/
def blindCrypto : NoteCrypto where
  tryDecrypt _ := none
  masterNoteSecret := []
  hkdf _ _ _ := []
  poseidon _ := List.replicate 32 0
  poseidon_length _ := List.length_replicate

/-- A spend of two outputs is imported, and the cache is read back. -/
theorem cache_reads_back_import :
    Readable (sampleImported [List.replicate 32 1, List.replicate 32 2]).cache := by
  have run : (cacheHistory blindCrypto).RunIf (fun h w => w.Fits h)
      (sampleImported [List.replicate 32 1, List.replicate 32 2]) := by
    refine .step (.start ⟨.inl rfl, rfl⟩) ?_ (sampleImport_step _ _)
    exact .inr rfl
  exact (cache_reads_back run).1

/-- A spend of one output is imported, and the cache is refused. -/
theorem import_unreadable :
    ¬ ∀ h, (cacheHistory blindCrypto).Reachable h → Readable h.cache := by
  intro h
  have run : (cacheHistory blindCrypto).Reachable (sampleImported [List.replicate 32 1]) :=
    .step (.start ⟨.inl rfl, rfl⟩) trivial (sampleImport_step _ _)
  exact absurd (h _ run) (by decide)

end StshProtocol.Wallet
