import StshProtocol.Foundation.Paging
import StshProtocol.ShieldedPool.PrivateSpend.Commits
import StshProtocol.ShieldedPool.Treasury.Disburse

/-! The controller's paged reads.

The pages over the pending promotions skip the spends that need no action, so their cursor is the
last spend examined; those over the treasury's tombstones skip none. A walk returns every record once,
in key order, whatever the records between them and whatever happens behind its cursor, as long as
each record is small enough encoded. One that is not fails the page that comes to it, and so the
walk: a record is never left out or cut. -/
namespace StshProtocol.ShieldedPool.ControllerReads
open Foundation Foundation.Paging PrivateSpend
open Treasury (ProposalId TreasuryReconciliationTombstone)

def maxReadPageLimit : Nat := 128
def readCursorMaxBytes : Nat := 256
def readItemMaxBytes : Nat := 1024
def maxReadScanPerCall : Nat := 4096

structure ControllerReadPageRequest where
  cursor : Option Bytes
  limit : Nat

structure ControllerReadPage where
  items : List Bytes
  nextCursor : Option Bytes

def validateControllerReadPage (page : ControllerReadPageRequest) (singleton : Bool) :
    Except String Unit :=
  if page.limit = 0 ∨ maxReadPageLimit < page.limit then
    .error s!"read limit {page.limit} out of range 1..={maxReadPageLimit}"
  else
    match page.cursor with
    | some c =>
      if readCursorMaxBytes < c.length then
        .error s!"read cursor {c.length} bytes > {readCursorMaxBytes}"
      else if singleton then
        .error "singleton read-model variant takes no cursor"
      else
        .ok ()
    | none => .ok ()

/-- `candid` is the encoding of an item, or what it fails with. -/
def encodeControllerReadItem {ι : Type} (candid : ι → Except String Bytes) (item : ι) :
    Except String Bytes :=
  match candid item with
  | .error e => .error s!"read item failed to encode: {e}"
  | .ok bytes =>
    if readItemMaxBytes < bytes.length then
      .error (s!"encoded read item {bytes.length} bytes > READ_ITEM_MAX_BYTES " ++
        s!"{readItemMaxBytes}")
    else
      .ok bytes

def u64ReadCursor (key : BitVec 64) : Bytes := Bytes.toLe 8 key.toNat

def decodeU64ReadCursor (cursor : Option Bytes) : Except String (Option (BitVec 64)) :=
  match cursor with
  | none => .ok none
  | some c =>
    if c.length = 8 then .ok (some (BitVec.ofNat 64 (Bytes.ofLe c)))
    else .error s!"malformed u64 read cursor: {c.length} bytes"

/-! ### The two pages -/

inductive RecommendedAction where
  | reconcileNullifierInsert
  | reconcilePendingSpend
  | retryPrivateSpendPayout
  | reconcilePrivateSpendPayout
  deriving DecidableEq, Repr

structure PendingPromotionRecord where
  spendId : SpendId
  status : SpendStatus
  createdAtNs : Nat
  outputCommitmentCount : Nat
  expectedFirstLeafIndex : Option Nat
  resultingRoot : Option Bytes32
  recommendedAction : RecommendedAction
  deriving DecidableEq, Repr

/-- What is to be done about a spend, if it is in a recovery state. -/
def recommendedAction : SpendStatus → Option RecommendedAction
  | .nullifierInsertUnknown _ => some .reconcileNullifierInsert
  | .nullifierFinalizedOutputsPending | .activeAppendInFlight | .activeAppendUnknown _
  | .activeAppendRejected _ | .activeRootPending | .rootAccepted => some .reconcilePendingSpend
  | .payoutPending _ => some .retryPrivateSpendPayout
  | .payoutSubmitting | .payoutUnknown _ => some .reconcilePrivateSpendPayout
  | _ => none

def pendingPromotionRecord (s : SpendBook) (spend : PendingSpend) : Option PendingPromotionRecord :=
  (recommendedAction spend.status).map fun action =>
    let staged := s.outputs[spend.spendId]?
    { spendId := spend.spendId
      status := spend.status
      createdAtNs := spend.createdAtNs
      outputCommitmentCount := spend.outputCommitments.length
      expectedFirstLeafIndex := staged.bind (·.expectedFirstLeafIndex)
      resultingRoot := staged.bind (·.resultingRoot)
      recommendedAction := action }

/-- What a page makes of a spend. -/
def promotionItem (candid : PendingPromotionRecord → Except String Bytes) (s : SpendBook)
    (spend : PendingSpend) : Except String (Option Bytes) :=
  match pendingPromotionRecord s spend with
  | some record => (encodeControllerReadItem candid record).map some
  | none => .ok none

def controllerReadPendingPromotionsPage (candid : PendingPromotionRecord → Except String Bytes)
    (page : ControllerReadPageRequest) (s : SpendBook) : Except String ControllerReadPage := do
  validateControllerReadPage page false
  let after ← decodeU64ReadCursor page.cursor
  let (items, next) ← readPage page.limit (some maxReadScanPerCall) (promotionItem candid s)
    (s.pending.entriesAfter after) [] 0 0
  .ok ⟨items, next.map u64ReadCursor⟩

/-- What a page makes of a tombstone. -/
def tombstoneItem (candid : TreasuryReconciliationTombstone → Except String Bytes)
    (t : TreasuryReconciliationTombstone) : Except String (Option Bytes) :=
  (encodeControllerReadItem candid t).map some

abbrev TombstoneMap : Type := StableMap ProposalId TreasuryReconciliationTombstone

def controllerReadTombstonePage (candid : TreasuryReconciliationTombstone → Except String Bytes)
    (page : ControllerReadPageRequest) (m : TombstoneMap) : Except String ControllerReadPage := do
  validateControllerReadPage page false
  let after ← decodeU64ReadCursor page.cursor
  let (items, next) ← readPage page.limit none (tombstoneItem candid) (m.entriesAfter after) [] 0 0
  .ok ⟨items, next.map u64ReadCursor⟩

/-! ### Cursors -/

theorem decodeU64ReadCursor_map (after : Option (BitVec 64)) :
    decodeU64ReadCursor (after.map u64ReadCursor) = .ok after := by
  cases after with
  | none => rfl
  | some key =>
    have hread : BitVec.ofNat 64 (Bytes.ofLe (u64ReadCursor key)) = key := by
      have hlt : key.toNat < 256 ^ 8 := key.isLt
      rw [u64ReadCursor, Bytes.ofLe_toLe, Nat.mod_eq_of_lt hlt, BitVec.ofNat_toNat,
        BitVec.setWidth_eq]
    have hlen : (u64ReadCursor key).length = 8 := Bytes.length_toLe _ _
    rw [Option.map_some, decodeU64ReadCursor, if_pos hlen, hread]

theorem validateControllerReadPage_map {limit : Nat} (hpos : 1 ≤ limit)
    (hmax : limit ≤ maxReadPageLimit) (after : Option (BitVec 64)) :
    validateControllerReadPage ⟨after.map u64ReadCursor, limit⟩ false = .ok () := by
  unfold validateControllerReadPage
  rw [if_neg (by show ¬(limit = 0 ∨ maxReadPageLimit < limit); omega)]
  cases after with
  | none => rfl
  | some key =>
    have hlen : (u64ReadCursor key).length = 8 := Bytes.length_toLe _ _
    show (if readCursorMaxBytes < (u64ReadCursor key).length then _ else _) = _
    rw [if_neg (by rw [hlen]; decide), if_neg Bool.false_ne_true]

/-! ### Walks -/

/-- The pages of a read, as a walk asks for them. -/
def pages {σ : Type} (read : ControllerReadPageRequest → σ → Except String ControllerReadPage)
    (limit : Nat) (s : σ) (cursor : Option Bytes) : Except String (List Bytes × Option Bytes) :=
  (read ⟨cursor, limit⟩ s).map fun page => (page.items, page.nextCursor)

section
variable {κ ν : Type} [Ord κ] [Std.TransOrd κ] [Std.LawfulEqOrd κ]

theorem map_entriesAfter_split {ρ : Type} {item : ν → ρ} {m : StableMap κ ν} {last : Option κ}
    {front rest : List (κ × ρ)} {k : κ} {r : ρ}
    (h : ((m.entriesAfter last).map fun e => (e.1, item e.2)) = front ++ (k, r) :: rest) :
    ((m.entriesAfter (some k)).map fun e => (e.1, item e.2)) = rest := by
  obtain ⟨front', back, hsplit, -, hback⟩ := List.map_eq_append_iff.1 h
  obtain ⟨⟨k', v⟩, rest', rfl, hrow, hrest⟩ := List.map_eq_cons_iff.1 hback
  obtain ⟨rfl, -⟩ := Prod.mk.inj hrow
  rw [StableMap.entriesAfter_split hsplit, hrest]

end

section
variable {limit : Nat} (hpos : 1 ≤ limit) (hmax : limit ≤ maxReadPageLimit)

/-- The pending promotions, read by pages. -/
def promotionsPaged (candid : PendingPromotionRecord → Except String Bytes) :
    Paged SpendBook SpendId Bytes String Bytes where
  limit := limit
  budget := some maxReadScanPerCall
  start := 0
  cursor := u64ReadCursor
  rows s after := (s.pending.entriesAfter after).map fun e => (e.1, promotionItem candid s e.2)
  page := pages (controllerReadPendingPromotionsPage candid) limit
  reads s after := by
    rw [← readPage_map, pages, controllerReadPendingPromotionsPage,
      validateControllerReadPage_map hpos hmax, decodeU64ReadCursor_map]
    show (Except.map _ (Except.bind (readPage _ _ _ _ _ _ _) _)) = _
    cases readPage limit (some maxReadScanPerCall) (promotionItem candid s)
      (s.pending.entriesAfter after) [] 0 0 <;> rfl
  resume h := map_entriesAfter_split h
  holds := Nat.one_le_iff_ne_zero.1 hpos
  allows := by decide

/-- The tombstones, read by pages. -/
def tombstonesPaged (candid : TreasuryReconciliationTombstone → Except String Bytes) :
    Paged TombstoneMap ProposalId Bytes String Bytes where
  limit := limit
  budget := none
  start := 0
  cursor := u64ReadCursor
  rows m after := (m.entriesAfter after).map fun e => (e.1, tombstoneItem candid e.2)
  page := pages (controllerReadTombstonePage candid) limit
  reads m after := by
    rw [← readPage_map, pages, controllerReadTombstonePage,
      validateControllerReadPage_map hpos hmax, decodeU64ReadCursor_map]
    show (Except.map _ (Except.bind (readPage _ _ _ _ _ _ _) _)) = _
    cases readPage limit none (tombstoneItem candid) (m.entriesAfter after) [] 0 0 <;> rfl
  resume h := map_entriesAfter_split h
  holds := Nat.one_le_iff_ne_zero.1 hpos
  allows := nofun

end

/-- The record is encoded in as many bytes as an item may have. -/
def Fits {ι : Type} (candid : ι → Except String Bytes) (record : ι) : Prop :=
  ∃ bytes, candid record = .ok bytes ∧ bytes.length ≤ readItemMaxBytes

/-- What a walk over some records comes to: their encodings in order if all of them fit, and a failed
page otherwise. -/
def WalkOutcome {ι : Type} (candid : ι → Except String Bytes) (records : List ι)
    (outcome : Except String (Option (List Bytes))) : Prop :=
  ((∀ record ∈ records, Fits candid record) →
      ∃ items, outcome = .ok (some items) ∧ records.map candid = items.map .ok) ∧
    ((∃ record ∈ records, ¬Fits candid record) → ∃ e, outcome = .error e)

section
variable {ι : Type} {candid : ι → Except String Bytes} {record : ι}

theorem encodeControllerReadItem_ok_iff {bytes : Bytes} :
    encodeControllerReadItem candid record = .ok bytes ↔
      candid record = .ok bytes ∧ bytes.length ≤ readItemMaxBytes := by
  unfold encodeControllerReadItem
  cases candid record with
  | error e => simp
  | ok b =>
    by_cases h : readItemMaxBytes < b.length
    · simp only [if_pos h, reduceCtorEq, Except.ok.injEq, false_iff, not_and]
      rintro rfl
      omega
    · simp only [if_neg h, Except.ok.injEq]
      constructor
      · rintro rfl
        exact ⟨rfl, Nat.le_of_not_lt h⟩
      · exact And.left

/-- The rows of some records: what each reads as is its item, if it has one. -/
structure RowsOf {κ : Type} (candid : ι → Except String Bytes) (records : List ι)
    (rows : List (κ × Except String (Option Bytes))) : Prop where
  fits : (∀ record ∈ records, Fits candid record) ↔ ∀ row ∈ rows, Reads id row
  items : (∀ record ∈ records, Fits candid record) →
    records.map candid = (rows.filterMap (got id)).map .ok

/-- The rows of a map whose values make a record or none. -/
theorem rowsOf {κ ν : Type} {make : ν → Option ι} {item : ν → Except String (Option Bytes)}
    (hsome : ∀ v record, make v = some record →
      item v = (encodeControllerReadItem candid record).map some)
    (hnone : ∀ v, make v = none → item v = .ok none) (entries : List (κ × ν)) :
    RowsOf candid (entries.filterMap fun e => make e.2) (entries.map fun e => (e.1, item e.2)) := by
  induction entries with
  | nil => exact ⟨by simp, fun _ => rfl⟩
  | cons e entries ih =>
    cases hmake : make e.2 with
    | none =>
      rw [List.filterMap_cons_none (f := fun e : κ × ν => make e.2) hmake, List.map_cons]
      have hrow : Reads id (e.1, item e.2) := ⟨none, hnone _ hmake⟩
      refine ⟨?_, fun h => ?_⟩
      · rw [List.forall_mem_cons, ih.fits]
        exact ⟨fun h => ⟨hrow, h⟩, And.right⟩
      · have hgot : got id (e.1, item e.2) = none := got_of_ok (hnone _ hmake)
        rw [List.filterMap_cons_none hgot, ih.items h]
    | some record =>
      rw [List.filterMap_cons_some (f := fun e : κ × ν => make e.2) hmake, List.map_cons]
      have hrow : Reads id (e.1, item e.2) ↔ Fits candid record := by
        unfold Reads Fits
        simp only [id_eq, hsome _ _ hmake, ← encodeControllerReadItem_ok_iff]
        cases encodeControllerReadItem candid record with
        | error _ => simp [Except.map]
        | ok b => simp [Except.map]
      refine ⟨?_, fun h => ?_⟩
      · rw [List.forall_mem_cons, List.forall_mem_cons, ih.fits, hrow]
      · rw [List.forall_mem_cons] at h
        obtain ⟨bytes, hbytes⟩ := h.1
        have hitem : item e.2 = .ok (some bytes) := by
          rw [hsome _ _ hmake, encodeControllerReadItem_ok_iff.2 hbytes]
          rfl
        have hgot : got id (e.1, item e.2) = some bytes := got_of_ok hitem
        rw [List.filterMap_cons_some hgot, List.map_cons, List.map_cons, hbytes.1, ih.items h.2]

/-- A walk over the rows of some records comes to what it should. -/
theorem walkOutcome {σ κ : Type} (P : Paged σ κ Bytes String Bytes) {meanwhile : Nat → σ → Bytes → σ}
    {s : σ} {fuel : Nat} {records : List ι} (hkeep : P.Behind meanwhile)
    (hrows : RowsOf candid records (P.rows s none)) (hfuel : (P.rows s none).length < fuel) :
    WalkOutcome candid records (walk P.page meanwhile fuel 0 s none) := by
  refine ⟨fun hfits => ⟨_, ?_, hrows.items hfits⟩, fun hbad => ?_⟩
  · have hend : walk P.page meanwhile fuel 0 s (none.map P.cursor) = _ :=
      P.walk_ends hkeep (hrows.fits.1 hfits) hfuel
    exact hend
  · have hrow : ∃ row ∈ P.rows s none, ¬Reads id row := by
      by_contra hall
      obtain ⟨record, hmem, hnot⟩ := hbad
      refine hnot (hrows.fits.2 (fun row hrow => ?_) record hmem)
      by_contra hr
      exact hall ⟨row, hrow, hr⟩
    obtain ⟨e, hwalk, -⟩ : ∃ e, walk P.page meanwhile fuel 0 s (none.map P.cursor) = .error e ∧ _ :=
      P.walk_fails hkeep hrow hfuel
    exact ⟨e, hwalk⟩

end

/-! ### Changes behind the cursor -/

/-- Ahead of a spend nothing changes, nor in the staged outputs of the spends there. -/
structure AheadKept (key : SpendId) (s s' : SpendBook) : Prop where
  pending : ∀ id, compare key id = .lt → s'.pending[id]? = s.pending[id]?
  outputs : ∀ id spend, compare key id = .lt → s.pending[id]? = some spend →
    s'.outputs[spend.spendId]? = s.outputs[spend.spendId]?

theorem AheadKept.rows {key : SpendId} {s s' : SpendBook} (h : AheadKept key s s')
    (candid : PendingPromotionRecord → Except String Bytes) :
    ((s'.pending.entriesAfter (some key)).map fun e => (e.1, promotionItem candid s' e.2)) =
      (s.pending.entriesAfter (some key)).map fun e => (e.1, promotionItem candid s e.2) := by
  have hsame : s'.pending.entriesAfter (some key) = s.pending.entriesAfter (some key) :=
    StableMap.entriesAfter_congr fun id hid => h.pending id (hid key rfl)
  rw [hsame]
  refine List.map_congr_left fun e he => ?_
  obtain ⟨hget, hlt⟩ := StableMap.mem_entriesAfter.1 (show (e.1, e.2) ∈ _ from he)
  have houtputs := h.outputs e.1 e.2 (hlt key rfl) hget
  rw [promotionItem, promotionItem, pendingPromotionRecord, pendingPromotionRecord, houtputs]

/-- Ahead of a tombstone nothing changes. -/
def TombstonesAheadKept (key : ProposalId) (m m' : TombstoneMap) : Prop :=
  ∀ id, compare key id = .lt → m'[id]? = m[id]?

theorem TombstonesAheadKept.rows {key : ProposalId} {m m' : TombstoneMap}
    (h : TombstonesAheadKept key m m')
    (candid : TreasuryReconciliationTombstone → Except String Bytes) :
    ((m'.entriesAfter (some key)).map fun e => (e.1, tombstoneItem candid e.2)) =
      (m.entriesAfter (some key)).map fun e => (e.1, tombstoneItem candid e.2) := by
  have hsame : m'.entriesAfter (some key) = m.entriesAfter (some key) :=
    StableMap.entriesAfter_congr fun id hid => h id (hid key rfl)
  rw [hsame]

theorem promotionRows (candid : PendingPromotionRecord → Except String Bytes) (s : SpendBook) :
    RowsOf candid (s.pending.toList.filterMap fun e => pendingPromotionRecord s e.2)
      (s.pending.toList.map fun e => (e.1, promotionItem candid s e.2)) := by
  refine rowsOf (fun v record h => ?_) (fun v h => ?_) _
  · rw [promotionItem, h]
  · rw [promotionItem, h]

theorem tombstoneRows (candid : TreasuryReconciliationTombstone → Except String Bytes)
    (m : TombstoneMap) :
    RowsOf candid (m.toList.filterMap fun e => some e.2)
      (m.toList.map fun e => (e.1, tombstoneItem candid e.2)) := by
  refine rowsOf (fun v record h => ?_) (fun v h => ?_) _
  · cases h
    rfl
  · exact nomatch h

/-- The walks over the pending promotions and over the tombstones, whatever changes behind their
cursors. -/
structure ReadsWhole (limit : Nat) (encodePromotion : PendingPromotionRecord → Except String Bytes)
    (encodeTombstone : TreasuryReconciliationTombstone → Except String Bytes) : Prop where
  promotions : ∀ (meanwhile : Nat → SpendBook → Bytes → SpendBook) (s : SpendBook) (fuel : Nat),
    (∀ i s key, AheadKept key s (meanwhile i s (u64ReadCursor key))) → s.pending.size < fuel →
    WalkOutcome encodePromotion
      (s.pending.toList.filterMap fun e => pendingPromotionRecord s e.2)
      (walk (pages (controllerReadPendingPromotionsPage encodePromotion) limit) meanwhile fuel 0 s
        none)
  tombstones : ∀ (meanwhile : Nat → TombstoneMap → Bytes → TombstoneMap) (m : TombstoneMap)
    (fuel : Nat), (∀ i m key, TombstonesAheadKept key m (meanwhile i m (u64ReadCursor key))) →
    m.size < fuel →
    WalkOutcome encodeTombstone (m.toList.map Prod.snd)
      (walk (pages (controllerReadTombstonePage encodeTombstone) limit) meanwhile fuel 0 m none)

/-- A walk over a read returns all there is to read, or fails at a record that is too long. -/
theorem controller_reads_whole {limit : Nat} (hpos : 1 ≤ limit) (hmax : limit ≤ maxReadPageLimit)
    (encodePromotion : PendingPromotionRecord → Except String Bytes)
    (encodeTombstone : TreasuryReconciliationTombstone → Except String Bytes) :
    ReadsWhole limit encodePromotion encodeTombstone where
  promotions meanwhile s fuel hkeep hfuel := by
    let P := promotionsPaged hpos hmax encodePromotion
    have hbehind : P.Behind meanwhile := fun i s key => (hkeep i s key).rows encodePromotion
    have hlen : (P.rows s none).length < fuel := by
      show (s.pending.toList.map _).length < fuel
      rw [List.length_map, Std.ExtTreeMap.length_toList]
      exact hfuel
    exact walkOutcome P hbehind (promotionRows encodePromotion s) hlen
  tombstones meanwhile m fuel hkeep hfuel := by
    let P := tombstonesPaged hpos hmax encodeTombstone
    have hbehind : P.Behind meanwhile := fun i m key => (hkeep i m key).rows encodeTombstone
    have hlen : (P.rows m none).length < fuel := by
      show (m.toList.map _).length < fuel
      rw [List.length_map, Std.ExtTreeMap.length_toList]
      exact hfuel
    have hrecords : m.toList.filterMap (fun e => some e.2) = m.toList.map Prod.snd :=
      congrFun List.filterMap_eq_map' _
    rw [← hrecords]
    exact walkOutcome P hbehind (tombstoneRows encodeTombstone m) hlen

section Sample

/-- As many bytes as the texts and numbers of a record take at the least. -/
def sampleEncoding (record : PendingPromotionRecord) : Except String Bytes :=
  let reason : Bytes :=
    match record.status with
    | .nullifierInsertUnknown reason => reason.toUTF8.data.toList
    | _ => []
  .ok (Bytes.toLe 8 record.spendId.toNat ++ reason ++ Bytes.toLe 8 record.createdAtNs)

theorem controller_reads_whole_one :
    ReadsWhole 1 sampleEncoding fun t => .ok (Bytes.toLe 8 t.proposalId.toNat) :=
  controller_reads_whole (by decide) (by decide) _ _

/-- What a registry may reject a batch with. -/
def longRejection : Rejection := ⟨.canisterReject, String.ofList (List.replicate 1024 'x')⟩

def longMoves : List (Move Input Reply Empty) :=
  .call (.privateSpend 31 sampleArgs) :: sampleMoves [] ++
    [.reply 2 (.flag false), .reply 3 (.rejected longRejection)]

/-- After a rejection with a long message no page of the promotions is given. -/
theorem long_reason_blocks : ∃ (w : SpendWorld (List (Nat × Request))) (record : _) (e : String),
    ((canister sampleDeployment).system sampleService (· = sampleWorld)).RunIf (fun _ _ => True) w ∧
    (w.state.spends.pending.toList.filterMap fun e => pendingPromotionRecord w.state.spends e.2) =
      [record] ∧
    controllerReadPendingPromotionsPage sampleEncoding ⟨none, 1⟩ w.state.spends = .error e := by
  have hrun : ((samplePlayer.run (canister sampleDeployment) (fun _ _ => true) sampleWorld
      longMoves).map fun w =>
        ((w.state.spends.pending.toList.filterMap fun e =>
            pendingPromotionRecord w.state.spends e.2).length,
          (controllerReadPendingPromotionsPage sampleEncoding ⟨none, 1⟩ w.state.spends).toBool)) =
      some (1, false) := by
    decide +kernel
  obtain ⟨w, hw, hpage⟩ := Option.map_eq_some_iff.1 hrun
  obtain ⟨hone, hfails⟩ := Prod.mk.inj hpage
  obtain ⟨record, hrecord⟩ := List.length_eq_one_iff.1 hone
  cases hread : controllerReadPendingPromotionsPage sampleEncoding ⟨none, 1⟩ w.state.spends with
  | ok page =>
    rw [hread] at hfails
    exact nomatch hfails
  | error e =>
    exact ⟨w, record, e, Player.run_runIf (fun _ _ _ => trivial) (.start rfl) hw, hrecord, hread⟩

end Sample

end StshProtocol.ShieldedPool.ControllerReads
