import StshProtocol.Wallet.Recovery

/-! Against the pool both walks of the recovery end and import exactly what is listed throughout, and
nothing of anyone else, however the records come and go between the pages. -/
namespace StshProtocol.Wallet.Recovery
open Foundation Scan

/-! ### What is owed -/

/-- A record as the journal has it after the import. -/
def importedSpend (record : PoolSpendRecord) : SpendJournalEntryState :=
  SpendJournal.entryAt record.entry .recoveryRequired

/-- A spend that the pool lists of the caller. -/
def ListsSpend (p : ShieldedPool.ListedPool) (caller : ShieldedPool.Principal) (id : ShieldedPool.SpendId)
    (record : PoolSpendRecord) : Prop :=
  id ∈ p.spendKeys caller ∧ (p.spends.pending[id]?).map mapPendingSpend = some record

def ListsDeposit (p : ShieldedPool.ListedPool) (caller : ShieldedPool.Principal) (c : ShieldedPool.Bytes32)
    (record : PoolPendingDeposit) : Prop :=
  c ∈ p.depositKeys caller ∧ (p.deposits.pending[c]?).map mapPendingDeposit = some record

/-- The walk over a caller's spends imports what it owes: the unknown spends that are listed throughout,
each once, and none that was not listed. -/
structure SpendsExact (pool : Nat → ShieldedPool.ListedPool) (caller : ShieldedPool.Principal)
    (s : CachedScanState) (r : SpendsRecovered) (added : List PoolSpendRecord) : Prop where
  result : r.result = .ok added.length
  entries : spendEntries r.cache = spendEntries s ++ added.map importedSpend
  once : (added.map fun a => a.spendId).Nodup
  owned : ∀ a ∈ added, (∀ e ∈ spendEntries s, e.spendId ≠ a.spendId) ∧
    ∃ i < r.calls, ∃ id, ListsSpend (pool i) caller id a
  complete : ∀ id, (∀ i < r.calls, ∃ record, ListsSpend (pool i) caller id record) →
    (∀ e ∈ spendEntries s, e.spendId ≠ id.toNat) → ∃ a ∈ added, a.spendId = id.toNat

/-- The same of the deposits, of which those are owed whose payloads make their commitments. -/
structure DepositsExact (pool : Nat → ShieldedPool.ListedPool) (caller : ShieldedPool.Principal)
    (C : NoteCrypto) (s : CachedScanState) (r : DepositsRecovered)
    (added : List ShieldJournalEntryState) : Prop where
  result : r.result = .ok added.length
  paged : ∀ why, .notPaged why ∉ r.attention
  entries : shieldEntries r.cache = shieldEntries s ++ added
  once : (added.map fun a => a.commitmentHex).Nodup
  owned : ∀ a ∈ added, (∀ e ∈ shieldEntries s, e.commitmentHex ≠ a.commitmentHex) ∧
    ∃ i < r.calls, ∃ c record, ListsDeposit (pool i) caller c record ∧ recoverDeposit C record = .ok a
  complete : ∀ c, (∀ i < r.calls, ∃ record a, ListsDeposit (pool i) caller c record ∧
      recoverDeposit C record = .ok a) →
    (∀ e ∈ shieldEntries s, e.commitmentHex ≠ bytesOf c) → ∃ a ∈ added, a.commitmentHex = bytesOf c

/-! ### Names that run upwards -/

section Rising
open ChangingWalk

theorem lt_of_compare {w : Nat} {j k : BitVec w} (h : compare j k = .lt) : j.toNat < k.toNat := by
  rw [show compare j k = compareOfLessAndEq j k from rfl, compareOfLessAndEq] at h
  by_cases hlt : j < k
  · exact hlt
  · rw [if_neg hlt] at h
    split at h <;> cases h

theorem increasing_of_ascending {w : Nat} {l : List (BitVec w)} (h : Ascending l) :
    (l.map BitVec.toNat).Pairwise (· < ·) := List.pairwise_map.2 (h.imp lt_of_compare)

end Rising

/-! ### The spends of an honest pool -/

def unknownSpend (s : CachedScanState) (record : PoolSpendRecord) : Bool :=
  (spendEntries s).all fun e => e.spendId ≠ record.spendId

/-- The records that the journal does not know. -/
def unknownSpends (s : CachedScanState) (records : List PoolSpendRecord) : List PoolSpendRecord :=
  records.filter (unknownSpend s)

/-- What the walk has at hand after so many records. -/
structure Imported (s : CachedScanState) (records : List PoolSpendRecord) (w : SpendWalk) : Prop where
  entries : spendEntries w.cache = spendEntries s ++ (unknownSpends s records).map importedSpend
  imported : w.imported = (unknownSpends s records).length
  seen : w.seen = records.map fun r => r.spendId
  last : w.lastId = (records.map fun r => r.spendId).getLast?

/-- The ids of the records run upwards. -/
def Rising (records : List PoolSpendRecord) : Prop :=
  (records.map fun r => r.spendId).Pairwise (· < ·)

section Spends
variable {s : CachedScanState} {w : SpendWalk} {records more : List PoolSpendRecord} {record : PoolSpendRecord}

theorem Rising.before (h : Rising (records ++ [record])) : ∀ r ∈ records, r.spendId < record.spendId := by
  intro r hr
  rw [Rising, List.map_append] at h
  exact (List.pairwise_append.1 h).2.2 _ (List.mem_map_of_mem hr) _ (List.mem_singleton.2 rfl)

theorem known_iff (h : Imported s records w) (hrising : Rising (records ++ [record])) :
    ((spendEntries w.cache).any fun e => e.spendId = record.spendId) =
      !unknownSpend s record := by
  have hnew : ((unknownSpends s records).map importedSpend).any
      (fun e => decide (e.spendId = record.spendId)) = false := by
    rw [List.any_map, List.any_eq_false]
    intro r hr hsame
    have hlt := hrising.before r (List.mem_of_mem_filter hr)
    have heq : r.spendId = record.spendId := of_decide_eq_true hsame
    omega
  rw [h.entries, List.any_append, hnew, Bool.or_false, unknownSpend, List.not_all_eq_any_not]
  exact congrArg _ (funext fun e => by simp)

theorem importRecoveryRequired_new
    (h : ((spendEntries s).any fun e => e.spendId = record.spendId) = false) :
    ∃ s', SpendJournal.importRecoveryRequired record.entry s = .ok s' ∧
      spendEntries s' = spendEntries s ++ [importedSpend record] := by
  have hnew : ¬((SpendJournal.journalOf s).entries.any
      fun e => decide (e.spendId = record.entry.spendId)) = true := Bool.eq_false_iff.1 h
  rw [SpendJournal.importRecoveryRequired, if_neg hnew]
  exact ⟨_, rfl, rfl⟩

/-- A record behind all that came is taken, and imported if it is unknown. -/
theorem takeSpend_imported (h : Imported s records w) (hrising : Rising (records ++ [record])) :
    ∃ w', takeSpend w record = (w', none) ∧ Imported s (records ++ [record]) w' := by
  have hbefore := hrising.before
  have hseen : record.spendId ∉ w.seen := by
    rw [h.seen]
    intro hmem
    obtain ⟨r, hr, hsame⟩ := List.mem_map.1 hmem
    exact absurd (hbefore r hr) (by omega)
  have hlast : (w.lastId.any fun id => decide (record.spendId ≤ id)) = false := by
    rw [h.last, Option.any_eq_false]
    intro id hid
    obtain ⟨r, hr, rfl⟩ := List.mem_map.1 (List.mem_of_getLast? hid)
    exact decide_eq_false (Nat.not_le_of_lt (hbefore r hr))
  have hknown := known_iff h hrising
  have hids : (records ++ [record]).map (fun r => r.spendId) =
      (records.map fun r => r.spendId) ++ [record.spendId] := List.map_append
  rw [takeSpend, if_neg hseen, if_neg (by rw [hlast]; exact Bool.false_ne_true)]
  dsimp only
  by_cases hall : unknownSpend s record = true
  · have hunknown : unknownSpends s (records ++ [record]) = unknownSpends s records ++ [record] := by
      rw [unknownSpends, List.filter_append, List.filter_cons_of_pos hall]
      rfl
    rw [hall] at hknown
    have hnone : SpendJournal.findEntry (SpendJournal.journalOf w.cache) record.spendId = none :=
      List.find?_eq_none.2 (List.any_eq_false.1 hknown)
    rw [hnone]
    obtain ⟨cache, himport, hentries⟩ := importRecoveryRequired_new hknown
    rw [himport]
    refine ⟨_, rfl, ?_, ?_, ?_, ?_⟩
    · rw [hentries, h.entries, hunknown, List.map_append, List.append_assoc]
      rfl
    · show w.imported + 1 = _
      rw [h.imported, hunknown, List.length_append]
      rfl
    · rw [hids, ← h.seen]
    · rw [hids, List.getLast?_concat]
  · have hknow : unknownSpends s (records ++ [record]) = unknownSpends s records := by
      rw [unknownSpends, List.filter_append, List.filter_cons_of_neg hall]
      exact List.append_nil _
    rw [Bool.eq_false_iff.2 hall] at hknown
    cases hfound : SpendJournal.findEntry (SpendJournal.journalOf w.cache) record.spendId with
    | none =>
      obtain ⟨e, he, hsame⟩ := List.any_eq_true.1 hknown
      exact absurd hsame (List.find?_eq_none.1 hfound e he)
    | some e =>
      refine ⟨_, rfl, ?_, ?_, ?_, ?_⟩
      · rw [hknow]
        exact h.entries
      · rw [hknow]
        exact h.imported
      · rw [hids, ← h.seen]
      · rw [hids, List.getLast?_concat]

theorem takeSpends_imported (h : Imported s records w) (hrising : Rising (records ++ more)) :
    ∃ w', takeSpends w more = (w', none) ∧ Imported s (records ++ more) w' := by
  induction more generalizing records w with
  | nil => exact ⟨w, rfl, by rwa [List.append_nil]⟩
  | cons record more ih =>
    rw [List.append_cons] at hrising ⊢
    have hfirst : Rising (records ++ [record]) := by
      rw [Rising, List.map_append] at hrising
      exact (List.pairwise_append.1 hrising).1
    obtain ⟨w', htake, hw'⟩ := takeSpend_imported h hfirst
    rw [takeSpends, htake]
    exact ih hw' hrising

end Spends

/-! ### Both walks against an honest pool -/

section Honest
open ChangingWalk
variable {pool : Nat → ShieldedPool.ListedPool} {caller : ShieldedPool.Principal} {s : CachedScanState}

/-- The spend that a key stands for when a page is asked for. -/
def spendAt (pool : Nat → ShieldedPool.ListedPool) (i : Nat) (id : ShieldedPool.SpendId) :
    Option PoolSpendRecord := ((pool i).spends.pending[id]?).map mapPendingSpend

theorem spendAt_name (i : Nat) (id : ShieldedPool.SpendId) (record : PoolSpendRecord)
    (h : spendAt pool i id = some record) : record.spendId = id.toNat := by
  obtain ⟨r, hr, rfl⟩ := Option.map_eq_some_iff.1 h
  exact congrArg BitVec.toNat ((pool i).spendsKeyed id r hr)

theorem map_ofNat_map_toNat (cursor : Option ShieldedPool.SpendId) :
    (cursor.map BitVec.toNat).map (BitVec.ofNat 64) = cursor := by
  cases cursor with
  | none => rfl
  | some c => exact congrArg some ((BitVec.ofNat_toNat 64 c).trans (BitVec.setWidth_eq c))

/-- A reply of the pool: a page of the caller's keys. -/
theorem spendsOf_eq (n : Nat) (cursor : Option ShieldedPool.SpendId) :
    spendsOf pool caller n (cursor.map BitVec.toNat) recoveryPageLimit =
      .ok ⟨(page 100 ((pool n).spendKeys caller) cursor).filterMap (spendAt pool n),
        (next 100 (page 100 ((pool n).spendKeys caller) cursor)).map BitVec.toNat⟩ := by
  rw [spendsOf, map_ofNat_map_toNat]
  rw [show recoveryPageLimit = 100 from rfl, ShieldedPool.listMyActiveSpends_eq, List.map_filterMap]
  rfl

abbrev SpendRows (pool : Nat → ShieldedPool.ListedPool) (caller : ShieldedPool.Principal) :
    Nat → List ShieldedPool.SpendId → List PoolSpendRecord → Prop :=
  Listing (spendAt pool) BitVec.toNat (fun r => r.spendId) fun i => (pool i).spendKeys caller

theorem rising_of_rows {n : Nat} {got : List ShieldedPool.SpendId} {records : List PoolSpendRecord}
    (hrows : SpendRows pool caller n got records) (hgot : Ascending got) : Rising records :=
  (increasing_of_ascending hgot).sublist hrows.names

/-- A cursor of the pool's is not behind what was read, and ahead of the cursor before. -/
theorem cursor_advances {n : Nat} {got : List ShieldedPool.SpendId} {cursor : Option ShieldedPool.SpendId}
    {c : ShieldedPool.SpendId} {records : List PoolSpendRecord} {lastId : Option Nat}
    (hreads : ChangingWalk.Reads 100 (fun i => (pool i).spendKeys caller) n got cursor)
    (hnext : next 100 (page 100 ((pool n).spendKeys caller) cursor) = some c)
    (hrows : SpendRows pool caller (n + 1) (got ++ page 100 ((pool n).spendKeys caller) cursor) records)
    (hlast : lastId = (records.map fun r => r.spendId).getLast?) :
    ((lastId.any fun id => decide (c.toNat < id)) ||
      (cursor.map BitVec.toNat).any fun prev => decide (c.toNat ≤ prev)) = false := by
  have hread := (hreads.more hnext).holds fun _ => ShieldedPool.ascending_spendKeys
  refine Bool.or_eq_false_iff.2 ⟨?_, ?_⟩
  · rw [hlast, Option.any_eq_false]
    intro id hid
    obtain ⟨k, hk, rfl⟩ := List.mem_map.1 (hrows.names.subset (List.mem_of_getLast? hid))
    rcases hread.ascending.eq_or_lt_last hread.last hk with rfl | hlt
    · exact decide_eq_false (Nat.lt_irrefl _)
    · have := lt_of_compare hlt
      exact decide_eq_false (by omega)
  · rw [Option.any_map, Option.any_eq_false]
    intro prev hprev
    have hahead := (mem_of_page (List.mem_of_getLast? (next_eq_some hnext).2)).2 prev hprev
    have := lt_of_compare hahead
    exact decide_eq_false (by show ¬c.toNat ≤ prev.toNat; omega)

/-- After so many full pages that were taken, the rest of the walk ends as it should. -/
theorem spendPages_honest (hfew : Few 10000 fun i => (pool i).spendKeys caller) {left n : Nat}
    {got : List ShieldedPool.SpendId} {cursor : Option ShieldedPool.SpendId}
    {records : List PoolSpendRecord} {w : SpendWalk} (hleft : n + left = 100)
    (hreads : ChangingWalk.Reads 100 (fun i => (pool i).spendKeys caller) n got cursor)
    (hrows : SpendRows pool caller n got records) (himported : Imported s records w) :
    ∃ all calls w', Listed (spendAt pool) (fun r => r.spendId) (fun i => (pool i).spendKeys caller) calls all ∧
      Imported s all w' ∧
      spendPages (spendsOf pool caller) left n (cursor.map BitVec.toNat) (cursor.map BitVec.toNat) w =
        ⟨w'.cache, .ok w'.imported, calls⟩ := by
  have hkeys : ∀ i, Ascending ((pool i).spendKeys caller) := fun _ => ShieldedPool.ascending_spendKeys
  induction left generalizing n got cursor records w with
  | zero =>
    have := hreads.few hkeys hfew
    omega
  | succ left ih =>
    have hmore : SpendRows pool caller (n + 1) (got ++ page 100 ((pool n).spendKeys caller) cursor) _ :=
      hrows.more spendAt_name fun k hk => (mem_of_page hk).1
    have hrising := rising_of_rows hmore (hreads.ascending_page hkeys)
    obtain ⟨w', htake, hw'⟩ := takeSpends_imported himported hrising
    have hshort : ¬recoveryPageLimit <
        ((page 100 ((pool n).spendKeys caller) cursor).filterMap (spendAt pool n)).length := by
      have hfilter := List.length_filterMap_le (spendAt pool n) (page 100 ((pool n).spendKeys caller) cursor)
      have hpage : (page 100 ((pool n).spendKeys caller) cursor).length ≤ 100 := List.length_take_le _ _
      rw [show recoveryPageLimit = 100 from rfl]
      omega
    rw [spendPages, spendsOf_eq]
    simp only [if_neg hshort, htake]
    cases hnext : next 100 (page 100 ((pool n).spendKeys caller) cursor) with
    | none =>
      exact ⟨_, n + 1, w', hmore.listed (fun _ _ => BitVec.eq_of_toNat_eq)
        (hreads.whole (by decide) hkeys hnext), hw', rfl⟩
    | some c =>
      have hadvance := cursor_advances hreads hnext hmore hw'.last
      simp only [Option.map_some, hadvance, Bool.false_eq_true, if_false]
      exact ih (by omega) (hreads.more hnext) hmore hw'

theorem imported_start (s : CachedScanState) : Imported s [] ⟨s, 0, none, []⟩ :=
  ⟨(List.append_nil _).symm, rfl, rfl, rfl⟩

/-- The walk over the spends of a caller of whom there are few is exact. -/
theorem recoverSpendsFromPool_exact (hfew : Few 10000 fun i => (pool i).spendKeys caller) :
    ∃ added, SpendsExact pool caller s (recoverSpendsFromPool (spendsOf pool caller) s) added := by
  obtain ⟨all, calls, w, hlisted, himported, hends⟩ :=
    spendPages_honest hfew (show 0 + maxRecoveryPages = 100 from rfl) .start listing_start (imported_start s)
  have hr : recoverSpendsFromPool (spendsOf pool caller) s = _ := hends
  rw [hr]
  refine ⟨unknownSpends s all, ?_, himported.entries, ?_, ?_, ?_⟩
  · exact congrArg Except.ok himported.imported
  · exact hlisted.once.sublist (List.filter_sublist.map _)
  · intro a ha
    obtain ⟨ha, hunknown⟩ := List.mem_filter.1 ha
    obtain ⟨i, hi, id, hid, hrecord⟩ := hlisted.sound a ha
    exact ⟨fun e he => of_decide_eq_true (List.all_eq_true.1 hunknown e he), i, hi, id, hid, hrecord⟩
  · intro id hid hunknown
    obtain ⟨i, -, a, ha, hrecord⟩ := hlisted.complete id fun i hi => by
      obtain ⟨record, hkey, hrecord⟩ := hid i hi
      exact ⟨hkey, record, hrecord⟩
    have hname : a.spendId = id.toNat := spendAt_name i id a hrecord
    refine ⟨a, List.mem_filter.2 ⟨ha, List.all_eq_true.2 fun e he => decide_eq_true ?_⟩, hname⟩
    rw [hname]
    exact hunknown e he

/-- The deposit that a key stands for when a page is asked for. -/
def depositAt (pool : Nat → ShieldedPool.ListedPool) (i : Nat) (c : ShieldedPool.Bytes32) :
    Option PoolPendingDeposit := ((pool i).deposits.pending[c]?).map mapPendingDeposit

theorem bytesOf_injective : Function.Injective bytesOf := by
  intro a b hsame
  have hvalue := congrArg Foundation.Bytes.ofBe hsame
  rw [bytesOf, bytesOf, Foundation.Bytes.ofBe_toBe (Nat.lt_of_lt_of_eq a.isLt (by decide)),
    Foundation.Bytes.ofBe_toBe (Nat.lt_of_lt_of_eq b.isLt (by decide))] at hvalue
  exact BitVec.eq_of_toNat_eq hvalue

theorem depositAt_name (i : Nat) (c : ShieldedPool.Bytes32) (record : PoolPendingDeposit)
    (h : depositAt pool i c = some record) : record.noteCommitment = bytesOf c := by
  obtain ⟨r, hr, rfl⟩ := Option.map_eq_some_iff.1 h
  exact congrArg bytesOf ((pool i).depositsKeyed c r hr)

theorem depositsOf_eq (n : Nat) (cursor : Option ShieldedPool.Bytes32) :
    depositsOf pool caller n cursor 100 =
      .ok ⟨(page 100 ((pool n).depositKeys caller) cursor).filterMap (depositAt pool n),
        next 100 (page 100 ((pool n).depositKeys caller) cursor)⟩ := by
  rw [depositsOf, ShieldedPool.listMyActiveDeposits_eq, List.map_filterMap]
  rfl

abbrev DepositRows (pool : Nat → ShieldedPool.ListedPool) (caller : ShieldedPool.Principal) :
    Nat → List ShieldedPool.Bytes32 → List PoolPendingDeposit → Prop :=
  Listing (depositAt pool) bytesOf (fun r => r.noteCommitment) fun i => (pool i).depositKeys caller

/-- After so many full pages, the rest of the walk ends with what is listed and not known. -/
theorem depositPages_honest (hfew : Few 10000 fun i => (pool i).depositKeys caller) (known : List Bytes)
    {left n : Nat} {got : List ShieldedPool.Bytes32} {cursor : Option ShieldedPool.Bytes32}
    {records : List PoolPendingDeposit} (hleft : n + left = 100)
    (hreads : ChangingWalk.Reads 100 (fun i => (pool i).depositKeys caller) n got cursor)
    (hrows : DepositRows pool caller n got records) :
    ∃ all calls, Listed (depositAt pool) (fun r => r.noteCommitment) (fun i => (pool i).depositKeys caller)
        calls all ∧
      depositPages (depositsOf pool caller) known left n cursor
          (records.filter fun r => r.noteCommitment ∉ known) =
        some ⟨.ok (all.filter fun r => r.noteCommitment ∉ known), calls⟩ := by
  have hkeys : ∀ i, Ascending ((pool i).depositKeys caller) := fun _ => ShieldedPool.ascending_depositKeys
  induction left generalizing n got cursor records with
  | zero =>
    have := hreads.few hkeys hfew
    omega
  | succ left ih =>
    have hmore : DepositRows pool caller (n + 1) (got ++ page 100 ((pool n).depositKeys caller) cursor) _ :=
      hrows.more depositAt_name fun k hk => (mem_of_page hk).1
    rw [depositPages, depositsOf_eq]
    simp only [← List.filter_append]
    cases hnext : next 100 (page 100 ((pool n).depositKeys caller) cursor) with
    | none => exact ⟨_, n + 1, hmore.listed bytesOf_injective (hreads.whole (by decide) hkeys hnext), rfl⟩
    | some c => exact ih (by omega) (hreads.more hnext) hmore

end Honest

/-! ### The import of the deposits -/

section Deposits
variable {C : NoteCrypto} {s : CachedScanState} {d : DepositImport}
  {record : PoolPendingDeposit} {records more : List PoolPendingDeposit} {entry : ShieldJournalEntryState}

/-- The entries that the payloads of the records make. -/
def recovered (C : NoteCrypto) (records : List PoolPendingDeposit) : List ShieldJournalEntryState :=
  records.filterMap fun record => (recoverDeposit C record).toOption

theorem recoverDeposit_commitment (h : recoverDeposit C record = .ok entry) :
    entry.commitmentHex = record.noteCommitment := by
  rw [recoverDeposit] at h
  split at h
  · cases h
  · split at h
    · cases h
    · cases h
    · split at h
      · cases h
      · split at h
        · cases h
        · cases h
          rfl

theorem recoverDeposit_error {a : RecoveryAttention} (h : recoverDeposit C record = .error a) (why : String) :
    a ≠ .notPaged why := by
  rw [recoverDeposit] at h
  split at h
  · cases h
    nofun
  · split at h
    · cases h
      nofun
    · cases h
      nofun
    · split at h
      · cases h
        nofun
      · split at h
        · cases h
          nofun
        · cases h

theorem mem_recovered {a : ShieldJournalEntryState} :
    a ∈ recovered C records ↔ ∃ record ∈ records, recoverDeposit C record = .ok a := by
  rw [recovered, List.mem_filterMap]
  refine exists_congr fun record => and_congr_right fun _ => ?_
  cases recoverDeposit C record with
  | error e => simp [Except.toOption]
  | ok b => simp [Except.toOption]

theorem recovered_append : recovered C (records ++ more) = recovered C records ++ recovered C more :=
  List.filterMap_append

/-- The entries have the names of their records. -/
theorem recovered_names :
    ((recovered C records).map fun a => a.commitmentHex).Sublist (records.map fun r => r.noteCommitment) := by
  induction records with
  | nil => exact List.Sublist.slnil
  | cons record records ih =>
    cases hrecover : recoverDeposit C record with
    | error e =>
      rw [recovered, List.filterMap_cons_none (by rw [hrecover]; rfl)]
      exact ih.cons _
    | ok a =>
      rw [recovered, List.filterMap_cons_some (b := a) (by rw [hrecover]; rfl), List.map_cons, List.map_cons,
        recoverDeposit_commitment hrecover]
      exact ih.cons_cons _

/-- What the import has at hand after so many records. -/
structure DepositsImported (C : NoteCrypto) (s : CachedScanState) (records : List PoolPendingDeposit)
    (d : DepositImport) : Prop where
  entries : shieldEntries d.cache = shieldEntries s ++ recovered C records
  imported : d.imported = (recovered C records).length
  paged : ∀ why, .notPaged why ∉ d.attention

theorem importEntry_new
    (h : ((shieldEntries s).any fun e => e.commitmentHex = entry.commitmentHex) = false) :
    ∃ s', ShieldJournal.importEntry entry s = .ok s' ∧ shieldEntries s' = shieldEntries s ++ [entry] := by
  have hnew : ¬((ShieldJournal.journalOf s).entries.any
      fun e => decide (e.commitmentHex = entry.commitmentHex)) = true := Bool.eq_false_iff.1 h
  rw [ShieldJournal.importEntry, if_neg hnew]
  exact ⟨_, rfl, rfl⟩

/-- A record whose name is new is imported if its payload makes an entry. -/
theorem importDeposit_imported (h : DepositsImported C s records d)
    (hunknown : ∀ e ∈ shieldEntries s, e.commitmentHex ≠ record.noteCommitment)
    (hnew : ∀ r ∈ records, r.noteCommitment ≠ record.noteCommitment) :
    ∃ d', importDeposit C d record = .ok d' ∧ DepositsImported C s (records ++ [record]) d' := by
  rw [importDeposit]
  cases hrecover : recoverDeposit C record with
  | error a =>
    have hnone : recovered C [record] = [] := by
      rw [recovered, List.filterMap_cons_none (by rw [hrecover]; rfl)]
      rfl
    refine ⟨_, rfl, ?_, ?_, ?_⟩
    · rw [recovered_append, hnone, List.append_nil]
      exact h.entries
    · rw [recovered_append, hnone, List.append_nil]
      exact h.imported
    · intro why hmem
      rcases List.mem_append.1 hmem with hmem | hmem
      · exact h.paged why hmem
      · exact recoverDeposit_error hrecover why (List.mem_singleton.1 hmem).symm
  | ok entry =>
    have hone : recovered C [record] = [entry] := by
      rw [recovered, List.filterMap_cons_some (b := entry) (by rw [hrecover]; rfl)]
      rfl
    have hname := recoverDeposit_commitment hrecover
    have hnot : ((shieldEntries d.cache).any fun e => decide (e.commitmentHex = entry.commitmentHex)) =
        false := by
      rw [h.entries, hname, List.any_eq_false]
      intro e he hsame
      rcases List.mem_append.1 he with he | he
      · exact hunknown e he (of_decide_eq_true hsame)
      · obtain ⟨r, hr, hmade⟩ := mem_recovered.1 he
        exact hnew r hr ((recoverDeposit_commitment hmade).symm.trans (of_decide_eq_true hsame))
    obtain ⟨cache, himport, hentries⟩ := importEntry_new hnot
    have hknown : ¬((ShieldJournal.journalOf d.cache).entries.any
        fun e => decide (e.commitmentHex = entry.commitmentHex)) = true := Bool.eq_false_iff.1 hnot
    simp only [himport, if_neg hknown]
    refine ⟨_, rfl, ?_, ?_, h.paged⟩
    · rw [recovered_append, hone, ← List.append_assoc, ← h.entries]
      exact hentries
    · rw [recovered_append, hone, List.length_append, ← h.imported]
      rfl

theorem importDeposits_imported (calls : Nat) (h : DepositsImported C s records d)
    (hunknown : ∀ r ∈ more, ∀ e ∈ shieldEntries s, e.commitmentHex ≠ r.noteCommitment)
    (hnames : ((records ++ more).map fun r => r.noteCommitment).Nodup) :
    ∃ d', importDeposits C calls d more = ⟨d'.cache, d'.attention, .ok d'.imported, calls⟩ ∧
      DepositsImported C s (records ++ more) d' := by
  induction more generalizing records d with
  | nil => exact ⟨d, rfl, by rwa [List.append_nil]⟩
  | cons record more ih =>
    rw [List.append_cons] at hnames ⊢
    have hnew : ∀ r ∈ records, r.noteCommitment ≠ record.noteCommitment := by
      intro r hr
      rw [List.map_append, List.map_append] at hnames
      have hfront := (List.nodup_append.1 (List.nodup_append.1 hnames).1).2.2
      exact hfront _ (List.mem_map_of_mem hr) _ (List.mem_singleton.2 rfl)
    obtain ⟨d', himport, hd'⟩ := importDeposit_imported h (hunknown record List.mem_cons_self) hnew
    rw [importDeposits, himport]
    exact ih hd' (fun r hr => hunknown r (List.mem_cons_of_mem _ hr)) hnames

end Deposits

/-- The import of the deposits of a caller of whom there are few is exact. -/
theorem importFromRecoveryIndex_exact {pool : Nat → ShieldedPool.ListedPool} {caller : ShieldedPool.Principal}
    (C : NoteCrypto) (s : CachedScanState)
    (hfew : ChangingWalk.Few 10000 fun i => (pool i).depositKeys caller) :
    ∃ r added, importFromRecoveryIndex (depositsOf pool caller) (.ok C) 100 s = some r ∧
      DepositsExact pool caller C s r added := by
  obtain ⟨all, calls, hlisted, hends⟩ := depositPages_honest hfew
    ((ShieldJournal.journalOf s).entries.map fun e => e.commitmentHex) (show 0 + 100 = 100 from rfl)
    .start ChangingWalk.listing_start
  generalize hunindexed : all.filter (fun r => decide (r.noteCommitment ∉
    (ShieldJournal.journalOf s).entries.map fun e => e.commitmentHex)) = unindexed at hends
  have hunknown : ∀ r ∈ unindexed, ∀ e ∈ shieldEntries s, e.commitmentHex ≠ r.noteCommitment := by
    intro r hr e he hsame
    rw [← hunindexed] at hr
    exact of_decide_eq_true (List.mem_filter.1 hr).2 (List.mem_map.2 ⟨e, he, hsame⟩)
  have honce : (unindexed.map fun r => r.noteCommitment).Nodup := by
    rw [← hunindexed]
    exact hlisted.once.sublist (List.filter_sublist.map _)
  have hstart : DepositsImported C s [] ⟨s, 0, []⟩ := ⟨(List.append_nil _).symm, rfl, nofun⟩
  obtain ⟨d, himport, hd⟩ := importDeposits_imported calls hstart hunknown honce
  rw [List.nil_append] at hd
  have hr : importFromRecoveryIndex (depositsOf pool caller) (.ok C) 100 s =
      some ⟨d.cache, d.attention, .ok d.imported, calls⟩ := by
    rw [importFromRecoveryIndex, show depositPages _ _ 100 0 none [] = _ from hends]
    cases unindexed with
    | nil =>
      have hnothing : (⟨s, [], .ok 0, calls⟩ : DepositsRecovered) = _ := himport
      exact congrArg some hnothing
    | cons record more => exact congrArg some himport
  refine ⟨_, recovered C unindexed, hr, congrArg Except.ok hd.imported, hd.paged, hd.entries, ?_, ?_, ?_⟩
  · exact honce.sublist recovered_names
  · intro a ha
    obtain ⟨record, hrecord, hmade⟩ := mem_recovered.1 ha
    refine ⟨fun e he => ?_, ?_⟩
    · rw [recoverDeposit_commitment hmade]
      exact hunknown record hrecord e he
    · rw [← hunindexed] at hrecord
      obtain ⟨i, hi, c, hc, hat⟩ := hlisted.sound record (List.mem_of_mem_filter hrecord)
      exact ⟨i, hi, c, record, ⟨hc, hat⟩, hmade⟩
  · intro c hc hnew
    obtain ⟨i, hi, record, hrecord, hat⟩ := hlisted.complete c fun i hi => by
      obtain ⟨record, a, ⟨hkey, hat⟩, -⟩ := hc i hi
      exact ⟨hkey, record, hat⟩
    have hname : record.noteCommitment = bytesOf c := depositAt_name i c record hat
    obtain ⟨record', a, ⟨-, hat'⟩, hmade⟩ := hc i hi
    obtain rfl := Option.some.inj (hat.symm.trans hat')
    refine ⟨a, mem_recovered.2 ⟨record, ?_, hmade⟩, (recoverDeposit_commitment hmade).trans hname⟩
    rw [← hunindexed]
    refine List.mem_filter.2 ⟨hrecord, decide_eq_true fun hmem => ?_⟩
    obtain ⟨e, he, hsame⟩ := List.mem_map.1 hmem
    exact hnew e he (hsame.trans hname)

/-! ### What is asked of the recovery -/

/-- Against the pool both walks are exact. Against any replies they end, the one over the deposits
within so many calls, and keep what there is. -/
structure RecoverySound (spends : SpendListing) (deposits : DepositListing) (key : Except String NoteCrypto)
    (s : CachedScanState) (bound : Nat) : Prop where
  spendsExact : ∀ pool caller, ChangingWalk.Few 10000 (fun i => (pool i).spendKeys caller) →
    ∃ added, SpendsExact pool caller s (recoverSpendsFromPool (spendsOf pool caller) s) added
  depositsExact : ∀ pool caller C, ChangingWalk.Few 10000 (fun i => (pool i).depositKeys caller) →
    ∃ r added, importFromRecoveryIndex (depositsOf pool caller) (.ok C) 100 s = some r ∧
      DepositsExact pool caller C s r added
  spendsEnd : (recoverSpendsFromPool spends s).calls ≤ maxRecoveryPages
  spendsKept : Keeps s (recoverSpendsFromPool spends s).cache
  depositsEnd : (importFromRecoveryIndex deposits key bound s).isSome
  depositsKept : ∀ fuel r, importFromRecoveryIndex deposits key fuel s = some r → Keeps s r.cache

/-- All of it holds but for the end of the walk over the deposits: that one ends within so many calls
if and only if one of their replies has no cursor. -/
theorem fresh_device_recovery (spends : SpendListing) (deposits : DepositListing)
    (key : Except String NoteCrypto) (s : CachedScanState) (bound : Nat) :
    RecoverySound spends deposits key s bound ↔ ∃ k < bound, LastPage deposits k := by
  refine ⟨fun h => (importFromRecoveryIndex_isSome _ _ key).1 h.depositsEnd, fun h => ?_⟩
  obtain ⟨hkept, hcalls⟩ := spendPages_safe spends maxRecoveryPages 0 none none ⟨s, 0, none, []⟩
  exact
    { spendsExact := fun _ _ hfew => recoverSpendsFromPool_exact hfew
      depositsExact := fun _ _ C hfew => importFromRecoveryIndex_exact C s hfew
      spendsEnd := by rwa [Nat.zero_add] at hcalls
      spendsKept := hkept
      depositsEnd := (importFromRecoveryIndex_isSome _ _ key).2 h
      depositsKept := fun _ _ hr => keeps_importFromRecoveryIndex hr }

/-- Empty pages, each with the same cursor. -/
def endlessPages : DepositListing := fun _ _ _ => .ok ⟨[], some 1⟩

theorem endless_recovery :
    ¬∃ bound, RecoverySound (fun _ _ _ => .ok ⟨[], none⟩) endlessPages (.error "no key") emptyScanState bound := by
  rintro ⟨bound, h⟩
  obtain ⟨k, -, cursor, -, hlast⟩ := (importFromRecoveryIndex_isSome _ _ _).1 h.depositsEnd
  exact absurd (hlast _ rfl) nofun

end StshProtocol.Wallet.Recovery
