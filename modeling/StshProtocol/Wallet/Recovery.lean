import StshProtocol.ShieldedPool.ActiveListing
import StshProtocol.Wallet.Denominations
import StshProtocol.Wallet.Readback

/-! How a device without a journal reads the caller's active operations from the pool.

It walks the two listings and imports what it does not know. Whatever the replies are, the walk over the
spends ends after a hundred calls, and neither walk touches an entry there was or frees a note; the walk
over the deposits has no bound of its own and ends only at a page without a cursor. -/
namespace StshProtocol.Wallet.Recovery
open Foundation Scan

/-! ### The replies as the wallet reads them -/

/-- `toBytes`. -/
def bytesOf (c : ShieldedPool.Bytes32) : Bytes := Foundation.Bytes.toBe 32 c.toNat

inductive PoolDepositStatus where
  | transferPending
  | commitmentPending
  | appendInFlight
  | appendUnknown
  | appended
  | rootAccepted
  deriving DecidableEq

/-- The `kind`. -/
def PoolDepositStatus.kind : PoolDepositStatus → String
  | .transferPending => "transfer-pending"
  | .commitmentPending => "commitment-pending"
  | .appendInFlight => "append-in-flight"
  | .appendUnknown => "append-unknown"
  | .appended => "appended"
  | .rootAccepted => "root-accepted"

structure PoolPendingDeposit where
  noteCommitment : Bytes
  status : PoolDepositStatus
  encryptedPayload : Bytes
  createdAtNs : Nat
  deriving DecidableEq

/-- The cursor is opaque to the wallet: 32 bytes. -/
structure ActiveDepositsPageView where
  deposits : List PoolPendingDeposit
  nextCursor : Option ShieldedPool.Bytes32

def mapDepositStatus : ShieldedPool.DepositStatus → PoolDepositStatus
  | .transferPending => .transferPending
  | .transferConfirmedCommitmentPending | .commitmentPending => .commitmentPending
  | .commitmentAppendInFlight | .commitmentReconcileInFlight => .appendInFlight
  | .commitmentAppendUnknown => .appendUnknown
  | .commitmentAppended _ => .appended
  | .commitmentRootAccepted _ _ => .rootAccepted

def mapPendingDeposit (record : ShieldedPool.PendingDeposit) : PoolPendingDeposit where
  noteCommitment := bytesOf record.noteCommitment
  status := mapDepositStatus record.status
  encryptedPayload := record.encryptedPayload
  createdAtNs := record.createdAtNs

def mapPendingSpend (record : ShieldedPool.PendingSpend) : PoolSpendRecord where
  spendId := record.spendId.toNat
  nullifiers := record.nullifiers.map bytesOf
  outputCommitments := record.outputCommitments.map bytesOf
  createdAtNs := record.createdAtNs

/-- What the calls are answered, by their number, cursor and limit. -/
abbrev SpendListing : Type := Nat → Option Nat → Nat → Except String ActiveSpendsPage

abbrev DepositListing : Type :=
  Nat → Option ShieldedPool.Bytes32 → Nat → Except String ActiveDepositsPageView

/-- The pool's answers, with its books as they are at each call. -/
def spendsOf (pool : Nat → ShieldedPool.ListedPool) (caller : ShieldedPool.Principal) : SpendListing :=
  fun k cursor limit =>
    let page := ShieldedPool.listMyActiveSpends (pool k).spends caller (cursor.map (BitVec.ofNat 64)) limit
    .ok ⟨page.spends.map mapPendingSpend, page.nextCursor.map BitVec.toNat⟩

def depositsOf (pool : Nat → ShieldedPool.ListedPool) (caller : ShieldedPool.Principal) : DepositListing :=
  fun k cursor limit =>
    let page := ShieldedPool.listMyActiveDeposits (pool k).deposits caller cursor limit
    .ok ⟨page.deposits.map mapPendingDeposit, page.nextCursor⟩

/-! ### The walk over the spends -/

inductive RecoveryError where
  | call (why : String)
  | pageTooLong (records : Nat)
  | duplicate (spendId : Nat)
  | notIncreasing (spendId : Nat) (lastId : Option Nat)
  | cursorStuck (cursor : Nat) (lastId prevCursor : Option Nat)
  | tooManyPages
  | journal (e : CacheError)
  deriving DecidableEq

/-- What the walk has at hand; no last id is `-1n`. -/
structure SpendWalk where
  cache : CachedScanState
  imported : Nat
  lastId : Option Nat
  seen : List Nat

def takeSpend (w : SpendWalk) (record : PoolSpendRecord) : SpendWalk × Option RecoveryError :=
  if record.spendId ∈ w.seen then (w, some (.duplicate record.spendId))
  else
    let w := {w with seen := w.seen ++ [record.spendId]}
    if w.lastId.any fun id => record.spendId ≤ id then (w, some (.notIncreasing record.spendId w.lastId))
    else
      let w := {w with lastId := some record.spendId}
      match SpendJournal.findEntry (SpendJournal.journalOf w.cache) record.spendId with
      | some _ => (w, none)
      | none =>
        match SpendJournal.importRecoveryRequired record.entry w.cache with
        | .ok cache => ({w with cache := cache, imported := w.imported + 1}, none)
        | .error e => (w, some (.journal e))

def takeSpends : SpendWalk → List PoolSpendRecord → SpendWalk × Option RecoveryError
  | w, [] => (w, none)
  | w, record :: records =>
    match takeSpend w record with
    | (w, some e) => (w, some e)
    | (w, none) => takeSpends w records

/-- How a walk ends: with the cache there is then, the result, and after so many calls. -/
structure SpendsRecovered where
  cache : CachedScanState
  result : Except RecoveryError Nat
  calls : Nat

/-- The pages from one on, as many as are left to ask for. -/
def spendPages (ask : SpendListing) : Nat → Nat → Option Nat → Option Nat → SpendWalk → SpendsRecovered
  | 0, pageNum, _, _, w => ⟨w.cache, .error .tooManyPages, pageNum⟩
  | left + 1, pageNum, cursor, prevCursor, w =>
    match ask pageNum cursor recoveryPageLimit with
    | .error e => ⟨w.cache, .error (.call e), pageNum + 1⟩
    | .ok page =>
      if recoveryPageLimit < page.spends.length then
        ⟨w.cache, .error (.pageTooLong page.spends.length), pageNum + 1⟩
      else match takeSpends w page.spends with
      | (w, some e) => ⟨w.cache, .error e, pageNum + 1⟩
      | (w, none) =>
        match page.nextCursor with
        | none => ⟨w.cache, .ok w.imported, pageNum + 1⟩
        | some c =>
          if (w.lastId.any fun id => c < id) || prevCursor.any fun prev => c ≤ prev then
            ⟨w.cache, .error (.cursorStuck c w.lastId prevCursor), pageNum + 1⟩
          else spendPages ask left (pageNum + 1) (some c) (some c) w

def recoverSpendsFromPool (ask : SpendListing) (s : CachedScanState) : SpendsRecovered :=
  spendPages ask maxRecoveryPages 0 none none ⟨s, 0, none, []⟩

/-! ### The walk over the deposits -/

/-- The records of all pages that are not known, or the failure of a call; and after so many calls. -/
structure DepositsPaged where
  result : Except String (List PoolPendingDeposit)
  calls : Nat

/-- No result within the fuel if every page so far gave a cursor back. -/
def depositPages (ask : DepositListing) (known : List Bytes) :
    Nat → Nat → Option ShieldedPool.Bytes32 → List PoolPendingDeposit → Option DepositsPaged
  | 0, _, _, _ => none
  | fuel + 1, calls, cursor, unindexed =>
    match ask calls cursor 100 with
    | .error e => some ⟨.error e, calls + 1⟩
    | .ok page =>
      let unindexed := unindexed ++ page.deposits.filter fun r => r.noteCommitment ∉ known
      match page.nextCursor with
      | none => some ⟨.ok unindexed, calls + 1⟩
      | some c => depositPages ask known fuel (calls + 1) (some c) unindexed

def entryStatusForPool : PoolDepositStatus → ShieldEntryStatus
  | .rootAccepted => .accepted
  | .appended => .deposited
  | _ => .unknown

/-- What the reader is told. -/
inductive RecoveryAttention where
  | notPaged (why : String)
  | notDecrypted (commitment : Bytes)
  | legacy (commitment : Bytes)
  | notV2 (commitment : Bytes)
  | notShieldNote (commitment : Bytes)
  | otherCommitment (commitment : Bytes)
  deriving DecidableEq

/-- The commitment of `createShieldNote`. -/
def shieldNoteCommitment (C : NoteCrypto) (value : Nat) (secrets : NoteSecrets) : Bytes :=
  C.poseidon [domainSep C, bigintToFieldLe value, derivePk C secrets.spendKey, secrets.rho, secrets.rseed,
    bigintToFieldLe commitmentDomain]

/-- A record whose payload makes its commitment anew is an entry. -/
def recoverDeposit (C : NoteCrypto) (record : PoolPendingDeposit) :
    Except RecoveryAttention ShieldJournalEntryState :=
  match C.tryDecrypt record.encryptedPayload with
  | none => .error (.notDecrypted record.noteCommitment)
  | some plaintext =>
    match noteFromBytesV2 plaintext with
    | .error .unsupported => .error (.legacy record.noteCommitment)
    | .ok none => .error (.notV2 record.noteCommitment)
    | .ok (some fields) =>
      if fields.value ∉ denominations.map Subtype.val then .error (.notShieldNote record.noteCommitment)
      else if shieldNoteCommitment C fields.value (deriveNoteSecretsV2 C fields.nonce) ≠
          record.noteCommitment then
        .error (.otherCommitment record.noteCommitment)
      else .ok
        { commitmentHex := record.noteCommitment
          denom := fields.value
          nonceHex := fields.nonce
          protoFee := 0
          ledgerFee := 0
          encryptedPayloadHex := record.encryptedPayload
          status := entryStatusForPool record.status
          createdAtNs := record.createdAtNs
          dispatchedAtNs := none
          successObserved := false
          poolStatus := some record.status.kind
          failureReason := none }

/-- What the import has at hand. -/
structure DepositImport where
  cache : CachedScanState
  imported : Nat
  attention : List RecoveryAttention

def importDeposit (C : NoteCrypto) (d : DepositImport) (record : PoolPendingDeposit) :
    Except CacheError DepositImport :=
  match recoverDeposit C record with
  | .error a => .ok {d with attention := d.attention ++ [a]}
  | .ok entry =>
    match ShieldJournal.importEntry entry d.cache with
    | .error e => .error e
    | .ok cache =>
      let known := (ShieldJournal.journalOf d.cache).entries.any fun e => e.commitmentHex = entry.commitmentHex
      .ok {d with cache := cache, imported := if known then d.imported else d.imported + 1}

inductive DepositRecoveryError where
  | key (why : String)
  | journal (e : CacheError)
  deriving DecidableEq

structure DepositsRecovered where
  cache : CachedScanState
  attention : List RecoveryAttention
  result : Except DepositRecoveryError Nat
  calls : Nat

def importDeposits (C : NoteCrypto) (calls : Nat) :
    DepositImport → List PoolPendingDeposit → DepositsRecovered
  | d, [] => ⟨d.cache, d.attention, .ok d.imported, calls⟩
  | d, record :: records =>
    match importDeposit C d record with
    | .error e => ⟨d.cache, d.attention, .error (.journal e), calls⟩
    | .ok d => importDeposits C calls d records

/-- No result within the fuel if the listing is still being paged; the key is asked for only when there
is something to open with it. -/
def importFromRecoveryIndex (ask : DepositListing) (key : Except String NoteCrypto) (fuel : Nat)
    (s : CachedScanState) : Option DepositsRecovered :=
  let known := (ShieldJournal.journalOf s).entries.map fun e => e.commitmentHex
  match depositPages ask known fuel 0 none [] with
  | none => none
  | some ⟨.error e, calls⟩ => some ⟨s, [.notPaged e], .ok 0, calls⟩
  | some ⟨.ok [], calls⟩ => some ⟨s, [], .ok 0, calls⟩
  | some ⟨.ok unindexed, calls⟩ =>
    match key with
    | .error e => some ⟨s, [], .error (.key e), calls⟩
    | .ok C => some (importDeposits C calls ⟨s, 0, []⟩ unindexed)

/-! ### Nothing is lost -/

def spendEntries (s : CachedScanState) : List SpendJournalEntryState := (SpendJournal.journalOf s).entries

def shieldEntries (s : CachedScanState) : List ShieldJournalEntryState := (ShieldJournal.journalOf s).entries

/-- A note stays as it is, or is locked if it could be spent. -/
def Locked (n n' : ScannedNote) : Prop :=
  n' = n ∨ n.state = some .spendable ∧ n' = {n with state := some .pending}

/-- Entries are only added, and no note is freed. -/
structure Keeps (s s' : CachedScanState) : Prop where
  spends : spendEntries s <+: spendEntries s'
  shields : shieldEntries s <+: shieldEntries s'
  notes : List.Forall₂ Locked s.notes s'.notes

section Safe
variable {s s' s'' : CachedScanState} {w w' : SpendWalk}

theorem Keeps.refl (s : CachedScanState) : Keeps s s :=
  ⟨List.prefix_refl _, List.prefix_refl _, List.forall₂_same.2 fun _ _ => .inl rfl⟩

theorem Locked.trans {a b c : ScannedNote} (h : Locked a b) (h' : Locked b c) : Locked a c := by
  rcases h with rfl | ⟨hstate, rfl⟩
  · exact h'
  · rcases h' with rfl | ⟨hno, -⟩
    · exact .inr ⟨hstate, rfl⟩
    · exact absurd hno nofun

theorem Keeps.trans (h : Keeps s s') (h' : Keeps s' s'') : Keeps s s'' where
  spends := h.spends.trans h'.spends
  shields := h.shields.trans h'.shields
  notes := by
    have hnotes := h.notes
    have hnotes' := h'.notes
    generalize s.notes = a at hnotes
    generalize s'.notes = b at hnotes hnotes'
    generalize s''.notes = c at hnotes'
    induction hnotes generalizing c with
    | nil => cases hnotes'; exact .nil
    | cons hab _ ih =>
      cases hnotes' with
      | cons hbc htail => exact .cons (hab.trans hbc) (ih _ htail)

theorem keeps_importRecoveryRequired {entry : SpendJournal.NewSpendEntry}
    (h : SpendJournal.importRecoveryRequired entry s = .ok s') : Keeps s s' := by
  rw [SpendJournal.importRecoveryRequired] at h
  by_cases hknown : (SpendJournal.journalOf s).entries.any fun e => e.spendId = entry.spendId
  · rw [if_pos hknown] at h
    cases h
    exact Keeps.refl s
  · rw [if_neg hknown] at h
    cases h
    refine ⟨List.prefix_append _ _, List.prefix_refl _, ?_⟩
    show List.Forall₂ Locked s.notes (if entry.nullifierHex = [] then s.notes else _)
    by_cases hnullifier : entry.nullifierHex = []
    · rw [if_pos hnullifier]
      exact List.forall₂_same.2 fun _ _ => .inl rfl
    · rw [if_neg hnullifier, List.forall₂_map_right_iff]
      refine List.forall₂_same.2 fun n _ => ?_
      by_cases hlock : n.nullifier = some entry.nullifierHex ∧ n.state = some .spendable
      · rw [if_pos hlock]
        exact .inr ⟨hlock.2, rfl⟩
      · rw [if_neg hlock]
        exact .inl rfl

theorem keeps_importEntry {entry : ShieldJournalEntryState}
    (h : ShieldJournal.importEntry entry s = .ok s') : Keeps s s' := by
  rw [ShieldJournal.importEntry] at h
  by_cases hknown : (ShieldJournal.journalOf s).entries.any fun e => e.commitmentHex = entry.commitmentHex
  · rw [if_pos hknown] at h
    cases h
    exact Keeps.refl s
  · rw [if_neg hknown] at h
    cases h
    exact ⟨List.prefix_refl _, List.prefix_append _ _, List.forall₂_same.2 fun _ _ => .inl rfl⟩

theorem keeps_takeSpend (w : SpendWalk) (record : PoolSpendRecord) :
    Keeps w.cache (takeSpend w record).1.cache := by
  rw [takeSpend]
  by_cases hseen : record.spendId ∈ w.seen
  · rw [if_pos hseen]
    exact Keeps.refl _
  rw [if_neg hseen]
  dsimp only
  split
  · exact Keeps.refl _
  · split
    · exact Keeps.refl _
    · split
      · next hcache => exact keeps_importRecoveryRequired hcache
      · exact Keeps.refl _

theorem keeps_takeSpends (w : SpendWalk) (records : List PoolSpendRecord) :
    Keeps w.cache (takeSpends w records).1.cache := by
  induction records generalizing w with
  | nil => exact Keeps.refl _
  | cons record records ih =>
    have hfirst := keeps_takeSpend w record
    rw [takeSpends]
    split
    · next heq =>
      rw [heq] at hfirst
      exact hfirst
    · next heq =>
      rw [heq] at hfirst
      exact hfirst.trans (ih _)

theorem spendPages_safe (ask : SpendListing) (left pageNum : Nat) (cursor prevCursor : Option Nat)
    (w : SpendWalk) : Keeps w.cache (spendPages ask left pageNum cursor prevCursor w).cache ∧
      (spendPages ask left pageNum cursor prevCursor w).calls ≤ pageNum + left := by
  induction left generalizing pageNum cursor prevCursor w with
  | zero => exact ⟨Keeps.refl _, Nat.le_refl _⟩
  | succ left ih =>
    rw [spendPages]
    cases ask pageNum cursor recoveryPageLimit with
    | error e => exact ⟨Keeps.refl _, by show pageNum + 1 ≤ _; omega⟩
    | ok page =>
      simp only
      by_cases hlong : recoveryPageLimit < page.spends.length
      · rw [if_pos hlong]
        exact ⟨Keeps.refl _, by show pageNum + 1 ≤ _; omega⟩
      rw [if_neg hlong]
      have htake := keeps_takeSpends w page.spends
      generalize takeSpends w page.spends = t at htake
      obtain ⟨w', e⟩ := t
      cases e with
      | some e => exact ⟨htake, by show pageNum + 1 ≤ _; omega⟩
      | none =>
        cases page.nextCursor with
        | none => exact ⟨htake, by show pageNum + 1 ≤ _; omega⟩
        | some c =>
          simp only
          split
          · exact ⟨htake, by show pageNum + 1 ≤ _; omega⟩
          · obtain ⟨hkeeps, hcalls⟩ := ih (pageNum + 1) (some c) (some c) w'
            exact ⟨htake.trans hkeeps, by omega⟩

theorem keeps_importDeposit {C : NoteCrypto} {d d' : DepositImport} {record : PoolPendingDeposit}
    (h : importDeposit C d record = .ok d') : Keeps d.cache d'.cache := by
  rw [importDeposit] at h
  cases hrecover : recoverDeposit C record with
  | error a =>
    rw [hrecover] at h
    cases h
    exact Keeps.refl _
  | ok entry =>
    simp only [hrecover] at h
    cases himport : ShieldJournal.importEntry entry d.cache with
    | error e =>
      simp only [himport] at h
      cases h
    | ok cache =>
      simp only [himport] at h
      cases h
      exact keeps_importEntry himport

theorem keeps_importDeposits (C : NoteCrypto) (calls : Nat) (d : DepositImport)
    (records : List PoolPendingDeposit) : Keeps d.cache (importDeposits C calls d records).cache := by
  induction records generalizing d with
  | nil => exact Keeps.refl _
  | cons record records ih =>
    rw [importDeposits]
    cases hfirst : importDeposit C d record with
    | error e => exact Keeps.refl _
    | ok d' => exact (keeps_importDeposit hfirst).trans (ih d')

theorem keeps_importFromRecoveryIndex {ask : DepositListing} {key : Except String NoteCrypto} {fuel : Nat}
    {r : DepositsRecovered} (h : importFromRecoveryIndex ask key fuel s = some r) : Keeps s r.cache := by
  rw [importFromRecoveryIndex] at h
  split at h
  · cases h
  · cases h
    exact Keeps.refl s
  · cases h
    exact Keeps.refl s
  · split at h
    · cases h
      exact Keeps.refl s
    · cases h
      exact keeps_importDeposits _ _ ⟨s, 0, []⟩ _

end Safe

/-! ### The end of the walk over the deposits -/

/-- The cursor of a call, if the walk makes it. -/
def depositCursor (ask : DepositListing) : Nat → Option (Option ShieldedPool.Bytes32)
  | 0 => some none
  | k + 1 =>
    match depositCursor ask k with
    | none => none
    | some cursor =>
      match ask k cursor 100 with
      | .error _ => none
      | .ok page => page.nextCursor.map some

/-- The call is made, and answered without a cursor or not at all. -/
def LastPage (ask : DepositListing) (k : Nat) : Prop :=
  ∃ cursor, depositCursor ask k = some cursor ∧ ∀ page, ask k cursor 100 = .ok page → page.nextCursor = none

section End
variable {s : CachedScanState} {n : Nat} {cursor : Option ShieldedPool.Bytes32}

theorem depositPages_isSome (ask : DepositListing) (fuel : Nat) (known : List Bytes) (unindexed : List PoolPendingDeposit)
    (hcursor : depositCursor ask n = some cursor) :
    (depositPages ask known fuel n cursor unindexed).isSome ↔ ∃ k < n + fuel, n ≤ k ∧ LastPage ask k := by
  induction fuel generalizing n cursor unindexed with
  | zero =>
    refine ⟨nofun, ?_⟩
    rintro ⟨k, hlt, hle, -⟩
    omega
  | succ fuel ih =>
    rw [depositPages]
    cases hask : ask n cursor 100 with
    | error e =>
      refine ⟨fun _ => ⟨n, by omega, Nat.le_refl n, cursor, hcursor, ?_⟩, fun _ => rfl⟩
      rw [hask]
      nofun
    | ok page =>
      cases hnext : page.nextCursor with
      | none =>
        refine ⟨fun _ => ⟨n, by omega, Nat.le_refl n, cursor, hcursor, ?_⟩, fun _ => by simp only [hnext]; rfl⟩
        rw [hask]
        exact fun p hp => by rwa [← Except.ok.inj hp]
      | some c =>
        have hafter : depositCursor ask (n + 1) = some (some c) := by
          rw [depositCursor, hcursor]
          simp only [hask, hnext, Option.map_some]
        have hnot : ¬LastPage ask n := by
          rintro ⟨cursor', hcursor', hlast⟩
          obtain rfl := Option.some.inj (hcursor.symm.trans hcursor')
          exact absurd (hnext.symm.trans (hlast page hask)) nofun
        simp only [hnext]
        rw [ih _ hafter]
        constructor
        · rintro ⟨k, hlt, hle, hlast⟩
          exact ⟨k, by omega, by omega, hlast⟩
        · rintro ⟨k, hlt, hle, hlast⟩
          have hne : k ≠ n := fun heq => hnot (heq ▸ hlast)
          exact ⟨k, by omega, by omega, hlast⟩

theorem importFromRecoveryIndex_isSome (ask : DepositListing) (fuel : Nat) (key : Except String NoteCrypto) :
    (importFromRecoveryIndex ask key fuel s).isSome ↔ ∃ k < fuel, LastPage ask k := by
  have hpaged := depositPages_isSome (n := 0) ask fuel
    ((shieldEntries s).map fun e => e.commitmentHex) [] rfl
  rw [Nat.zero_add] at hpaged
  rw [show (∃ k < fuel, LastPage ask k) ↔ ∃ k < fuel, 0 ≤ k ∧ LastPage ask k by simp, ← hpaged,
    importFromRecoveryIndex]
  show _ ↔ (depositPages ask ((ShieldJournal.journalOf s).entries.map fun e => e.commitmentHex)
    fuel 0 none []).isSome = true
  split
  · next hnone => rw [hnone]; exact Iff.rfl
  · next hsome => rw [hsome]; exact ⟨fun _ => rfl, fun _ => rfl⟩
  · next hsome => rw [hsome]; exact ⟨fun _ => rfl, fun _ => rfl⟩
  · next hsome =>
    rw [hsome]
    split
    · exact ⟨fun _ => rfl, fun _ => rfl⟩
    · exact ⟨fun _ => rfl, fun _ => rfl⟩

end End

end StshProtocol.Wallet.Recovery
