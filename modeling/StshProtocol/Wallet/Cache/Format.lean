import StshProtocol.Foundation.Except
import StshProtocol.Wallet.Cache.State

/-! The cache record at rest: the state as it is written and read back, and the sealed record.

The cipher is an ideal one: a ciphertext opens under the key, the nonce and the associated data it
was sealed with and under no other (`decrypt`). The associated data spells the version of the key,
the version of the schema and the owner (`cacheAad_inj`), so a record opens under those it was
sealed for (`openRecord_only`). -/
namespace StshProtocol.Wallet
open Foundation

def kdfVersionArgon2id : Nat := 2

def kdfVersionVetkeyUnlock : Nat := 3

def kdfVersionWalletPasscode : Nat := 4

def knownKdfVersions : List Nat :=
  [kdfVersionArgon2id, kdfVersionVetkeyUnlock, kdfVersionWalletPasscode]

def cacheFormatVersion : Nat := 1

def cacheSchemaV2 : Nat := 2

def cacheSchemaV3 : Nat := 3

def readableCacheSchemas : List Nat := [cacheSchemaV2, cacheSchemaV3]

def writeCacheSchema : Nat := cacheSchemaV3

def argon2idSaltBytes : Nat := 16

/-- What the operations of the cache throw. -/
inductive CacheError where
  | legacyNoteFormatUnsupported
  | format (message : String)
  | verifiedScanFormat (message : String)
  | unsupportedLegacyFormat (v : Nat)
  | authentication
  | legacyDecryption
  | kdfUnavailable
  | sessionStale
  | writeConflict
  | integrity (message : String)
  | schemaDowngrade (schemaVersion : Nat)
  | storeRejected
  | updateRejected (reason : String)
  deriving DecidableEq, Repr

/-! ### The state at rest -/

/-- The written state, and the version it is written at. -/
structure SerializedState where
  v : Nat
  state : CachedScanState
  deriving DecidableEq, Repr

def ScannedNote.unverified (n : ScannedNote) : ScannedNote := {n with verified := false}

/-- `serializePayload`: the fields of a verified scan are written from schema 3 on. -/
def serializePayload (state : CachedScanState) (schemaVersion : Nat) : SerializedState where
  v := schemaVersion
  state :=
    if cacheSchemaV3 ≤ schemaVersion then state
    else {state with
      notes := state.notes.map .unverified
      verifiedScan := none
      verifiedFloors := none
      migratedFromV2 := false}

def serializeScanStateV3 (state : CachedScanState) : SerializedState :=
  serializePayload state cacheSchemaV3

def notesFromPayload (payload : SerializedState) (allowVerified : Bool) : CachedScanState where
  notes :=
    if allowVerified then payload.state.notes else payload.state.notes.map .unverified
  lastScannedIndex := payload.state.lastScannedIndex
  shieldJournal := none
  mirrorHead := none
  quarantine := none
  spendJournal := none
  verifiedScan := none
  verifiedFloors := none
  migratedFromV2 := false

def validateSpendJournal (journal : SpendJournalState) : Except CacheError Unit :=
  if journal.entries.any fun entry => entry.outputLeavesHex.length != 2 ||
      entry.outNoncesHex.length != 2 || entry.encryptedOutputsHex.length != 2 then
    .error (.format "stored spend-journal entry is malformed")
  else .ok ()

def validateScanAdditions (state : CachedScanState) : Except CacheError Unit :=
  if state.notes.any fun n => n.nonce.any fun nonce => nonce.length != 16 then
    .error (.format "stored note nonce is not 16 bytes")
  else if state.mirrorHead.any fun head => head.root.length != 32 then
    .error (.format "stored mirror head root is not 32 bytes")
  else if state.quarantine.any fun q => quarantineRingCap < q.ring.length then
    .error (.format "stored quarantine ring exceeds its bound")
  else .ok ()

def validateVerifiedScanAdditions (state : CachedScanState) : Except CacheError Unit :=
  if state.verifiedScan.any fun m => m.configHash.length != 32 then
    .error (.verifiedScanFormat "stored verifiedScan.config_hash is not 32 hex bytes")
  else if state.verifiedScan.any fun m => m.acceptedRoot.length != 32 then
    .error (.verifiedScanFormat "stored verifiedScan.accepted_root is not 32 hex bytes")
  else if state.verifiedScan.any fun m => m.spentSetDigest.length != 32 then
    .error (.verifiedScanFormat "stored verifiedScan.spent_set_digest is not 32 hex bytes")
  else if state.verifiedFloors.any fun floors => floors.any fun e => e.2.rootAtCount.length != 32 then
    .error (.verifiedScanFormat "stored floor root is not 32 hex bytes")
  else .ok ()

/-- The journal of a record, once it has been looked at. -/
def readSpendJournal (payload : SerializedState) : Except CacheError Unit :=
  match payload.state.spendJournal with
  | none => .ok ()
  | some journal => validateSpendJournal journal

/-- `deserializeScanState`. -/
def deserializeScanState (payload : SerializedState) : Except CacheError CachedScanState :=
  if payload.v ≠ cacheFormatVersion then .error (.unsupportedLegacyFormat payload.v)
  else .ok (notesFromPayload payload false)

def deserializeScanStateV2 (payload : SerializedState) : Except CacheError CachedScanState := do
  if payload.v ≠ cacheSchemaV2 then
    throw (.format ("unsupported v2 note-cache schema version " ++ toString payload.v))
  readSpendJournal payload
  let state := {notesFromPayload payload false with
    shieldJournal := payload.state.shieldJournal
    spendJournal := payload.state.spendJournal
    mirrorHead := payload.state.mirrorHead
    quarantine := payload.state.quarantine}
  validateScanAdditions state
  return state

def deserializeScanStateV3 (payload : SerializedState) : Except CacheError CachedScanState := do
  if payload.v ≠ cacheSchemaV3 then
    throw (.format ("unsupported v3 note-cache schema version " ++ toString payload.v))
  readSpendJournal payload
  let state := {notesFromPayload payload true with
    shieldJournal := payload.state.shieldJournal
    spendJournal := payload.state.spendJournal
    mirrorHead := payload.state.mirrorHead
    quarantine := payload.state.quarantine
    verifiedScan := payload.state.verifiedScan
    verifiedFloors := payload.state.verifiedFloors
    migratedFromV2 := payload.state.migratedFromV2}
  validateScanAdditions state
  validateVerifiedScanAdditions state
  return state

/-- Everything but what was never verified is carried across. -/
def migrateV2StateToV3 (state : CachedScanState) : CachedScanState :=
  {state with
    notes := state.notes.map .unverified
    verifiedScan := none
    verifiedFloors := none
    migratedFromV2 := true}

/-- A state that is read back as it was written. -/
def Readable (state : CachedScanState) : Prop :=
  deserializeScanStateV3 (serializeScanStateV3 state) = .ok state

instance (state : CachedScanState) : Decidable (Readable state) :=
  inferInstanceAs (Decidable (_ = _))

/-! ### Sealed records -/

/-- What the wallet is given: the two key derivations, and how a principal's text is read, with its
canonical text and whether it is the anonymous one. -/
structure Platform (K : Type) where
  argon2id : String → Bytes → K
  pbkdf2 : String → Bytes → K
  principalFromText : String → Option (String × Bool)

/-- What AES-GCM makes of a plaintext. -/
structure Ciphertext (K : Type) where
  key : K
  iv : Bytes
  additionalData : Bytes
  plaintext : SerializedState
  deriving DecidableEq

def decrypt {K : Type} [DecidableEq K] (key : K) (iv additionalData : Bytes) (c : Ciphertext K) :
    Option SerializedState :=
  if c.key = key ∧ c.iv = iv ∧ c.additionalData = additionalData then some c.plaintext else none

/-- The unscoped record of the wallets before. -/
structure StoredRecord (K : Type) where
  salt : Bytes
  iv : Bytes
  ciphertext : Ciphertext K
  deriving DecidableEq

structure StoredCacheRecordV2 (K : Type) where
  kdfVersion : Nat
  schemaVersion : Nat
  salt : Bytes
  iv : Bytes
  ciphertext : Ciphertext K
  deriving DecidableEq

structure CacheSlot (K : Type) where
  revision : Nat
  record : StoredCacheRecordV2 K
  deriving DecidableEq

def utf8 (s : String) : Bytes := s.toUTF8.data.toList

def aadDomain : String := "stsh.note-cache.aad.v1"

section
variable {K : Type} [DecidableEq K] (M : Platform K)

def validateCachePrincipal (principalText : String) : Except CacheError Unit :=
  match M.principalFromText principalText with
  | none => .error (.format ("invalid cache principal: " ++ principalText))
  | some (text, anonymous) =>
    if text ≠ principalText then
      .error (.format ("non-canonical cache principal: " ++ principalText))
    else if anonymous then .error (.format "the anonymous principal cannot own a note cache")
    else .ok ()

def cacheAad (kdfVersion schemaVersion : Nat) (principalText : String) : Except CacheError Bytes := do
  if kdfVersion ∉ knownKdfVersions then
    throw (.format ("unknown kdfVersion " ++ toString kdfVersion ++ " — refusing to bind AAD"))
  if schemaVersion ∉ readableCacheSchemas then
    throw (.format
      ("unknown cache schema version " ++ toString schemaVersion ++ " — refusing to bind AAD"))
  validateCachePrincipal M principalText
  if 0xff < (utf8 principalText).length then
    throw (.format "cache principal text exceeds the length-prefix bound")
  return utf8 aadDomain ++ UInt8.ofNat kdfVersion :: UInt8.ofNat schemaVersion ::
    UInt8.ofNat (utf8 principalText).length :: utf8 principalText

/-- `sealRecord`, with the nonce it draws. -/
def sealRecord (key : K) (salt iv : Bytes) (state : CachedScanState) (principalText : String)
    (kdfVersion : Nat) : Except CacheError (StoredCacheRecordV2 K) := do
  let aad ← cacheAad M kdfVersion writeCacheSchema principalText
  return ⟨kdfVersion, writeCacheSchema, salt, iv, ⟨key, iv, aad, serializeScanStateV3 state⟩⟩

/-- `openRecord`: the state of a record, at either schema. -/
def openRecord (key : K) (record : StoredCacheRecordV2 K) (principalText : String) :
    Except CacheError CachedScanState := do
  let aad ← cacheAad M record.kdfVersion record.schemaVersion principalText
  match decrypt key record.iv aad record.ciphertext with
  | none => throw .authentication
  | some payload =>
    if record.schemaVersion = cacheSchemaV3 then deserializeScanStateV3 payload
    else return migrateV2StateToV3 (← deserializeScanStateV2 payload)

end

/-! ### What a record opens under -/

section
variable {K : Type} {M : Platform K} {key key' : K} {salt iv : Bytes} {state state' : CachedScanState}
  {p p' : String} {v v' s s' : Nat} {record : StoredCacheRecordV2 K} {aad : Bytes}
  {payload : SerializedState}

theorem utf8_inj {a b : String} (h : utf8 a = utf8 b) : a = b := by
  unfold utf8 at h
  have hdata : a.toUTF8.data = b.toUTF8.data := Array.toList_inj.1 h
  exact String.toByteArray_inj.1 (ByteArray.ext hdata)

theorem cacheAad_ok (h : cacheAad M v s p = .ok aad) :
    v ∈ knownKdfVersions ∧ s ∈ readableCacheSchemas ∧
      aad = utf8 aadDomain ++ UInt8.ofNat v :: UInt8.ofNat s ::
        UInt8.ofNat (utf8 p).length :: utf8 p := by
  unfold cacheAad at h
  by_cases hv : v ∈ knownKdfVersions
  · rw [if_neg (not_not.2 hv)] at h
    by_cases hs : s ∈ readableCacheSchemas
    · rw [if_neg (not_not.2 hs)] at h
      obtain ⟨_, -, h⟩ := bind_ok h
      by_cases hlen : 0xff < (utf8 p).length
      · rw [if_pos hlen] at h
        cases h
      · rw [if_neg hlen] at h
        cases h
        exact ⟨hv, hs, rfl⟩
    · rw [if_pos hs] at h
      cases h
  · rw [if_pos hv] at h
    cases h

/-- The associated data spells the versions and the owner. -/
theorem cacheAad_inj (h : cacheAad M v s p = .ok aad) (h' : cacheAad M v' s' p' = .ok aad) :
    v = v' ∧ s = s' ∧ p = p' := by
  obtain ⟨hv, hs, haad⟩ := cacheAad_ok h
  obtain ⟨hv', hs', haad'⟩ := cacheAad_ok h'
  have htail := List.append_cancel_left (haad.symm.trans haad')
  simp only [List.cons.injEq] at htail
  obtain ⟨hkdf, hschema, -, hp⟩ := htail
  have hbyte : ∀ a b : Nat, a < 256 → b < 256 → UInt8.ofNat a = UInt8.ofNat b → a = b := by
    intro a b ha hb hab
    have hnat := congrArg UInt8.toNat hab
    rwa [UInt8.toNat_ofNat', UInt8.toNat_ofNat', Nat.mod_eq_of_lt ha, Nat.mod_eq_of_lt hb] at hnat
  have hknown : ∀ a ∈ knownKdfVersions, a < 256 := by decide
  have hreadable : ∀ a ∈ readableCacheSchemas, a < 256 := by decide
  exact ⟨hbyte _ _ (hknown v hv) (hknown v' hv') hkdf,
    hbyte _ _ (hreadable s hs) (hreadable s' hs') hschema, utf8_inj hp⟩

/-! ### Reading back -/

/-- What the reader looks at before it takes a payload at schema 3. -/
theorem deserializeScanStateV3_ok_iff :
    deserializeScanStateV3 payload = .ok state ↔
      payload.v = cacheSchemaV3 ∧ readSpendJournal payload = .ok () ∧
        validateScanAdditions payload.state = .ok () ∧
          validateVerifiedScanAdditions payload.state = .ok () ∧ payload.state = state := by
  unfold deserializeScanStateV3
  by_cases hv : payload.v = cacheSchemaV3
  · rw [if_neg (not_not.2 hv)]
    simp only [hv, true_and]
    constructor
    · intro h
      obtain ⟨_, hj, h⟩ := bind_ok h
      obtain ⟨_, ha, h⟩ := bind_ok h
      obtain ⟨_, hva, h⟩ := bind_ok h
      exact ⟨hj, ha, hva, Except.ok.inj h⟩
    · rintro ⟨hj, ha, hva, rfl⟩
      exact bind_of_ok hj (bind_of_ok ha (bind_of_ok hva rfl))
  · rw [if_pos hv]
    refine iff_of_false ?_ fun h => hv h.1
    nofun

theorem readable_iff :
    Readable state ↔ readSpendJournal ⟨cacheSchemaV3, state⟩ = .ok () ∧
      validateScanAdditions state = .ok () ∧ validateVerifiedScanAdditions state = .ok () := by
  unfold Readable
  rw [deserializeScanStateV3_ok_iff]
  show _ ∧ _ ∧ _ ∧ _ ∧ state = state ↔ _
  simp only [serializeScanStateV3, serializePayload, Nat.le_refl, if_true, true_and, and_true]

/-- What is read at schema 3 can be written and read again. -/
theorem readable_of_read (h : deserializeScanStateV3 payload = .ok state) : Readable state := by
  obtain ⟨-, hj, ha, hva, rfl⟩ := deserializeScanStateV3_ok_iff.1 h
  exact readable_iff.2 ⟨hj, ha, hva⟩

theorem readable_of_migrated (h : deserializeScanStateV2 payload = .ok state) :
    Readable (migrateV2StateToV3 state) := by
  unfold deserializeScanStateV2 at h
  by_cases hv : payload.v = cacheSchemaV2
  swap
  · rw [if_pos hv] at h
    cases h
  rw [if_neg (not_not.2 hv)] at h
  obtain ⟨_, hj, h⟩ := bind_ok h
  obtain ⟨_, ha, h⟩ := bind_ok h
  cases h
  refine readable_iff.2 ⟨hj, ?_, rfl⟩
  -- The check reads the notes' nonces, which the migration keeps.
  rw [← ha]
  simp only [validateScanAdditions, migrateV2StateToV3, notesFromPayload, List.any_map,
    Function.comp_def, ScannedNote.unverified, Bool.false_eq_true, if_false]

theorem readable_empty : Readable emptyScanState := rfl

/-! ### Sealed records -/

theorem sealRecord_ok (h : sealRecord M key salt iv state p v = .ok record) :
    cacheAad M v cacheSchemaV3 p = .ok record.ciphertext.additionalData ∧
      record = ⟨v, cacheSchemaV3, salt, iv,
        ⟨key, iv, record.ciphertext.additionalData, serializeScanStateV3 state⟩⟩ := by
  obtain ⟨aad, haad, h⟩ := bind_ok h
  cases h
  exact ⟨haad, rfl⟩

variable [DecidableEq K]

/-- A record that opens was sealed under this key, for these versions and this owner. -/
theorem openRecord_ok (h : openRecord M key record p = .ok state) :
    record.ciphertext.key = key ∧
      cacheAad M record.kdfVersion record.schemaVersion p = .ok record.ciphertext.additionalData ∧
        record.ciphertext.iv = record.iv ∧ Readable state := by
  obtain ⟨aad, haad, h⟩ := bind_ok h
  unfold decrypt at h
  by_cases hc : record.ciphertext.key = key ∧ record.ciphertext.iv = record.iv ∧
      record.ciphertext.additionalData = aad
  · rw [if_pos hc] at h
    obtain ⟨hkey, hiv, rfl⟩ := hc
    refine ⟨hkey, haad, hiv, ?_⟩
    change (if record.schemaVersion = cacheSchemaV3 then _ else _ : Except CacheError _) = _ at h
    by_cases hs : record.schemaVersion = cacheSchemaV3
    · rw [if_pos hs] at h
      exact readable_of_read h
    · rw [if_neg hs] at h
      obtain ⟨old, hold, h⟩ := bind_ok h
      cases h
      exact readable_of_migrated hold
  · rw [if_neg hc] at h
    cases h

/-- A readable state is what its record opens to. -/
theorem openRecord_sealRecord (h : sealRecord M key salt iv state p v = .ok record)
    (hr : Readable state) : openRecord M key record p = .ok state := by
  obtain ⟨haad, hrecord⟩ := sealRecord_ok h
  generalize record.ciphertext.additionalData = aad at haad hrecord
  subst hrecord
  refine bind_of_ok haad ?_
  unfold decrypt
  rw [if_pos ⟨rfl, rfl, rfl⟩]
  exact hr

/-- A record opens under one key, and once it opens, under no other versions or owner. -/
theorem openRecord_only (h : openRecord M key record p = .ok state)
    (h' : openRecord M key' {record with kdfVersion := v, schemaVersion := s} p' = .ok state') :
    key' = key ∧ v = record.kdfVersion ∧ s = record.schemaVersion ∧ p' = p := by
  obtain ⟨hkey, haad, -, -⟩ := openRecord_ok h
  obtain ⟨hkey', haad', -, -⟩ := openRecord_ok h'
  exact ⟨hkey'.symm.trans hkey, cacheAad_inj haad' haad⟩

end

end StshProtocol.Wallet
