import StshProtocol.Foundation.Async
import StshProtocol.Wallet.Cache.Format

/-! The operations on the cache record, await by await.

The store's actions are atomic, as one transaction makes them, and any of them may be rejected
without an effect. Whether the session is current, whether Argon2id runs and what the random bytes
are is answered from outside. The history of the commits is kept beside the store, the latest
first: which operation wrote, over what, and which legacy record went with it. -/
namespace StshProtocol.Wallet
open Foundation

/-- `PrincipalNoteCache`: an opened cache. Its `sawV3` is kept with the store, under the number of
the instance. -/
structure PrincipalNoteCache (K : Type) where
  key : K
  salt : Bytes
  principalText : String
  kdfVersion : Nat
  instanceId : Nat
  deriving DecidableEq

inductive MigrateLegacyReply where
  | ok
  | legacyMissing
  | legacyChanged
  | scopedExists
  deriving DecidableEq, Repr

inductive CacheAction (K : Type) where
  | get (principalText : String)
  | compareAndPut (principalText : String) (expected : Option Nat) (slot : CacheSlot K)
  | getLegacy
  | migrateLegacy (principalText : String) (slot : CacheSlot K) (observedLegacy : StoredRecord K)
  | assertCurrent
  | usableKey (instanceId : Nat)
  | argon2id
  | getRandomValues (length : Nat)
  | gateSchema (instanceId schemaVersion : Nat)
  | sawV3 (instanceId : Nat)
  deriving DecidableEq

/-- What an action is answered; a store's action may be rejected, with `none`. -/
def CacheAction.Answer {K : Type} : CacheAction K → Type
  | .get _ => Option (Option (CacheSlot K))
  | .compareAndPut _ _ _ => Option Bool
  | .getLegacy => Option (Option (StoredRecord K))
  | .migrateLegacy _ _ _ => Option MigrateLegacyReply
  | .assertCurrent | .usableKey _ | .argon2id | .gateSchema _ _ => Bool
  | .getRandomValues _ => Bytes
  | .sawV3 _ => Unit

abbrev CacheProgram (K α : Type) := Async (CacheAction K) CacheAction.Answer CacheError α

namespace CacheProgram
variable {K α : Type}

/-- The answer of the store, or its rejection. -/
def accepted : Option α → CacheProgram K α
  | none => .throw .storeRejected
  | some x => .done x

def get (principalText : String) : CacheProgram K (Option (CacheSlot K)) :=
  .await (CacheAction.get principalText) fun (x : Option (Option (CacheSlot K))) => accepted x

def compareAndPut (principalText : String) (expected : Option Nat) (slot : CacheSlot K) :
    CacheProgram K Bool :=
  .await (CacheAction.compareAndPut principalText expected slot) fun (x : Option Bool) => accepted x

def getLegacy : CacheProgram K (Option (StoredRecord K)) :=
  .await CacheAction.getLegacy fun (x : Option (Option (StoredRecord K))) => accepted x

def migrateLegacy (principalText : String) (slot : CacheSlot K) (observedLegacy : StoredRecord K) :
    CacheProgram K MigrateLegacyReply :=
  .await (CacheAction.migrateLegacy principalText slot observedLegacy)
    fun (x : Option MigrateLegacyReply) => accepted x

/-- Something that holds, or the error. -/
def check (holds : Bool) (e : CacheError) (a : α) : CacheProgram K α :=
  if holds then .done a else .throw e

def assertCurrent : CacheProgram K Unit :=
  .await CacheAction.assertCurrent fun (current : Bool) => check current .sessionStale ()

def usableKey (cache : PrincipalNoteCache K) : CacheProgram K K :=
  .await (CacheAction.usableKey cache.instanceId) fun (usable : Bool) =>
    check usable .sessionStale cache.key

def gateSchema (cache : PrincipalNoteCache K) (record : StoredCacheRecordV2 K) :
    CacheProgram K Unit :=
  .await (CacheAction.gateSchema cache.instanceId record.schemaVersion) fun (admitted : Bool) =>
    check admitted (.schemaDowngrade record.schemaVersion) ()

def argon2id (key : K) : CacheProgram K K :=
  .await CacheAction.argon2id fun (runs : Bool) => check runs .kdfUnavailable key

def getRandomValues (length : Nat) : CacheProgram K Bytes :=
  .await (CacheAction.getRandomValues length) fun (x : Bytes) => .done x

def sawV3 (cache : PrincipalNoteCache K) : CacheProgram K Unit :=
  .await (CacheAction.sawV3 cache.instanceId) fun (_ : Unit) => .done ()

end CacheProgram

open CacheProgram

section
variable {K : Type} [DecidableEq K] (M : Platform K)

def maxCasAttempts : Nat := 10

def ivBytes : Nat := 12

def deriveCacheKeyV2 (passphrase : String) (salt : Bytes) : CacheProgram K K :=
  if salt.length ≠ argon2idSaltBytes then
    .throw (.format ("v2 salt must be 16 bytes, got " ++ toString salt.length))
  else argon2id (M.argon2id passphrase salt)

/-- `sealRecord`, under a nonce of its own. -/
def sealFresh (key : K) (salt : Bytes) (state : CachedScanState) (principalText : String)
    (kdfVersion : Nat) : CacheProgram K (StoredCacheRecordV2 K) := do
  let iv ← getRandomValues ivBytes
  Async.ofExcept (sealRecord M key salt iv state principalText kdfVersion)

def isKeyBased (kdfVersion : Nat) : Bool :=
  kdfVersion = kdfVersionVetkeyUnlock || kdfVersion = kdfVersionWalletPasscode

def openWithKey (id : Nat) (key : K) (principalText : String) :
    CacheProgram K (PrincipalNoteCache K) := do
  assertCurrent
  Async.ofExcept (validateCachePrincipal M principalText)
  match ← get principalText with
  | none => .throw (.format "there is no cache record for this principal")
  | some slot =>
    if !isKeyBased slot.record.kdfVersion then
      .throw (.format ("cache record is at kdfVersion " ++ toString slot.record.kdfVersion ++
        ", which is not a key-based record — open it with the passphrase path, or migrate it first"))
    else do
      let _ ← Async.ofExcept (openRecord M key slot.record principalText)
      assertCurrent
      return ⟨key, slot.record.salt, principalText, slot.record.kdfVersion, id⟩

/-- The new record, read back and opened before the cache is handed out. -/
def readBackCreated (id : Nat) (key : K) (principalText : String) (createVersion : Nat) :
    CacheProgram K (PrincipalNoteCache K) := do
  match ← get principalText with
  | none => .throw (.integrity "the new cache record could not be read back — it was not opened")
  | some after =>
    if after.record.kdfVersion ≠ createVersion then
      .throw (.integrity "the new cache record could not be read back — it was not opened")
    else do
      let _ ← Async.ofExcept (openRecord M key after.record principalText)
      assertCurrent
      return ⟨key, after.record.salt, principalText, createVersion, id⟩

def openOrCreateAttempts (id : Nat) (key : K) (principalText : String) (createVersion : Nat) :
    Nat → CacheProgram K (PrincipalNoteCache K)
  | 0 => .throw .writeConflict
  | attempts + 1 => do
    match ← get principalText with
    | some _ => openWithKey M id key principalText
    | none =>
      let salt ← getRandomValues argon2idSaltBytes
      let record ← sealFresh M key salt emptyScanState principalText createVersion
      assertCurrent
      let created ← compareAndPut principalText none ⟨1, record⟩
      if created then readBackCreated M id key principalText createVersion
      else openOrCreateAttempts id key principalText createVersion attempts

def openOrCreateWithKey (id : Nat) (key : K) (principalText : String) (createVersion : Nat) :
    CacheProgram K (PrincipalNoteCache K) :=
  if !isKeyBased createVersion then
    .throw (.format ("a key-based cache record is created at kdfVersion 3 or 4, not " ++
      toString createVersion))
  else do
    assertCurrent
    Async.ofExcept (validateCachePrincipal M principalText)
    openOrCreateAttempts M id key principalText createVersion maxCasAttempts

/-- The record under a passphrase, at its slot. -/
def openSlot (id : Nat) (passphrase principalText : String) (record : StoredCacheRecordV2 K) :
    CacheProgram K (PrincipalNoteCache K) :=
  if record.kdfVersion ≠ kdfVersionArgon2id then
    .throw (.format ("stored cache record for this principal has kdfVersion " ++
      toString record.kdfVersion ++
      ", which is not a passphrase record (versions 3 and 4 are opened with openWithKey)"))
  else do
    let key ← deriveCacheKeyV2 M passphrase record.salt
    let _ ← Async.ofExcept (openRecord M key record principalText)
    assertCurrent
    return ⟨key, record.salt, principalText, kdfVersionArgon2id, id⟩

/-- The notes of a legacy record, under the passphrase it was written with. -/
def openLegacy (passphrase : String) (legacy : StoredRecord K) : Except CacheError CachedScanState :=
  match decrypt (M.pbkdf2 passphrase legacy.salt) legacy.iv [] legacy.ciphertext with
  | none => .error .legacyDecryption
  | some payload => deserializeScanState payload

def openAttempts (id : Nat) (passphrase principalText : String) :
    Nat → CacheProgram K (PrincipalNoteCache K)
  | 0 => .throw .writeConflict
  | attempts + 1 => do
    match ← get principalText with
    | some slot => openSlot M id passphrase principalText slot.record
    | none =>
      match ← getLegacy with
      | some legacy =>
        let v1state ← Async.ofExcept (openLegacy M passphrase legacy)
        if 0 < v1state.notes.length then .throw .legacyNoteFormatUnsupported
        else do
          let salt ← getRandomValues argon2idSaltBytes
          let key ← deriveCacheKeyV2 M passphrase salt
          let record ← sealFresh M key salt emptyScanState principalText kdfVersionArgon2id
          assertCurrent
          match ← migrateLegacy principalText ⟨1, record⟩ legacy with
          | .ok => return ⟨key, salt, principalText, kdfVersionArgon2id, id⟩
          | .legacyChanged => .throw .legacyNoteFormatUnsupported
          | .legacyMissing | .scopedExists => openAttempts id passphrase principalText attempts
      | none =>
        let salt ← getRandomValues argon2idSaltBytes
        let key ← deriveCacheKeyV2 M passphrase salt
        let record ← sealFresh M key salt emptyScanState principalText kdfVersionArgon2id
        assertCurrent
        let created ← compareAndPut principalText none ⟨1, record⟩
        if created then return ⟨key, salt, principalText, kdfVersionArgon2id, id⟩
        else openAttempts id passphrase principalText attempts

/-- `PrincipalNoteCache.open`. -/
def openWithPassphrase (id : Nat) (passphrase principalText : String) :
    CacheProgram K (PrincipalNoteCache K) := do
  assertCurrent
  Async.ofExcept (validateCachePrincipal M principalText)
  openAttempts M id passphrase principalText maxCasAttempts

def load (cache : PrincipalNoteCache K) : CacheProgram K CachedScanState := do
  let key ← usableKey cache
  match ← get cache.principalText with
  | none => .throw (.integrity "the note-cache record for this principal is missing")
  | some slot =>
    gateSchema cache slot.record
    Async.ofExcept (openRecord M key slot.record cache.principalText)

def updateAttempts (cache : PrincipalNoteCache K)
    (fn : CachedScanState → Except CacheError CachedScanState) : Nat → CacheProgram K CachedScanState
  | 0 => .throw .writeConflict
  | attempts + 1 => do
    let key ← usableKey cache
    match ← get cache.principalText with
    | none => .throw (.integrity "the note-cache record for this principal is missing")
    | some slot =>
      gateSchema cache slot.record
      let current ← Async.ofExcept (openRecord M key slot.record cache.principalText)
      let next ← Async.ofExcept (fn current)
      let record ← sealFresh M key cache.salt next cache.principalText cache.kdfVersion
      assertCurrent
      let written ← compareAndPut cache.principalText (some slot.revision)
        ⟨slot.revision + 1, record⟩
      if written then do
        sawV3 cache
        return next
      else updateAttempts cache fn attempts

def update (cache : PrincipalNoteCache K)
    (fn : CachedScanState → Except CacheError CachedScanState) : CacheProgram K CachedScanState :=
  updateAttempts M cache fn maxCasAttempts

structure CacheMigrationOutcome where
  kdfVersion : Nat
  noteCount : Nat
  deriving DecidableEq, Repr

/-- Steps 3 to 5 of a migration or a re-seal: the whole state under the new key, written over the
revision that was read, and read back. -/
def resealSlot (principalText : String) (slot : CacheSlot K) (state : CachedScanState) (toKey : K)
    (toVersion : Nat) (notReadBack : String) : CacheProgram K CacheMigrationOutcome := do
  let salt ← getRandomValues argon2idSaltBytes
  let record ← sealFresh M toKey salt state principalText toVersion
  assertCurrent
  let written ← compareAndPut principalText (some slot.revision) ⟨slot.revision + 1, record⟩
  if !written then .throw .writeConflict
  else do
    match ← get principalText with
    | none => .throw (.integrity notReadBack)
    | some after =>
      if after.record.kdfVersion ≠ toVersion then .throw (.integrity notReadBack)
      else do
        let verified ← Async.ofExcept (openRecord M toKey after.record principalText)
        return ⟨toVersion, verified.notes.length⟩

inductive CacheMigrationMode where
  | iiOnly
  | walletPasscode
  deriving DecidableEq, Repr

def CacheMigrationMode.kdfVersion : CacheMigrationMode → Nat
  | .iiOnly => kdfVersionVetkeyUnlock
  | .walletPasscode => kdfVersionWalletPasscode

def migratePassphraseRecord (principalText oldPassphrase : String) (mode : CacheMigrationMode)
    (key : K) : CacheProgram K CacheMigrationOutcome := do
  assertCurrent
  Async.ofExcept (validateCachePrincipal M principalText)
  match ← get principalText with
  | none => .throw (.format "there is no cache record for this principal to migrate")
  | some slot =>
    if slot.record.kdfVersion ≠ kdfVersionArgon2id then
      .throw (.format ("cache record is at kdfVersion " ++ toString slot.record.kdfVersion ++
        "; only a passphrase record (version 2) can be migrated"))
    else do
      let oldKey ← deriveCacheKeyV2 M oldPassphrase slot.record.salt
      let state ← Async.ofExcept (openRecord M oldKey slot.record principalText)
      resealSlot M principalText slot state key mode.kdfVersion
        "the migrated cache record could not be read back — treat the migration as incomplete"

def resealKeyRecord (principalText : String) (fromKey toKey : K) (toVersion : Nat) :
    CacheProgram K CacheMigrationOutcome :=
  if !isKeyBased toVersion then
    .throw (.format ("kdfVersion " ++ toString toVersion ++ " is not a key-based record version"))
  else do
    assertCurrent
    Async.ofExcept (validateCachePrincipal M principalText)
    match ← get principalText with
    | none => .throw (.format "there is no cache record for this principal to re-seal")
    | some slot =>
      if slot.record.kdfVersion = toVersion then do
        let already ← Async.ofExcept (openRecord M toKey slot.record principalText)
        return ⟨toVersion, already.notes.length⟩
      else if !isKeyBased slot.record.kdfVersion then
        .throw (.format ("cache record is at kdfVersion " ++ toString slot.record.kdfVersion ++
          "; only a key-based record (version 3 or 4) can be re-sealed here"))
      else do
        let state ← Async.ofExcept (openRecord M fromKey slot.record principalText)
        resealSlot M principalText slot state toKey toVersion
          "the re-sealed cache record could not be read back — treat the change as incomplete"

/-! ### The store and its tabs -/

inductive CacheOperation (K : Type) where
  | openWithPassphrase (passphrase principalText : String)
  | openWithKey (key : K) (principalText : String)
  | openOrCreateWithKey (key : K) (principalText : String) (createVersion : Nat)
  | load (cache : PrincipalNoteCache K)
  | update (cache : PrincipalNoteCache K) (fn : CachedScanState → Except CacheError CachedScanState)
  | migratePassphraseRecord (principalText oldPassphrase : String) (mode : CacheMigrationMode) (key : K)
  | resealKeyRecord (principalText : String) (fromKey toKey : K) (toVersion : Nat)

inductive CacheReply (K : Type) where
  | opened (cache : PrincipalNoteCache K)
  | state (state : CachedScanState)
  | migrated (outcome : CacheMigrationOutcome)
  deriving DecidableEq

/-- The program of an operation that runs as task `id`. -/
def CacheOperation.program (id : Nat) : CacheOperation K → CacheProgram K (CacheReply K)
  | .openWithPassphrase passphrase p => Wallet.openWithPassphrase M id passphrase p >>= (.done ∘ .opened)
  | .openWithKey key p => Wallet.openWithKey M id key p >>= (.done ∘ .opened)
  | .openOrCreateWithKey key p v => Wallet.openOrCreateWithKey M id key p v >>= (.done ∘ .opened)
  | .load cache => Wallet.load M cache >>= (.done ∘ .state)
  | .update cache fn => Wallet.update M cache fn >>= (.done ∘ .state)
  | .migratePassphraseRecord p passphrase mode key =>
    Wallet.migratePassphraseRecord M p passphrase mode key >>= (.done ∘ .migrated)
  | .resealKeyRecord p fromKey toKey v =>
    Wallet.resealKeyRecord M p fromKey toKey v >>= (.done ∘ .migrated)

/-- A write to the record of a principal: by whom, over what, and the legacy record it took away. -/
structure CacheCommit (K : Type) where
  task : Nat
  operation : CacheOperation K
  principalText : String
  before : Option (CacheSlot K)
  after : CacheSlot K
  legacy : Option (StoredRecord K)

structure CacheStore (K : Type) where
  slots : String → Option (CacheSlot K)
  legacy : Option (StoredRecord K)
  sawV3 : Nat → Bool
  commits : List (CacheCommit K)

namespace CacheStore
variable (s : CacheStore K)

/-- The condition of a compare-and-put. -/
def matchesRevision (principalText : String) (expected : Option Nat) : Bool :=
  (s.slots principalText).map CacheSlot.revision = expected

def put (t : Nat) (op : CacheOperation K) (principalText : String) (slot : CacheSlot K) :
    CacheStore K :=
  {s with
    slots := Function.update s.slots principalText (some slot)
    commits := ⟨t, op, principalText, s.slots principalText, slot, none⟩ :: s.commits}

def migrateLegacyReply (principalText : String) (observedLegacy : StoredRecord K) :
    MigrateLegacyReply :=
  match s.legacy with
  | none => .legacyMissing
  | some legacy =>
    if legacy ≠ observedLegacy then .legacyChanged
    else if (s.slots principalText).isSome then .scopedExists
    else .ok

def putMigrated (t : Nat) (op : CacheOperation K) (principalText : String) (slot : CacheSlot K) :
    CacheStore K where
  slots := Function.update s.slots principalText (some slot)
  legacy := none
  sawV3 := s.sawV3
  commits := ⟨t, op, principalText, s.slots principalText, slot, s.legacy⟩ :: s.commits

/-- The answers an action may get, with what it leaves. -/
def serve (t : Nat) (op : CacheOperation K) : (act : CacheAction K) → act.Answer → Option (CacheStore K)
  | .get p, (x : Option (Option (CacheSlot K))) => if x = none ∨ x = some (s.slots p) then some s else none
  | .compareAndPut p expected slot, (x : Option Bool) =>
    match x with
    | none => some s
    | some written =>
      if written = s.matchesRevision p expected then
        some (if written then s.put t op p slot else s)
      else none
  | .getLegacy, (x : Option (Option (StoredRecord K))) =>
    if x = none ∨ x = some s.legacy then some s else none
  | .migrateLegacy p slot observed, (x : Option MigrateLegacyReply) =>
    match x with
    | none => some s
    | some reply =>
      if reply = s.migrateLegacyReply p observed then
        some (if reply = .ok then s.putMigrated t op p slot else s)
      else none
  | .assertCurrent, _ | .usableKey _, _ | .argon2id, _ => some s
  | .getRandomValues n, (x : Bytes) => if x.length = n then some s else none
  | .gateSchema i schema, (x : Bool) =>
    if schema = cacheSchemaV3 then
      if x then some {s with sawV3 := Function.update s.sawV3 i true} else none
    else if x = !s.sawV3 i then some s else none
  | .sawV3 i, _ => some {s with sawV3 := Function.update s.sawV3 i true}

end CacheStore

abbrev CacheTabs (K : Type) :=
  Tabs (CacheStore K) (CacheOperation K) (CacheAction K) CacheAction.Answer CacheError (CacheReply K)

/-- An operation on a cache needs a cache that was opened. -/
def CacheOperation.MayLaunch (w : CacheTabs K) : CacheOperation K → Prop
  | .load cache | .update cache _ =>
    ∃ t op, w.tasks t = some (op, .done (.opened cache))
  | _ => True

/-- The tabs over one store that starts as `s₀`. From outside, a wallet from before may save its
legacy record. -/
def cacheShell (s₀ : CacheStore K) :
    Shell (CacheStore K) (CacheOperation K) (CacheAction K) CacheAction.Answer CacheError
      (CacheReply K) where
  init s := s = s₀
  mayLaunch w op := op.MayLaunch w
  program id op := op.program M id
  serve t op s := s.serve t op
  outside s s' := ∃ legacy, s' = {s with legacy := some legacy}

end

end StshProtocol.Wallet
