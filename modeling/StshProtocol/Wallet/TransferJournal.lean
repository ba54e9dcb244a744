import StshProtocol.Foundation.Slots
import StshProtocol.Foundation.StableMap
import StshProtocol.Foundation.Transition
import StshProtocol.Wallet.Text

/-! The journal of transfer intents.

Any number of tabs call it, each with records it was given at some time, and the database takes
their operations one by one. The slot of a scope is written by compare and swap (`World.refines`),
so that a record that is not the one in the slot writes nothing, and an intent once removed does
not come back. -/
namespace StshProtocol.Wallet.TransferJournal
open Foundation

/-! ### Records -/

inductive TransferIntentState where
  | pending
  | unknown
  | frozen
  deriving DecidableEq

/-- A record of version 1, which has no identity of its own. -/
structure V1TransferIntentRecord where
  schema : Nat
  state : TransferIntentState
  ownerPrincipal : JsString
  ledgerCanisterId : JsString
  network : JsString
  fromSubaccountHex : Option JsString
  toOwner : JsString
  toSubaccountHex : Option JsString
  amount : JsString
  fee : JsString
  memoHex : Option JsString
  createdAtTimeNs : JsString
  createdAtMs : Nat
  attempts : Nat
  deriving DecidableEq

structure TransferIntentRecord extends V1TransferIntentRecord where
  intentId : JsString
  revision : Nat
  deriving DecidableEq

structure ArchivedTransferIntent (ρ : Type) where
  record : ρ
  archivedAtMs : Nat
  resolution : JsString
  deriving DecidableEq

structure IntentExpectation where
  intentId : JsString
  revision : Nat
  deriving DecidableEq

def expectationOf (record : TransferIntentRecord) : IntentExpectation :=
  ⟨record.intentId, record.revision⟩

def transferJournalSchema : Nat := 2

/-- What separates the parts of a key. -/
def bar : UInt16 := 124

/-- The text of a principal, in which there is no bar. -/
abbrev PrincipalText : Type := {s : JsString // bar ∉ s}

structure TransferScope where
  ownerPrincipal : PrincipalText
  ledgerCanisterId : PrincipalText
  network : JsString
  deriving DecidableEq

/-- The key of a scope in a database of this version. -/
def versionKey (version : Nat) (scope : TransferScope) : JsString :=
  literal "v" ++ decimal version ++ bar :: scope.network ++ bar :: scope.ledgerCanisterId.val ++
    bar :: scope.ownerPrincipal.val

def scopeKey (scope : TransferScope) : JsString := versionKey transferJournalSchema scope

/-! ### The database -/

structure JournalDb where
  intents : StableMap JsString TransferIntentRecord
  archive : List (ArchivedTransferIntent TransferIntentRecord)

def slotMatches (current : Option TransferIntentRecord) (expected : IntentExpectation) : Bool :=
  current.any fun r => r.intentId == expected.intentId && r.revision == expected.revision

def claim (key : JsString) (record : TransferIntentRecord) (db : JournalDb) :
    Except TransferIntentRecord Unit × JournalDb :=
  match db.intents[key]? with
  | some existing => (.error existing, db)
  | none => (.ok (), {db with intents := db.intents.insert key record})

/-- One transaction: the write if the slot holds what is expected, else what it holds. -/
def compareAnd (write : JournalDb → JournalDb) (key : JsString) (expected : IntentExpectation)
    (db : JournalDb) : Except (Option TransferIntentRecord) Unit × JournalDb :=
  if slotMatches db.intents[key]? expected then (.ok (), write db) else (.error db.intents[key]?, db)

def compareAndPut (key : JsString) (expected : IntentExpectation) (next : TransferIntentRecord) :
    JournalDb → Except (Option TransferIntentRecord) Unit × JournalDb :=
  compareAnd (fun db => {db with intents := db.intents.insert key next}) key expected

def compareAndRemove (key : JsString) (expected : IntentExpectation) :
    JournalDb → Except (Option TransferIntentRecord) Unit × JournalDb :=
  compareAnd (fun db => {db with intents := db.intents.erase key}) key expected

def archiveAndRemove (key : JsString) (expected : IntentExpectation)
    (entry : ArchivedTransferIntent TransferIntentRecord) :
    JournalDb → Except (Option TransferIntentRecord) Unit × JournalDb :=
  compareAnd (fun db => ⟨db.intents.erase key, db.archive ++ [entry]⟩) key expected

/-! ### The journal -/

/-- What the generator of random values draws for an identity. -/
abbrev IntentBytes : Type := {bytes : List UInt8 // bytes.length = 16}

def mintIntentId (bytes : IntentBytes) : JsString := bytesToHex bytes.val

structure BeginIntentFields where
  toOwner : JsString
  toSubaccountHex : Option JsString
  amount : Int
  fee : Int
  memoHex : Option JsString
  fromSubaccountHex : Option JsString
  createdAtTimeNs : Int
  nowMs : Option Nat
  deriving DecidableEq

inductive JournalError where
  | intentSlotBusy (existing : TransferIntentRecord)
  | staleIntent (current : Option TransferIntentRecord)
  | notFrozen
  | notConfirmed
  deriving DecidableEq

def newIntent (scope : TransferScope) (fields : BeginIntentFields) (bytes : IntentBytes)
    (clockMs : Nat) : TransferIntentRecord where
  schema := transferJournalSchema
  intentId := mintIntentId bytes
  revision := 0
  state := .pending
  ownerPrincipal := scope.ownerPrincipal.val
  ledgerCanisterId := scope.ledgerCanisterId.val
  network := scope.network
  fromSubaccountHex := fields.fromSubaccountHex
  toOwner := fields.toOwner
  toSubaccountHex := fields.toSubaccountHex
  amount := decimal fields.amount
  fee := decimal fields.fee
  memoHex := fields.memoHex
  createdAtTimeNs := decimal fields.createdAtTimeNs
  createdAtMs := fields.nowMs.getD clockMs
  attempts := 0

def beginIntent (scope : TransferScope) (fields : BeginIntentFields) (bytes : IntentBytes)
    (clockMs : Nat) (db : JournalDb) : Except JournalError TransferIntentRecord × JournalDb :=
  let record := newIntent scope fields bytes clockMs
  match claim (scopeKey scope) record db with
  | (.ok (), after) => (.ok record, after)
  | (.error existing, after) => (.error (.intentSlotBusy existing), after)

/-- The record is of this scope, and of this version. -/
def TransferIntentRecord.Bound (scope : TransferScope) (record : TransferIntentRecord) : Prop :=
  record.schema = transferJournalSchema ∧ record.ownerPrincipal = scope.ownerPrincipal.val ∧
    record.ledgerCanisterId = scope.ledgerCanisterId.val ∧ record.network = scope.network

instance (scope : TransferScope) (record : TransferIntentRecord) : Decidable (record.Bound scope) :=
  inferInstanceAs (Decidable (_ ∧ _))

def loadUnresolved (scope : TransferScope) (db : JournalDb) : Option TransferIntentRecord :=
  match db.intents[scopeKey scope]? with
  | none => none
  | some record => if record.Bound scope then some record else none

/-- What a call answers whose transaction was `result`. -/
def orStale {α : Type} (value : α) (result : Except (Option TransferIntentRecord) Unit × JournalDb) :
    Except JournalError α × JournalDb :=
  match result with
  | (.ok (), after) => (.ok value, after)
  | (.error current, after) => (.error (.staleIntent current), after)

def markUnknown (scope : TransferScope) (record : TransferIntentRecord) (db : JournalDb) :
    Except JournalError TransferIntentRecord × JournalDb :=
  let next := {record with
    state := .unknown, attempts := record.attempts + 1, revision := record.revision + 1}
  orStale next (compareAndPut (scopeKey scope) (expectationOf record) next db)

def resolve (scope : TransferScope) (record : TransferIntentRecord) (db : JournalDb) :
    Except JournalError Unit × JournalDb :=
  orStale () (compareAndRemove (scopeKey scope) (expectationOf record) db)

def freeze (scope : TransferScope) (record : TransferIntentRecord) (db : JournalDb) :
    Except JournalError TransferIntentRecord × JournalDb :=
  let next := {record with state := .frozen, revision := record.revision + 1}
  orStale next (compareAndPut (scopeKey scope) (expectationOf record) next db)

def abandonFrozen (scope : TransferScope) (record : TransferIntentRecord)
    (confirmedExternalReconcile : Bool) (clockMs : Nat) (db : JournalDb) :
    Except JournalError Unit × JournalDb :=
  if record.state ≠ .frozen then (.error .notFrozen, db)
  else if confirmedExternalReconcile ≠ true then (.error .notConfirmed, db)
  else
    orStale () (archiveAndRemove (scopeKey scope) (expectationOf record)
      ⟨record, clockMs, literal "abandoned-after-external-reconcile"⟩ db)

/-! ### Version 1 -/

def migrateV1Record (bytes : IntentBytes) (v1 : V1TransferIntentRecord) : TransferIntentRecord where
  toV1TransferIntentRecord := {v1 with schema := transferJournalSchema}
  intentId := mintIntentId bytes
  revision := 0

/-- A database of version 1: every record is under the key of its own scope. -/
structure V1JournalDb where
  intents : StableMap JsString V1TransferIntentRecord
  archive : List (ArchivedTransferIntent V1TransferIntentRecord)
  keyed : ∀ (k : JsString) (r : V1TransferIntentRecord), intents[k]? = some r →
    ∃ scope : TransferScope, k = versionKey 1 scope ∧ r.ownerPrincipal = scope.ownerPrincipal.val ∧
      r.ledgerCanisterId = scope.ledgerCanisterId.val ∧ r.network = scope.network

/-- The store while its records are of either version. -/
structure MixedStore where
  old : StableMap JsString V1TransferIntentRecord
  new : StableMap JsString TransferIntentRecord

def MixedStore.delete (key : JsString) (store : MixedStore) : MixedStore :=
  ⟨store.old.erase key, store.new.erase key⟩

def MixedStore.put (record : TransferIntentRecord) (key : JsString) (store : MixedStore) : MixedStore :=
  ⟨store.old.erase key, store.new.insert key record⟩

def newKey (oldKey : JsString) : JsString :=
  if (literal "v1|").isPrefixOf oldKey then literal "v2|" ++ oldKey.drop 3 else oldKey

/-- The loop over the intents, with what is drawn for each. -/
def migrateIntents (draw : Nat → IntentBytes) :
    Nat → List (JsString × V1TransferIntentRecord) → MixedStore → MixedStore
  | _, [], store => store
  | i, (oldKey, v1) :: rest, store =>
    migrateIntents draw (i + 1) rest
      ((store.delete oldKey).put (migrateV1Record (draw i) v1) (newKey oldKey))

def migrateArchive (draw : Nat → IntentBytes) (drawn : Nat)
    (archive : List (ArchivedTransferIntent V1TransferIntentRecord)) :
    List (ArchivedTransferIntent TransferIntentRecord) :=
  archive.zipIdx.map fun (entry, i) =>
    ⟨migrateV1Record (draw (drawn + i)) entry.record, entry.archivedAtMs, entry.resolution⟩

def V1JournalDb.migratedStore (draw : Nat → IntentBytes) (v1 : V1JournalDb) : MixedStore :=
  migrateIntents draw 0 v1.intents.toList ⟨v1.intents, ∅⟩

/-- The upgrade of the database. -/
def V1JournalDb.migrate (draw : Nat → IntentBytes) (v1 : V1JournalDb) : JournalDb :=
  ⟨(v1.migratedStore draw).new, migrateArchive draw v1.intents.toList.length v1.archive⟩

def V1JournalDb.draws (v1 : V1JournalDb) : Nat := v1.intents.toList.length + v1.archive.length

/-! ### Runs -/

inductive JournalCall where
  | beginIntent (fields : BeginIntentFields) (bytes : IntentBytes) (clockMs : Nat)
  | loadUnresolved
  | markUnknown (record : TransferIntentRecord)
  | freeze (record : TransferIntentRecord)
  | resolve (record : TransferIntentRecord)
  | abandonFrozen (record : TransferIntentRecord) (confirmedExternalReconcile : Bool) (clockMs : Nat)

inductive JournalAnswer where
  | intent (record : TransferIntentRecord)
  | unresolved (record : Option TransferIntentRecord)
  | done
  | failed (e : JournalError)
  deriving DecidableEq

namespace JournalCall

def answerIntent : Except JournalError TransferIntentRecord × JournalDb → JournalAnswer × JournalDb
  | (.ok record, after) => (.intent record, after)
  | (.error e, after) => (.failed e, after)

def answerDone : Except JournalError Unit × JournalDb → JournalAnswer × JournalDb
  | (.ok (), after) => (.done, after)
  | (.error e, after) => (.failed e, after)

def run (scope : TransferScope) (db : JournalDb) : JournalCall → JournalAnswer × JournalDb
  | .beginIntent fields bytes clockMs =>
    answerIntent (TransferJournal.beginIntent scope fields bytes clockMs db)
  | .loadUnresolved => (.unresolved (TransferJournal.loadUnresolved scope db), db)
  | .markUnknown record => answerIntent (TransferJournal.markUnknown scope record db)
  | .freeze record => answerIntent (TransferJournal.freeze scope record db)
  | .resolve record => answerDone (TransferJournal.resolve scope record db)
  | .abandonFrozen record confirmed clockMs =>
    answerDone (TransferJournal.abandonFrozen scope record confirmed clockMs db)

/-- The record a call is made with. -/
def record? : JournalCall → Option TransferIntentRecord
  | .beginIntent .. => none
  | .loadUnresolved => none
  | .markUnknown record => some record
  | .freeze record => some record
  | .resolve record => some record
  | .abandonFrozen record .. => some record

def draws : JournalCall → List IntentBytes
  | .beginIntent _ bytes _ => [bytes]
  | _ => []

end JournalCall

/-- The records an answer shows its caller. -/
def JournalAnswer.shows : JournalAnswer → List TransferIntentRecord
  | .intent record => [record]
  | .unresolved record => record.toList
  | .done => []
  | .failed (.intentSlotBusy existing) => [existing]
  | .failed (.staleIntent current) => current.toList
  | .failed .notFrozen => []
  | .failed .notConfirmed => []

/-- A call and its answer. -/
structure Event where
  scope : TransferScope
  call : JournalCall
  answer : JournalAnswer

/-- The intent a call abandoned. -/
def Event.abandons (e : Event) : Option JsString :=
  match e.call, e.answer with
  | .abandonFrozen record .., .done => some record.intentId
  | _, _ => none

/-- The intent a call removed. -/
def Event.removes (e : Event) : Option JsString :=
  match e.call, e.answer with
  | .resolve record, .done => some record.intentId
  | .abandonFrozen record .., .done => some record.intentId
  | _, _ => none

/-- The database, the records any tab was given, the identities drawn, and the calls made, of
which the first is the latest. -/
structure World where
  db : JournalDb
  held : List TransferIntentRecord
  drawn : List IntentBytes
  log : List Event

namespace World

def after (w : World) (scope : TransferScope) (call : JournalCall) : World where
  db := (call.run scope w.db).2
  held := (call.run scope w.db).1.shows ++ w.held
  drawn := call.draws ++ w.drawn
  log := ⟨scope, call, (call.run scope w.db).1⟩ :: w.log

def created : World := ⟨⟨∅, []⟩, [], [], []⟩

def migrated (draw : Nat → IntentBytes) (v1 : V1JournalDb) : World :=
  ⟨v1.migrate draw, [], (List.range v1.draws).map draw, []⟩

/-- How often an intent was removed. -/
def removals (w : World) (id : JsString) : Nat := (w.log.filterMap Event.removes).count id

def abandonments (w : World) (id : JsString) : Nat := (w.log.filterMap Event.abandons).count id

end World

/-- The intent of this identity is in a slot. -/
def JournalDb.Holds (db : JournalDb) (id : JsString) : Prop :=
  ∃ (k : JsString) (r : TransferIntentRecord), db.intents[k]? = some r ∧ r.intentId = id

def JournalDb.archivedIds (db : JournalDb) : List JsString := db.archive.map (·.record.intentId)

/-- The identities drawn by the migration are distinct. -/
def Distinct (draw : Nat → IntentBytes) (v1 : V1JournalDb) : Prop :=
  ∀ i < v1.draws, ∀ j < v1.draws, draw i = draw j → i = j

/-- A database that was just created, or brought up from version 1. -/
inductive Opened : World → Prop where
  | created : Opened .created
  | migrated (draw : Nat → IntentBytes) (v1 : V1JournalDb) (h : Distinct draw v1) :
      Opened (.migrated draw v1)

/-- A tab calls with a record it was given. -/
def journal : System World (TransferScope × JournalCall) where
  init := Opened
  step w a w' := (∀ r ∈ a.2.record?, r ∈ w.held) ∧ w' = w.after a.1 a.2

/-- What is drawn for an intent was not drawn before. -/
def Fresh (w : World) (a : TransferScope × JournalCall) : Prop := ∀ bytes ∈ a.2.draws, bytes ∉ w.drawn

/-! ### Keys -/

theorem bar_of_split {b b' c : JsString} (hb : bar ∉ b) (h : bar :: b = c ++ bar :: b') : c = [] := by
  cases c with
  | nil => rfl
  | cons x c =>
    have heq : b = c ++ bar :: b' := (List.cons.inj h).2
    exact absurd (heq ▸ List.mem_append_right c List.mem_cons_self) hb

/-- Where the last bar stands is told by what is behind it. -/
theorem split_at_bar {a a' b b' : JsString} (hb : bar ∉ b) (hb' : bar ∉ b')
    (h : a ++ bar :: b = a' ++ bar :: b') : a = a' ∧ b = b' := by
  rcases List.append_eq_append_iff.1 h with ⟨c, rfl, hc⟩ | ⟨c, rfl, hc⟩
  · obtain rfl := bar_of_split hb hc
    exact ⟨(List.append_nil a).symm, (List.cons.inj hc).2⟩
  · obtain rfl := bar_of_split hb' hc
    exact ⟨List.append_nil a', (List.cons.inj hc).2.symm⟩

theorem versionKey_inj {version : Nat} {scope scope' : TransferScope}
    (h : versionKey version scope = versionKey version scope') : scope = scope' := by
  obtain ⟨h, howner⟩ := split_at_bar scope.ownerPrincipal.2 scope'.ownerPrincipal.2 h
  obtain ⟨h, hledger⟩ := split_at_bar scope.ledgerCanisterId.2 scope'.ledgerCanisterId.2 h
  have hnetwork := (List.cons.inj (List.append_cancel_left h)).2
  obtain ⟨owner, ledger, network⟩ := scope
  obtain ⟨owner', ledger', network'⟩ := scope'
  rw [TransferScope.mk.injEq]
  exact ⟨Subtype.ext howner, Subtype.ext hledger, hnetwork⟩

theorem newKey_versionKey (scope : TransferScope) : newKey (versionKey 1 scope) = scopeKey scope := rfl

/-- No key of version 1 is one of version 2. -/
theorem versionKey_ne (scope scope' : TransferScope) : versionKey 1 scope ≠ scopeKey scope' := by
  intro h
  have hhead : literal "v" ++ decimal 1 = literal "v" ++ decimal 2 := by
    have htake := congrArg (List.take 2) h
    exact htake
  exact absurd hhead (by decide +kernel)

/-! ### What a call does -/

/-- A record without what may change of it. -/
def TransferIntentRecord.envelope (record : TransferIntentRecord) : TransferIntentRecord :=
  {record with state := .pending, attempts := 0, revision := 0}

theorem TransferIntentRecord.Bound.of_envelope {scope : TransferScope}
    {record next : TransferIntentRecord} (hbound : record.Bound scope)
    (h : next.envelope = record.envelope) : next.Bound scope := by
  obtain ⟨hschema, howner, hledger, hnetwork⟩ := hbound
  have hschema' : next.schema = record.schema := congrArg (·.schema) h
  have howner' : next.ownerPrincipal = record.ownerPrincipal := congrArg (·.ownerPrincipal) h
  have hledger' : next.ledgerCanisterId = record.ledgerCanisterId := congrArg (·.ledgerCanisterId) h
  have hnetwork' : next.network = record.network := congrArg (·.network) h
  exact ⟨hschema'.trans hschema, howner'.trans howner, hledger'.trans hledger, hnetwork'.trans hnetwork⟩

theorem newIntent_bound (scope : TransferScope) (fields : BeginIntentFields) (bytes : IntentBytes)
    (clockMs : Nat) : (newIntent scope fields bytes clockMs).Bound scope := ⟨rfl, rfl, rfl, rfl⟩

theorem slotMatches_iff {current : Option TransferIntentRecord} {record : TransferIntentRecord} :
    slotMatches current (expectationOf record) = true ↔
      ∃ r, current = some r ∧ r.intentId = record.intentId ∧ r.revision = record.revision := by
  cases current with
  | none => simp [slotMatches]
  | some r => simp [slotMatches, expectationOf]

/-- What a call answers, and what it leaves. -/
inductive Effect (scope : TransferScope) (db : JournalDb) :
    JournalCall → JournalAnswer → JournalDb → Prop where
  | look {call : JournalCall} {answer : JournalAnswer} (hdone : answer ≠ .done)
      (hshows : ∀ r ∈ answer.shows, ∃ k : JsString, db.intents[k]? = some r) :
      Effect scope db call answer db
  | begun {fields : BeginIntentFields} {bytes : IntentBytes} {clockMs : Nat}
      (hempty : db.intents[scopeKey scope]? = none) :
      Effect scope db (.beginIntent fields bytes clockMs) (.intent (newIntent scope fields bytes clockMs))
        ⟨db.intents.insert (scopeKey scope) (newIntent scope fields bytes clockMs), db.archive⟩
  | written {call : JournalCall} {record next : TransferIntentRecord}
      (hrecord : call.record? = some record) (hdraws : call.draws = [])
      (hmatch : slotMatches db.intents[scopeKey scope]? (expectationOf record) = true)
      (hid : next.intentId = record.intentId) (henvelope : next.envelope = record.envelope)
      (hrevision : next.revision = record.revision + 1) :
      Effect scope db call (.intent next) ⟨db.intents.insert (scopeKey scope) next, db.archive⟩
  | resolved {record : TransferIntentRecord}
      (hmatch : slotMatches db.intents[scopeKey scope]? (expectationOf record) = true) :
      Effect scope db (.resolve record) .done ⟨db.intents.erase (scopeKey scope), db.archive⟩
  | abandoned {record : TransferIntentRecord} {clockMs : Nat} (hfrozen : record.state = .frozen)
      (hmatch : slotMatches db.intents[scopeKey scope]? (expectationOf record) = true) :
      Effect scope db (.abandonFrozen record true clockMs) .done
        ⟨db.intents.erase (scopeKey scope),
          db.archive ++ [⟨record, clockMs, literal "abandoned-after-external-reconcile"⟩]⟩

section Calls
variable {scope : TransferScope} {db : JournalDb} {record : TransferIntentRecord}

theorem compareAnd_of_match {write : JournalDb → JournalDb}
    (h : slotMatches db.intents[scopeKey scope]? (expectationOf record) = true) :
    compareAnd write (scopeKey scope) (expectationOf record) db = (.ok (), write db) := if_pos h

theorem compareAnd_of_stale {write : JournalDb → JournalDb}
    (h : slotMatches db.intents[scopeKey scope]? (expectationOf record) = false) :
    compareAnd write (scopeKey scope) (expectationOf record) db =
      (.error db.intents[scopeKey scope]?, db) := if_neg (Bool.eq_false_iff.1 h)

/-- The guards of an abandonment, which are looked at before the slot is. -/
def JournalCall.Guarded : JournalCall → Prop
  | .abandonFrozen record confirmed _ => record.state ≠ .frozen ∨ confirmed = false
  | _ => False

/-- A call with a record that is not the one in the slot. -/
theorem run_stale {call : JournalCall} (hrecord : call.record? = some record)
    (hstale : slotMatches db.intents[scopeKey scope]? (expectationOf record) = false) :
    call.run scope db = (.failed (.staleIntent db.intents[scopeKey scope]?), db) ∨
      call.Guarded ∧ ∃ e, (e = .notFrozen ∨ e = .notConfirmed) ∧ call.run scope db = (.failed e, db) := by
  cases call with
  | beginIntent fields bytes clockMs => exact nomatch hrecord
  | loadUnresolved => exact nomatch hrecord
  | markUnknown r =>
    obtain rfl := Option.some.inj hrecord
    left
    rw [JournalCall.run, markUnknown, compareAndPut, compareAnd_of_stale hstale]
    rfl
  | freeze r =>
    obtain rfl := Option.some.inj hrecord
    left
    rw [JournalCall.run, freeze, compareAndPut, compareAnd_of_stale hstale]
    rfl
  | resolve r =>
    obtain rfl := Option.some.inj hrecord
    left
    rw [JournalCall.run, resolve, compareAndRemove, compareAnd_of_stale hstale]
    rfl
  | abandonFrozen r confirmed clockMs =>
    obtain rfl := Option.some.inj hrecord
    rw [JournalCall.run, abandonFrozen]
    by_cases hfrozen : r.state ≠ .frozen
    · rw [if_pos hfrozen]
      exact .inr ⟨.inl hfrozen, _, .inl rfl, rfl⟩
    rw [if_neg hfrozen]
    by_cases hconfirmed : confirmed ≠ true
    · rw [if_pos hconfirmed]
      exact .inr ⟨.inr (Bool.eq_false_iff.2 hconfirmed), _, .inr rfl, rfl⟩
    rw [if_neg hconfirmed, archiveAndRemove, compareAnd_of_stale hstale]
    exact .inl rfl

/-- What a failed call shows is in a slot. -/
theorem Effect.of_failed {call : JournalCall} {e : JournalError}
    (h : e = .staleIntent db.intents[scopeKey scope]? ∨ e = .notFrozen ∨ e = .notConfirmed) :
    Effect scope db call (.failed e) db := by
  refine .look nofun fun r hr => ?_
  rcases h with rfl | rfl | rfl
  · exact ⟨_, Option.mem_toList.1 hr⟩
  · exact nomatch hr
  · exact nomatch hr

theorem run_effect (call : JournalCall) :
    Effect scope db call (call.run scope db).1 (call.run scope db).2 := by
  cases call with
  | beginIntent fields bytes clockMs =>
    cases hslot : db.intents[scopeKey scope]? with
    | none =>
      rw [JournalCall.run, beginIntent, claim, hslot]
      exact .begun hslot
    | some existing =>
      rw [JournalCall.run, beginIntent, claim, hslot]
      refine .look nofun fun r hr => ?_
      rw [List.mem_singleton.1 hr]
      exact ⟨_, hslot⟩
  | loadUnresolved =>
    refine .look nofun fun r hr => ⟨scopeKey scope, ?_⟩
    have hload : TransferJournal.loadUnresolved scope db = some r := Option.mem_toList.1 hr
    rw [TransferJournal.loadUnresolved] at hload
    cases hslot : db.intents[scopeKey scope]? with
    | none =>
      rw [hslot] at hload
      exact nomatch hload
    | some record =>
      rw [hslot] at hload
      exact (Option.ite_none_right_eq_some.1 hload).2
  | markUnknown r =>
    rw [JournalCall.run, markUnknown, compareAndPut]
    cases hmatch : slotMatches db.intents[scopeKey scope]? (expectationOf r) with
    | true =>
      rw [compareAnd_of_match hmatch]
      exact .written rfl rfl hmatch rfl rfl rfl
    | false =>
      rw [compareAnd_of_stale hmatch]
      exact .of_failed (.inl rfl)
  | freeze r =>
    rw [JournalCall.run, freeze, compareAndPut]
    cases hmatch : slotMatches db.intents[scopeKey scope]? (expectationOf r) with
    | true =>
      rw [compareAnd_of_match hmatch]
      exact .written rfl rfl hmatch rfl rfl rfl
    | false =>
      rw [compareAnd_of_stale hmatch]
      exact .of_failed (.inl rfl)
  | resolve r =>
    rw [JournalCall.run, resolve, compareAndRemove]
    cases hmatch : slotMatches db.intents[scopeKey scope]? (expectationOf r) with
    | true =>
      rw [compareAnd_of_match hmatch]
      exact .resolved hmatch
    | false =>
      rw [compareAnd_of_stale hmatch]
      exact .of_failed (.inl rfl)
  | abandonFrozen r confirmed clockMs =>
    rw [JournalCall.run, abandonFrozen]
    by_cases hfrozen : r.state ≠ .frozen
    · rw [if_pos hfrozen]
      exact .of_failed (.inr (.inl rfl))
    rw [if_neg hfrozen]
    by_cases hconfirmed : confirmed ≠ true
    · rw [if_pos hconfirmed]
      exact .of_failed (.inr (.inr rfl))
    rw [if_neg hconfirmed, archiveAndRemove]
    cases hmatch : slotMatches db.intents[scopeKey scope]? (expectationOf r) with
    | true =>
      obtain rfl := Decidable.of_not_not hconfirmed
      rw [compareAnd_of_match hmatch]
      exact .abandoned (Decidable.of_not_not hfrozen) hmatch
    | false =>
      rw [compareAnd_of_stale hmatch]
      exact .of_failed (.inl rfl)

/-- A call leaves the slots of other scopes alone. -/
theorem run_elsewhere {scope' : TransferScope} (call : JournalCall) (h : scope' ≠ scope) :
    (call.run scope db).2.intents[scopeKey scope']? = db.intents[scopeKey scope']? := by
  have hkey : scopeKey scope ≠ scopeKey scope' := fun hkey => h (versionKey_inj hkey).symm
  have heffect := @run_effect scope db call
  generalize (call.run scope db).1 = answer at heffect
  generalize (call.run scope db).2 = after at heffect ⊢
  cases heffect with
  | look _ _ => rfl
  | begun _ => exact StableMap.get_insert_ne _ hkey
  | written _ _ _ _ _ _ => exact StableMap.get_insert_ne _ hkey
  | resolved _ => exact StableMap.get_erase_ne hkey
  | abandoned _ _ => exact StableMap.get_erase_ne hkey

end Calls

/-! ### The slots of a journal -/

def tags : Tags TransferIntentRecord JsString TransferIntentRecord where
  id := TransferIntentRecord.intentId
  revision := TransferIntentRecord.revision
  body := TransferIntentRecord.envelope

theorem slot_insert {slot : JsString → Option TransferIntentRecord}
    {m : StableMap JsString TransferIntentRecord} (h : ∀ k : JsString, slot k = m[k]?)
    (key k : JsString) (r : TransferIntentRecord) :
    Function.update slot key (some r) k = (m.insert key r)[k]? := by
  rw [StableMap.get_insert]
  by_cases hkey : key = k
  · rw [hkey, if_pos rfl, Function.update_self]
  · rw [if_neg hkey, Function.update_of_ne (Ne.symm hkey), h]

theorem slot_erase {slot : JsString → Option TransferIntentRecord}
    {m : StableMap JsString TransferIntentRecord} (h : ∀ k : JsString, slot k = m[k]?)
    (key k : JsString) : Function.update slot key none k = (m.erase key)[k]? := by
  rw [StableMap.get_erase]
  by_cases hkey : key = k
  · rw [hkey, if_pos rfl, Function.update_self]
  · rw [if_neg hkey, Function.update_of_ne (Ne.symm hkey), h]

/-- The world, begun as `first`, is slots that are written by compare and swap. -/
structure Refines (first w : World) (a : Slots JsString TransferIntentRecord JsString) : Prop where
  sound : a.Sound tags
  slot : ∀ k : JsString, a.slot k = w.db.intents[k]?
  held : ∀ r ∈ w.held, r ∈ a.held
  drawn : ∀ i ∈ a.births.map Prod.fst, ∃ bytes ∈ w.drawn, mintIntentId bytes = i
  gone : a.gone = w.log.filterMap Event.removes
  bound : ∀ (k : JsString) (r : TransferIntentRecord), w.db.intents[k]? = some r →
    ∃ scope, k = scopeKey scope ∧ r.Bound scope
  audit : ∀ i, w.db.archivedIds.count i = first.db.archivedIds.count i + w.abandonments i
  old : ∀ i ∈ first.db.archivedIds, i ∉ a.births.map Prod.fst ∧
    ∃ bytes ∈ w.drawn, mintIntentId bytes = i

theorem mintIntentId_inj {a b : IntentBytes} (h : mintIntentId a = mintIntentId b) : a = b :=
  Subtype.ext (bytesToHex_inj h)

theorem Event.removes_of_abandons {e : Event} {i : JsString} (h : e.abandons = some i) :
    e.removes = some i := by
  obtain ⟨scope, call, answer⟩ := e
  cases call <;> cases answer <;> first | exact h | exact nomatch h

theorem Event.abandons_of_removes {e : Event} (h : e.removes = none) : e.abandons = none := by
  cases habandons : e.abandons with
  | none => rfl
  | some i => exact nomatch h.symm.trans (removes_of_abandons habandons)

theorem Event.removes_of_ne {e : Event} (h : e.answer ≠ .done) : e.removes = none := by
  obtain ⟨scope, call, answer⟩ := e
  cases call <;> cases answer <;> first | rfl | exact absurd rfl h

namespace Refines
variable {first w : World} {a : Slots JsString TransferIntentRecord JsString}
  {scope : TransferScope} {call : JournalCall}

/-- The record a call writes over is the one it was made with. -/
theorem current (h : Refines first w a) {record : TransferIntentRecord} (hheld : record ∈ w.held)
    (hmatch : slotMatches w.db.intents[scopeKey scope]? (expectationOf record) = true) :
    w.db.intents[scopeKey scope]? = some record := by
  obtain ⟨r, hr, hid, hrevision⟩ := slotMatches_iff.1 hmatch
  have hslot : a.slot (scopeKey scope) = some r := (h.slot _).trans hr
  obtain rfl := h.sound.held_eq (h.held _ hheld) hslot hid.symm hrevision.symm
  exact hr

theorem keeps_drawn (h : Refines first w a) (more : List IntentBytes) {i : JsString}
    (hi : i ∈ a.births.map Prod.fst) : ∃ bytes ∈ more ++ w.drawn, mintIntentId bytes = i := by
  obtain ⟨bytes, hbytes, hid⟩ := h.drawn i hi
  exact ⟨bytes, List.mem_append_right _ hbytes, hid⟩

theorem keeps_old (h : Refines first w a) (more : List IntentBytes) {i : JsString}
    (hi : i ∈ first.db.archivedIds) :
    i ∉ a.births.map Prod.fst ∧ ∃ bytes ∈ more ++ w.drawn, mintIntentId bytes = i := by
  obtain ⟨hborn, bytes, hbytes, hid⟩ := h.old i hi
  exact ⟨hborn, bytes, List.mem_append_right _ hbytes, hid⟩

/-- A world one event later, where the archive is as before. -/
theorem audit_kept (h : Refines first w a) {e : Event} (he : e.abandons = none) (i : JsString) :
    w.db.archivedIds.count i =
      first.db.archivedIds.count i + ((e :: w.log).filterMap Event.abandons).count i := by
  rw [List.filterMap_cons_none he]
  exact h.audit i

/-- Records copied from the slots are held. -/
theorem look (h : Refines first w a) {copies : List TransferIntentRecord}
    (hcopies : ∀ r ∈ copies, ∃ k : JsString, w.db.intents[k]? = some r) :
    Refines first w {a with held := copies ++ a.held} := by
  refine {h with sound := h.sound.look fun r hr => ?_, held := ?_}
  · obtain ⟨k, hk⟩ := hcopies r hr
    exact .inr ⟨k, (h.slot k).trans hk⟩
  · exact fun r hr => List.mem_append_right _ (h.held r hr)

theorem held_append (h : Refines first w a) (shows : List TransferIntentRecord) :
    ∀ r ∈ shows ++ w.held, r ∈ shows ++ a.held := by
  intro r hr
  rcases List.mem_append.1 hr with hr | hr
  · exact List.mem_append_left _ hr
  · exact List.mem_append_right _ (h.held r hr)

/-- A call is one move of the slots. -/
theorem after (h : Refines first w a) (hheld : ∀ r ∈ call.record?, r ∈ w.held)
    (hfresh : Fresh w (scope, call)) :
    ∃ b, Slots.Move tags a b ∧ Refines first (w.after scope call) b := by
  have heffect := @run_effect scope w.db call
  unfold World.after
  generalize (call.run scope w.db).1 = answer at heffect ⊢
  generalize (call.run scope w.db).2 = db at heffect ⊢
  cases heffect with
  | look hdone hshows =>
    have hremoves : (⟨scope, call, answer⟩ : Event).removes = none := Event.removes_of_ne hdone
    have hmove : Slots.Move tags a {a with held := answer.shows ++ a.held} := by
      refine .look fun r hr => ?_
      obtain ⟨k, hk⟩ := hshows r hr
      exact .inr ⟨k, (h.slot k).trans hk⟩
    refine ⟨_, hmove, ?_⟩
    refine {h.look hshows with
      held := h.held_append _, drawn := fun i hi => h.keeps_drawn _ hi, gone := ?_,
      audit := h.audit_kept (Event.abandons_of_removes hremoves),
      old := fun i hi => h.keeps_old _ hi}
    rw [List.filterMap_cons_none hremoves]
    exact h.gone
  | @begun fields bytes clockMs hempty =>
    have hnew : mintIntentId bytes ∉ a.births.map Prod.fst := by
      intro hmem
      obtain ⟨drawn, hdrawn, hid⟩ := h.drawn _ hmem
      exact hfresh bytes (List.mem_singleton.2 rfl) (mintIntentId_inj hid ▸ hdrawn)
    have hslot : a.slot (scopeKey scope) = none := (h.slot _).trans hempty
    refine ⟨_, .claim (r := newIntent scope fields bytes clockMs) hslot hnew, ?_⟩
    refine {
      sound := h.sound.claim hslot hnew, slot := fun k => slot_insert h.slot _ k _,
      held := h.held_append [_], drawn := ?_, gone := h.gone, bound := ?_,
      audit := h.audit_kept rfl, old := ?_}
    · intro i hi
      rcases List.mem_cons.1 hi with rfl | hi
      · exact ⟨bytes, List.mem_cons_self, rfl⟩
      · exact h.keeps_drawn [bytes] hi
    · intro k r hk
      change (w.db.intents.insert _ _)[k]? = some r at hk
      rw [StableMap.get_insert] at hk
      by_cases hkey : scopeKey scope = k
      · rw [if_pos hkey] at hk
        obtain rfl := Option.some.inj hk
        exact ⟨scope, hkey.symm, newIntent_bound ..⟩
      · rw [if_neg hkey] at hk
        exact h.bound k r hk
    · intro i hi
      obtain ⟨hborn, hdrawn⟩ := h.keeps_old [bytes] hi
      refine ⟨fun hmem => ?_, hdrawn⟩
      rcases List.mem_cons.1 hmem with rfl | hmem
      · obtain ⟨-, drawn, hmem, hid⟩ := h.old _ hi
        exact hfresh bytes (List.mem_singleton.2 rfl) (mintIntentId_inj hid ▸ hmem)
      · exact hborn hmem
  | @written _ record next hrecord hdraws hmatch hid henvelope hrevision =>
    have hcurrent := h.current (hheld record hrecord) hmatch
    have hslot : a.slot (scopeKey scope) = some record := (h.slot _).trans hcurrent
    have hremoves : (⟨scope, call, .intent next⟩ : Event).removes = none := Event.removes_of_ne nofun
    refine ⟨_, .swap hslot hid henvelope hrevision, ?_⟩
    refine {
      sound := h.sound.swap hslot hid henvelope hrevision, slot := fun k => slot_insert h.slot _ k _,
      held := h.held_append [_], drawn := fun i hi => h.keeps_drawn _ hi, gone := ?_,
      bound := ?_, audit := h.audit_kept (Event.abandons_of_removes hremoves),
      old := fun i hi => h.keeps_old _ hi}
    · rw [List.filterMap_cons_none hremoves]
      exact h.gone
    · intro k r hk
      change (w.db.intents.insert _ _)[k]? = some r at hk
      rw [StableMap.get_insert] at hk
      by_cases hkey : scopeKey scope = k
      · rw [if_pos hkey] at hk
        obtain rfl := Option.some.inj hk
        obtain ⟨scope', hscope, hbound⟩ := h.bound _ record hcurrent
        exact ⟨scope', hkey.symm.trans hscope, hbound.of_envelope henvelope⟩
      · rw [if_neg hkey] at hk
        exact h.bound k r hk
  | @resolved record hmatch =>
    have hcurrent := h.current (hheld record rfl) hmatch
    have hslot : a.slot (scopeKey scope) = some record := (h.slot _).trans hcurrent
    refine ⟨_, .remove hslot, ?_⟩
    refine {
      sound := h.sound.remove hslot, slot := fun k => slot_erase h.slot _ k, held := h.held,
      drawn := h.drawn, gone := congrArg (record.intentId :: ·) h.gone, bound := ?_,
      audit := h.audit_kept rfl, old := h.old}
    intro k r hk
    change (w.db.intents.erase _)[k]? = some r at hk
    rw [StableMap.get_erase] at hk
    exact h.bound k r (Option.ite_none_left_eq_some.1 hk).2
  | @abandoned record clockMs hfrozen hmatch =>
    have hcurrent := h.current (hheld record rfl) hmatch
    have hslot : a.slot (scopeKey scope) = some record := (h.slot _).trans hcurrent
    refine ⟨_, .remove hslot, ?_⟩
    refine {
      sound := h.sound.remove hslot, slot := fun k => slot_erase h.slot _ k, held := h.held,
      drawn := h.drawn, gone := congrArg (record.intentId :: ·) h.gone, bound := ?_, audit := ?_,
      old := h.old}
    · intro k r hk
      change (w.db.intents.erase _)[k]? = some r at hk
      rw [StableMap.get_erase] at hk
      exact h.bound k r (Option.ite_none_left_eq_some.1 hk).2
    · intro i
      have haudit := h.audit i
      show (List.map _ (w.db.archive ++ [_])).count i = _ + (record.intentId :: _).count i
      rw [List.map_append, List.count_append, List.count_cons]
      rw [JournalDb.archivedIds] at haudit
      rw [haudit, List.map_singleton, List.count_singleton]
      exact Nat.add_assoc ..

/-- Whatever is called, the slots move as they may. -/
theorem run {u : World} (h : Refines first u a) (hrun : (journal.startedIn u).RunIf Fresh w) :
    ∃ b, Slots.Moves tags a b ∧ Refines first w b := by
  refine System.RunIf.invariant (I := fun w => ∃ b, Slots.Moves tags a b ∧ Refines first w b)
    ?_ ?_ hrun
  · rintro _ rfl
    exact ⟨a, .refl, h⟩
  · intro w act w' _ hI hfresh hstep
    obtain ⟨b, hmoves, hb⟩ := hI
    obtain ⟨hheld, rfl⟩ := hstep
    obtain ⟨c, hmove, hc⟩ := hb.after hheld hfresh
    exact ⟨c, hmoves.tail hmove, hc⟩

end Refines

/-! ### Databases of version 1 -/

section Migration
variable {draw : Nat → IntentBytes} {rest : List (JsString × V1TransferIntentRecord)}

/-- Entries under keys of version 1. -/
def Keyed (entries : List (JsString × V1TransferIntentRecord)) : Prop :=
  ∀ e ∈ entries, ∃ scope, e.1 = versionKey 1 scope

theorem newKey_inj {scope scope' : TransferScope}
    (h : newKey (versionKey 1 scope) = newKey (versionKey 1 scope')) : scope = scope' := by
  rw [newKey_versionKey, newKey_versionKey] at h
  exact versionKey_inj h

/-- A record of the migrated store was put there for an entry, or was there before. -/
theorem migrateIntents_get {i : Nat} {store : MixedStore} {k : JsString} {r : TransferIntentRecord}
    (h : (migrateIntents draw i rest store).new[k]? = some r) :
    (∃ j e, rest[j]? = some e ∧ k = newKey e.1 ∧ r = migrateV1Record (draw (i + j)) e.2) ∨
      store.new[k]? = some r := by
  induction rest generalizing i store with
  | nil => exact .inr h
  | cons e rest ih =>
    rcases ih h with ⟨j, e', he', hk, hr⟩ | hold
    · rw [Nat.add_right_comm, Nat.add_assoc] at hr
      exact .inl ⟨j + 1, e', he', hk, hr⟩
    · change ((store.new.erase e.1).insert (newKey e.1) (migrateV1Record (draw i) e.2))[k]? = some r at hold
      rw [StableMap.get_insert, StableMap.get_erase] at hold
      by_cases hkey : newKey e.1 = k
      · rw [if_pos hkey] at hold
        exact .inl ⟨0, e, rfl, hkey.symm, (Option.some.inj hold).symm⟩
      · rw [if_neg hkey] at hold
        exact .inr (Option.ite_none_left_eq_some.1 hold).2

theorem migrateIntents_other {i : Nat} {store : MixedStore} {k : JsString}
    (h : ∀ e ∈ rest, e.1 ≠ k ∧ newKey e.1 ≠ k) :
    (migrateIntents draw i rest store).new[k]? = store.new[k]? := by
  induction rest generalizing i store with
  | nil => rfl
  | cons e rest ih =>
    obtain ⟨hold, hnew⟩ := h e List.mem_cons_self
    have hrest := @ih (i + 1) ((store.delete e.1).put (migrateV1Record (draw i) e.2) (newKey e.1))
      fun e' he' => h e' (List.mem_cons_of_mem _ he')
    refine hrest.trans ?_
    show ((store.new.erase e.1).insert (newKey e.1) _)[k]? = store.new[k]?
    rw [StableMap.get_insert_ne _ hnew, StableMap.get_erase_ne hold]

/-- Every entry has its record in the migrated store. -/
theorem migrateIntents_placed {i j : Nat} {store : MixedStore}
    {e : JsString × V1TransferIntentRecord} (hkeyed : Keyed rest) (hnodup : (rest.map Prod.fst).Nodup)
    (he : rest[j]? = some e) :
    (migrateIntents draw i rest store).new[newKey e.1]? = some (migrateV1Record (draw (i + j)) e.2) := by
  induction rest generalizing i j store with
  | nil => exact nomatch he
  | cons e' rest ih =>
    obtain ⟨hhead, hnodup⟩ := List.nodup_cons.1 hnodup
    have hrest : Keyed rest := fun x hx => hkeyed x (List.mem_cons_of_mem _ hx)
    cases j with
    | succ j =>
      have hput := @ih (i + 1) j ((store.delete e'.1).put (migrateV1Record (draw i) e'.2) (newKey e'.1))
        hrest hnodup he
      rw [Nat.add_right_comm, Nat.add_assoc] at hput
      exact hput
    | zero =>
      obtain rfl := Option.some.inj he
      obtain ⟨scope, hscope⟩ := hkeyed e' List.mem_cons_self
      let put := (store.delete e'.1).put (migrateV1Record (draw i) e'.2) (newKey e'.1)
      refine (@migrateIntents_other draw rest (i + 1) put _ fun x hx => ?_).trans ?_
      · obtain ⟨scope', hscope'⟩ := hrest x hx
        rw [hscope, hscope', newKey_versionKey]
        refine ⟨versionKey_ne scope' scope, fun heq => ?_⟩
        obtain rfl := newKey_inj heq
        exact hhead (hscope.trans hscope'.symm ▸ List.mem_map_of_mem hx)
      · show ((store.new.erase e'.1).insert (newKey e'.1) _)[newKey e'.1]? = _
        rw [StableMap.get_insert, if_pos rfl]
        rfl

/-- The keys the loop went over are gone. -/
theorem migrateIntents_old {i : Nat} {store : MixedStore} {k : JsString} {r : V1TransferIntentRecord}
    (h : (migrateIntents draw i rest store).old[k]? = some r) :
    store.old[k]? = some r ∧ ∀ e ∈ rest, e.1 ≠ k := by
  induction rest generalizing i store with
  | nil => exact ⟨h, nofun⟩
  | cons e rest ih =>
    obtain ⟨hold, hrest⟩ := ih h
    change ((store.old.erase e.1).erase (newKey e.1))[k]? = some r at hold
    rw [StableMap.get_erase, StableMap.get_erase] at hold
    obtain ⟨-, hold⟩ := Option.ite_none_left_eq_some.1 hold
    obtain ⟨hkey, hold⟩ := Option.ite_none_left_eq_some.1 hold
    refine ⟨hold, fun x hx => ?_⟩
    rcases List.mem_cons.1 hx with rfl | hx
    · exact hkey
    · exact hrest x hx

/-- Each entry of the loop claims an empty slot. -/
theorem migrateIntents_moves {i n : Nat} {store : MixedStore}
    {a : Slots JsString TransferIntentRecord JsString} (hkeyed : Keyed rest)
    (hnodup : (rest.map Prod.fst).Nodup) (hdraw : ∀ j < n, ∀ j' < n, draw j = draw j' → j = j')
    (hlength : i + rest.length ≤ n) (hslot : ∀ k : JsString, a.slot k = store.new[k]?)
    (hbirths : ∀ id ∈ a.births.map Prod.fst, ∃ j < i, mintIntentId (draw j) = id)
    (hgone : a.gone = []) (hfree : ∀ e ∈ rest, store.new[newKey e.1]? = none)
    (hold : ∀ e ∈ rest, store.new[e.1]? = none) :
    ∃ b, Slots.Moves tags a b ∧
      (∀ k : JsString, b.slot k = (migrateIntents draw i rest store).new[k]?) ∧
      (∀ id ∈ b.births.map Prod.fst, ∃ j < i + rest.length, mintIntentId (draw j) = id) ∧
      b.gone = [] := by
  induction rest generalizing i store a with
  | nil => exact ⟨a, .refl, hslot, hbirths, hgone⟩
  | cons e rest ih =>
    obtain ⟨hhead, hnodup⟩ := List.nodup_cons.1 hnodup
    obtain ⟨scope, hscope⟩ := hkeyed e List.mem_cons_self
    have hrest : Keyed rest := fun x hx => hkeyed x (List.mem_cons_of_mem _ hx)
    rw [List.length_cons] at hlength
    have hempty : a.slot (newKey e.1) = none := (hslot _).trans (hfree e List.mem_cons_self)
    have hfresh : tags.id (migrateV1Record (draw i) e.2) ∉ a.births.map Prod.fst := by
      intro hmem
      obtain ⟨j, hj, hid⟩ := hbirths _ hmem
      have heq := hdraw j (by omega) i (by omega) (mintIntentId_inj hid)
      omega
    have herase : store.new.erase e.1 = store.new :=
      StableMap.erase_of_none (hold e List.mem_cons_self)
    let put := (store.delete e.1).put (migrateV1Record (draw i) e.2) (newKey e.1)
    have hput : ∀ k : JsString, newKey e.1 ≠ k → put.new[k]? = store.new[k]? := by
      intro k hkey
      show ((store.new.erase e.1).insert (newKey e.1) _)[k]? = _
      rw [herase, StableMap.get_insert_ne _ hkey]
    have hslot' : ∀ k : JsString,
        Function.update a.slot (newKey e.1) (some (migrateV1Record (draw i) e.2)) k = put.new[k]? := by
      intro k
      show _ = ((store.new.erase e.1).insert (newKey e.1) _)[k]?
      rw [herase]
      exact slot_insert hslot _ k _
    have hbirths' : ∀ id ∈ mintIntentId (draw i) :: a.births.map Prod.fst,
        ∃ j < i + 1, mintIntentId (draw j) = id := by
      intro id hid
      rcases List.mem_cons.1 hid with rfl | hid
      · exact ⟨i, by omega, rfl⟩
      · obtain ⟨j, hj, hid⟩ := hbirths id hid
        exact ⟨j, by omega, hid⟩
    have hfree' : ∀ x ∈ rest, put.new[newKey x.1]? = none := by
      intro x hx
      refine (hput _ fun heq => ?_).trans (hfree x (List.mem_cons_of_mem _ hx))
      obtain ⟨scope', hscope'⟩ := hrest x hx
      rw [hscope, hscope'] at heq
      obtain rfl := newKey_inj heq
      exact hhead (hscope.trans hscope'.symm ▸ List.mem_map_of_mem hx)
    have hold' : ∀ x ∈ rest, put.new[x.1]? = none := by
      intro x hx
      refine (hput _ fun heq => ?_).trans (hold x (List.mem_cons_of_mem _ hx))
      obtain ⟨scope', hscope'⟩ := hrest x hx
      rw [hscope, hscope', newKey_versionKey] at heq
      exact versionKey_ne scope' scope heq.symm
    let claimed : Slots JsString TransferIntentRecord JsString :=
      {a with
        slot := Function.update a.slot (newKey e.1) (some (migrateV1Record (draw i) e.2)),
        held := migrateV1Record (draw i) e.2 :: a.held,
        births := (mintIntentId (draw i), newKey e.1) :: a.births}
    have hclaim : Slots.Move tags a claimed := .claim hempty hfresh
    obtain ⟨b, hmoves, hb, hborn, hgone'⟩ := @ih (i + 1) put claimed hrest hnodup (by omega) hslot'
      hbirths' hgone hfree' hold'
    refine ⟨b, .head hclaim hmoves, hb, fun id hid => ?_, hgone'⟩
    obtain ⟨j, hj, hid⟩ := hborn id hid
    exact ⟨j, by rw [List.length_cons]; omega, hid⟩

namespace V1JournalDb
variable {v1 : V1JournalDb} {draw : Nat → IntentBytes}

theorem toList_keyed (v1 : V1JournalDb) : Keyed v1.intents.toList := by
  intro e he
  obtain ⟨scope, hscope, -⟩ := v1.keyed e.1 e.2 (StableMap.mem_toList.1 he)
  exact ⟨scope, hscope⟩

theorem toList_nodup (v1 : V1JournalDb) : (v1.intents.toList.map Prod.fst).Nodup := by
  rw [Std.ExtTreeMap.map_fst_toList_eq_keys]
  exact StableMap.keys_nodup v1.intents

theorem migrate_get {k : JsString} {r : TransferIntentRecord}
    (h : (v1.migrate draw).intents[k]? = some r) :
    ∃ scope j v, k = scopeKey scope ∧ v1.intents[versionKey 1 scope]? = some v ∧
      r = migrateV1Record (draw j) v ∧ r.Bound scope := by
  rcases migrateIntents_get h with ⟨j, e, he, hk, hr⟩ | hold
  · have hmem := StableMap.mem_toList.1 (List.mem_of_getElem? he)
    obtain ⟨scope, hscope, howner, hledger, hnetwork⟩ := v1.keyed e.1 e.2 hmem
    rw [hscope] at hk hmem
    rw [newKey_versionKey] at hk
    rw [Nat.zero_add] at hr
    exact ⟨scope, j, e.2, hk, hmem, hr, hr ▸ ⟨rfl, howner, hledger, hnetwork⟩⟩
  · exact nomatch hold

theorem migrate_placed {scope : TransferScope} {v : V1TransferIntentRecord}
    (h : v1.intents[versionKey 1 scope]? = some v) :
    ∃ j, (v1.migrate draw).intents[scopeKey scope]? = some (migrateV1Record (draw j) v) := by
  obtain ⟨j, hj⟩ := List.mem_iff_getElem?.1 (StableMap.mem_toList.2 h)
  have hput := @migrateIntents_placed draw _ 0 j ⟨v1.intents, ∅⟩ _ v1.toList_keyed v1.toList_nodup hj
  rw [Nat.zero_add] at hput
  exact ⟨j, hput⟩

/-- Nothing of version 1 is left. -/
theorem migratedStore_old (v1 : V1JournalDb) (draw : Nat → IntentBytes) (k : JsString) :
    (v1.migratedStore draw).old[k]? = none := by
  cases hold : (v1.migratedStore draw).old[k]? with
  | none => rfl
  | some r =>
    obtain ⟨hk, hnone⟩ := migrateIntents_old hold
    exact absurd rfl (hnone (k, r) (StableMap.mem_toList.2 hk))

theorem archivedIds_migrate {i : JsString} (h : i ∈ (v1.migrate draw).archivedIds) :
    ∃ j, v1.intents.toList.length ≤ j ∧ j < v1.draws ∧ mintIntentId (draw j) = i := by
  obtain ⟨entry, hentry, rfl⟩ := List.mem_map.1 h
  obtain ⟨⟨v, j⟩, hv, rfl⟩ := List.mem_map.1 hentry
  have hj := (List.mem_zipIdx hv).2.1
  refine ⟨v1.intents.toList.length + j, by omega, ?_, rfl⟩
  rw [draws]
  omega

theorem loadUnresolved_migrate (v1 : V1JournalDb) (draw : Nat → IntentBytes) (scope : TransferScope) :
    (loadUnresolved scope (v1.migrate draw)).map (·.toV1TransferIntentRecord) =
      (v1.intents[versionKey 1 scope]?).map fun v => {v with schema := transferJournalSchema} := by
  rw [loadUnresolved]
  cases hv : v1.intents[versionKey 1 scope]? with
  | some v =>
    obtain ⟨j, hj⟩ := @migrate_placed v1 draw _ _ hv
    obtain ⟨scope', -, -, hkey, -, -, hbound⟩ := migrate_get hj
    obtain rfl := versionKey_inj hkey
    rw [hj]
    show Option.map _ (if _ then _ else _) = _
    rw [if_pos hbound]
    rfl
  | none =>
    cases hr : (v1.migrate draw).intents[scopeKey scope]? with
    | none => rfl
    | some r =>
      obtain ⟨scope', j, v, hkey, hv', -⟩ := migrate_get hr
      obtain rfl := versionKey_inj hkey
      exact nomatch hv.symm.trans hv'

theorem archive_migrate (v1 : V1JournalDb) (draw : Nat → IntentBytes) :
    (v1.migrate draw).archive.map
        (fun e => (e.record.toV1TransferIntentRecord, e.archivedAtMs, e.resolution)) =
      v1.archive.map
        (fun e => ({e.record with schema := transferJournalSchema}, e.archivedAtMs, e.resolution)) := by
  show List.map _ (List.map _ v1.archive.zipIdx) = _
  rw [List.map_map]
  have hfst : v1.archive = v1.archive.zipIdx.map Prod.fst := (List.zipIdx_map_fst 0 v1.archive).symm
  conv_rhs => rw [hfst, List.map_map]
  rfl

end V1JournalDb

end Migration

/-- A database that was just opened is slots nobody has written yet. -/
theorem Opened.refines {first : World} (h : Opened first) : ∃ a, Refines first first a := by
  have hnothing : ∀ slot : JsString → Option TransferIntentRecord, (∀ k, slot k = none) →
      Slots.Sound tags ⟨slot, [], [], []⟩ := by
    intro slot hslot
    refine ⟨List.nodup_nil, fun k r hk => ?_, nofun, nofun, List.nodup_nil, nofun, nofun⟩
    exact nomatch (hslot k).symm.trans hk
  cases h with
  | created =>
    refine ⟨⟨fun _ => none, [], [], []⟩, hnothing _ fun _ => rfl, fun k => rfl, nofun, nofun, rfl, ?_, ?_, ?_⟩
    · exact fun k r hk => nomatch hk
    · exact fun i => rfl
    · exact nofun
  | migrated draw v1 hdistinct =>
    obtain ⟨b, hmoves, hslot, hbirths, hgone⟩ := @migrateIntents_moves draw v1.intents.toList 0 v1.draws
      ⟨v1.intents, ∅⟩ ⟨fun _ => none, [], [], []⟩ v1.toList_keyed v1.toList_nodup hdistinct
      (by rw [V1JournalDb.draws]; omega) (fun k => rfl) nofun rfl (fun _ _ => rfl) (fun _ _ => rfl)
    have hdrawn : ∀ {j}, j < v1.draws → draw j ∈ (List.range v1.draws).map draw :=
      fun hj => List.mem_map_of_mem (List.mem_range.2 hj)
    rw [Nat.zero_add] at hbirths
    have hle : v1.intents.toList.length ≤ v1.draws := Nat.le_add_right ..
    refine ⟨b, (hnothing _ fun _ => rfl).moves hmoves, hslot, nofun, ?_, hgone, ?_, fun i => rfl, ?_⟩
    · intro i hi
      obtain ⟨j, hj, hid⟩ := hbirths i hi
      exact ⟨draw j, hdrawn (by omega), hid⟩
    · intro k r hk
      obtain ⟨scope, j, v, hkey, -, -, hbound⟩ := V1JournalDb.migrate_get hk
      exact ⟨scope, hkey, hbound⟩
    · intro i hi
      obtain ⟨j, hfrom, hj, hid⟩ := V1JournalDb.archivedIds_migrate hi
      refine ⟨fun hmem => ?_, draw j, hdrawn hj, hid⟩
      obtain ⟨j', hj', hid'⟩ := hbirths i hmem
      have heq := hdistinct j' (by omega) j hj (mintIntentId_inj (hid'.trans hid.symm))
      omega

/-! ### Any calls of any tabs -/

theorem abandonments_le (w : World) (id : JsString) : w.abandonments id ≤ w.removals id := by
  unfold World.abandonments World.removals
  induction w.log with
  | nil => exact Nat.le_refl _
  | cons e log ih =>
    cases hremoves : e.removes with
    | none =>
      rw [List.filterMap_cons_none hremoves, List.filterMap_cons_none (Event.abandons_of_removes hremoves)]
      exact ih
    | some i =>
      rw [List.filterMap_cons_some hremoves, List.count_cons]
      cases habandons : e.abandons with
      | none =>
        rw [List.filterMap_cons_none habandons]
        exact Nat.le_trans ih (Nat.le_add_right ..)
      | some j =>
        obtain rfl := Option.some.inj (hremoves.symm.trans (Event.removes_of_abandons habandons))
        rw [List.filterMap_cons_some habandons, List.count_cons]
        exact Nat.add_le_add_right ih _

namespace Refines
variable {first u w : World} {a b : Slots JsString TransferIntentRecord JsString}

/-- What is in a slot is of the scope whose slot it is, and so is what is loaded. -/
theorem loaded (h : Refines first u a) (scope : TransferScope) :
    loadUnresolved scope u.db = u.db.intents[scopeKey scope]? := by
  rw [loadUnresolved]
  cases hslot : u.db.intents[scopeKey scope]? with
  | none => rfl
  | some r =>
    obtain ⟨scope', hkey, hbound⟩ := h.bound _ r hslot
    obtain rfl := versionKey_inj hkey
    exact if_pos hbound

theorem loaded_iff (h : Refines first u a) (scope : TransferScope) (k : JsString)
    (r : TransferIntentRecord) :
    u.db.intents[k]? = some r ∧ r.Bound scope ↔ k = scopeKey scope ∧ loadUnresolved scope u.db = some r := by
  constructor
  · rintro ⟨hslot, -, howner, hledger, hnetwork⟩
    obtain ⟨scope', rfl, -, howner', hledger', hnetwork'⟩ := h.bound k r hslot
    obtain rfl : scope' = scope := by
      obtain ⟨owner, ledger, network⟩ := scope
      rw [TransferScope.mk.injEq]
      exact ⟨Subtype.ext (howner'.symm.trans howner), Subtype.ext (hledger'.symm.trans hledger),
        hnetwork'.symm.trans hnetwork⟩
    exact ⟨rfl, (h.loaded scope').trans hslot⟩
  · rintro ⟨rfl, hload⟩
    have hslot := (h.loaded scope).symm.trans hload
    obtain ⟨scope', hkey, hbound⟩ := h.bound _ r hslot
    obtain rfl := versionKey_inj hkey
    exact ⟨hslot, hbound⟩

/-- An intent of an earlier world, in a later one. -/
theorem follows (ha : Refines first u a) (hrun : (journal.startedIn u).RunIf Fresh w) {k k' : JsString}
    {r r' : TransferIntentRecord} (hk : u.db.intents[k]? = some r) (hk' : w.db.intents[k']? = some r')
    (hid : r.intentId = r'.intentId) : k = k' ∧ Slots.Follows tags r r' := by
  have hcopies : ∀ x ∈ [r], ∃ k : JsString, u.db.intents[k]? = some x :=
    fun x hx => ⟨k, List.mem_singleton.1 hx ▸ hk⟩
  have hlook := ha.look hcopies
  obtain ⟨b, hmoves, hb⟩ := hlook.run hrun
  exact hmoves.follows hlook.sound List.mem_cons_self ((ha.slot k).trans hk) ((hb.slot k').trans hk') hid

/-- An intent of an earlier world is in its slot or was removed, once. -/
theorem removed (ha : Refines first u a) (hmoves : Slots.Moves tags a b) (hb : Refines first w b)
    {k : JsString} {r : TransferIntentRecord} (hk : u.db.intents[k]? = some r) :
    w.db.archivedIds.count r.intentId = w.abandonments r.intentId ∧
      w.removals r.intentId ≤ 1 ∧
        (w.removals r.intentId = 0 ↔ w.db.Holds r.intentId) := by
  have hborn : (r.intentId, k) ∈ b.births :=
    hmoves.grows.2 (ha.sound.born k r ((ha.slot k).trans hk))
  have hremovals : w.removals r.intentId = b.gone.count r.intentId := by rw [hb.gone, World.removals]
  refine ⟨?_, ?_, ?_⟩
  · have hold : r.intentId ∉ first.db.archivedIds := fun hmem =>
      (hb.old _ hmem).1 (List.mem_map_of_mem hborn)
    rw [hb.audit, List.count_eq_zero.2 hold, Nat.zero_add]
  · rw [hremovals]
    exact List.nodup_iff_count_le_one.1 hb.sound.gone_nodup _
  · rw [hremovals, List.count_eq_zero, hb.sound.live_iff _ k hborn]
    constructor
    · rintro ⟨r', hr', hid⟩
      exact ⟨k, r', (hb.slot k).symm.trans hr', hid⟩
    · rintro ⟨k', r', hr', hid⟩
      have hslot := (hb.slot k').trans hr'
      have hborn' : (r'.intentId, k') ∈ b.births := hb.sound.born k' r' hslot
      obtain rfl := Slots.births_key hb.sound.births_nodup hborn (hid ▸ hborn')
      exact ⟨r', hslot, hid⟩

end Refines

/-- The slot of a scope is a register written by compare and swap: it holds the one unresolved
intent of the scope, whose envelope stays as it was begun and whose revision rises with every write.
A call with a record that is not in the slot is told what is, unless an abandonment's own guards
refuse it first. An intent is removed once, and archived once if it was abandoned. -/
theorem transfer_journal_registers {first u w : World} (hopened : Opened first)
    (hu : (journal.startedIn first).RunIf Fresh u) (hw : (journal.startedIn u).RunIf Fresh w) :
    (∀ (scope : TransferScope) (k : JsString) (r : TransferIntentRecord),
      u.db.intents[k]? = some r ∧ r.Bound scope ↔
        k = scopeKey scope ∧ loadUnresolved scope u.db = some r) ∧
    (∀ (k k' : JsString) (r r' : TransferIntentRecord), u.db.intents[k]? = some r →
      w.db.intents[k']? = some r' → r.intentId = r'.intentId →
        k = k' ∧ r.envelope = r'.envelope ∧ r.revision ≤ r'.revision ∧
          (r.revision = r'.revision → r = r')) ∧
    (∀ (scope : TransferScope) (call : JournalCall) (record : TransferIntentRecord),
      call.record? = some record →
      slotMatches u.db.intents[scopeKey scope]? (expectationOf record) = false →
        call.run scope u.db = (.failed (.staleIntent (loadUnresolved scope u.db)), u.db) ∨
          call.Guarded ∧ ∃ e, (e = .notFrozen ∨ e = .notConfirmed) ∧
            call.run scope u.db = (.failed e, u.db)) ∧
    (∀ (k : JsString) (r : TransferIntentRecord), u.db.intents[k]? = some r →
      (w.db.Holds r.intentId →
        w.removals r.intentId = 0 ∧ w.db.archivedIds.count r.intentId = 0) ∧
      (¬w.db.Holds r.intentId →
        w.removals r.intentId = 1 ∧ w.db.archivedIds.count r.intentId = w.abandonments r.intentId)) ∧
    (∀ (scope scope' : TransferScope) (call : JournalCall), scope' ≠ scope →
      (call.run scope u.db).2.intents[scopeKey scope']? = u.db.intents[scopeKey scope']?) ∧
    ∀ (v1 : V1JournalDb) (draw : Nat → IntentBytes),
      (∀ scope, (loadUnresolved scope (v1.migrate draw)).map (·.toV1TransferIntentRecord) =
        (v1.intents[versionKey 1 scope]?).map fun v => {v with schema := transferJournalSchema}) ∧
      (∀ (k : JsString) (r : TransferIntentRecord), (v1.migrate draw).intents[k]? = some r →
        ∃ scope v, k = scopeKey scope ∧ v1.intents[versionKey 1 scope]? = some v ∧ r.revision = 0) ∧
      (∀ k : JsString, (v1.migratedStore draw).old[k]? = none) ∧
      (v1.migrate draw).archive.map
          (fun e => (e.record.toV1TransferIntentRecord, e.archivedAtMs, e.resolution)) =
        v1.archive.map
          (fun e => ({e.record with schema := transferJournalSchema}, e.archivedAtMs, e.resolution)) := by
  obtain ⟨_, hfirst⟩ := hopened.refines
  obtain ⟨a, -, ha⟩ := hfirst.run hu
  obtain ⟨b, hmoves, hb⟩ := ha.run hw
  refine ⟨ha.loaded_iff, ?_, ?_, ?_, fun _ _ call h => run_elsewhere call h, ?_⟩
  · intro k k' r r' hk hk' hid
    obtain ⟨hkey, hfollows⟩ := ha.follows hw hk hk' hid
    exact ⟨hkey, hfollows.body, hfollows.revision, hfollows.same⟩
  · intro scope call record hrecord hstale
    rw [ha.loaded scope]
    exact run_stale hrecord hstale
  · intro k r hk
    obtain ⟨harchived, hle, hholds⟩ := ha.removed hmoves hb hk
    have habandoned := abandonments_le w r.intentId
    refine ⟨fun hlive => ?_, fun hgone => ?_⟩
    · have hzero := hholds.2 hlive
      exact ⟨hzero, by omega⟩
    · have hpos := mt hholds.1 hgone
      exact ⟨by omega, harchived⟩
  · intro v1 draw
    refine ⟨v1.loadUnresolved_migrate draw, fun k r hk => ?_, v1.migratedStore_old draw,
      v1.archive_migrate draw⟩
    obtain ⟨scope, j, v, hkey, hv, rfl, -⟩ := V1JournalDb.migrate_get hk
    exact ⟨scope, v, hkey, hv, rfl⟩

/-! ### Two tabs -/

section Sample

def sampleScope : TransferScope where
  ownerPrincipal := ⟨literal "2vxsx-fae", by decide +kernel⟩
  ledgerCanisterId := ⟨literal "ryjl3-tyaaa-aaaaa-aaaba-cai", by decide +kernel⟩
  network := literal "https://icp-api.io"

def sampleFields : BeginIntentFields :=
  ⟨literal "aaaaa-aa", none, 500, 10, none, none, 1700000000000000000, some 1700000000000⟩

def sampleBytes : IntentBytes := ⟨List.replicate 16 7, rfl⟩

def samplePending : TransferIntentRecord := newIntent sampleScope sampleFields sampleBytes 0

def sampleUnknown : TransferIntentRecord :=
  {samplePending with state := .unknown, attempts := 1, revision := 1}

def sampleFrozen : TransferIntentRecord := {sampleUnknown with state := .frozen, revision := 2}

def sampleBegun : World := World.created.after sampleScope (.beginIntent sampleFields sampleBytes 0)

def sampleMarked : World := sampleBegun.after sampleScope (.markUnknown samplePending)

def sampleFroze : World := sampleMarked.after sampleScope (.freeze sampleUnknown)

def sampleAbandoned : World := sampleFroze.after sampleScope (.abandonFrozen sampleFrozen true 0)

theorem sampleBegun_run : (journal.startedIn .created).RunIf Fresh sampleBegun :=
  .step (a := (sampleScope, .beginIntent sampleFields sampleBytes 0)) (.start rfl)
    (fun _ _ => List.not_mem_nil) ⟨nofun, rfl⟩

/-- A call that draws nothing, with a record that is held. -/
theorem run_next {first u : World} {scope : TransferScope} {call : JournalCall}
    {record : TransferIntentRecord} (hu : (journal.startedIn first).RunIf Fresh u)
    (hrecord : call.record? = some record) (hdraws : call.draws = []) (hheld : record ∈ u.held) :
    (journal.startedIn first).RunIf Fresh (u.after scope call) := by
  refine .step (a := (scope, call)) hu (fun bytes hbytes => ?_) ⟨fun r hr => ?_, rfl⟩
  · rw [hdraws] at hbytes
    exact nomatch hbytes
  · rw [hrecord] at hr
    exact Option.some.inj hr ▸ hheld

theorem sampleAbandoned_run : (journal.startedIn sampleBegun).RunIf Fresh sampleAbandoned := by
  have hmarked : (journal.startedIn sampleBegun).RunIf Fresh sampleMarked :=
    run_next (.start rfl) rfl rfl (by decide +kernel)
  have hfroze : (journal.startedIn sampleBegun).RunIf Fresh sampleFroze :=
    run_next hmarked rfl rfl (by decide +kernel)
  exact run_next hfroze rfl rfl (by decide +kernel)

theorem transfer_journal_registers_abandoned :
    sampleAbandoned.removals samplePending.intentId = 1 ∧
      sampleAbandoned.db.archivedIds.count samplePending.intentId = 1 := by
  have hslot : sampleBegun.db.intents[scopeKey sampleScope]? = some samplePending := by decide +kernel
  have hempty : sampleAbandoned.db.intents.toList = [] := by decide +kernel
  have hgone : ¬sampleAbandoned.db.Holds samplePending.intentId := by
    rintro ⟨k, r, hr, -⟩
    have hmem := StableMap.mem_toList.2 hr
    rw [hempty] at hmem
    exact nomatch hmem
  have hremoved := transfer_journal_registers .created sampleBegun_run sampleAbandoned_run
  obtain ⟨hremovals, harchived⟩ := (hremoved.2.2.2.1 _ _ hslot).2 hgone
  have habandoned : sampleAbandoned.abandonments samplePending.intentId = 1 := by decide +kernel
  exact ⟨hremovals, harchived.trans habandoned⟩

/-- An abandonment with a record that is neither frozen nor in the slot is not told what is. -/
theorem abandonFrozen_guards_first :
    (journal.startedIn .created).RunIf Fresh sampleMarked ∧
      samplePending ∈ sampleMarked.held ∧
      slotMatches sampleMarked.db.intents[scopeKey sampleScope]? (expectationOf samplePending) = false ∧
      sampleMarked.db.intents[scopeKey sampleScope]? = some sampleUnknown ∧
      (JournalCall.run sampleScope sampleMarked.db (.abandonFrozen samplePending true 0)).1 =
        .failed .notFrozen := by
  refine ⟨run_next sampleBegun_run rfl rfl (by decide +kernel), ?_⟩
  decide +kernel

end Sample

end StshProtocol.Wallet.TransferJournal
