import StshProtocol.Wallet.Cache.Kept

/-! The runs of the tabs over one store.

Each operation is followed along its text, and its outlines make the record's whole history. -/
namespace StshProtocol.Wallet
open Foundation CacheProgram

section
variable {K : Type} [DecidableEq K] {M : Platform K} {s₀ : CacheStore K} {t : Nat}
  {op : CacheOperation K} {α β : Type} {Q : Except CacheError β → CacheStore K → Prop}
  {own : List (CacheCommit K)} {reads : Reads K} {e : CacheCommit K} {p : String}

/-! ### Outlines of the parts -/

/-- What has written nothing may fail. -/
def MayFail (t : Nat) (Q : Except CacheError β → CacheStore K → Prop) : Prop :=
  ∀ err s, s.own t = [] → Q (.error err) s

/-- An operation has ended, and if it failed it has written nothing. -/
def Settled (t : Nat) (r : Except CacheError β) (s : CacheStore K) : Prop :=
  ∀ err, r = .error err → s.own t = []

omit [DecidableEq K] in
theorem settled_mayFail : MayFail t (Settled (β := β) t : _ → CacheStore K → Prop) :=
  fun _ _ h _ _ => h

theorem outline_fails (hQ : MayFail t Q) (err : CacheError) :
    CacheOutline M s₀ t op Q (Local s₀ t [] reads) (.throw err) :=
  .throw fun s _ h => hQ err s h.own

theorem outline_returns {P : CacheStore K → Prop} (a : β) :
    CacheOutline M s₀ t op (Settled t) P (.done a) :=
  .done fun _ _ _ _ h => nomatch h

theorem idle_ofExcept (hQ : MayFail t Q) {x : Except CacheError α} {f : α → CacheProgram K β}
    (hf : ∀ a, x = .ok a → CacheOutline M s₀ t op Q (Local s₀ t [] reads) (f a)) :
    CacheOutline M s₀ t op Q (Local s₀ t [] reads) (Async.ofExcept x >>= f) := by
  cases x with
  | ok a => exact hf a rfl
  | error err => exact outline_fails hQ err

theorem outline_check {f : α → CacheProgram K β} {a : α} {err : CacheError} (hQ : MayFail t Q)
    (hf : CacheOutline M s₀ t op Q (Local s₀ t [] reads) (f a)) (holds : Bool) :
    CacheOutline M s₀ t op Q (Local s₀ t [] reads) ((check holds err a).bind f) := by
  cases holds with
  | true => exact hf
  | false => exact outline_fails hQ err

theorem idle_assertCurrent (hQ : MayFail t Q) {f : Unit → CacheProgram K β}
    (hf : CacheOutline M s₀ t op Q (Local s₀ t [] reads) (f ())) :
    CacheOutline M s₀ t op Q (Local s₀ t [] reads) (assertCurrent >>= f) :=
  outline_quiet .assertCurrent (fun s x s' h => by cases h; exact ⟨rfl, rfl, rfl⟩)
    (outline_check hQ hf)

theorem idle_usableKey (hQ : MayFail t Q) {cache : PrincipalNoteCache K} {f : K → CacheProgram K β}
    (hf : CacheOutline M s₀ t op Q (Local s₀ t [] reads) (f cache.key)) :
    CacheOutline M s₀ t op Q (Local s₀ t [] reads) (usableKey cache >>= f) :=
  outline_quiet (.usableKey cache.instanceId) (fun s x s' h => by cases h; exact ⟨rfl, rfl, rfl⟩)
    (outline_check hQ hf)

theorem gateSchema_quiet {i schema : Nat} (s : CacheStore K) (x : Bool) (s' : CacheStore K)
    (h : s.serve t op (.gateSchema i schema) x = some s') :
    s'.slots = s.slots ∧ s'.legacy = s.legacy ∧ s'.commits = s.commits := by
  change (if schema = cacheSchemaV3 then _ else _) = _ at h
  by_cases hschema : schema = cacheSchemaV3
  · rw [if_pos hschema] at h
    cases x with
    | true => cases h; exact ⟨rfl, rfl, rfl⟩
    | false => cases h
  · rw [if_neg hschema] at h
    by_cases hx : x = !s.sawV3 i
    · rw [if_pos hx] at h
      cases h
      exact ⟨rfl, rfl, rfl⟩
    · rw [if_neg hx] at h
      cases h

theorem idle_gateSchema (hQ : MayFail t Q) {cache : PrincipalNoteCache K}
    {record : StoredCacheRecordV2 K} {f : Unit → CacheProgram K β}
    (hf : CacheOutline M s₀ t op Q (Local s₀ t [] reads) (f ())) :
    CacheOutline M s₀ t op Q (Local s₀ t [] reads) (gateSchema cache record >>= f) :=
  outline_quiet (.gateSchema cache.instanceId record.schemaVersion) gateSchema_quiet
    (outline_check hQ hf)

theorem idle_getRandomValues {n : Nat} {f : Bytes → CacheProgram K β}
    (hf : ∀ bytes, CacheOutline M s₀ t op Q (Local s₀ t [] reads) (f bytes)) :
    CacheOutline M s₀ t op Q (Local s₀ t [] reads) (getRandomValues n >>= f) := by
  refine outline_quiet (.getRandomValues n) (fun s (x : Bytes) s' h => ?_) hf
  change (if x.length = n then some s else none) = some s' at h
  by_cases hx : x.length = n
  · rw [if_pos hx] at h
    cases h
    exact ⟨rfl, rfl, rfl⟩
  · rw [if_neg hx] at h
    cases h

theorem idle_deriveCacheKeyV2 (hQ : MayFail t Q) {passphrase : String} {salt : Bytes}
    {f : K → CacheProgram K β}
    (hf : CacheOutline M s₀ t op Q (Local s₀ t [] reads) (f (M.argon2id passphrase salt))) :
    CacheOutline M s₀ t op Q (Local s₀ t [] reads) (deriveCacheKeyV2 M passphrase salt >>= f) := by
  unfold deriveCacheKeyV2
  by_cases hlen : salt.length ≠ argon2idSaltBytes
  · rw [if_pos hlen]
    exact outline_fails hQ _
  · rw [if_neg hlen]
    exact outline_quiet .argon2id (fun s x s' h => by cases h; exact ⟨rfl, rfl, rfl⟩)
      (outline_check hQ hf)

theorem idle_sealFresh (hQ : MayFail t Q) {key : K} {salt : Bytes} {state : CachedScanState} {v : Nat}
    {f : StoredCacheRecordV2 K → CacheProgram K β}
    (hf : ∀ iv record, sealRecord M key salt iv state p v = .ok record →
      CacheOutline M s₀ t op Q (Local s₀ t [] reads) (f record)) :
    CacheOutline M s₀ t op Q (Local s₀ t [] reads) (sealFresh M key salt state p v >>= f) :=
  idle_getRandomValues (n := ivBytes)
    (f := fun iv => Async.ofExcept (sealRecord M key salt iv state p v) >>= f)
    fun iv => idle_ofExcept hQ (hf iv)

theorem idle_get (hQ : MayFail t Q) {f : Option (CacheSlot K) → CacheProgram K β}
    (hnone : CacheOutline M s₀ t op Q (Local s₀ t [] reads) (f none))
    (hsome : ∀ slot, CacheOutline M s₀ t op Q (Local s₀ t [] ((p, slot) :: reads)) (f (some slot))) :
    CacheOutline M s₀ t op Q (Local s₀ t [] reads) (get p >>= f) :=
  outline_get (k := fun x => (accepted x).bind f) (outline_fails hQ _) hnone hsome

theorem idle_getLegacy (hQ : MayFail t Q) {f : Option (StoredRecord K) → CacheProgram K β}
    (hf : ∀ legacy, CacheOutline M s₀ t op Q (Local s₀ t [] reads) (f legacy)) :
    CacheOutline M s₀ t op Q (Local s₀ t [] reads) (getLegacy >>= f) := by
  refine outline_quiet .getLegacy (k := fun x => (accepted x).bind f)
    (fun s (x : Option (Option (StoredRecord K))) s' h => ?_) ?_
  · change (if x = none ∨ x = some s.legacy then some s else none) = some s' at h
    by_cases hx : x = none ∨ x = some s.legacy
    · rw [if_pos hx] at h
      cases h
      exact ⟨rfl, rfl, rfl⟩
    · rw [if_neg hx] at h
      cases h
  · rintro (_ | legacy)
    · exact outline_fails hQ _
    · exact hf legacy

theorem idle_compareAndPut (hQ : MayFail t Q) (before : Option (CacheSlot K)) {slot : CacheSlot K}
    {f : Bool → CacheProgram K β} (hread : ∀ read, before = some read → (p, read) ∈ reads)
    (hrev : slot.revision = (before.map CacheSlot.revision).getD 0 + 1)
    (hlawful : CacheCommit.Lawful M ⟨t, op, p, before, slot, none⟩)
    (hlost : CacheOutline M s₀ t op Q (Local s₀ t [] reads) (f false))
    (hwritten : CacheOutline M s₀ t op Q (Local s₀ t [⟨t, op, p, before, slot, none⟩] reads)
      (f true)) :
    CacheOutline M s₀ t op Q (Local s₀ t [] reads)
      (compareAndPut p (before.map CacheSlot.revision) slot >>= f) :=
  outline_compareAndPut (k := fun x => (accepted x).bind f) hread hrev hlawful (outline_fails hQ _)
    hlost hwritten

/-! ### Outlines of the operations -/

theorem outline_openWithKey (id : Nat) (key : K) :
    CacheOutline M s₀ t op (Settled t) (Local s₀ t [] reads) (openWithKey M id key p) := by
  refine idle_assertCurrent settled_mayFail (idle_ofExcept settled_mayFail fun _ _ => ?_)
  refine idle_get settled_mayFail (outline_fails settled_mayFail _) fun slot => ?_
  show CacheOutline M s₀ t op (Settled t) _ (if !isKeyBased slot.record.kdfVersion then _ else _)
  cases isKeyBased slot.record.kdfVersion with
  | false => exact outline_fails settled_mayFail _
  | true =>
    exact idle_ofExcept settled_mayFail fun _ _ =>
      idle_assertCurrent settled_mayFail (outline_returns _)

omit [DecidableEq K] in
theorem sealed_schema {key : K} {salt iv : Bytes} {state : CachedScanState} {v : Nat}
    {record : StoredCacheRecordV2 K} (h : sealRecord M key salt iv state p v = .ok record) :
    record.kdfVersion = v ∧ record.schemaVersion = cacheSchemaV3 ∧ record.salt = salt := by
  obtain ⟨-, hrecord⟩ := sealRecord_ok h
  rw [hrecord]
  exact ⟨rfl, rfl, rfl⟩

omit [DecidableEq K] in
/-- Where nothing was there, nothing needs to have been read. -/
theorem none_read (read : CacheSlot K) (h : none = some read) : (p, read) ∈ reads :=
  (Option.some_ne_none _ h.symm).elim

theorem outline_openOrCreateAttempts (id : Nat) (key : K) (v attempts : Nat) :
    CacheOutline M s₀ t (.openOrCreateWithKey key p v) (Settled t) (Local s₀ t [] reads)
      (openOrCreateAttempts M id key p v attempts) := by
  induction attempts with
  | zero => exact outline_fails settled_mayFail _
  | succ attempts ih =>
    refine idle_get settled_mayFail ?_ fun slot => outline_openWithKey id key
    refine idle_getRandomValues fun salt => idle_sealFresh settled_mayFail fun iv record hseal => ?_
    refine idle_assertCurrent settled_mayFail ?_
    obtain ⟨hkdf, hschema, -⟩ := sealed_schema hseal
    have hopen : openRecord M key record p = .ok emptyScanState :=
      openRecord_sealRecord hseal readable_empty
    refine idle_compareAndPut settled_mayFail none none_read rfl
      ⟨⟨rfl, rfl, hkdf, hopen, rfl⟩, hschema⟩ ih ?_
    refine outline_readBack (k := fun x => (accepted x).bind _) ?_
    show CacheOutline M s₀ t _ _ _ (if record.kdfVersion ≠ v then _ else _)
    rw [if_neg (not_not.2 hkdf), hopen]
    exact outline_stillCurrent (k := fun x => (check x _ ()).bind _) (outline_returns _)

theorem outline_openOrCreateWithKey (id : Nat) (key : K) (v : Nat) :
    CacheOutline M s₀ t (.openOrCreateWithKey key p v) (Settled t) (Local s₀ t [] reads)
      (openOrCreateWithKey M id key p v) := by
  unfold openOrCreateWithKey
  cases isKeyBased v with
  | false => exact outline_fails settled_mayFail _
  | true =>
    exact idle_assertCurrent settled_mayFail (idle_ofExcept settled_mayFail fun _ _ =>
      outline_openOrCreateAttempts id key v maxCasAttempts)

theorem outline_openSlot (id : Nat) (passphrase : String) (record : StoredCacheRecordV2 K) :
    CacheOutline M s₀ t op (Settled t) (Local s₀ t [] reads)
      (openSlot M id passphrase p record) := by
  unfold openSlot
  by_cases hkdf : record.kdfVersion ≠ kdfVersionArgon2id
  · rw [if_pos hkdf]
    exact outline_fails settled_mayFail _
  · rw [if_neg hkdf]
    exact idle_deriveCacheKeyV2 settled_mayFail (idle_ofExcept settled_mayFail fun _ _ =>
      idle_assertCurrent settled_mayFail (outline_returns _))

theorem outline_openAttempts (id : Nat) (passphrase : String) (attempts : Nat) :
    CacheOutline M s₀ t (.openWithPassphrase passphrase p) (Settled t) (Local s₀ t [] reads)
      (openAttempts M id passphrase p attempts) := by
  induction attempts with
  | zero => exact outline_fails settled_mayFail _
  | succ attempts ih =>
    refine idle_get settled_mayFail ?_ fun slot => outline_openSlot id passphrase slot.record
    refine idle_getLegacy settled_mayFail fun legacy => ?_
    cases legacy with
    | none =>
      refine idle_getRandomValues fun salt => idle_deriveCacheKeyV2 settled_mayFail ?_
      refine idle_sealFresh settled_mayFail fun iv record hseal => ?_
      refine idle_assertCurrent settled_mayFail ?_
      obtain ⟨hkdf, hschema, hsalt⟩ := sealed_schema hseal
      have hopen := openRecord_sealRecord hseal readable_empty
      rw [← hsalt] at hopen
      exact idle_compareAndPut settled_mayFail none none_read rfl
        ⟨⟨rfl, rfl, hkdf, hopen, fun _ h => (Option.some_ne_none _ h.symm).elim⟩, hschema⟩ ih
        (outline_returns _)
    | some legacy =>
      refine idle_ofExcept settled_mayFail fun v1state hv1 => ?_
      show CacheOutline M s₀ t _ _ _ (if 0 < v1state.notes.length then _ else _)
      by_cases hnotes : 0 < v1state.notes.length
      · rw [if_pos hnotes]
        exact outline_fails settled_mayFail _
      rw [if_neg hnotes]
      have hempty : v1state.notes = [] := List.eq_nil_of_length_eq_zero (by omega)
      refine idle_getRandomValues fun salt => idle_deriveCacheKeyV2 settled_mayFail ?_
      refine idle_sealFresh settled_mayFail fun iv record hseal => ?_
      refine idle_assertCurrent settled_mayFail ?_
      obtain ⟨hkdf, hschema, hsalt⟩ := sealed_schema hseal
      have hopen := openRecord_sealRecord hseal readable_empty
      rw [← hsalt] at hopen
      refine outline_migrateLegacy (k := fun x => (accepted x).bind _) rfl
        ⟨⟨rfl, rfl, hkdf, hopen, ?_⟩, hschema⟩ (outline_fails settled_mayFail _) ?_ (outline_returns _)
      · intro legacy' heq
        cases heq
        exact ⟨v1state, hv1, hempty⟩
      · intro reply hreply
        cases reply with
        | ok => exact absurd rfl hreply
        | legacyChanged => exact outline_fails settled_mayFail _
        | legacyMissing => exact ih
        | scopedExists => exact ih

theorem outline_openWithPassphrase (id : Nat) (passphrase : String) :
    CacheOutline M s₀ t (.openWithPassphrase passphrase p) (Settled t) (Local s₀ t [] reads)
      (openWithPassphrase M id passphrase p) :=
  idle_assertCurrent settled_mayFail (idle_ofExcept settled_mayFail fun _ _ =>
    outline_openAttempts id passphrase maxCasAttempts)

theorem outline_load (cache : PrincipalNoteCache K) :
    CacheOutline M s₀ t op (Settled t) (Local s₀ t [] reads) (load M cache) := by
  refine idle_usableKey settled_mayFail (idle_get settled_mayFail (outline_fails settled_mayFail _)
    fun slot => idle_gateSchema settled_mayFail ?_)
  cases openRecord M cache.key slot.record cache.principalText with
  | ok state => exact outline_returns _
  | error err => exact outline_fails settled_mayFail _

/-- What an update leaves that has ended: what it returned, written once. -/
def Updated (M : Platform K) (cache : PrincipalNoteCache K) (t : Nat)
    (r : Except CacheError CachedScanState) (s : CacheStore K) : Prop :=
  match r with
  | .error _ => s.own t = []
  | .ok next => ∃ e, s.own t = [e] ∧
      openRecord M cache.key e.after.record cache.principalText = .ok next

theorem outline_update (cache : PrincipalNoteCache K)
    {fn : CachedScanState → Except CacheError CachedScanState}
    (hfn : ∀ current next, Readable current → fn current = .ok next → Readable next) (attempts : Nat) :
    CacheOutline M s₀ t (.update cache fn) (Updated M cache t) (Local s₀ t [] reads)
      (updateAttempts M cache fn attempts) := by
  have hQ : MayFail t (Updated M cache t) := fun _ _ h => h
  induction attempts generalizing reads with
  | zero => exact outline_fails hQ _
  | succ attempts ih =>
    refine idle_usableKey hQ (idle_get hQ (outline_fails hQ _) fun slot => idle_gateSchema hQ ?_)
    refine idle_ofExcept hQ fun current hcurrent => idle_ofExcept hQ fun next hnext => ?_
    refine idle_sealFresh hQ fun iv record hseal => idle_assertCurrent hQ ?_
    obtain ⟨hkdf, hschema, hsalt⟩ := sealed_schema hseal
    have hopen := openRecord_sealRecord hseal
      (hfn current next (openRecord_ok hcurrent).2.2.2 hnext)
    refine idle_compareAndPut hQ (some slot) ?_ rfl
      ⟨⟨rfl, hkdf, hsalt, rfl, slot, current, next, rfl, hcurrent, hnext, hopen⟩, hschema⟩ ih ?_
    · intro read heq
      cases heq
      exact List.mem_cons_self
    · exact outline_quiet (.sawV3 cache.instanceId)
        (fun s x s' h => by cases h; exact ⟨rfl, rfl, rfl⟩)
        fun _ => .done fun s _ hl => ⟨_, hl.own, hopen⟩

/-- The write of a migration or a re-seal, and its reading back. -/
theorem outline_resealSlot {slot : CacheSlot K} {state : CachedScanState} {toKey : K} {toVersion : Nat}
    {message : String} (hread : (p, slot) ∈ reads) (hstate : Readable state)
    (hlawful : ∀ record, record.kdfVersion = toVersion → record.schemaVersion = cacheSchemaV3 →
      openRecord M toKey record p = .ok state →
        CacheCommit.Lawful M ⟨t, op, p, some slot, ⟨slot.revision + 1, record⟩, none⟩) :
    CacheOutline M s₀ t op (Settled t) (Local s₀ t [] reads)
      (resealSlot M p slot state toKey toVersion message) := by
  refine idle_getRandomValues fun salt => idle_sealFresh settled_mayFail fun iv record hseal => ?_
  refine idle_assertCurrent settled_mayFail ?_
  obtain ⟨hkdf, hschema, -⟩ := sealed_schema hseal
  have hopen := openRecord_sealRecord hseal hstate
  refine idle_compareAndPut settled_mayFail (some slot) ?_ rfl
    (hlawful record hkdf hschema hopen) (outline_fails settled_mayFail _) ?_
  · intro read heq
    cases heq
    exact hread
  · refine outline_readBack (k := fun x => (accepted x).bind _) ?_
    show CacheOutline M s₀ t _ _ _ (if record.kdfVersion ≠ toVersion then _ else _)
    rw [if_neg (not_not.2 hkdf), hopen]
    exact outline_returns _

theorem outline_migratePassphraseRecord (passphrase : String) (mode : CacheMigrationMode) (key : K) :
    CacheOutline M s₀ t (.migratePassphraseRecord p passphrase mode key) (Settled t)
      (Local s₀ t [] reads) (migratePassphraseRecord M p passphrase mode key) := by
  refine idle_assertCurrent settled_mayFail (idle_ofExcept settled_mayFail fun _ _ => ?_)
  refine idle_get settled_mayFail (outline_fails settled_mayFail _) fun slot => ?_
  show CacheOutline M s₀ t _ _ _ (if slot.record.kdfVersion ≠ kdfVersionArgon2id then _ else _)
  by_cases hkdf : slot.record.kdfVersion = kdfVersionArgon2id
  · rw [if_neg (not_not.2 hkdf)]
    refine idle_deriveCacheKeyV2 settled_mayFail (idle_ofExcept settled_mayFail fun state hopen => ?_)
    exact outline_resealSlot List.mem_cons_self (openRecord_ok hopen).2.2.2
      fun record hversion hschema hseal =>
        ⟨⟨rfl, hversion, rfl, slot, state, rfl, hkdf, hopen, hseal⟩, hschema⟩
  · rw [if_pos hkdf]
    exact outline_fails settled_mayFail _

theorem outline_resealKeyRecord (fromKey toKey : K) (toVersion : Nat) :
    CacheOutline M s₀ t (.resealKeyRecord p fromKey toKey toVersion) (Settled t)
      (Local s₀ t [] reads) (resealKeyRecord M p fromKey toKey toVersion) := by
  unfold resealKeyRecord
  cases isKeyBased toVersion with
  | false => exact outline_fails settled_mayFail _
  | true =>
    refine idle_assertCurrent settled_mayFail (idle_ofExcept settled_mayFail fun _ _ => ?_)
    refine idle_get settled_mayFail (outline_fails settled_mayFail _) fun slot => ?_
    show CacheOutline M s₀ t _ _ _ (if slot.record.kdfVersion = toVersion then _ else _)
    by_cases hversion : slot.record.kdfVersion = toVersion
    · rw [if_pos hversion]
      exact idle_ofExcept settled_mayFail fun _ _ => outline_returns _
    rw [if_neg hversion]
    cases hkey : isKeyBased slot.record.kdfVersion with
    | false => exact outline_fails settled_mayFail _
    | true =>
      refine idle_ofExcept settled_mayFail fun state hopen => ?_
      exact outline_resealSlot List.mem_cons_self (openRecord_ok hopen).2.2.2
        fun record hto hschema hseal =>
          ⟨⟨rfl, hto, rfl, slot, state, rfl, hkey, hversion, hopen, hseal⟩, hschema⟩

theorem outline_program (op : CacheOperation K)
    (hfn : ∀ cache fn, op = .update cache fn →
      ∀ current next, Readable current → fn current = .ok next → Readable next) :
    CacheOutline M s₀ t op (CacheEnds M t op) (Local s₀ t [] []) (op.program M t) := by
  have settled : ∀ {α : Type} {p : CacheProgram K α} {f : α → CacheReply K},
      (∀ r s, CacheEnds M t op (.ok r) s) → CacheOutline M s₀ t op (Settled t) (Local s₀ t [] []) p →
        CacheOutline M s₀ t op (CacheEnds M t op) (Local s₀ t [] []) (p.bind (.done ∘ f)) :=
    fun hends h => h.bind (fun _ => .done fun s _ _ => hends _ s) fun err _ _ he => he err rfl
  cases op with
  | openWithPassphrase passphrase p =>
    exact settled (fun _ _ => trivial) (outline_openWithPassphrase t passphrase)
  | openWithKey key p => exact settled (fun _ _ => trivial) (outline_openWithKey t key)
  | openOrCreateWithKey key p v =>
    exact settled (fun _ _ => trivial) (outline_openOrCreateWithKey t key v)
  | load cache => exact settled (fun _ _ => trivial) (outline_load cache)
  | update cache fn =>
    refine (outline_update cache (hfn cache fn rfl) maxCasAttempts).bind
      (fun next => .done fun s _ hs => ?_) fun _ _ _ he => he
    obtain ⟨e, hown, hopen⟩ := hs
    exact ⟨e, next, hown, rfl, hopen⟩
  | migratePassphraseRecord p passphrase mode key =>
    exact settled (fun _ _ => trivial) (outline_migratePassphraseRecord passphrase mode key)
  | resealKeyRecord p fromKey toKey v =>
    exact settled (fun _ _ => trivial) (outline_resealKeyRecord fromKey toKey v)

/-! ### The runs -/

/-- A store with no commits in its history, whose records open. -/
structure Stocked (M : Platform K) (s₀ : CacheStore K) : Prop where
  commits : s₀.commits = []
  opens : ∀ p slot, s₀.slots p = some slot → ∃ key state, openRecord M key slot.record p = .ok state

/-- A commit is noted as the task's whose action it was. -/
theorem serve_commits {s s' : CacheStore K} {act : CacheAction K} {x : act.Answer}
    (h : s.serve t op act x = some s') :
    s'.commits = s.commits ∨ ∃ e, s'.commits = e :: s.commits ∧ e.task = t ∧ e.operation = op := by
  cases act with
  | compareAndPut p expected slot =>
    revert h
    revert x
    rintro (_ | written) h
    · cases h
      exact .inl rfl
    · obtain ⟨-, h⟩ := Option.ite_none_right_eq_some.1 h
      cases h
      cases written with
      | true => exact .inr ⟨_, rfl, rfl, rfl⟩
      | false => exact .inl rfl
  | migrateLegacy p slot observed =>
    revert h
    revert x
    rintro (_ | reply) h
    · cases h
      exact .inl rfl
    · obtain ⟨-, h⟩ := Option.ite_none_right_eq_some.1 h
      cases h
      by_cases hok : reply = .ok
      · rw [if_pos hok]
        exact .inr ⟨_, rfl, rfl, rfl⟩
      · rw [if_neg hok]
        exact .inl rfl
  | get p =>
    obtain ⟨-, h⟩ := Option.ite_none_right_eq_some.1 h
    cases h
    exact .inl rfl
  | getLegacy =>
    obtain ⟨-, h⟩ := Option.ite_none_right_eq_some.1 h
    cases h
    exact .inl rfl
  | getRandomValues n =>
    obtain ⟨-, h⟩ := Option.ite_none_right_eq_some.1 h
    cases h
    exact .inl rfl
  | gateSchema i schema => exact .inl (gateSchema_quiet s x s' h).2.2
  | assertCurrent => cases h; exact .inl rfl
  | usableKey i => cases h; exact .inl rfl
  | argon2id => cases h; exact .inl rfl
  | sawV3 i => cases h; exact .inl rfl

variable {ok : CacheTabs K → TabEvent (CacheOperation K) (CacheAction K) CacheAction.Answer → Prop}
  {w : CacheTabs K}

/-- Every commit is of an operation that was launched. -/
theorem run_committed (h₀ : s₀.commits = []) (run : (cacheShell M s₀).system.RunIf ok w) :
    ∀ e ∈ w.shared.commits, ∃ prog, w.tasks e.task = some (e.operation, prog) := by
  refine System.RunIf.invariant (I := fun w =>
    ∀ e ∈ w.shared.commits, ∃ prog, w.tasks e.task = some (e.operation, prog)) ?_ ?_ run
  · rintro w ⟨hs, -, -⟩ e he
    rw [show w.shared = s₀ from hs, h₀] at he
    cases he
  · intro w ev w' hrun hw _ hstep e he
    cases hstep with
    | launch _ =>
      obtain ⟨prog, hprog⟩ := hw e he
      refine ⟨prog, (Function.update_of_ne (fun heq => ?_) _ _).trans hprog⟩
      rw [Shell.run_unlaunched hrun e.task (Nat.le_of_eq heq.symm)] at hprog
      cases hprog
    | @answer t i act k x s' hk hs =>
      have kept : ∀ e ∈ w.shared.commits,
          ∃ prog, (w.advance t i (k x) s').tasks e.task = some (e.operation, prog) := by
        intro e he
        obtain ⟨prog, hprog⟩ := hw e he
        by_cases ht : e.task = t
        · subst ht
          cases hk.symm.trans hprog
          exact ⟨_, Function.update_self _ _ _⟩
        · exact ⟨prog, (Function.update_of_ne ht _ _).trans hprog⟩
      rcases serve_commits hs with hsame | ⟨e', hcons, rfl, rfl⟩
      · exact kept e (hsame ▸ he)
      · have he : e ∈ s'.commits := he
        rw [hcons] at he
        rcases List.mem_cons.1 he with rfl | he
        · exact ⟨_, Function.update_self _ _ _⟩
        · exact kept e he
    | outside h =>
      obtain ⟨legacy, rfl⟩ := h
      exact hw e he

/-- What the tabs keep of the record: the commits follow each other a revision at a time, each
writes what its operation owes, what has failed has written nothing and what has updated has
written once, and every record opens under one key, for one owner and at one version. -/
structure RecordKept (M : Platform K) (s₀ : CacheStore K) (w : CacheTabs K) : Prop
    extends CacheStore.Kept M s₀ w.shared where
  committed : ∀ e ∈ w.shared.commits, ∃ prog, w.tasks e.task = some (e.operation, prog)
  failed : ∀ t op err, w.tasks t = some (op, .throw err) → w.shared.own t = []
  updated : ∀ t cache fn r, w.tasks t = some (.update cache fn, .done r) →
    ∃ e next, w.shared.own t = [e] ∧ r = .state next ∧
      openRecord M cache.key e.after.record cache.principalText = .ok next
  opens : ∀ p slot, w.shared.slots p = some slot →
    ∃ key state, openRecord M key slot.record p = .ok state ∧
      ∀ key' v s p' state',
        openRecord M key' {slot.record with kdfVersion := v, schemaVersion := s} p' = .ok state' →
          key' = key ∧ v = slot.record.kdfVersion ∧ s = slot.record.schemaVersion ∧ p' = p

theorem CacheCommit.Lawful.opens (h : CacheCommit.Lawful M e) :
    ∃ key state, openRecord M key e.after.record e.principalText = .ok state := by
  obtain ⟨howed, -⟩ := h
  unfold CacheCommit.Owed at howed
  cases hop : e.operation with
  | openWithPassphrase passphrase p =>
    rw [hop] at howed
    exact ⟨_, _, howed.1 ▸ howed.2.2.2.1⟩
  | openOrCreateWithKey key p v =>
    rw [hop] at howed
    exact ⟨_, _, howed.1 ▸ howed.2.2.2.1⟩
  | update cache fn =>
    rw [hop] at howed
    obtain ⟨hp, -, -, -, slot, current, next, -, -, -, hopen⟩ := howed
    exact ⟨_, next, hp ▸ hopen⟩
  | migratePassphraseRecord p passphrase mode key =>
    rw [hop] at howed
    obtain ⟨hp, -, -, slot, state, -, -, -, hopen⟩ := howed
    exact ⟨_, state, hp ▸ hopen⟩
  | resealKeyRecord p fromKey toKey v =>
    rw [hop] at howed
    obtain ⟨hp, -, -, slot, state, -, -, -, -, hopen⟩ := howed
    exact ⟨_, state, hp ▸ hopen⟩
  | openWithKey key p => rw [hop] at howed; exact howed.elim
  | load cache => rw [hop] at howed; exact howed.elim

/-- Every task of an undisturbed run has its outline. -/
theorem run_outlines (h₀ : Stocked M s₀) (run : (cacheShell M s₀).system.RunIf Undisturbed w) :
    CacheStore.Kept M s₀ w.shared ∧ ∀ t op prog, w.tasks t = some (op, prog) →
      ∃ P, P w.shared ∧ (cacheContract M s₀).Stable t P ∧
        CacheOutline M s₀ t op (CacheEnds M t op) P prog := by
  refine Shell.run_outlined (cacheContract M s₀) (fun t op => Answered t op) ?_ ?_ ?_ ?_
    (fun t op r => ends_stable op r) run
  · rintro s rfl
    refine ⟨fun p => ?_, fun e he => ?_, fun h => .inl h⟩
    · rw [CacheStore.commitsOf, h₀.commits]
      exact .start
    · rw [h₀.commits] at he
      cases he
  · intro w op hrun _ hok _
    have hown : w.shared.own w.next = [] := by
      refine List.filter_eq_nil_iff.2 fun e he htask => ?_
      obtain ⟨prog, hprog⟩ := run_committed h₀.commits hrun e he
      rw [Shell.run_unlaunched hrun e.task (Nat.le_of_eq (of_decide_eq_true htask).symm)] at hprog
      cases hprog
    refine ⟨Local s₀ w.next [] [], ⟨hown, fun r hr => by cases hr⟩, ?_⟩
    exact outline_program op fun cache fn heq => by
      subst heq
      exact hok
  · exact fun w t op act k x s' _ _ hok hs => ⟨hs, hok⟩
  · rintro w s' hi - ⟨legacy, rfl⟩
    exact ⟨⟨hi.history, hi.lawful, by simp⟩, rfl⟩

/-- As long as no one comes between the write of an operation and its end, and `update` is given
functions that keep the state readable, the record is kept. -/
theorem record_kept (M : Platform K) {s₀ : CacheStore K} (h₀ : Stocked M s₀) {w : CacheTabs K}
    (run : (cacheShell M s₀).system.RunIf Undisturbed w) : RecordKept M s₀ w := by
  obtain ⟨hkept, htasks⟩ := run_outlines h₀ run
  refine ⟨hkept, run_committed h₀.commits run, ?_, ?_, ?_⟩
  · intro t op err htask
    obtain ⟨P, hp, -, houtline⟩ := htasks t op _ htask
    exact Shell.ends_of_outline (r := .error err) hkept hp houtline
  · intro t cache fn r htask
    obtain ⟨P, hp, -, houtline⟩ := htasks t _ _ htask
    exact Shell.ends_of_outline (r := .ok r) hkept hp houtline
  · intro p slot hslot
    have happeared := hkept.history p
    rw [hslot] at happeared
    obtain ⟨key, state, hopen⟩ : ∃ key state, openRecord M key slot.record p = .ok state := by
      rcases happeared.appeared with hinit | ⟨e, he, rfl⟩
      · exact h₀.opens p slot hinit
      · obtain ⟨he, hp⟩ := List.mem_filter.1 he
        exact of_decide_eq_true hp ▸ (hkept.lawful e he).opens
    exact ⟨key, state, hopen, fun _ _ _ _ _ h => openRecord_only hopen h⟩

end

/-! ### A record created and updated -/

def samplePlatform : Platform Nat where
  argon2id passphrase _ := passphrase.length
  pbkdf2 passphrase _ := passphrase.length
  principalFromText text := some (text, false)

def sampleSalt : Bytes := List.replicate 16 1

def sampleIv : Bytes := List.replicate 12 2

/-- The record of alice at this version. -/
def sampleRecord (key v : Nat) (state : CachedScanState) : StoredCacheRecordV2 Nat where
  kdfVersion := v
  schemaVersion := cacheSchemaV3
  salt := sampleSalt
  iv := sampleIv
  ciphertext := ⟨key, sampleIv, (cacheAad samplePlatform v cacheSchemaV3 "alice").toOption.getD [],
    serializeScanStateV3 state⟩

def emptyStore : CacheStore Nat := ⟨fun _ => none, none, fun _ => false, []⟩

theorem emptyStore_stocked : Stocked samplePlatform emptyStore :=
  ⟨rfl, fun _ _ h => (Option.some_ne_none _ h.symm).elim⟩

def admittedCheck {K : Type} [DecidableEq K] (t : Nat) (s : CacheStore K) :
    (act : CacheAction K) → act.Answer → Bool
  | .get _, (x : Option (Option (CacheSlot K))) =>
    s.commits.all fun e => e.task ≠ t || (x ≠ none && s.slots e.principalText = some e.after)
  | .assertCurrent, (x : Bool) => s.commits.all fun e => e.task ≠ t || x
  | _, _ => true

/-- A check of an undisturbed step that takes no opened cache. -/
def undisturbedCheck {K : Type} [DecidableEq K] (w : CacheTabs K) :
    TabEvent (CacheOperation K) (CacheAction K) CacheAction.Answer → Bool
  | .launch (.update _ _) | .launch (.load _) | .outside => false
  | .launch _ => true
  | .answer t act x => admittedCheck t w.shared act x

theorem admitted_of_check {K : Type} [DecidableEq K] {t : Nat} {s : CacheStore K} {act : CacheAction K}
    {x : act.Answer} (h : admittedCheck t s act x = true) : Admitted t s act x := by
  cases act with
  | get p =>
    intro e he ht
    have hall := List.all_eq_true.1 h e he
    simp only [ht, ne_eq, not_true_eq_false, decide_false, Bool.false_or, Bool.and_eq_true,
      decide_eq_true_eq] at hall
    exact hall
  | assertCurrent =>
    intro e he ht
    have hall := List.all_eq_true.1 h e he
    rcases Bool.or_eq_true_iff.1 hall with hne | hx
    · exact absurd ht (of_decide_eq_true hne)
    · exact hx
  | _ => trivial

theorem undisturbed_of_check {K : Type} [DecidableEq K] {M : Platform K} {s₀ : CacheStore K}
    (w : CacheTabs K) (ev : TabEvent (CacheOperation K) (CacheAction K) CacheAction.Answer)
    (h : undisturbedCheck w ev = true) :
    Undisturbed w ev ∧ ∀ op, ev = .launch op → (cacheShell M s₀).mayLaunch w op := by
  cases ev with
  | outside => cases h
  | answer t act x => exact ⟨admitted_of_check h, nofun⟩
  | launch op =>
    refine ⟨?_, fun op' heq => ?_⟩
    · cases op <;> trivial
    · cases heq
      cases op <;> trivial

abbrev SampleEvent :=
  TabEvent (CacheOperation Nat) (CacheAction Nat) CacheAction.Answer

def createEvents : List SampleEvent :=
  [.launch (.openOrCreateWithKey 100 "alice" 3),
    .answer 0 .assertCurrent true,
    .answer 0 (.get "alice") (some none),
    .answer 0 (.getRandomValues 16) sampleSalt,
    .answer 0 (.getRandomValues 12) sampleIv,
    .answer 0 .assertCurrent true,
    .answer 0 (.compareAndPut "alice" none ⟨1, sampleRecord 100 3 emptyScanState⟩) (some true),
    .answer 0 (.get "alice") (some (some ⟨1, sampleRecord 100 3 emptyScanState⟩)),
    .answer 0 .assertCurrent true]

def sampleCache : PrincipalNoteCache Nat := ⟨100, sampleSalt, "alice", 3, 0⟩

def scannedTo (n : Nat) (state : CachedScanState) : CachedScanState :=
  {state with lastScannedIndex := n}

def sampleUpdate : CacheOperation Nat := .update sampleCache fun state => .ok (scannedTo 7 state)

def updateEvents : List SampleEvent :=
  [.answer 1 (.usableKey 0) true,
    .answer 1 (.get "alice") (some (some ⟨1, sampleRecord 100 3 emptyScanState⟩)),
    .answer 1 (.gateSchema 0 3) true,
    .answer 1 (.getRandomValues 12) sampleIv,
    .answer 1 .assertCurrent true,
    .answer 1 (.compareAndPut "alice" (some 1) ⟨2, sampleRecord 100 3 (scannedTo 7 emptyScanState)⟩)
      (some true),
    .answer 1 (.sawV3 0) ()]

def startTabs (s₀ : CacheStore Nat) : CacheTabs Nat := ⟨s₀, fun _ => none, 0⟩

theorem startTabs_run {ok : CacheTabs Nat → SampleEvent → Prop} (s₀ : CacheStore Nat) :
    (cacheShell samplePlatform s₀).system.RunIf ok (startTabs s₀) := .start ⟨rfl, rfl, rfl⟩

/-- What alice's record says after the creation and the update. -/
def sampleReport : Option (Option CachedScanState) :=
  ((cacheShell samplePlatform emptyStore).playIf undisturbedCheck (startTabs emptyStore)
    createEvents).bind fun w =>
      match w.tasks 0 with
      | some (_, .done (.opened cache)) =>
        if cache = sampleCache then
          ((cacheShell samplePlatform emptyStore).playIf undisturbedCheck
            (w.launch sampleUpdate (sampleUpdate.program samplePlatform w.next)) updateEvents).map
              fun w => (w.shared.slots "alice").bind fun slot =>
                (openRecord samplePlatform 100 slot.record "alice").toOption
        else none
      | _ => none

theorem sampleReport_eq : sampleReport = some (some (scannedTo 7 emptyScanState)) := by
  decide +kernel

theorem sampleReport_run : ∃ w : CacheTabs Nat,
    (cacheShell samplePlatform emptyStore).system.RunIf Undisturbed w ∧
      ((w.shared.slots "alice").bind fun slot =>
        (openRecord samplePlatform 100 slot.record "alice").toOption) =
          some (scannedTo 7 emptyScanState) := by
  obtain ⟨w, hcreate, hrest⟩ := Option.bind_eq_some_iff.1 sampleReport_eq
  have hrun := Shell.playIf_runIf undisturbed_of_check (startTabs_run emptyStore) hcreate
  cases htask : w.tasks 0 with
  | none => rw [htask] at hrest; cases hrest
  | some task =>
    obtain ⟨op, prog⟩ := task
    rw [htask] at hrest
    rcases prog with (cache | _ | _) | _ | _
    case done.opened =>
      change (if cache = sampleCache then _ else _) = _ at hrest
      by_cases hcache : cache = sampleCache
      · subst hcache
        rw [if_pos rfl] at hrest
        obtain ⟨w', hplay, hreport⟩ := Option.map_eq_some_iff.1 hrest
        have hlaunch : (cacheShell samplePlatform emptyStore).system.RunIf Undisturbed
            (w.launch sampleUpdate (sampleUpdate.program samplePlatform w.next)) := by
          refine .step hrun ?_
            (Shell.Step.launch (S := cacheShell samplePlatform emptyStore) ⟨0, op, htask⟩)
          rintro current next hreadable ⟨⟩
          obtain ⟨hjournal, hnotes, hverified⟩ := readable_iff.1 hreadable
          exact readable_iff.2 ⟨hjournal, hnotes, hverified⟩
        exact ⟨w', Shell.playIf_runIf undisturbed_of_check hlaunch hplay, hreport⟩
      · rw [if_neg hcache] at hrest
        cases hrest
    all_goals cases hrest

theorem record_kept_sample : ∃ w : CacheTabs Nat, RecordKept samplePlatform emptyStore w ∧
    ((w.shared.slots "alice").bind fun slot =>
      (openRecord samplePlatform 100 slot.record "alice").toOption) =
        some (scannedTo 7 emptyScanState) := by
  obtain ⟨w, run, hreport⟩ := sampleReport_run
  exact ⟨w, record_kept samplePlatform emptyStore_stocked run, hreport⟩

/-! ### A migration overtaken -/

/-- Alice's passphrase record. -/
def passphraseStore : CacheStore Nat :=
  ⟨fun p => if p = "alice" then some ⟨1, sampleRecord 4 2 (scannedTo 7 emptyScanState)⟩ else none,
    none, fun _ => false, []⟩

/-- A migration to the key 100, and before it reads back, a re-seal to the key 200. -/
def overtakenEvents : List SampleEvent :=
  [.launch (.migratePassphraseRecord "alice" "word" .iiOnly 100),
    .answer 0 .assertCurrent true,
    .answer 0 (.get "alice") (some (some ⟨1, sampleRecord 4 2 (scannedTo 7 emptyScanState)⟩)),
    .answer 0 .argon2id true,
    .answer 0 (.getRandomValues 16) sampleSalt,
    .answer 0 (.getRandomValues 12) sampleIv,
    .answer 0 .assertCurrent true,
    .answer 0 (.compareAndPut "alice" (some 1) ⟨2, sampleRecord 100 3 (scannedTo 7 emptyScanState)⟩)
      (some true),
    .launch (.resealKeyRecord "alice" 100 200 4),
    .answer 1 .assertCurrent true,
    .answer 1 (.get "alice") (some (some ⟨2, sampleRecord 100 3 (scannedTo 7 emptyScanState)⟩)),
    .answer 1 (.getRandomValues 16) sampleSalt,
    .answer 1 (.getRandomValues 12) sampleIv,
    .answer 1 .assertCurrent true,
    .answer 1 (.compareAndPut "alice" (some 2) ⟨3, sampleRecord 200 4 (scannedTo 7 emptyScanState)⟩)
      (some true),
    .answer 0 (.get "alice") (some (some ⟨3, sampleRecord 200 4 (scannedTo 7 emptyScanState)⟩))]

/-- The migration has thrown; the commits it made, and whether the passphrase opens the record. -/
def overtakenReport : Option (Option (Nat × Bool)) :=
  ((cacheShell samplePlatform passphraseStore).playIf
    (fun _ ev => !(ev matches .launch (.update _ _) | .launch (.load _)))
      (startTabs passphraseStore) overtakenEvents).map fun w =>
      match w.tasks 0 with
      | some (_, .throw _) =>
        some ((w.shared.own 0).length, ((w.shared.slots "alice").bind fun slot =>
          (openRecord samplePlatform 4 slot.record "alice").toOption).isSome)
      | _ => none

theorem overtakenReport_eq : overtakenReport = some (some (1, false)) := by
  decide +kernel

/-- The migration throws, and the record it was to leave as it was no longer opens under the
passphrase. -/
theorem failed_migration_wrote :
    ¬ ∀ (w : CacheTabs Nat) (t : Nat) (op : CacheOperation Nat) (err : CacheError),
      (cacheShell samplePlatform passphraseStore).system.Reachable w →
        w.tasks t = some (op, .throw err) → w.shared.own t = [] := by
  intro h
  obtain ⟨w, hplay, hreport⟩ := Option.map_eq_some_iff.1 overtakenReport_eq
  have hrun : (cacheShell samplePlatform passphraseStore).system.Reachable w :=
    Shell.playIf_runIf (fun w ev hc => ⟨trivial, fun op heq => by subst heq; cases op <;> trivial⟩)
      (startTabs_run passphraseStore) hplay
  cases htask : w.tasks 0 with
  | none => rw [htask] at hreport; cases hreport
  | some task =>
    obtain ⟨op, prog⟩ := task
    rw [htask] at hreport
    cases prog with
    | done _ => cases hreport
    | await _ _ => cases hreport
    | throw err =>
      have hlength := congrArg Prod.fst (Option.some.inj hreport)
      change (w.shared.own 0).length = 1 at hlength
      rw [h w 0 op err hrun htask] at hlength
      cases hlength

end StshProtocol.Wallet
