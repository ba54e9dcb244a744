import StshProtocol.Foundation.Promises
import StshProtocol.Wallet.Cache.Runs

/-! The caches that one tab issues, and the end of a session.

A manager opens caches for the current session and ends it. What is open at a time is many tasks, each
in the middle of its program and answered at any time, and the store and the crypto answer what they
please. A write to the store is issued only right after the epoch has been checked, so none is issued
for a session that has ended. The manager itself records a cache without a check: a cache is issued to
no ended session, and all but the active one are locked, as long as no last write is confirmed late, no
session ends before a finished open has been recorded, and no two opens overlap (`caches_fenced`). -/
namespace StshProtocol.Wallet
open Foundation

/-- A restored session, by its identity's principal. -/
structure AuthSession where
  principalText : String
  isAnonymous : Bool
  deriving DecidableEq, Repr

inductive NoCacheSessionError where
  | absent
  | anonymous
  deriving DecidableEq, Repr

def principalForCache : Option AuthSession → Except NoCacheSessionError String
  | none => .error .absent
  | some session => if session.isAnonymous then .error .anonymous else .ok session.principalText

/-- What an open is called with: `openForSession`, or `openForSessionWithKey`. -/
inductive CacheOpening (K : Type) where
  | passphrase (passphrase : String)
  | withKey (key : K) (create : Option Nat)

/-- What an issued cache is called with. -/
inductive CacheCall where
  | load
  | update (fn : CachedScanState → Except CacheError CachedScanState)

/-- An issued `PrincipalNoteCache`: the epoch of its binding, and the key until it is locked. -/
structure IssuedCache (K : Type) where
  handle : PrincipalNoteCache K
  epoch : Nat
  locked : Bool
  key : Option K

/-- A task in the middle of its program, with the epoch of its binding, the epoch it was started in,
and what it was answered. -/
structure SessionTask (K : Type) where
  operation : CacheOperation K
  epoch : Nat
  startedIn : Nat
  seen : Transcript (CacheAction K) CacheAction.Answer
  program : CacheProgram K (CacheReply K)

/-- A store mutation that a task issued: in which epoch the task was started, and in which it issued. -/
structure IssuedMutation where
  startedIn : Nat
  issuedIn : Nat
  deriving DecidableEq, Repr

/-- An open that returned: the epoch of its cache, and the epoch it returned in. -/
structure ReturnedOpen where
  cacheEpoch : Nat
  epoch : Nat
  deriving DecidableEq, Repr

/-- `CacheSessionManager` with its `SessionEpoch` and all that is under way in the tab. The mutations
and the returns are kept beside it. -/
structure SessionTab (K : Type) where
  epoch : Nat
  active : Option Nat
  issued : Nat → Option (IssuedCache K)
  tasks : Nat → Option (SessionTask K)
  next : Nat
  mutations : List IssuedMutation
  returned : List ReturnedOpen

inductive SessionEvent (K : Type) where
  | openCache (opening : CacheOpening K) (session : Option AuthSession)
  | call (cache : Nat) (call : CacheCall)
  | answer (task : Nat) (act : CacheAction K) (x : act.Answer)
  | handOut (task : Nat)
  | endSession

def CacheOpening.operation {K : Type} (principalText : String) : CacheOpening K → CacheOperation K
  | .passphrase word => .openWithPassphrase word principalText
  | .withKey key none => .openWithKey key principalText
  | .withKey key (some createVersion) => .openOrCreateWithKey key principalText createVersion

def CacheCall.operation {K : Type} (cache : PrincipalNoteCache K) : CacheCall → CacheOperation K
  | .load => .load cache
  | .update fn => .update cache fn

def CacheAction.mutates {K : Type} : CacheAction K → Bool
  | .compareAndPut _ _ _ | .migrateLegacy _ _ _ => true
  | _ => false

/-- The store confirms a mutation. -/
def CacheAction.confirms {K : Type} : (act : CacheAction K) → act.Answer → Bool
  | .compareAndPut _ _ _, (x : Option Bool) => x == some true
  | .migrateLegacy _ _ _, (x : Option MigrateLegacyReply) => x == some .ok
  | _, _ => false

def CacheOperation.byPassphrase {K : Type} : CacheOperation K → Bool
  | .openWithPassphrase _ _ => true
  | _ => false

/-- `lock`. -/
def IssuedCache.lock {K : Type} (c : IssuedCache K) : IssuedCache K := {c with locked := true, key := none}

namespace SessionTab
variable {K : Type} [DecidableEq K] (s : SessionTab K)

/-- `usableKey` finds the epoch current and the key there. -/
def usable (i : Nat) : Bool :=
  (s.issued i).any fun c => c.epoch == s.epoch && !c.locked && c.key.isSome

/-- The active cache, if there is one, is locked and no longer active. -/
def lockActive : SessionTab K :=
  {s with
    active := none
    issued := match s.active with
      | none => s.issued
      | some i => Function.update s.issued i ((s.issued i).map IssuedCache.lock)}

/-- What a program that stands here has just issued. -/
def mutationsOf (startedIn : Nat) : CacheProgram K (CacheReply K) → List IssuedMutation
  | .await act _ => if act.mutates then [⟨startedIn, s.epoch⟩] else []
  | _ => []

/-- The task stands where it stands, and what it issued there is noted. -/
def put (t : Nat) (task : SessionTask K) : SessionTab K :=
  {s with
    tasks := Function.update s.tasks t (some task)
    mutations := s.mutationsOf task.startedIn task.program ++ s.mutations}

/-- A new task runs up to its first action. -/
def launch (M : Platform K) (op : CacheOperation K) (epoch : Nat) : SessionTab K :=
  {s.put s.next ⟨op, epoch, s.epoch, [], op.program M s.next⟩ with next := s.next + 1}

/-- The checks are answered as the tab stands; the store, the crypto and the rest as they please. -/
def answers (task : SessionTask K) : (act : CacheAction K) → act.Answer → Bool
  | .assertCurrent, (x : Bool) => x == (task.epoch == s.epoch)
  | .usableKey i, (x : Bool) => x == s.usable i
  | _, _ => true

/-- `this.active = cache`, and the open returns. -/
def issue (t : Nat) (task : SessionTask K) (cache : PrincipalNoteCache K) : SessionTab K :=
  {s with
    active := some t
    issued := Function.update s.issued t (some ⟨cache, task.epoch, false, some cache.key⟩)
    tasks := Function.update s.tasks t none
    returned := ⟨task.epoch, s.epoch⟩ :: s.returned}

def step (M : Platform K) (s : SessionTab K) : SessionEvent K → Option (SessionTab K)
  | .openCache opening session =>
    match principalForCache session with
    | .error _ => some s
    | .ok principalText => some (s.lockActive.launch M (opening.operation principalText) s.epoch)
  | .call i call =>
    (s.issued i).map fun c => s.launch M (call.operation c.handle) c.epoch
  | .answer t act x =>
    match s.tasks t with
    | none => none
    | some task =>
      match task.program with
      | .await act' k =>
        if h : act = act' then
          if s.answers task act x then
            some (s.put t {task with seen := ⟨act, x⟩ :: task.seen, program := k (h ▸ x)})
          else none
        else none
      | _ => none
  | .handOut t =>
    match s.tasks t with
    | none => none
    | some task =>
      match task.program with
      | .done (.opened cache) => some (s.issue t task cache)
      | _ => none
  | .endSession => some {s.lockActive with epoch := s.epoch + 1}

end SessionTab

/-- A tab in which no cache has been opened yet. -/
def SessionTab.Fresh {K : Type} (s : SessionTab K) : Prop :=
  s.active = none ∧ s.issued = (fun _ => none) ∧ s.tasks = (fun _ => none) ∧ s.mutations = [] ∧ s.returned = []

def sessionSystem {K : Type} [DecidableEq K] (M : Platform K) : System (SessionTab K) (SessionEvent K) where
  init := SessionTab.Fresh
  step s e s' := s.step M e = some s'

/-! ### What is owed, and when it is kept -/

/-- Every mutation was issued in the epoch its task was started in, and every open returned in the epoch
of its cache. The active cache is of the current epoch, and any other is locked, with no key. -/
structure Fenced {K : Type} (s : SessionTab K) : Prop where
  mutations : ∀ m ∈ s.mutations, m.startedIn = m.issuedIn
  returned : ∀ r ∈ s.returned, r.cacheEpoch = r.epoch
  active : ∀ i, s.active = some i → ∃ c, s.issued i = some c ∧ c.epoch = s.epoch
  others : ∀ i c, s.issued i = some c → s.active ≠ some i → c.locked = true ∧ c.key = none

/-- The task is an open that has its cache, and has not been recorded yet. -/
def SessionTab.finishedOpen {K : Type} (s : SessionTab K) (t : Nat) : Bool :=
  match s.tasks t with
  | some ⟨_, _, _, _, .done (.opened _)⟩ => true
  | _ => false

/-- The store confirms the last write of an open by passphrase while the session is current; the session
does not end while a finished open has not been recorded; and an open is recorded when no cache is
active. -/
def SessionTab.timely {K : Type} (s : SessionTab K) : SessionEvent K → Bool
  | .answer t act x => (s.tasks t).all fun task =>
      !(task.operation.byPassphrase && act.confirms x) || task.epoch == s.epoch
  | .endSession => (List.range s.next).all fun t => !s.finishedOpen t
  | .handOut _ => s.active.isNone
  | .openCache _ _ | .call _ _ => true

/-! ### What each program does after which answers -/

section Programs
variable {K α β : Type}
  {Returns : Transcript (CacheAction K) CacheAction.Answer → β → Prop}
  {seen : Transcript (CacheAction K) CacheAction.Answer}

/-- The latest answer was that the session is current. -/
def Checked (seen : Transcript (CacheAction K) CacheAction.Answer) : Prop :=
  seen.head? = some ⟨.assertCurrent, (true : Bool)⟩

/-- The latest answer was that a mutation has been made. -/
def Confirmed (seen : Transcript (CacheAction K) CacheAction.Answer) : Prop :=
  ∃ a ∈ seen.head?, a.1.confirms a.2 = true

/-- A mutation is issued only right after a check. -/
def Guarded (seen : Transcript (CacheAction K) CacheAction.Answer) (act : CacheAction K) : Prop :=
  act.mutates = true → Checked seen

/-- Nothing is said of an error. -/
def OnReturn (Returns : Transcript (CacheAction K) CacheAction.Answer → β → Prop)
    (seen : Transcript (CacheAction K) CacheAction.Answer) (r : Except CacheError β) : Prop :=
  ∀ b, r = .ok b → Returns seen b

/-- Along the program, mutations are guarded and what is returned is admitted. -/
abbrev Guards (Returns : Transcript (CacheAction K) CacheAction.Answer → β → Prop)
    (seen : Transcript (CacheAction K) CacheAction.Answer) (p : CacheProgram K β) : Prop :=
  p.Along Guarded (OnReturn Returns) seen

theorem along_throw (e : CacheError) : Guards Returns seen (.throw e) := nofun

theorem along_done {b : β} (h : Returns seen b) :
    Guards Returns seen (.done b) := by
  rintro b' ⟨⟩
  exact h

theorem along_ofExcept {x : Except CacheError α} {f : α → CacheProgram K β}
    (hf : ∀ a, Guards Returns seen (f a)) :
    Guards Returns seen (Async.ofExcept x >>= f) := by
  cases x with
  | error e => exact along_throw e
  | ok a => exact hf a

theorem along_accepted {x : Option α} {f : α → CacheProgram K β}
    (hf : ∀ a, x = some a → Guards Returns seen (f a)) :
    Guards Returns seen (CacheProgram.accepted x >>= f) := by
  cases x with
  | none => exact along_throw _
  | some a => exact hf a rfl

theorem along_check {holds : Bool} {e : CacheError} {a : α} {f : α → CacheProgram K β}
    (hf : holds = true → Guards Returns seen (f a)) :
    Guards Returns seen (CacheProgram.check holds e a >>= f) := by
  cases holds with
  | false => exact along_throw e
  | true => exact hf rfl

/-- What a program returns, as a reply. -/
theorem along_reply {Returns' : Transcript (CacheAction K) CacheAction.Answer → α → Prop}
    {p : CacheProgram K α} {f : α → β} (hp : Guards Returns' seen p)
    (hf : ∀ seen a, Returns' seen a → Returns seen (f a)) :
    Guards Returns seen (p >>= (.done ∘ f)) :=
  hp.bind (fun seen a h => along_done (hf seen a (h a rfl))) fun _ _ _ => nofun

theorem along_get {p : String} {f : Option (CacheSlot K) → CacheProgram K β}
    (hf : ∀ slot seen, Guards Returns seen (f slot)) :
    Guards Returns seen (CacheProgram.get p >>= f) :=
  ⟨nofun, fun _ => along_accepted fun slot _ => hf slot _⟩

theorem along_getLegacy {f : Option (StoredRecord K) → CacheProgram K β}
    (hf : ∀ legacy seen, Guards Returns seen (f legacy)) :
    Guards Returns seen (CacheProgram.getLegacy >>= f) :=
  ⟨nofun, fun _ => along_accepted fun legacy _ => hf legacy _⟩

theorem along_getRandomValues {n : Nat} {f : Bytes → CacheProgram K β}
    (hf : ∀ x seen, Guards Returns seen (f x)) :
    Guards Returns seen (CacheProgram.getRandomValues n >>= f) :=
  ⟨nofun, fun x => hf x _⟩

theorem along_usableKey {cache : PrincipalNoteCache K} {f : K → CacheProgram K β}
    (hf : ∀ key seen, Guards Returns seen (f key)) :
    Guards Returns seen (CacheProgram.usableKey cache >>= f) :=
  ⟨nofun, fun _ => along_check fun _ => hf _ _⟩

theorem along_gateSchema {cache : PrincipalNoteCache K} {record : StoredCacheRecordV2 K}
    {f : Unit → CacheProgram K β} (hf : ∀ u seen, Guards Returns seen (f u)) :
    Guards Returns seen (CacheProgram.gateSchema cache record >>= f) :=
  ⟨nofun, fun _ => along_check fun _ => hf _ _⟩

theorem along_assertCurrent {f : Unit → CacheProgram K β}
    (hf : ∀ u seen, Checked seen → Guards Returns seen (f u)) :
    Guards Returns seen (CacheProgram.assertCurrent >>= f) := by
  refine ⟨nofun, fun (x : Bool) => along_check fun hx => hf _ _ ?_⟩
  subst hx
  rfl

theorem along_compareAndPut {p : String} {expected : Option Nat} {slot : CacheSlot K}
    {f : Bool → CacheProgram K β} (hchecked : Checked seen)
    (hf : ∀ written seen, (written = true → Confirmed seen) →
      Guards Returns seen (f written)) :
    Guards Returns seen (CacheProgram.compareAndPut p expected slot >>= f) := by
  refine ⟨fun _ => hchecked, fun (x : Option Bool) => along_accepted fun written hx => hf written _ ?_⟩
  rintro rfl
  subst hx
  exact ⟨_, rfl, rfl⟩

theorem along_migrateLegacy {p : String} {slot : CacheSlot K} {legacy : StoredRecord K}
    {f : MigrateLegacyReply → CacheProgram K β} (hchecked : Checked seen)
    (hf : ∀ reply seen, (reply = .ok → Confirmed seen) → Guards Returns seen (f reply)) :
    Guards Returns seen (CacheProgram.migrateLegacy p slot legacy >>= f) := by
  refine ⟨fun _ => hchecked,
    fun (x : Option MigrateLegacyReply) => along_accepted fun reply hx => hf reply _ ?_⟩
  rintro rfl
  subst hx
  exact ⟨_, rfl, rfl⟩

variable (M : Platform K)

theorem along_deriveCacheKeyV2 {passphrase : String} {salt : Bytes} {f : K → CacheProgram K β}
    (hf : ∀ key seen, Guards Returns seen (f key)) :
    Guards Returns seen (deriveCacheKeyV2 M passphrase salt >>= f) := by
  rw [deriveCacheKeyV2]
  split
  · exact along_throw _
  · exact ⟨nofun, fun _ => along_check fun _ => hf _ _⟩

theorem along_sealFresh {key : K} {salt : Bytes} {state : CachedScanState} {p : String} {v : Nat}
    {f : StoredCacheRecordV2 K → CacheProgram K β}
    (hf : ∀ record seen, Guards Returns seen (f record)) :
    Guards Returns seen (sealFresh M key salt state p v >>= f) := by
  rw [sealFresh]
  show ((CacheProgram.getRandomValues ivBytes).bind _ >>= f).Along Guarded _ seen
  exact ⟨nofun, fun iv => along_ofExcept fun record => hf record _⟩

variable [DecidableEq K]

/-- What an open may return with: a check, or the store's word on its last write. -/
def AfterCheck (seen : Transcript (CacheAction K) CacheAction.Answer) (_ : β) : Prop := Checked seen

def AfterWrite (seen : Transcript (CacheAction K) CacheAction.Answer) (_ : β) : Prop :=
  Checked seen ∨ Confirmed seen

theorem along_openWithKey (id : Nat) (key : K) (p : String) :
    Guards AfterCheck seen (openWithKey M id key p) := by
  refine along_assertCurrent fun _ _ _ => along_ofExcept fun _ => along_get fun slot _ => ?_
  cases slot with
  | none => exact along_throw _
  | some slot =>
    dsimp only
    split
    · exact along_throw _
    · exact along_ofExcept fun _ => along_assertCurrent fun _ _ hchecked => along_done hchecked

theorem along_openOrCreateAttempts (id : Nat) (key : K) (p : String) (v attempts : Nat) :
    Guards AfterCheck seen (openOrCreateAttempts M id key p v attempts) := by
  induction attempts generalizing seen with
  | zero => exact along_throw _
  | succ attempts ih =>
    refine along_get fun slot _ => ?_
    cases slot with
    | some slot => exact along_openWithKey M id key p
    | none =>
      refine along_getRandomValues fun _ _ => along_sealFresh M fun _ _ => along_assertCurrent fun _ _ hchecked =>
        along_compareAndPut hchecked fun created _ _ => ?_
      cases created with
      | false => exact ih
      | true =>
        refine along_get fun after _ => ?_
        cases after with
        | none => exact along_throw _
        | some after =>
          dsimp only
          split
          · exact along_throw _
          · exact along_ofExcept fun _ => along_assertCurrent fun _ _ hchecked => along_done hchecked

theorem along_openOrCreateWithKey (id : Nat) (key : K) (p : String) (v : Nat) :
    Guards AfterCheck seen (openOrCreateWithKey M id key p v) := by
  rw [openOrCreateWithKey]
  split
  · exact along_throw _
  · exact along_assertCurrent fun _ _ _ => along_ofExcept fun _ => along_openOrCreateAttempts M id key p v _

theorem along_openAttempts (id : Nat) (passphrase p : String) (attempts : Nat) :
    Guards AfterWrite seen (openAttempts M id passphrase p attempts) := by
  induction attempts generalizing seen with
  | zero => exact along_throw _
  | succ attempts ih =>
    refine along_get fun slot _ => ?_
    cases slot with
    | some slot =>
      dsimp only
      rw [openSlot]
      split
      · exact along_throw _
      · exact along_deriveCacheKeyV2 M fun _ _ => along_ofExcept fun _ =>
          along_assertCurrent fun _ _ hchecked => along_done (.inl hchecked)
    | none =>
      refine along_getLegacy fun legacy _ => ?_
      cases legacy with
      | some legacy =>
        refine along_ofExcept fun state => ?_
        split
        · exact along_throw _
        · refine along_getRandomValues fun _ _ => along_deriveCacheKeyV2 M fun _ _ => along_sealFresh M fun _ _ =>
            along_assertCurrent fun _ _ hchecked => along_migrateLegacy hchecked fun reply _ hreply => ?_
          cases reply with
          | ok => exact along_done (.inr (hreply rfl))
          | legacyChanged => exact along_throw _
          | legacyMissing => exact ih
          | scopedExists => exact ih
      | none =>
        refine along_getRandomValues fun _ _ => along_deriveCacheKeyV2 M fun _ _ => along_sealFresh M fun _ _ =>
          along_assertCurrent fun _ _ hchecked => along_compareAndPut hchecked fun created _ hcreated => ?_
        cases created with
        | false => exact ih
        | true => exact along_done (.inr (hcreated rfl))

theorem along_openWithPassphrase (id : Nat) (passphrase p : String) :
    Guards AfterWrite seen (openWithPassphrase M id passphrase p) :=
  along_assertCurrent fun _ _ _ => along_ofExcept fun _ => along_openAttempts M id passphrase p _

theorem along_load (cache : PrincipalNoteCache K) :
    (load M cache).Along Guarded (OnReturn fun _ _ => True) seen := by
  refine along_usableKey fun _ _ => along_get fun slot _ => ?_
  cases slot with
  | none => exact along_throw _
  | some slot =>
    refine along_gateSchema fun _ _ => ?_
    show (Async.ofExcept _).Along _ _ _
    cases openRecord M _ slot.record cache.principalText with
    | error e => exact along_throw e
    | ok state => exact along_done trivial

theorem along_update (cache : PrincipalNoteCache K) (fn : CachedScanState → Except CacheError CachedScanState) :
    (update M cache fn).Along Guarded (OnReturn fun _ _ => True) seen := by
  suffices h : ∀ attempts seen,
      (updateAttempts M cache fn attempts).Along Guarded (OnReturn fun _ _ => True) seen from h _ _
  intro attempts
  induction attempts with
  | zero => exact fun _ => along_throw _
  | succ attempts ih =>
    refine fun _ => along_usableKey fun _ _ => along_get fun slot _ => ?_
    cases slot with
    | none => exact along_throw _
    | some slot =>
      refine along_gateSchema fun _ _ => along_ofExcept fun _ => along_ofExcept fun next =>
        along_sealFresh M fun _ _ => along_assertCurrent fun _ _ hchecked =>
          along_compareAndPut hchecked fun written _ _ => ?_
      cases written with
      | false => exact ih _
      | true => exact ⟨nofun, fun _ => along_done trivial⟩

end Programs

/-! ### Whole runs -/

section Runs
variable {K : Type} {good : Prop} {s s' : SessionTab K} {e : SessionEvent K}

/-- After which answers an operation may return with a cache. -/
def Ending (op : CacheOperation K) (seen : Transcript (CacheAction K) CacheAction.Answer) :
    CacheReply K → Prop
  | .opened _ => Checked seen ∨ op.byPassphrase = true ∧ Confirmed seen
  | _ => True

/-- What all runs keep: a task is bound to an epoch no later than its start and stands where its program
may stand, and mutations are issued in time. The good ones also keep what is owed, and that the session
of a finished open has not ended. -/
structure SessionInv (good : Prop) (s : SessionTab K) : Prop where
  started : ∀ t task, s.tasks t = some task → t < s.next
  epochs : ∀ t task, s.tasks t = some task → task.epoch ≤ task.startedIn ∧ task.startedIn ≤ s.epoch
  along : ∀ t task, s.tasks t = some task →
    Guards (Ending task.operation) task.seen task.program
  caches : ∀ i c, s.issued i = some c → c.epoch ≤ s.epoch
  mutations : ∀ m ∈ s.mutations, m.startedIn = m.issuedIn
  finished : good → ∀ t task cache, s.tasks t = some task → task.program = .done (.opened cache) →
    task.epoch = s.epoch
  fenced : good → Fenced s

theorem inv_fresh (h : s.Fresh) : SessionInv good s := by
  obtain ⟨hactive, hissued, htasks, hmutations, hreturned⟩ := h
  have htask : ∀ t task, s.tasks t ≠ some task := fun t task h => by rw [htasks] at h; cases h
  have hcache : ∀ i c, s.issued i ≠ some c := fun i c h => by rw [hissued] at h; cases h
  refine ⟨fun t task h => absurd h (htask t task), fun t task h => absurd h (htask t task),
    fun t task h => absurd h (htask t task), fun i c h => absurd h (hcache i c), by simp [hmutations],
    fun _ t task _ h => absurd h (htask t task), fun _ => ⟨by simp [hmutations], by simp [hreturned],
    by simp [hactive], fun i c h => absurd h (hcache i c)⟩⟩

/-- A task may stand where its program may, if what it issues there it issues in time. -/
theorem inv_put (h : SessionInv good s) {t n : Nat} {task : SessionTask K} (hn : s.next ≤ n) (ht : t < n)
    (hepochs : task.epoch ≤ task.startedIn ∧ task.startedIn ≤ s.epoch)
    (halong : Guards (Ending task.operation) task.seen task.program)
    (hfinished : good → ∀ cache, task.program = .done (.opened cache) → task.epoch = s.epoch)
    (hmutations : ∀ m ∈ s.mutationsOf task.startedIn task.program, m.startedIn = m.issuedIn) :
    SessionInv good {s.put t task with next := n} := by
  have htasks : ∀ {P : Nat → SessionTask K → Prop}, P t task → (∀ u old, s.tasks u = some old → P u old) →
      ∀ u new, (s.put t task).tasks u = some new → P u new := by
    intro P hself hother u new hnew
    by_cases hu : u = t
    · subst hu
      cases (Function.update_self _ _ _).symm.trans hnew
      exact hself
    · exact hother u new ((Function.update_of_ne hu _ _).symm.trans hnew)
  have hall : ∀ m ∈ s.mutationsOf task.startedIn task.program ++ s.mutations, m.startedIn = m.issuedIn := by
    intro m hm
    rcases List.mem_append.1 hm with hm | hm
    · exact hmutations m hm
    · exact h.mutations m hm
  refine ⟨htasks ht fun u old hold => Nat.lt_of_lt_of_le (h.started u old hold) hn, htasks hepochs h.epochs,
    htasks halong h.along, h.caches, hall, fun hgood u new cache hnew => ?_, fun hgood => ⟨hall,
    (h.fenced hgood).2, (h.fenced hgood).3, (h.fenced hgood).4⟩⟩
  exact htasks (P := fun _ task => task.program = .done (.opened cache) → task.epoch = s.epoch)
    (hfinished hgood cache) (fun v old hold => h.finished hgood v old cache hold) u new hnew

theorem locked_lockActive (h : Fenced s) :
    ∀ i c, s.lockActive.issued i = some c → c.locked = true ∧ c.key = none := by
  intro i c hc
  rw [SessionTab.lockActive] at hc
  cases hactive : s.active with
  | none =>
    simp only [hactive] at hc
    exact h.others i c hc (by rw [hactive]; nofun)
  | some j =>
    simp only [hactive] at hc
    by_cases hi : i = j
    · subst hi
      rw [Function.update_self] at hc
      obtain ⟨c', -, rfl⟩ := Option.map_eq_some_iff.1 hc
      exact ⟨rfl, rfl⟩
    · rw [Function.update_of_ne hi] at hc
      exact h.others i c hc (by rw [hactive]; exact fun heq => hi (Option.some.inj heq).symm)

theorem inv_lockActive (h : SessionInv good s) : SessionInv good s.lockActive := by
  refine ⟨h.started, h.epochs, h.along, fun i c hc => ?_, h.mutations, h.finished,
    fun hgood => ⟨h.mutations, (h.fenced hgood).2, nofun,
      fun i c hc _ => locked_lockActive (h.fenced hgood) i c hc⟩⟩
  rw [SessionTab.lockActive] at hc
  cases hactive : s.active with
  | none =>
    simp only [hactive] at hc
    exact h.caches i c hc
  | some j =>
    simp only [hactive] at hc
    by_cases hi : i = j
    · subst hi
      rw [Function.update_self] at hc
      obtain ⟨c', hc', rfl⟩ := Option.map_eq_some_iff.1 hc
      exact h.caches i c' hc'
    · rw [Function.update_of_ne hi] at hc
      exact h.caches i c hc

theorem inv_issue (h : SessionInv good s) {t : Nat} {task : SessionTask K} {cache : PrincipalNoteCache K}
    (htask : s.tasks t = some task) (hprogram : task.program = .done (.opened cache))
    (hactive : good → s.active = none) : SessionInv good (s.issue t task cache) := by
  have htasks : ∀ u old, (s.issue t task cache).tasks u = some old → s.tasks u = some old := by
    intro u old hold
    by_cases hu : u = t
    · subst hu
      cases (Function.update_self _ _ _).symm.trans hold
    · exact (Function.update_of_ne hu _ _).symm.trans hold
  refine ⟨fun u old hold => h.started u old (htasks u old hold),
    fun u old hold => h.epochs u old (htasks u old hold), fun u old hold => h.along u old (htasks u old hold),
    fun i c hc => ?_, h.mutations, fun hgood u old c hold => h.finished hgood u old c (htasks u old hold),
    fun hgood => ?_⟩
  · by_cases hi : i = t
    · subst hi
      cases (Function.update_self _ _ _).symm.trans hc
      obtain ⟨hbound, hstarted⟩ := h.epochs i task htask
      exact Nat.le_trans hbound hstarted
    · exact h.caches i c ((Function.update_of_ne hi _ _).symm.trans hc)
  have hepoch := h.finished hgood t task cache htask hprogram
  refine ⟨h.mutations, fun r hr => ?_, fun i hi => ?_, fun i c hc hi => ?_⟩
  · rcases List.mem_cons.1 hr with rfl | hr
    · exact hepoch
    · exact (h.fenced hgood).returned r hr
  · obtain rfl := Option.some.inj hi
    exact ⟨_, Function.update_self _ _ _, hepoch⟩
  · have hne : i ≠ t := fun heq => hi (congrArg some heq.symm)
    exact (h.fenced hgood).others i c ((Function.update_of_ne hne _ _).symm.trans hc)
      (by rw [hactive hgood]; nofun)

theorem inv_endSession (h : SessionInv good s)
    (hfinished : good → ∀ t task cache, s.tasks t = some task → task.program ≠ .done (.opened cache)) :
    SessionInv good {s.lockActive with epoch := s.epoch + 1} where
  started := h.started
  epochs t task ht := by
    obtain ⟨hbound, hstarted⟩ := h.epochs t task ht
    exact ⟨hbound, Nat.le_succ_of_le hstarted⟩
  along := h.along
  caches i c hc := Nat.le_succ_of_le ((inv_lockActive h).caches i c hc)
  mutations := h.mutations
  finished hgood t task cache ht hdone := absurd hdone (hfinished hgood t task cache ht)
  fenced hgood := ⟨h.mutations, (h.fenced hgood).2, nofun,
    fun i c hc _ => locked_lockActive (h.fenced hgood) i c hc⟩

/-- A task goes on from an answer that is timely. -/
theorem inv_answer (h : SessionInv good s) {t : Nat} {task : SessionTask K} {act : CacheAction K}
    {k : act.Answer → CacheProgram K (CacheReply K)} {x : act.Answer} (htask : s.tasks t = some task)
    (hprogram : task.program = .await act k) (hanswers : s.answers task act x = true)
    (htimely : good → task.operation.byPassphrase = true → act.confirms x = true → task.epoch = s.epoch) :
    SessionInv good (s.put t {task with seen := ⟨act, x⟩ :: task.seen, program := k x}) := by
  have halong := h.along t task htask
  rw [hprogram] at halong
  have hnext := halong.2 x
  have hepochs := h.epochs t task htask
  have hcurrent : Checked (⟨act, x⟩ :: task.seen) → task.epoch = s.epoch := by
    intro hchecked
    cases Option.some.inj hchecked
    exact beq_iff_eq.1 (beq_iff_eq.1 hanswers).symm
  refine inv_put h (Nat.le_refl _) (h.started t task htask) hepochs hnext
    (fun hgood cache hdone => ?_) ?_
  · dsimp only at hdone
    rw [hdone] at hnext
    rcases hnext _ rfl with hchecked | ⟨hpassphrase, a, ha, hconfirms⟩
    · exact hcurrent hchecked
    · cases ha
      exact htimely hgood hpassphrase hconfirms
  · dsimp only
    cases hk : k x with
    | done _ => nofun
    | throw _ => nofun
    | await act' k' =>
      rw [hk] at hnext
      cases hmutates : act'.mutates with
      | false => simp [SessionTab.mutationsOf, hmutates]
      | true =>
        have := hcurrent (hnext.1 hmutates)
        simp only [SessionTab.mutationsOf, hmutates, if_true, List.mem_singleton, forall_eq]
        omega

variable [DecidableEq K] {M : Platform K}

theorem along_opening (opening : CacheOpening K) (p : String) (id : Nat) :
    ((opening.operation p).program M id).Along Guarded (OnReturn (Ending (opening.operation p))) [] := by
  cases opening with
  | passphrase word =>
    refine along_reply (along_openWithPassphrase M id word p) fun seen cache h => ?_
    rcases h with hchecked | hconfirmed
    · exact .inl hchecked
    · exact .inr ⟨rfl, hconfirmed⟩
  | withKey key create =>
    cases create with
    | none => exact along_reply (along_openWithKey M id key p) fun _ _ hchecked => .inl hchecked
    | some v => exact along_reply (along_openOrCreateWithKey M id key p v) fun _ _ hchecked => .inl hchecked

theorem along_call (call : CacheCall) (cache : PrincipalNoteCache K) (id : Nat) :
    ((call.operation cache).program M id).Along Guarded (OnReturn (Ending (call.operation cache))) [] := by
  cases call with
  | load => exact along_reply (along_load M cache) fun _ _ _ => trivial
  | update fn => exact along_reply (along_update M cache fn) fun _ _ _ => trivial

/-- A program that has not been answered has issued no mutation and returned nothing. -/
theorem inv_launch (h : SessionInv good s) {op : CacheOperation K} {epoch : Nat} (hepoch : epoch ≤ s.epoch)
    (halong : (op.program M s.next).Along Guarded (OnReturn (Ending op)) []) :
    SessionInv good (s.launch M op epoch) := by
  refine inv_put h (Nat.le_succ _) (Nat.lt_succ_self _) ⟨hepoch, Nat.le_refl _⟩ halong
    (fun _ cache hdone => ?_) ?_
  · have hended : OnReturn (Ending op) [] (.ok (.opened cache)) := by
      dsimp only at hdone
      rw [hdone] at halong
      exact halong
    rcases hended _ rfl with hchecked | ⟨-, a, ha, -⟩
    · cases hchecked
    · cases ha
  · dsimp only
    cases hprogram : op.program M s.next with
    | done _ => nofun
    | throw _ => nofun
    | await act k =>
      rw [hprogram] at halong
      cases hmutates : act.mutates with
      | true => cases halong.1 hmutates
      | false => simp [SessionTab.mutationsOf, hmutates]

theorem inv_step (h : SessionInv good s) (htimely : good → s.timely e = true)
    (hstep : s.step M e = some s') : SessionInv good s' := by
  cases e with
  | openCache opening session =>
    rw [SessionTab.step] at hstep
    cases hsession : principalForCache session with
    | error _ =>
      simp only [hsession, Option.some.injEq] at hstep
      exact hstep ▸ h
    | ok p =>
      simp only [hsession, Option.some.injEq] at hstep
      subst hstep
      exact inv_launch (inv_lockActive h) (Nat.le_refl _) (along_opening opening p _)
  | call i call =>
    obtain ⟨c, hc, rfl⟩ := Option.map_eq_some_iff.1 hstep
    exact inv_launch h (h.caches i c hc) (along_call call c.handle _)
  | answer t act x =>
    rw [SessionTab.step] at hstep
    cases htask : s.tasks t with
    | none => simp [htask] at hstep
    | some task =>
      cases hprogram : task.program with
      | done _ => simp [htask, hprogram] at hstep
      | throw _ => simp [htask, hprogram] at hstep
      | await act' k =>
        simp only [htask, hprogram] at hstep
        by_cases hact : act = act'
        · subst hact
          rw [dif_pos rfl] at hstep
          by_cases hanswers : s.answers task act x = true
          · rw [if_pos hanswers, Option.some.injEq] at hstep
            subst hstep
            refine inv_answer h htask hprogram hanswers fun hgood hpassphrase hconfirms => ?_
            simpa [SessionTab.timely, htask, hpassphrase, hconfirms] using htimely hgood
          · simp [hanswers] at hstep
        · simp [hact] at hstep
  | handOut t =>
    rw [SessionTab.step] at hstep
    cases htask : s.tasks t with
    | none => simp [htask] at hstep
    | some task =>
      rcases hprogram : task.program with ⟨cache | _ | _⟩ | _ | _
      case done.opened =>
        simp only [htask, hprogram, Option.some.injEq] at hstep
        subst hstep
        exact inv_issue h htask hprogram fun hgood => Option.isNone_iff_eq_none.1 (htimely hgood)
      all_goals simp [htask, hprogram] at hstep
  | endSession =>
    rw [SessionTab.step, Option.some.injEq] at hstep
    subst hstep
    refine inv_endSession h fun hgood t task cache htask hdone => ?_
    have hnot := List.all_eq_true.1 (htimely hgood) t (List.mem_range.2 (h.started t task htask))
    obtain ⟨_, _, _, _, _⟩ := task
    dsimp only at hdone
    subst hdone
    simp [SessionTab.finishedOpen, htask] at hnot

/-- In every run whose steps are timely, the session's end fences what was opened in it. -/
theorem caches_fenced (M : Platform K) {s : SessionTab K}
    (run : (sessionSystem M).RunIf (fun s e => s.timely e = true) s) : Fenced s :=
  (System.RunIf.invariant (I := SessionInv True) (fun _ h => inv_fresh h)
    (fun _ _ _ _ h htimely hstep => inv_step h (fun _ => htimely) hstep) run).fenced trivial

/-- Whatever comes when, no mutation is issued in another session than its task was started in. -/
theorem mutations_fenced (M : Platform K) {s : SessionTab K} (run : (sessionSystem M).Reachable s) :
    ∀ m ∈ s.mutations, m.startedIn = m.issuedIn :=
  (System.RunIf.invariant (I := SessionInv False) (fun _ h => inv_fresh h)
    (fun _ _ _ _ h _ hstep => inv_step h False.elim hstep) run).mutations

end Runs

/-! ### Played runs -/

/-- Events one after the other, each of which passes the check. -/
def SessionTab.playIf {K : Type} [DecidableEq K] (M : Platform K) (check : SessionTab K → SessionEvent K → Bool)
    (s : SessionTab K) : List (SessionEvent K) → Option (SessionTab K)
  | [] => some s
  | e :: es => if check s e then (s.step M e).bind fun s' => s'.playIf M check es else none

theorem runIf_of_playIf {K : Type} [DecidableEq K] {M : Platform K} {check : SessionTab K → SessionEvent K → Bool}
    {s s' : SessionTab K} {es : List (SessionEvent K)}
    (run : (sessionSystem M).RunIf (fun s e => check s e = true) s) (h : s.playIf M check es = some s') :
    (sessionSystem M).RunIf (fun s e => check s e = true) s' := by
  induction es generalizing s with
  | nil =>
    cases h
    exact run
  | cons e es ih =>
    rw [SessionTab.playIf] at h
    by_cases hc : check s e = true
    · rw [if_pos hc] at h
      obtain ⟨s₁, hstep, hrest⟩ := Option.bind_eq_some_iff.1 h
      exact ih (run.step hc hstep) hrest
    · rw [if_neg hc] at h
      cases h

def freshTab : SessionTab Nat := ⟨0, none, fun _ => none, fun _ => none, 0, [], []⟩

theorem freshTab_fresh : freshTab.Fresh := ⟨rfl, rfl, rfl, rfl, rfl⟩

/-- Alice opens by passphrase, where nothing is stored yet. -/
def openEvents : List (SessionEvent Nat) :=
  [.openCache (.passphrase "word") (some ⟨"alice", false⟩),
    .answer 0 .assertCurrent true,
    .answer 0 (.get "alice") (some none),
    .answer 0 .getLegacy (some none),
    .answer 0 (.getRandomValues 16) sampleSalt,
    .answer 0 .argon2id true,
    .answer 0 (.getRandomValues 12) sampleIv,
    .answer 0 .assertCurrent true]

def createdEvent : SessionEvent Nat :=
  .answer 0 (.compareAndPut "alice" none ⟨1, sampleRecord 4 2 emptyScanState⟩) (some true)

/-- The active cache, the epoch, the epoch of the first cache and whether it is locked, and the
mutations. -/
def SessionTab.report (s : SessionTab Nat) :
    Option Nat × Nat × Option (Nat × Bool) × List IssuedMutation :=
  (s.active, s.epoch, (s.issued 0).map fun c => (c.epoch, c.locked), s.mutations)

theorem fenced_report :
    (freshTab.playIf samplePlatform SessionTab.timely
      (openEvents ++ [createdEvent, .handOut 0, .call 0 .load, .endSession])).map SessionTab.report =
        some (none, 1, some (0, true), [⟨0, 0⟩]) := by
  decide +kernel

theorem caches_fenced_logout : ∃ s, Fenced s ∧ s.report = (none, 1, some (0, true), [⟨0, 0⟩]) := by
  obtain ⟨s, hplay, hreport⟩ := Option.map_eq_some_iff.1 fenced_report
  exact ⟨s, caches_fenced samplePlatform (runIf_of_playIf (.start freshTab_fresh) hplay), hreport⟩

theorem stale_report :
    (freshTab.playIf samplePlatform (fun _ _ => true)
      (openEvents ++ [.endSession, createdEvent, .handOut 0])).map SessionTab.report =
        some (some 0, 1, some (0, false), [⟨0, 0⟩]) := by
  decide +kernel

/-- The open that outlives its session has issued its write in it. -/
theorem mutations_fenced_stale : ∃ s : SessionTab Nat, s.report = (some 0, 1, some (0, false), [⟨0, 0⟩]) ∧
    ∀ m ∈ s.mutations, m.startedIn = m.issuedIn := by
  obtain ⟨s, hplay, hreport⟩ := Option.map_eq_some_iff.1 stale_report
  have hrun := runIf_of_playIf (.start freshTab_fresh) hplay
  exact ⟨s, hreport, mutations_fenced samplePlatform (hrun.mono fun _ _ _ => trivial)⟩

/-- The session ends while the store makes the record, and the cache of the ended session is issued and
active. -/
theorem stale_cache_issued : ¬∀ s, (sessionSystem samplePlatform).Reachable s → Fenced s := by
  intro hall
  obtain ⟨s, hplay, hreport⟩ := Option.map_eq_some_iff.1 stale_report
  have hrun := runIf_of_playIf (.start freshTab_fresh) hplay
  have hactive : s.active = some 0 := congrArg Prod.fst hreport
  have hnow : s.epoch = 1 := congrArg (fun r => r.2.1) hreport
  have hfirst : (s.issued 0).map (fun c => (c.epoch, c.locked)) = some (0, false) :=
    congrArg (fun r => r.2.2.1) hreport
  obtain ⟨c, hc, hcurrent⟩ := (hall s (hrun.mono fun _ _ _ => trivial)).active 0 hactive
  rw [hc] at hfirst
  have hbound : c.epoch = 0 := congrArg Prod.fst (Option.some.inj hfirst)
  omega

end StshProtocol.Wallet
