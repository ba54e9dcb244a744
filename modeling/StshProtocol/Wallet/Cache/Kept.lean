import StshProtocol.Wallet.Cache.Operations

/-! The record through the operations of all tabs.

The commits to the record of a principal follow each other, each over the slot the one before it
left and a revision higher (`History`), so that a slot once read and still at its revision is still
there (`History.unchanged`). With this each operation is followed along its text: what it writes is
what it owes to the state it read (`CacheCommit.Lawful`), and an operation that fails has written
nothing, as long as no one writes between its write and its reading back. -/
namespace StshProtocol.Wallet
open Foundation

section
variable {K : Type} {a b : Option (CacheSlot K)} {slot : CacheSlot K} {cs : List (CacheCommit K)}

/-- The commits from one slot to another, the latest first. -/
inductive History (a : Option (CacheSlot K)) :
    List (CacheCommit K) → Option (CacheSlot K) → Prop where
  | start : History a [] a
  | commit {cs : List (CacheCommit K)} {e : CacheCommit K} (h : History a cs e.before)
      (hrev : e.after.revision = (e.before.map CacheSlot.revision).getD 0 + 1) :
      History a (e :: cs) (some e.after)

/-- The slots a history has left. -/
def Appeared (a : Option (CacheSlot K)) (cs : List (CacheCommit K)) (slot : CacheSlot K) : Prop :=
  a = some slot ∨ ∃ e ∈ cs, e.after = slot

theorem History.appeared (h : History a cs (some slot)) : Appeared a cs slot := by
  cases h with
  | start => exact .inl rfl
  | @commit cs e _ _ => exact .inr ⟨e, List.mem_cons_self, rfl⟩

/-- A slot that appeared before is at a lower revision, or it is the one there now. -/
theorem History.unchanged (h : History a cs b) (hs : Appeared a cs slot) :
    ∃ now, b = some now ∧ slot.revision ≤ now.revision ∧ (slot.revision = now.revision → slot = now) := by
  induction h with
  | start =>
    rcases hs with hs | ⟨e, he, -⟩
    · exact ⟨slot, hs, Nat.le_refl _, fun _ => rfl⟩
    · cases he
  | @commit cs e h hrev ih =>
    refine ⟨e.after, rfl, ?_⟩
    rcases hs with hs | ⟨e', he', rfl⟩
    · obtain ⟨now, hnow, hle, -⟩ := ih (.inl hs)
      rw [hnow] at hrev
      simp only [Option.map_some, Option.getD_some] at hrev
      exact ⟨by omega, fun heq => by omega⟩
    · rcases List.mem_cons.1 he' with rfl | he'
      · exact ⟨Nat.le_refl _, fun _ => rfl⟩
      · obtain ⟨now, hnow, hle, -⟩ := ih (.inr ⟨e', he', rfl⟩)
        rw [hnow] at hrev
        simp only [Option.map_some, Option.getD_some] at hrev
        exact ⟨by omega, fun heq => by omega⟩

end

section
variable {K : Type} [DecidableEq K] (M : Platform K)

/-- What an operation owes to what it wrote over. -/
def CacheCommit.Owed (e : CacheCommit K) : Prop :=
  match e.operation with
  | .openWithPassphrase passphrase p =>
    e.principalText = p ∧ e.before = none ∧ e.after.record.kdfVersion = kdfVersionArgon2id ∧
      openRecord M (M.argon2id passphrase e.after.record.salt) e.after.record p = .ok emptyScanState ∧
        ∀ legacy, e.legacy = some legacy →
          ∃ v1state, openLegacy M passphrase legacy = .ok v1state ∧ v1state.notes = []
  | .openOrCreateWithKey key p createVersion =>
    e.principalText = p ∧ e.before = none ∧ e.after.record.kdfVersion = createVersion ∧
      openRecord M key e.after.record p = .ok emptyScanState ∧ e.legacy = none
  | .update cache fn =>
    e.principalText = cache.principalText ∧ e.after.record.kdfVersion = cache.kdfVersion ∧
      e.after.record.salt = cache.salt ∧ e.legacy = none ∧
        ∃ slot current next, e.before = some slot ∧
          openRecord M cache.key slot.record cache.principalText = .ok current ∧
            fn current = .ok next ∧
              openRecord M cache.key e.after.record cache.principalText = .ok next
  | .migratePassphraseRecord p oldPassphrase mode key =>
    e.principalText = p ∧ e.after.record.kdfVersion = mode.kdfVersion ∧ e.legacy = none ∧
      ∃ slot state, e.before = some slot ∧ slot.record.kdfVersion = kdfVersionArgon2id ∧
        openRecord M (M.argon2id oldPassphrase slot.record.salt) slot.record p = .ok state ∧
          openRecord M key e.after.record p = .ok state
  | .resealKeyRecord p fromKey toKey toVersion =>
    e.principalText = p ∧ e.after.record.kdfVersion = toVersion ∧ e.legacy = none ∧
      ∃ slot state, e.before = some slot ∧ isKeyBased slot.record.kdfVersion = true ∧
        slot.record.kdfVersion ≠ toVersion ∧
          openRecord M fromKey slot.record p = .ok state ∧
            openRecord M toKey e.after.record p = .ok state
  | .openWithKey _ _ | .load _ => False

/-- A commit writes what it owes, at the schema written now. -/
structure CacheCommit.Lawful (e : CacheCommit K) : Prop where
  owed : e.Owed M
  schema : e.after.record.schemaVersion = cacheSchemaV3

namespace CacheStore
variable (s : CacheStore K)

def commitsOf (principalText : String) : List (CacheCommit K) :=
  s.commits.filter fun e => e.principalText = principalText

def own (t : Nat) : List (CacheCommit K) := s.commits.filter fun e => e.task = t

end CacheStore

/-- What the operations keep of the store. -/
structure CacheStore.Kept (s₀ s : CacheStore K) : Prop where
  history : ∀ p, History (s₀.slots p) (s.commitsOf p) (s.slots p)
  lawful : ∀ e ∈ s.commits, e.Lawful M
  legacy : s.legacy = none → s₀.legacy = none ∨ ∃ e ∈ s.commits, e.legacy.isSome

/-! ### The condition -/

/-- What comes back to a task that has written: its read-back finds what it wrote, and the session
is still current. -/
def Admitted (t : Nat) (s : CacheStore K) : (act : CacheAction K) → act.Answer → Prop
  | .get _, (x : Option (Option (CacheSlot K))) =>
    ∀ e ∈ s.commits, e.task = t → x ≠ none ∧ s.slots e.principalText = some e.after
  | .assertCurrent, (x : Bool) => ∀ e ∈ s.commits, e.task = t → x = true
  | _, _ => True

/-- Functions given to `update` turn what can be read into what can be read, and no one comes
between the write of an operation and its end. -/
def Undisturbed (w : CacheTabs K) : TabEvent (CacheOperation K) (CacheAction K) CacheAction.Answer → Prop
  | .launch (.update _ fn) => ∀ current next, Readable current → fn current = .ok next → Readable next
  | .launch _ | .outside => True
  | .answer t act x => Admitted t w.shared act x

end

/-! ### What a task knows -/

section
variable {K : Type}

theorem Appeared.mono {a : Option (CacheSlot K)} {slot : CacheSlot K} {s s' : CacheStore K}
    {es : List (CacheCommit K)} {p : String} (hes : s'.commits = es ++ s.commits)
    (h : Appeared a (s.commitsOf p) slot) : Appeared a (s'.commitsOf p) slot := by
  rcases h with h | ⟨e, he, heq⟩
  · exact .inl h
  · refine .inr ⟨e, ?_, heq⟩
    rw [CacheStore.commitsOf, hes, List.filter_append]
    exact List.mem_append_right _ he

end

section
variable {K : Type} [DecidableEq K] {M : Platform K} {s₀ : CacheStore K} {t : Nat}
  {op : CacheOperation K} {α : Type}

/-- The slots a task has read, each with its principal. -/
abbrev Reads (K : Type) := List (String × CacheSlot K)

/-- A task knows what it has written, and that what it read was there. -/
structure Local (s₀ : CacheStore K) (t : Nat) (own : List (CacheCommit K)) (reads : Reads K)
    (s : CacheStore K) : Prop where
  own : s.own t = own
  reads : ∀ r ∈ reads, Appeared (s₀.slots r.1) (s.commitsOf r.1) r.2

/-- An operation that failed has written nothing; an update that succeeded has written once, and
what it returned. -/
def CacheEnds (M : Platform K) (t : Nat) (op : CacheOperation K) (r : Except CacheError (CacheReply K))
    (s : CacheStore K) : Prop :=
  match r, op with
  | .error _, _ => s.own t = []
  | .ok r, .update cache _ => ∃ e next, s.own t = [e] ∧ r = .state next ∧
      openRecord M cache.key e.after.record cache.principalText = .ok next
  | .ok _, _ => True

def cacheContract (M : Platform K) (s₀ : CacheStore K) :
    Contract (CacheStore K) (CacheOperation K) CacheError (CacheReply K) where
  inv s := CacheStore.Kept M s₀ s
  moves t s s' := ∃ es, s'.commits = es ++ s.commits ∧ ∀ e ∈ es, e.task = t
  outside s s' := s'.commits = s.commits
  ends := CacheEnds M

/-- The answers a task gets in an undisturbed run. -/
def Answered (t : Nat) (op : CacheOperation K) (s : CacheStore K) (act : CacheAction K)
    (x : act.Answer) (s' : CacheStore K) : Prop :=
  s.serve t op act x = some s' ∧ Admitted t s act x

/-- An outline of a part of an operation's program. -/
abbrev CacheOutline (M : Platform K) (s₀ : CacheStore K) (t : Nat) (op : CacheOperation K)
    (Q : Except CacheError α → CacheStore K → Prop) (P : CacheStore K → Prop)
    (p : CacheProgram K α) : Prop :=
  Outline (cacheContract M s₀) (Answered t op) t Q P p

theorem others_commits {s s' : CacheStore K} (h : (cacheContract M s₀).Others t s s') :
    ∃ es, s'.commits = es ++ s.commits ∧ ∀ e ∈ es, e.task ≠ t := by
  rcases h with ⟨u, hu, es, hes, htask⟩ | h
  · exact ⟨es, hes, fun e he heq => hu ((htask e he).symm.trans heq)⟩
  · exact ⟨[], h, fun e he => nomatch he⟩

theorem own_of_others {s s' : CacheStore K} (h : (cacheContract M s₀).Others t s s') :
    s'.own t = s.own t := by
  obtain ⟨es, hes, htask⟩ := others_commits h
  rw [CacheStore.own, hes, List.filter_append,
    List.filter_eq_nil_iff.2 fun e he => by rw [decide_eq_true_eq]; exact htask e he, List.nil_append,
    CacheStore.own]

theorem local_stable (own : List (CacheCommit K)) (reads : Reads K) :
    (cacheContract M s₀).Stable t (Local s₀ t own reads) := by
  intro s s' _ h hl
  obtain ⟨es, hes, -⟩ := others_commits h
  exact ⟨(own_of_others h).trans hl.own, fun r hr => (hl.reads r hr).mono hes⟩

theorem ends_stable (op : CacheOperation K) (r : Except CacheError (CacheReply K)) :
    (cacheContract M s₀).Stable t (CacheEnds M t op r) := by
  intro s s' _ h hends
  unfold CacheEnds at hends ⊢
  rw [own_of_others h]
  exact hends

/-! ### Outlines of the actions -/

variable {Q : Except CacheError α → CacheStore K → Prop} {own : List (CacheCommit K)} {reads : Reads K}

/-- No one needs an outline of what is not reached. -/
theorem outline_unreached {P : CacheStore K → Prop} (h : ∀ s, ¬ P s) (p : CacheProgram K α) :
    CacheOutline M s₀ t op Q P p := by
  induction p generalizing P with
  | done a => exact .done fun s _ hp => (h s hp).elim
  | throw e => exact .throw fun s _ hp => (h s hp).elim
  | await act k ih =>
    exact .await (fun _ => False) (fun _ _ => False) (fun s _ hp => h s hp)
      (fun _ _ _ _ hf => hf) (fun _ _ _ _ hf => hf.elim) fun x => ih x fun _ hf => hf

/-- An action that leaves the record alone. -/
theorem outline_quiet (act : CacheAction K) {k : act.Answer → CacheProgram K α}
    (hquiet : ∀ s x s', CacheStore.serve s t op act x = some s' →
      s'.slots = s.slots ∧ s'.legacy = s.legacy ∧ s'.commits = s.commits)
    (hk : ∀ x, CacheOutline M s₀ t op Q (Local s₀ t own reads) (k x)) :
    CacheOutline M s₀ t op Q (Local s₀ t own reads) (.await act k) := by
  refine .await _ (fun _ => Local s₀ t own reads) (fun _ _ h => h) (local_stable own reads) ?_ hk
  rintro s x s' hi hl ⟨hs, -⟩
  obtain ⟨hslots, hlegacy, hcommits⟩ := hquiet s x s' hs
  refine ⟨⟨fun p => ?_, fun e he => ?_, fun hl => ?_⟩, ⟨[], hcommits, fun e he => nomatch he⟩,
    ⟨?_, fun r hr => ?_⟩⟩
  · rw [CacheStore.commitsOf, hslots, hcommits]
    exact hi.history p
  · rw [hcommits] at he
    exact hi.lawful e he
  · rw [hcommits]
    exact hi.legacy (hlegacy.symm.trans hl)
  · rw [CacheStore.own, hcommits]
    exact hl.own
  · have hnone : s'.commits = [] ++ s.commits := hcommits
    exact (hl.reads r hr).mono hnone

theorem outline_get {p : String} {k : Option (Option (CacheSlot K)) → CacheProgram K α}
    (hrejected : CacheOutline M s₀ t op Q (Local s₀ t own reads) (k none))
    (hnone : CacheOutline M s₀ t op Q (Local s₀ t own reads) (k (some none)))
    (hsome : ∀ slot, CacheOutline M s₀ t op Q (Local s₀ t own ((p, slot) :: reads)) (k (some (some slot)))) :
    CacheOutline M s₀ t op Q (Local s₀ t own reads) (.await (CacheAction.get p) k) := by
  refine .await _ (fun (x : Option (Option (CacheSlot K))) =>
    Local s₀ t own (x.join.elim reads fun slot => (p, slot) :: reads))
    (fun _ _ h => h) (local_stable own reads) ?_ ?_
  · rintro s (x : Option (Option (CacheSlot K))) s' hi hl ⟨hs, -⟩
    change (if x = none ∨ x = some (s.slots p) then some s else none) = some s' at hs
    by_cases hx : x = none ∨ x = some (s.slots p)
    · rw [if_pos hx] at hs
      cases hs
      refine ⟨hi, ⟨[], rfl, fun e he => by cases he⟩, hl.own, ?_⟩
      rcases hx with rfl | rfl
      · exact hl.reads
      · cases hslot : s.slots p with
        | none => exact hl.reads
        | some slot =>
          intro r hr
          rcases List.mem_cons.1 hr with rfl | hr
          · have hist := hi.history p
            rw [hslot] at hist
            exact hist.appeared
          · exact hl.reads r hr
    · rw [if_neg hx] at hs
      cases hs
  · rintro (_ | _ | slot)
    · exact hrejected
    · exact hnone
    · exact hsome slot

/-- A commit over what is there keeps the record. -/
theorem CacheStore.Kept.commit {s s' : CacheStore K} (hi : CacheStore.Kept M s₀ s) (e : CacheCommit K)
    (hslots : s'.slots = Function.update s.slots e.principalText (some e.after))
    (hcommits : s'.commits = e :: s.commits) (hbefore : s.slots e.principalText = e.before)
    (hrev : e.after.revision = (e.before.map CacheSlot.revision).getD 0 + 1) (hlawful : e.Lawful M)
    (hlegacy : s'.legacy = s.legacy ∨ e.legacy.isSome) : CacheStore.Kept M s₀ s' where
  history p := by
    rw [CacheStore.commitsOf, hslots, hcommits]
    by_cases hp : e.principalText = p
    · subst hp
      rw [Function.update_self, List.filter_cons_of_pos (by simp)]
      exact .commit (hbefore ▸ hi.history e.principalText) hrev
    · rw [Function.update_of_ne (Ne.symm hp), List.filter_cons_of_neg (by simpa using hp)]
      exact hi.history p
  lawful e' he' := by
    rw [hcommits] at he'
    rcases List.mem_cons.1 he' with rfl | he'
    · exact hlawful
    · exact hi.lawful e' he'
  legacy hnone := by
    rw [hcommits]
    rcases hlegacy with hsame | hgone
    · rcases hi.legacy (hsame.symm.trans hnone) with h | ⟨e', he', h⟩
      · exact .inl h
      · exact .inr ⟨e', List.mem_cons_of_mem _ he', h⟩
    · exact .inr ⟨e, List.mem_cons_self, hgone⟩

omit [DecidableEq K] in
theorem Local.commit {s s' : CacheStore K} (hl : Local s₀ t [] reads s) {e : CacheCommit K}
    (htask : e.task = t) (hcommits : s'.commits = e :: s.commits) : Local s₀ t [e] reads s' where
  own := by
    have hown : s.commits.filter (fun e => e.task = t) = [] := hl.own
    rw [CacheStore.own, hcommits, List.filter_cons_of_pos (by simpa using htask), hown]
  reads r hr := by
    have hone : s'.commits = [e] ++ s.commits := hcommits
    exact (hl.reads r hr).mono hone

/-- A compare-and-put: over nothing, or over a slot that was read. -/
theorem outline_compareAndPut {p : String} {before : Option (CacheSlot K)} {slot : CacheSlot K}
    {k : Option Bool → CacheProgram K α} (hread : ∀ read, before = some read → (p, read) ∈ reads)
    (hrev : slot.revision = (before.map CacheSlot.revision).getD 0 + 1)
    (hlawful : CacheCommit.Lawful M ⟨t, op, p, before, slot, none⟩)
    (hrejected : CacheOutline M s₀ t op Q (Local s₀ t [] reads) (k none))
    (hlost : CacheOutline M s₀ t op Q (Local s₀ t [] reads) (k (some false)))
    (hwritten : CacheOutline M s₀ t op Q (Local s₀ t [⟨t, op, p, before, slot, none⟩] reads)
      (k (some true))) :
    CacheOutline M s₀ t op Q (Local s₀ t [] reads)
      (.await (CacheAction.compareAndPut p (before.map CacheSlot.revision) slot) k) := by
  refine .await _ (fun (x : Option Bool) =>
    Local s₀ t (if x = some true then [⟨t, op, p, before, slot, none⟩] else []) reads)
    (fun _ _ h => h) (local_stable [] reads) ?_ ?_
  · rintro s (x : Option Bool) s' hi hl ⟨hs, -⟩
    have hidle : s' = s → x ≠ some true → CacheStore.Kept M s₀ s' ∧
        (∃ es, s'.commits = es ++ s.commits ∧ ∀ e ∈ es, e.task = t) ∧
          Local s₀ t (if x = some true then [⟨t, op, p, before, slot, none⟩] else []) reads s' := by
      rintro rfl hx
      rw [if_neg hx]
      exact ⟨hi, ⟨[], rfl, fun e he => nomatch he⟩, hl⟩
    cases x with
    | none =>
      cases hs
      exact hidle rfl nofun
    | some written =>
      change (if written = s.matchesRevision p _ then _ else _) = _ at hs
      by_cases hw : written = s.matchesRevision p (before.map CacheSlot.revision)
      swap
      · rw [if_neg hw] at hs
        cases hs
      rw [if_pos hw] at hs
      cases written with
      | false =>
        cases hs
        exact hidle rfl (by simp)
      | true =>
        cases hs
        have hmatch : (s.slots p).map CacheSlot.revision = before.map CacheSlot.revision :=
          of_decide_eq_true hw.symm
        have hbefore : s.slots p = before := by
          cases before with
          | none => exact Option.map_eq_none_iff.1 hmatch
          | some read =>
            have happeared : Appeared (s₀.slots p) (s.commitsOf p) read := hl.reads _ (hread read rfl)
            obtain ⟨now, hnow, -, hsame⟩ := (hi.history p).unchanged happeared
            rw [hnow] at hmatch ⊢
            rw [hsame (Option.some.inj hmatch).symm]
        rw [if_pos rfl, ← hbefore]
        rw [← hbefore] at hrev hlawful
        exact ⟨hi.commit ⟨t, op, p, s.slots p, slot, none⟩ rfl rfl rfl hrev hlawful (.inl rfl),
          ⟨[_], rfl, fun e he => by rw [List.mem_singleton.1 he]⟩, hl.commit rfl rfl⟩
  · rintro (_ | _ | _)
    · exact hrejected
    · exact hlost
    · exact hwritten

theorem outline_migrateLegacy {p : String} {slot : CacheSlot K} {observed : StoredRecord K}
    {k : Option MigrateLegacyReply → CacheProgram K α} (hrev : slot.revision = 1)
    (hlawful : CacheCommit.Lawful M ⟨t, op, p, none, slot, some observed⟩)
    (hrejected : CacheOutline M s₀ t op Q (Local s₀ t [] reads) (k none))
    (hlost : ∀ reply, reply ≠ .ok → CacheOutline M s₀ t op Q (Local s₀ t [] reads) (k (some reply)))
    (hwritten : CacheOutline M s₀ t op Q (Local s₀ t [⟨t, op, p, none, slot, some observed⟩] reads)
      (k (some .ok))) :
    CacheOutline M s₀ t op Q (Local s₀ t [] reads)
      (.await (CacheAction.migrateLegacy p slot observed) k) := by
  refine .await _ (fun (x : Option MigrateLegacyReply) =>
    Local s₀ t (if x = some .ok then [⟨t, op, p, none, slot, some observed⟩] else []) reads)
    (fun _ _ h => h) (local_stable [] reads) ?_ ?_
  · rintro s (x : Option MigrateLegacyReply) s' hi hl ⟨hs, -⟩
    have hidle : s' = s → x ≠ some .ok → CacheStore.Kept M s₀ s' ∧
        (∃ es, s'.commits = es ++ s.commits ∧ ∀ e ∈ es, e.task = t) ∧
          Local s₀ t (if x = some .ok then [⟨t, op, p, none, slot, some observed⟩] else []) reads
            s' := by
      rintro rfl hx
      rw [if_neg hx]
      exact ⟨hi, ⟨[], rfl, fun e he => nomatch he⟩, hl⟩
    cases x with
    | none =>
      cases hs
      exact hidle rfl nofun
    | some reply =>
      change (if reply = s.migrateLegacyReply p observed then _ else _) = _ at hs
      by_cases hr : reply = s.migrateLegacyReply p observed
      swap
      · rw [if_neg hr] at hs
        cases hs
      rw [if_pos hr] at hs
      by_cases hok : reply = .ok
      · rw [if_pos hok] at hs
        cases hs
        subst hok
        have hstate : s.legacy = some observed ∧ s.slots p = none := by
          unfold CacheStore.migrateLegacyReply at hr
          cases hlegacy : s.legacy with
          | none => rw [hlegacy] at hr; cases hr
          | some legacy =>
            rw [hlegacy] at hr
            by_cases hsame : legacy = observed
            · cases hslot : s.slots p with
              | none => exact ⟨congrArg some hsame, rfl⟩
              | some _ => simp [hsame, hslot] at hr
            · simp [hsame] at hr
        have hput : s.putMigrated t op p slot =
            ⟨Function.update s.slots p (some slot), none, s.sawV3,
              ⟨t, op, p, none, slot, some observed⟩ :: s.commits⟩ := by
          rw [CacheStore.putMigrated, hstate.1, hstate.2]
        rw [if_pos rfl, hput]
        exact ⟨hi.commit ⟨t, op, p, none, slot, some observed⟩ rfl rfl hstate.2 hrev hlawful (.inr rfl),
          ⟨[_], rfl, fun e he => by rw [List.mem_singleton.1 he]⟩, hl.commit rfl rfl⟩
      · rw [if_neg hok] at hs
        cases hs
        exact hidle rfl (by simpa using hok)
  · rintro (_ | reply)
    · exact hrejected
    · by_cases hok : reply = .ok
      · subst hok
        exact hwritten
      · show CacheOutline M s₀ t op Q (Local s₀ t (if some reply = some .ok then _ else _) reads) _
        rw [if_neg (by simpa using hok)]
        exact hlost reply hok

/-- A task that has written reads back what it wrote. -/
theorem outline_readBack {e : CacheCommit K} {k : Option (Option (CacheSlot K)) → CacheProgram K α}
    (h : CacheOutline M s₀ t op Q (Local s₀ t [e] reads) (k (some (some e.after)))) :
    CacheOutline M s₀ t op Q (Local s₀ t [e] reads) (.await (CacheAction.get e.principalText) k) := by
  refine .await _ (fun (x : Option (Option (CacheSlot K))) s =>
    x = some (some e.after) ∧ Local s₀ t [e] reads s) (fun _ _ h => h) (local_stable [e] reads) ?_ ?_
  · rintro s (x : Option (Option (CacheSlot K))) s' hi hl ⟨hs, hadmitted⟩
    change (if x = none ∨ x = some (s.slots e.principalText) then some s else none) = some s' at hs
    have hmem : e ∈ s.own t := hl.own ▸ List.mem_singleton_self e
    obtain ⟨hmem, htask⟩ := List.mem_filter.1 hmem
    obtain ⟨hsome, hslot⟩ := hadmitted e hmem (of_decide_eq_true htask)
    by_cases hx : x = none ∨ x = some (s.slots e.principalText)
    · rw [if_pos hx] at hs
      cases hs
      exact ⟨hi, ⟨[], rfl, fun e he => nomatch he⟩, (hx.resolve_left hsome).trans (by rw [hslot]), hl⟩
    · rw [if_neg hx] at hs
      cases hs
  · intro x
    by_cases hx : x = some (some e.after)
    · subst hx
      exact h.strengthen fun _ _ hp => hp.2
    · exact outline_unreached (fun _ hp => hx hp.1) _

/-- The session of a task that has written is still current. -/
theorem outline_stillCurrent {e : CacheCommit K} {k : Bool → CacheProgram K α}
    (h : CacheOutline M s₀ t op Q (Local s₀ t [e] reads) (k true)) :
    CacheOutline M s₀ t op Q (Local s₀ t [e] reads) (.await CacheAction.assertCurrent k) := by
  refine .await _ (fun (x : Bool) s => x = true ∧ Local s₀ t [e] reads s) (fun _ _ h => h)
    (local_stable [e] reads) ?_ ?_
  · rintro s (x : Bool) s' hi hl ⟨hs, hadmitted⟩
    cases hs
    have hmem : e ∈ s.own t := hl.own ▸ List.mem_singleton_self e
    obtain ⟨hmem, htask⟩ := List.mem_filter.1 hmem
    exact ⟨hi, ⟨[], rfl, fun e he => nomatch he⟩, hadmitted e hmem (of_decide_eq_true htask), hl⟩
  · rintro (_ | _)
    · exact outline_unreached (fun _ hp => Bool.false_ne_true hp.1) _
    · exact h.strengthen fun _ _ hp => hp.2

end

end StshProtocol.Wallet
