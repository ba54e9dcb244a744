import StshProtocol.Wallet.MergeRuns
import StshProtocol.Wallet.Writes

/-! The balance, counted by nullifier.

Notes are told apart by their leaves, and spends exclude each other by nullifier. A note found at two
leaves is two notes of one nullifier, both of them in the balance, and only one can be spent
(`twins_counted_twice`). While no scan finds such a note (`NoTwins`), a note that can still be spent
is alone with its nullifier (`Alone`), so that the balance counts every nullifier once. -/
namespace StshProtocol.Wallet
open Foundation Scan

/-- A note that is spendable, or locked by a spend that may not come about. -/
def CanSpend (n : ScannedNote) : Prop := n.state = some .spendable ∨ n.state = some .pending

/-- No other note has the nullifier of a note that can be spent. -/
def Alone (s : CachedScanState) : Prop :=
  ∀ n ∈ s.notes, ∀ m ∈ s.notes, CanSpend n → n.nullifier = m.nullifier → n.leafIndex = m.leafIndex

/-- None of the balance has this nullifier. -/
def NoneSpendable (s : CachedScanState) (nullifier : Option Bytes) : Prop :=
  ∀ m ∈ spendableNotes s.notes, m.nullifier ≠ nullifier

/-! ### Twins -/

section Twins
variable (C : NoteCrypto)

/-- The wallet finds a note of these fields at a leaf. -/
def FoundAt (entries : List ScanPageEntry) (fromIndex leaf : Nat) (fields : NoteV2Fields) : Prop :=
  ∃ entry ∈ entries, fromIndex ≤ entry.index ∧ entry.index = leaf ∧ Opens C entry fields

/-- A note of a value, which the registry does not hold. -/
def Unspent (spentSet : List Bytes) (fields : NoteV2Fields) : Prop :=
  fields.value ≠ 0 ∧ noteNullifier C fields ∉ spentSet

/-- The entries give no note that can be spent a twin, among themselves or with a cached note that
they do not bring up to date. -/
structure NoTwins (s : CachedScanState) (entries : List ScanPageEntry) (fromIndex : Nat)
    (spentSet : List Bytes) : Prop where
  found : ∀ {i j : Nat} {f g : NoteV2Fields}, FoundAt C entries fromIndex i f →
    FoundAt C entries fromIndex j g → Unspent C spentSet f →
      noteNullifier C f = noteNullifier C g → i = j
  cached : ∀ {i : Nat} {f : NoteV2Fields}, FoundAt C entries fromIndex i f → ∀ m ∈ s.notes,
    (∀ g, ¬FoundAt C entries fromIndex m.leafIndex g) → m.nullifier = some (noteNullifier C f) →
      ¬Unspent C spentSet f ∧ m.state ≠ some .pending ∧
        (m.state = some .spendable → noteNullifier C f ∈ spentSet)

/-- What a scan sweeps, and what it is merged over, have no twins. -/
def NoTwinsIn (s : CachedScanState) : WalletWrite → Prop
  | .scan options replies _ _ => ∀ r ∈ replies, ∀ entries spentSet,
    Swept options.pageSize none r entries spentSet →
      NoTwins C s entries (options.fromIndex.getD 0) spentSet
  | .verifiedScan options _ replies _ _ => ∀ accepted, replies.acceptedHead = some accepted →
    ∀ r ∈ replies.attempts, ∀ entries spentSet,
      Swept options.pageSize (some accepted.leafCount) r entries spentSet →
        NoTwins C s entries 0 spentSet
  | .change _ => True
  | .shield _ => True

end Twins

section
variable {C : NoteCrypto} {s s' : CachedScanState} {entries : List ScanPageEntry} {fromIndex : Nat}
  {markVerified : Bool} {outcome : ScanOutcome} {n m : ScannedNote} {c : CacheChange}
  {fields : NoteV2Fields} {spentSet : List Bytes}

theorem canSpend_found {index : Nat} :
    CanSpend (foundNote C spentSet markVerified index fields) ↔ Unspent C spentSet fields := by
  show (some (noteState C spentSet fields) = some .spendable ∨
    some (noteState C spentSet fields) = some .pending) ↔ _
  unfold noteState Unspent
  by_cases hvalue : fields.value = 0
  · rw [if_pos hvalue]
    exact iff_of_false (by nofun) fun h => h.1 hvalue
  · rw [if_neg hvalue]
    by_cases hspent : noteNullifier C fields ∈ spentSet
    · rw [if_pos hspent]
      exact iff_of_false (by nofun) fun h => h.2 hspent
    · rw [if_neg hspent]
      exact iff_of_true (.inl rfl) ⟨hvalue, hspent⟩

/-- An outcome has a note at the leaves where one is found. -/
theorem mem_outcome (h : OutcomeOf C entries fromIndex markVerified outcome) :
    n ∈ outcome.notes ↔ ∃ fields, FoundAt C entries fromIndex n.leafIndex fields ∧
      n = foundNote C outcome.spentSet markVerified n.leafIndex fields := by
  rw [h.notes, mem_validateCandidates]
  constructor
  · rintro ⟨entry, hentry, hfrom, fields, hopens, rfl⟩
    exact ⟨fields, ⟨entry, hentry, hfrom, rfl, hopens⟩, rfl⟩
  · rintro ⟨fields, ⟨entry, hentry, hfrom, hindex, hopens⟩, hn⟩
    exact ⟨entry, hentry, hfrom, fields, hopens, hindex ▸ hn⟩

theorem outcome_one (h : OutcomeOf C entries fromIndex markVerified outcome) :
    OneNoteALeaf outcome.notes := by
  rw [h.notes]
  exact found_one h.dense

/-! ### A merge -/

/-- Where a merged note comes from, and what it was there when it can be spent. -/
inductive Source (s : CachedScanState) (outcome : ScanOutcome) (n : ScannedNote) : Prop where
  | outcome (x : ScannedNote) (hx : x ∈ outcome.notes) (hleaf : n.leafIndex = x.leafIndex)
      (hnullifier : n.nullifier = x.nullifier) (hspend : CanSpend n → CanSpend x)
  | cached (x : ScannedNote) (hx : x ∈ s.notes) (hleaf : n.leafIndex = x.leafIndex)
      (hnullifier : n.nullifier = x.nullifier)
      (habsent : x.leafIndex ∉ outcome.notes.map ScannedNote.leafIndex)
      (hspend : CanSpend n → x.state = some .pending ∨ x.state = some .spendable ∧
        ∀ nf, x.nullifier = some nf → nf ∉ outcome.spentSet)

theorem canSpend_of_lowered {n' : ScannedNote} (h : Lowered n n') (hspend : CanSpend n') :
    CanSpend n := by
  rcases h with rfl | ⟨hs, -⟩
  · exact hspend
  · exact .inl hs

/-- Of the notes a scan does not find, one that is spent is not left spendable or locked. -/
theorem reconcile_absent {owned : List Bytes}
    (habsent : n.leafIndex ∉ outcome.notes.map ScannedNote.leafIndex)
    (hspend : CanSpend (reconcile outcome owned n)) : n.state = some .pending ∨
      n.state = some .spendable ∧ ∀ nf, n.nullifier = some nf → nf ∉ outcome.spentSet := by
  by_cases hs : n.state = some .spendable
  · refine .inr ⟨hs, fun nf hnf hin => ?_⟩
    rw [reconcile, if_pos hs, hnf] at hspend
    dsimp only at hspend
    rw [if_pos ⟨habsent, hin⟩] at hspend
    rcases hspend with h | h <;> cases h
  · rw [reconcile, if_neg hs] at hspend
    exact .inl (hspend.resolve_left hs)

theorem merged_source {nowNs : Option Nat} {via : Option FirstSeenVia} (hprev : OneNoteALeaf s.notes)
    (hnext : OneNoteALeaf outcome.notes) (hn : n ∈ (mergeScanOutcome s outcome nowNs via).notes) :
    Source s outcome n := by
  obtain ⟨k, hk, rfl⟩ := List.mem_map.1 hn
  have hlowered := reconcile_lowered outcome (journalOwnedNullifiers s) k
  have hkept : (reconcile outcome (journalOwnedNullifiers s) k).leafIndex = k.leafIndex ∧
      (reconcile outcome (journalOwnedNullifiers s) k).nullifier = k.nullifier := by
    rw [hlowered.eq]
    exact ⟨rfl, rfl⟩
  have hstamped : OneNoteALeaf (outcome.notes.map (stamp nowNs via)) := by
    rw [OneNoteALeaf, stamped_leaves]
    exact hnext
  rcases merged_cases hprev hstamped hk with ⟨hnone, hmem⟩ | ⟨x, hx, hmerged⟩
  · rw [noteAt_eq_none, stamped_leaves] at hnone
    exact .cached k hmem hkept.1 hkept.2 hnone fun h => reconcile_absent hnone h
  · obtain ⟨hmem, hleaf⟩ := mem_of_noteAt hx
    obtain ⟨y, hy, rfl⟩ := List.mem_map.1 hmem
    obtain ⟨_, _, hstamp⟩ := stamp_eq nowNs via y
    obtain ⟨_, _, hseen⟩ := mergedNote_eq (noteAt s.notes k.leafIndex) (stamp nowNs via y)
    have hyk : k.nullifier = y.nullifier ∧ k.state = y.state := by
      rw [hmerged, hseen, hstamp]
      exact ⟨rfl, rfl⟩
    have hyleaf : y.leafIndex = k.leafIndex := by
      rw [← hleaf, hstamp]
    refine .outcome y hy (hkept.1.trans hyleaf.symm) (hkept.2.trans hyk.1) fun h => ?_
    have hspend := canSpend_of_lowered hlowered h
    unfold CanSpend at hspend ⊢
    rw [← hyk.2]
    exact hspend

theorem merge_one {nowNs : Option Nat} {via : Option FirstSeenVia} (hprev : OneNoteALeaf s.notes)
    (hnext : OneNoteALeaf outcome.notes) :
    OneNoteALeaf (mergeScanOutcome s outcome nowNs via).notes := by
  have hstamped : OneNoteALeaf (outcome.notes.map (stamp nowNs via)) := by
    rw [OneNoteALeaf, stamped_leaves]
    exact hnext
  have h := mergeScannedNotes_one hprev hstamped
  rw [OneNoteALeaf, mergeScanOutcome, List.map_map]
  refine (List.map_congr_left fun k _ => ?_) ▸ h
  rw [Function.comp_apply, (reconcile_lowered outcome _ k).eq]

/-- A merge of what has no twins leaves the notes that can be spent alone. -/
theorem merge_alone {nowNs : Option Nat} {via : Option FirstSeenVia} (hprev : OneNoteALeaf s.notes)
    (halone : Alone s) (hof : OutcomeOf C entries fromIndex markVerified outcome)
    (hno : NoTwins C s entries fromIndex outcome.spentSet) :
    Alone (mergeScanOutcome s outcome nowNs via) := by
  have hunfound : ∀ x : ScannedNote, x.leafIndex ∉ outcome.notes.map ScannedNote.leafIndex →
      ∀ g, ¬FoundAt C entries fromIndex x.leafIndex g := by
    intro x habsent g hfound
    exact habsent (List.mem_map.2 ⟨foundNote C outcome.spentSet markVerified x.leafIndex g,
      (mem_outcome hof).2 ⟨g, hfound, rfl⟩, rfl⟩)
  intro n hn m hm hspend hsame
  rcases merged_source hprev (outcome_one hof) hn with
    ⟨x, hx, hnx, hnf, hxspend⟩ | ⟨x, hx, hnx, hnf, habsent, hxspend⟩
  · obtain ⟨f, hf, hxf⟩ := (mem_outcome hof).1 hx
    have hunspent : Unspent C outcome.spentSet f := canSpend_found.1 (hxf ▸ hxspend hspend)
    have hxnf : x.nullifier = some (noteNullifier C f) := by rw [hxf]; rfl
    rcases merged_source hprev (outcome_one hof) hm with
      ⟨y, hy, hmy, hmnf, -⟩ | ⟨y, hy, hmy, hmnf, hyabsent, -⟩
    · obtain ⟨g, hg, hyg⟩ := (mem_outcome hof).1 hy
      have hynf : y.nullifier = some (noteNullifier C g) := by rw [hyg]; rfl
      have heq := hxnf.symm.trans (hnf.symm.trans (hsame.trans (hmnf.trans hynf)))
      rw [hnx, hmy]
      exact hno.found hf hg hunspent (Option.some.inj heq)
    · have hynf : y.nullifier = some (noteNullifier C f) :=
        hmnf.symm.trans (hsame.symm.trans (hnf.trans hxnf))
      exact absurd hunspent (hno.cached hf y hy (hunfound y hyabsent) hynf).1
  · have hlive := hxspend hspend
    rcases merged_source hprev (outcome_one hof) hm with
      ⟨y, hy, hmy, hmnf, -⟩ | ⟨y, hy, hmy, hmnf, hyabsent, -⟩
    · obtain ⟨g, hg, hyg⟩ := (mem_outcome hof).1 hy
      have hynf : y.nullifier = some (noteNullifier C g) := by rw [hyg]; rfl
      have hxnf : x.nullifier = some (noteNullifier C g) :=
        hnf.symm.trans (hsame.trans (hmnf.trans hynf))
      obtain ⟨-, hpending, hspendable⟩ := hno.cached hg x hx (hunfound x habsent) hxnf
      rcases hlive with h | ⟨h, hfree⟩
      · exact absurd h hpending
      · exact absurd (hspendable h) (hfree _ hxnf)
    · have hxspend : CanSpend x := by
        rcases hlive with h | ⟨h, -⟩
        · exact .inr h
        · exact .inl h
      rw [hnx, hmy]
      exact halone x hx y hy hxspend (hnf.symm.trans (hsame.trans hmnf))

/-! ### The journal -/

theorem canSpend_of_relabel {n' : ScannedNote} (h : Relabel n n') (hspend : CanSpend n') :
    CanSpend n := by
  cases h with
  | same => exact hspend
  | lock h => exact .inl h
  | unlock h => exact .inr h
  | spend => rcases hspend with h | h <;> exact nomatch Option.some.inj h

theorem relabel_same {n' : ScannedNote} (h : Relabel n n') :
    n'.leafIndex = n.leafIndex ∧ n'.nullifier = n.nullifier := by
  cases h <;> exact ⟨rfl, rfl⟩

theorem alone_of_relabelled (h : Relabelled s s') (halone : Alone s) : Alone s' := by
  intro n hn m hm hspend hsame
  obtain ⟨x, hx, hxn⟩ := forall₂_left h.notes.flip hn
  obtain ⟨y, hy, hym⟩ := forall₂_left h.notes.flip hm
  obtain ⟨hnleaf, hnnf⟩ := relabel_same hxn
  obtain ⟨hmleaf, hmnf⟩ := relabel_same hym
  rw [hnleaf, hmleaf]
  exact halone x hx y hy (canSpend_of_relabel hxn hspend) (hnnf.symm.trans (hsame.trans hmnf))

/-! ### Runs -/

/-- One note a leaf, and those that can be spent alone with their nullifiers. -/
structure Counted (s : CachedScanState) : Prop where
  one : OneNoteALeaf s.notes
  alone : Alone s

theorem counted_of_merge {nowNs : Option Nat} {via : Option FirstSeenVia} (h : Counted s)
    (hof : OutcomeOf C entries fromIndex markVerified outcome)
    (hno : NoTwins C s entries fromIndex outcome.spentSet) :
    Counted (mergeScanOutcome s outcome nowNs via) :=
  ⟨merge_one h.one (outcome_one hof), merge_alone h.one h.alone hof hno⟩

theorem counted_of_relabelled (h : Counted s) (hr : Relabelled s s') : Counted s' :=
  ⟨hr.one h.one, alone_of_relabelled hr h.alone⟩

/-- A write of what has no twins keeps the count. -/
theorem counted_of_write {w : WalletWrite} (h : Counted s) (hno : NoTwinsIn C s w)
    (hw : w.apply C s = some s') : Counted s' := by
  cases w with
  | scan options replies nowNs via =>
    obtain ⟨outcome, houtcome, rfl⟩ := scan_written hw
    obtain ⟨r, hr, entries, hswept, hof⟩ := scanAttempts_ok houtcome
    exact counted_of_merge h hof (hno r hr entries outcome.spentSet hswept)
  | verifiedScan options binding replies seenAtNs via =>
    obtain ⟨outcome, m, houtcome, rfl⟩ := verifiedScan_written hw
    obtain ⟨-, -, -, accepted, haccepted, r, hr, entries, hswept, hof⟩ :=
      scanAndValidateVerified_ok houtcome
    have hmerged : Counted (mergeScanOutcome s outcome (some seenAtNs) via) :=
      counted_of_merge h hof (hno accepted haccepted r hr entries outcome.spentSet hswept)
    exact ⟨hmerged.one, hmerged.alone⟩
  | change c =>
    obtain ⟨hout, hc⟩ := change_written hw
    rcases other_cases hout hc with hr | ⟨hash, epoch, -, rfl⟩
    · exact counted_of_relabelled h hr
    · exact ⟨h.one, h.alone⟩
  | shield c =>
    rw [shield_written hw]
    exact ⟨h.one, h.alone⟩

theorem counted_of_run {s₀ : CachedScanState} (h : Counted s₀)
    (run : (walletSystem C s₀).RunIf (NoTwinsIn C) s) : Counted s := by
  refine run.invariant (fun _ hinit => hinit ▸ h) fun s w s' _ ih hno hstep => ?_
  exact counted_of_write ih hno hstep

theorem mem_spendableNotes : n ∈ spendableNotes s.notes ↔ n ∈ s.notes ∧ n.state = some .spendable := by
  rw [spendableNotes, List.mem_filter, decide_eq_true_iff, noteLifecycle]
  refine and_congr_right fun _ => ?_
  cases n.state with
  | none => exact iff_of_false (by simp) (by simp)
  | some state => exact ⟨congrArg some, Option.some.inj⟩

/-- The balance has each nullifier once. -/
theorem nullifiers_nodup (h : Counted s) :
    ((spendableNotes s.notes).map ScannedNote.nullifier).Nodup := by
  have hnodup : (spendableNotes s.notes).Nodup :=
    (h.one.of_map _).filter _
  refine hnodup.map_on fun n hn m hm hsame => ?_
  obtain ⟨hn, hstate⟩ := mem_spendableNotes.1 hn
  obtain ⟨hm, -⟩ := mem_spendableNotes.1 hm
  exact h.one.eq hn hm (h.alone n hn m hm (.inl hstate) hsame)

/-- A note that is not in the balance has no twin there. -/
theorem noneSpendable {nullifier : Option Bytes} (h : Counted s) (hn : n ∈ s.notes)
    (hnullifier : n.nullifier = nullifier) (hstate : n.state ≠ some .spendable) :
    NoneSpendable s nullifier := by
  intro m hm hsame
  rw [← hnullifier] at hsame
  obtain ⟨hm, hspendable⟩ := mem_spendableNotes.1 hm
  have hleaf := h.alone m hm n hn (.inl hspendable) hsame
  obtain rfl := h.one.eq hm hn hleaf
  exact hstate hspendable

/-- The note at a leaf, after it was changed there. -/
theorem mem_at_leaf (f : ScannedNote → ScannedNote) (hone : OneNoteALeaf s.notes) (hn : n ∈ s.notes) :
    f n ∈ modifyFirst (fun k => decide (k.leafIndex = n.leafIndex)) f s.notes := by
  have hfind : s.notes.find? (fun k => decide (k.leafIndex = n.leafIndex)) = some n :=
    noteAt_of_mem hone hn
  exact mem_modifyFirst hfind

theorem locked_of_beginSpend {entry : SpendJournal.NewSpendEntry} (h : Counted s) (hn : n ∈ s.notes)
    (hbegin : SpendJournal.beginSpend n.leafIndex entry s = .ok s') : NoneSpendable s' n.nullifier := by
  have hcounted := counted_of_relabelled h (beginSpend_relabels hbegin)
  have hlocked : {n with state := some .pending} ∈ s'.notes := by
    have hfind : s.notes.find? (fun k => decide (k.leafIndex = n.leafIndex)) = some n :=
      noteAt_of_mem h.one hn
    rw [SpendJournal.beginSpend, hfind] at hbegin
    dsimp only at hbegin
    split at hbegin
    · cases hbegin
    · split at hbegin
      · cases hbegin
      · split at hbegin
        · cases hbegin
        · obtain rfl := Except.ok.inj hbegin
          exact mem_at_leaf (fun k => {k with state := some .pending}) h.one hn
  exact noneSpendable hcounted hlocked rfl fun h => by cases h

theorem spent_of_finalize {id : Nat} {entry : SpendJournalEntryState} (h : Counted s) (hn : n ∈ s.notes)
    (hentry : SpendJournal.knownEntry s id = .ok entry) (hlength : entry.nullifierHex.length = 32)
    (hnullifier : n.nullifier = some entry.nullifierHex)
    (hfinal : SpendJournal.finalizeFromSpendOk id (some n.leafIndex) s = .ok s') :
    NoneSpendable s' n.nullifier := by
  have hcounted := counted_of_relabelled h (finalizeFromSpendOk_relabels hfinal)
  obtain ⟨e, he, rfl⟩ := ok_of_entry hfinal
  obtain rfl := Except.ok.inj (hentry.symm.trans he)
  have hspent := mem_at_leaf (fun k =>
    if entry.nullifierHex.length = 32 ∧ k.nullifier = some entry.nullifierHex then
      {k with state := some .spent} else k) h.one hn
  rw [if_pos ⟨hlength, hnullifier⟩] at hspent
  exact noneSpendable hcounted hspent rfl fun h => nomatch Option.some.inj h

/-- Of a cache that was begun empty and never merged a scan of twins: the balance has every nullifier
once, and a note that is locked or finalized leaves none of its nullifier there. -/
theorem balance_counts_once (run : (walletSystem C emptyScanState).RunIf (NoTwinsIn C) s) :
    ((spendableNotes s.notes).map ScannedNote.nullifier).Nodup ∧
    (∀ n ∈ s.notes, noteLifecycle n ≠ .spendable → NoneSpendable s n.nullifier) ∧
    (∀ n ∈ s.notes, ∀ entry s', SpendJournal.beginSpend n.leafIndex entry s = .ok s' →
      NoneSpendable s' n.nullifier) ∧
    ∀ n ∈ s.notes, ∀ id entry s', SpendJournal.knownEntry s id = .ok entry →
      entry.nullifierHex.length = 32 → n.nullifier = some entry.nullifierHex →
        SpendJournal.finalizeFromSpendOk id (some n.leafIndex) s = .ok s' →
          NoneSpendable s' n.nullifier := by
  have hempty : Counted emptyScanState := ⟨List.nodup_nil, fun _ hn => nomatch hn⟩
  have h := counted_of_run hempty run
  refine ⟨nullifiers_nodup h, fun n hn hstate => noneSpendable h hn rfl fun hs => ?_, ?_, ?_⟩
  · exact hstate (by rw [noteLifecycle, hs]; rfl)
  · intro n hn entry s' hbegin
    exact locked_of_beginSpend h hn hbegin
  · intro n hn id entry s' hentry hlength hnullifier hfinal
    exact spent_of_finalize h hn hentry hlength hnullifier hfinal

end

/-! ### One note at two leaves -/

def sampleCrypto : NoteCrypto where
  tryDecrypt := some
  masterNoteSecret := []
  hkdf _ _ _ := List.replicate 96 1
  poseidon inputs := Bytes.toLe 32 (inputs.foldl (fun a x => (a * 31 + Bytes.ofLe x + 1) % 2 ^ 256) 0)
  poseidon_length _ := Bytes.length_toLe 32 _

def sampleNoteFields : NoteV2Fields where
  nonce := List.replicate 16 7
  value := 5
  rho := List.replicate 32 1
  rseed := List.replicate 32 1
  recipientPk := derivePk sampleCrypto (List.replicate 32 1)

/-- The note at a leaf, with its payload. -/
def sampleEntry (index : Nat) : ScanPageEntry where
  index := index
  leaf := merkleLeaf sampleCrypto 5 (noteCommitment sampleCrypto sampleNoteFields)
  encryptedPayload := 2 :: List.replicate 16 7 ++ Bytes.toBe 8 5 ++ sampleNoteFields.rho ++
    sampleNoteFields.rseed ++ sampleNoteFields.recipientPk

/-- The root of a mirror, where there is one. -/
def sampleRoot (entries : List ScanPageEntry) : Bytes :=
  match rootOf sampleCrypto entries entries.length with
  | .ok root => root
  | .error _ => []

/-- Replies on a tree of these entries, of which nothing is spent. -/
def sampleReplies (entries : List ScanPageEntry) : ScanReplies where
  head := ⟨entries.length, sampleRoot entries⟩
  pages := [entries]
  spent := [⟨0, [[]], 0⟩]
  countNow := 0

def sampleOptions : ScanOptions := ⟨none, none⟩

def sampleScan (entries : List ScanPageEntry) : WalletWrite :=
  .scan sampleOptions [sampleReplies entries] none none

/-- What is written of such a tree. -/
def sampleScannedState (entries : List ScanPageEntry) : CachedScanState :=
  mergeScanOutcome emptyScanState
    ⟨(validateCandidates sampleCrypto entries [] 0 false).notes,
      (validateCandidates sampleCrypto entries [] 0 false).scannedUpTo,
      ⟨entries.length, sampleRoot entries⟩,
      (validateCandidates sampleCrypto entries [] 0 false).quarantine, []⟩ none none

theorem sampleScan_written {entries : List ScanPageEntry} {leaves : List ShieldedPool.Bytes32}
    (hsync : syncMirror ⟨entries.length, sampleRoot entries⟩ [entries] none none = .ok entries)
    (hholding : Holding (mirrorOf entries) leaves) (hlength : entries.length = leaves.length)
    (hroom : leaves.length < 2 ^ 32) :
    (sampleScan entries).apply sampleCrypto emptyScanState = some (sampleScannedState entries) := by
  have hroot : rootOf sampleCrypto entries entries.length = .ok (sampleRoot entries) := by
    have hok := mirrorRoot_ok (H := poseidon2 sampleCrypto) hholding hroom
    unfold sampleRoot rootOf
    rw [hlength, hok]
  have honce : scanAndValidateOnce sampleCrypto sampleOptions (sampleReplies entries) = .ok
      ⟨(validateCandidates sampleCrypto entries [] 0 false).notes,
        (validateCandidates sampleCrypto entries [] 0 false).scannedUpTo,
        ⟨entries.length, sampleRoot entries⟩,
        (validateCandidates sampleCrypto entries [] 0 false).quarantine, []⟩ := by
    refine bind_of_ok hsync (bind_of_ok (a := []) rfl (bind_of_ok hroot ?_))
    exact if_neg (not_not.2 rfl)
  have hscan : scanAndValidate sampleCrypto sampleOptions [sampleReplies entries] = _ :=
    bind_of_ok honce (if_pos rfl)
  exact writtenOf_eq_some.2 ⟨_, hscan, rfl⟩

theorem sampleScan_single : (sampleScan [sampleEntry 0]).apply sampleCrypto emptyScanState =
    some (sampleScannedState [sampleEntry 0]) := by
  refine sampleScan_written rfl (?_ : Holding _ [word (sampleEntry 0).leaf]) rfl (by decide)
  intro j hj
  obtain rfl : j = 0 := Nat.lt_one_iff.1 hj
  exact (StableMap.get_insert ..).trans (if_pos rfl)

theorem sampleScan_twins :
    (sampleScan [sampleEntry 0, sampleEntry 1]).apply sampleCrypto emptyScanState =
      some (sampleScannedState [sampleEntry 0, sampleEntry 1]) := by
  have hsync : syncMirror ⟨2, sampleRoot [sampleEntry 0, sampleEntry 1]⟩
      [[sampleEntry 0, sampleEntry 1]] none none = .ok [sampleEntry 0, sampleEntry 1] := rfl
  refine sampleScan_written hsync
    (?_ : Holding _ [word (sampleEntry 0).leaf, word (sampleEntry 1).leaf]) rfl (by decide)
  intro j hj
  match j, hj with
  | 0, _ =>
    refine (StableMap.get_insert ..).trans ((if_neg (by decide)).trans ?_)
    exact (StableMap.get_insert ..).trans (if_pos rfl)
  | 1, _ => exact (StableMap.get_insert ..).trans (if_pos rfl)

/-- A tree of one note, counted once. -/
theorem balance_counts_once_single : ∃ s, (walletSystem sampleCrypto emptyScanState).Reachable s ∧
    (spendableNotes s.notes).length = 1 ∧
      ((spendableNotes s.notes).map ScannedNote.nullifier).Nodup := by
  have hno : NoTwinsIn sampleCrypto emptyScanState (sampleScan [sampleEntry 0]) := by
    intro r hr entries spentSet hswept
    obtain rfl := List.mem_singleton.1 hr
    have hsync : syncMirror (sampleReplies [sampleEntry 0]).head (sampleReplies [sampleEntry 0]).pages
        none none = .ok [sampleEntry 0] := rfl
    obtain rfl := Except.ok.inj (hsync.symm.trans hswept.mirror)
    refine ⟨fun ⟨e, he, _, hi, _⟩ ⟨e', he', _, hj, _⟩ _ _ => ?_, fun _ m hm => nomatch hm⟩
    obtain rfl := List.mem_singleton.1 he
    obtain rfl := List.mem_singleton.1 he'
    exact hi.symm.trans hj
  have run : (walletSystem sampleCrypto emptyScanState).RunIf (NoTwinsIn sampleCrypto)
      (sampleScannedState [sampleEntry 0]) := .step (.start rfl) hno sampleScan_single
  exact ⟨_, run.mono fun _ _ _ => trivial, by decide +kernel, (balance_counts_once run).1⟩

/-- A tree that repeats a leaf with its payload: both are in the balance. -/
theorem twins_counted_twice : ¬ ∀ s, (walletSystem sampleCrypto emptyScanState).Reachable s →
    ((spendableNotes s.notes).map ScannedNote.nullifier).Nodup := by
  intro h
  have run : (walletSystem sampleCrypto emptyScanState).Reachable
      (sampleScannedState [sampleEntry 0, sampleEntry 1]) := .step (.start rfl) trivial sampleScan_twins
  have hnotes : ((spendableNotes (sampleScannedState [sampleEntry 0, sampleEntry 1]).notes).map
      ScannedNote.nullifier) =
        List.replicate 2 (some (noteNullifier sampleCrypto sampleNoteFields)) := by
    decide +kernel
  have hnodup := h _ run
  rw [hnotes] at hnodup
  exact absurd hnodup (List.nodup_replicate.not.2 (by decide))

end StshProtocol.Wallet
