import StshProtocol.Wallet.Merge

/-! What merging keeps.

Every change of the cache is one of three kinds: a merge, which takes up an outcome leaf by leaf; a
transition of the spend journal, which only relabels notes (`Relabelled`); a reset of a floor. From
what one change does to the note at a leaf (`Follows`) comes what a run does. A merge takes the
outcome's word on the state of a note, so what it must not do, find a note spendable that the cache
has recorded spent, is the condition of the runs (`SpentSetCurrent`). -/
namespace StshProtocol.Wallet
open Foundation

/-- At most one note a leaf. -/
def OneNoteALeaf (notes : List ScannedNote) : Prop := (notes.map ScannedNote.leafIndex).Nodup

/-- The note cached at a leaf. -/
def noteAt (notes : List ScannedNote) (leaf : Nat) : Option ScannedNote :=
  notes.find? fun n => n.leafIndex = leaf

section
variable {notes prev next : List ScannedNote} {n n' b : ScannedNote} {leaf : Nat}
  {m : StableMap Nat ScannedNote}

theorem noteAt_cons (n : ScannedNote) (notes : List ScannedNote) (leaf : Nat) :
    noteAt (n :: notes) leaf = if n.leafIndex = leaf then some n else noteAt notes leaf := by
  rw [noteAt, List.find?_cons]
  by_cases h : n.leafIndex = leaf
  · rw [if_pos h, decide_eq_true h]
  · rw [if_neg h, decide_eq_false h]
    rfl

theorem mem_of_noteAt (h : noteAt notes leaf = some n) : n ∈ notes ∧ n.leafIndex = leaf :=
  ⟨List.mem_of_find?_eq_some h, by simpa using List.find?_some h⟩

theorem noteAt_eq_none : noteAt notes leaf = none ↔ leaf ∉ notes.map ScannedNote.leafIndex := by
  simp [noteAt]

theorem noteAt_of_mem (hone : OneNoteALeaf notes) (h : n ∈ notes) :
    noteAt notes n.leafIndex = some n := by
  induction notes with
  | nil => exact nomatch h
  | cons a notes ih =>
    obtain ⟨ha, hone⟩ := List.nodup_cons.1 hone
    rw [noteAt_cons]
    rcases List.mem_cons.1 h with rfl | h
    · exact if_pos rfl
    · have hne : a.leafIndex ≠ n.leafIndex := fun heq => ha (heq ▸ List.mem_map_of_mem h)
      rw [if_neg hne]
      exact ih hone h

/-- Notes of one leaf are one note. -/
theorem OneNoteALeaf.eq (hone : OneNoteALeaf notes) (h : n ∈ notes) (h' : n' ∈ notes)
    (hleaf : n.leafIndex = n'.leafIndex) : n = n' :=
  Option.some.inj (by rw [← noteAt_of_mem hone h, ← noteAt_of_mem hone h', hleaf])

/-! ### The merged notes, leaf by leaf -/

theorem indexNotes_get (hone : OneNoteALeaf notes) (leaf : Nat) :
    (notes.foldl (fun byIndex n => byIndex.insert n.leafIndex n) m)[leaf]? =
      (noteAt notes leaf).or m[leaf]? := by
  induction notes generalizing m with
  | nil => rfl
  | cons a notes ih =>
    obtain ⟨ha, hone⟩ := List.nodup_cons.1 hone
    rw [List.foldl_cons, ih hone, noteAt_cons, StableMap.get_insert]
    by_cases h : a.leafIndex = leaf
    · rw [if_pos h, if_pos h, noteAt_eq_none.2 (h ▸ ha)]
      rfl
    · rw [if_neg h, if_neg h]

/-- At each leaf, the outcome's note merged with what was there; elsewhere what was there. -/
def mergedAt (before after : Option ScannedNote) : Option ScannedNote :=
  match after with
  | some n => some (mergedNote before n)
  | none => before

theorem mergeInto_get (hone : OneNoteALeaf next) (m : StableMap Nat ScannedNote) (leaf : Nat) :
    (mergeInto m next)[leaf]? = mergedAt m[leaf]? (noteAt next leaf) := by
  induction next generalizing m with
  | nil => rfl
  | cons a next ih =>
    obtain ⟨ha, hone⟩ := List.nodup_cons.1 hone
    rw [mergeInto, List.foldl_cons, ← mergeInto, ih hone, noteAt_cons, StableMap.get_insert]
    by_cases h : a.leafIndex = leaf
    · rw [if_pos h, if_pos h, noteAt_eq_none.2 (h ▸ ha), ← h]
      rfl
    · rw [if_neg h, if_neg h]

theorem merged_get (hprev : OneNoteALeaf prev) (hnext : OneNoteALeaf next) (leaf : Nat) :
    (mergeInto (indexNotes prev) next)[leaf]? = mergedAt (noteAt prev leaf) (noteAt next leaf) := by
  rw [mergeInto_get hnext, indexNotes, indexNotes_get hprev, Std.ExtTreeMap.getElem?_empty,
    Option.or_none]

/-- A note is carried on from an earlier sighting, or is taken as it comes. -/
theorem mergedNote_cases (before : Option ScannedNote) (n : ScannedNote) :
    (∃ b t, before = some b ∧ b.firstSeenAtNs = some t ∧
        (∀ now, n.firstSeenAtNs = some now → t ≤ now) ∧ mergedNote before n = carry n b) ∨
      (∀ b t, before = some b → b.firstSeenAtNs = some t →
        ∃ now < t, n.firstSeenAtNs = some now) ∧ mergedNote before n = n := by
  rcases before with _ | b
  · exact .inr ⟨fun b t h => (Option.some_ne_none _ h.symm).elim, rfl⟩
  · cases hb : b.firstSeenAtNs with
    | none =>
      refine .inr ⟨fun a t ha ht => ?_, by rw [mergedNote, hb]⟩
      obtain rfl := Option.some.inj ha
      exact (Option.some_ne_none _ (ht.symm.trans hb)).elim
    | some t =>
      cases hn : n.firstSeenAtNs with
      | none =>
        refine .inl ⟨b, t, rfl, hb, fun now h => (Option.some_ne_none _ h.symm).elim, ?_⟩
        rw [mergedNote, hb, hn]
      | some now =>
        by_cases hle : t ≤ now
        · refine .inl ⟨b, t, rfl, hb, fun now' h => ?_, ?_⟩
          · obtain rfl := Option.some.inj h
            exact hle
          · rw [mergedNote, hb, hn]
            exact if_pos hle
        · refine .inr ⟨fun a t' ha ht => ?_, ?_⟩
          · obtain rfl := Option.some.inj ha
            obtain rfl := Option.some.inj (hb.symm.trans ht)
            exact ⟨now, by omega, rfl⟩
          · rw [mergedNote, hb, hn]
            show (if t ≤ now then carry n b else carry n n) = n
            rw [if_neg hle, carry, Option.or_self]

/-- A note keeps all but its sighting. -/
theorem mergedNote_eq (before : Option ScannedNote) (n : ScannedNote) :
    ∃ seen via, mergedNote before n = {n with firstSeenAtNs := seen, firstSeenVia := via} := by
  obtain ⟨b, t, _, _, _, h⟩ | ⟨_, h⟩ := mergedNote_cases before n
  · exact ⟨_, _, h⟩
  · exact ⟨_, _, h⟩

/-- The sighting of a note never becomes a later one. -/
theorem mergedNote_seen {t : Nat} (hb : b.firstSeenAtNs = some t) (n : ScannedNote) :
    ∃ t' ≤ t, (mergedNote (some b) n).firstSeenAtNs = some t' := by
  obtain ⟨a, _, ha, _, _, h⟩ | ⟨hn, h⟩ := mergedNote_cases (some b) n
  · obtain rfl := Option.some.inj ha
    exact ⟨t, Nat.le_refl t, by rw [h]; exact hb⟩
  · obtain ⟨now, hlt, hnow⟩ := hn b t rfl hb
    exact ⟨now, Nat.le_of_lt hlt, by rw [h, hnow]⟩

/-- Merged over a note of the same sighting as its merge, a note comes out as it did. -/
theorem mergedNote_again (before : Option ScannedNote) (n : ScannedNote)
    (hseen : b.firstSeenAtNs = (mergedNote before n).firstSeenAtNs)
    (hvia : b.firstSeenVia = (mergedNote before n).firstSeenVia) :
    mergedNote (some b) n = mergedNote before n := by
  obtain ⟨a, t, _, hat, hle, h⟩ | ⟨_, h⟩ := mergedNote_cases before n <;>
    rw [h] at hseen hvia ⊢ <;>
    obtain ⟨b', t', hb', ht', _, h'⟩ | ⟨hlt, h'⟩ := mergedNote_cases (some b) n
  · obtain rfl := Option.some.inj hb'
    rw [h', carry, carry, hseen, hvia, carry, Option.or_assoc, Option.or_self]
  · obtain ⟨now, hnow, hn⟩ := hlt b t rfl (hseen.trans hat)
    have := hle now hn
    omega
  · obtain rfl := Option.some.inj hb'
    rw [h', carry, hseen, hvia, Option.or_self]
  · exact h'

end

/-! ### The transitions of the journal -/

/-- A note with another label: spendable and pending for one another, or spent. -/
inductive Relabel (n : ScannedNote) : ScannedNote → Prop where
  | same : Relabel n n
  | lock (h : n.state = some .spendable) : Relabel n {n with state := some .pending}
  | unlock (h : n.state = some .pending) : Relabel n {n with state := some .spendable}
  | spend : Relabel n {n with state := some .spent}

/-- The notes relabelled, and what else a merge reads left as it was. -/
structure Relabelled (s s' : CachedScanState) : Prop where
  notes : List.Forall₂ Relabel s.notes s'.notes
  scanned : s'.lastScannedIndex = s.lastScannedIndex
  floors : s'.verifiedFloors = s.verifiedFloors

section
variable {s s' : CachedScanState} {spendId atNs : Nat} {leaf : Option Nat} {text : String}
  {entry : SpendJournal.NewSpendEntry} {p : ScannedNote → Bool} {f : ScannedNote → ScannedNote}
  {journal : SpendJournalState}

theorem relabel_refl (notes : List ScannedNote) : List.Forall₂ Relabel notes notes :=
  List.forall₂_same.2 fun _ _ => .same

theorem relabelled_journal (s : CachedScanState) (journal : SpendJournalState) :
    Relabelled s (SpendJournal.withJournal s journal) := ⟨relabel_refl _, rfl, rfl⟩

/-- The note at a leaf relabelled, and the journal written. -/
theorem relabelled_notes {notes : List ScannedNote} (h : List.Forall₂ Relabel s.notes notes) :
    Relabelled s (SpendJournal.withJournal {s with notes := notes} journal) := ⟨h, rfl, rfl⟩

theorem relabel_leaf (hf : ∀ n, Relabel n (f n)) (leaf : Option Nat) :
    List.Forall₂ Relabel s.notes (match leaf with
      | none => s.notes
      | some leaf => modifyFirst (fun n => n.leafIndex = leaf) f s.notes) := by
  cases leaf with
  | none => exact relabel_refl _
  | some leaf => exact forall₂_modifyFirst (fun _ => .same) fun n _ => hf n

/-- What an entry looked up is needed for. -/
theorem ok_of_entry {α β : Type} {look : Except CacheError α} {f : α → β} {b : β}
    (h : (do let a ← look; return f a) = .ok b) : ∃ a, look = .ok a ∧ f a = b := by
  cases look with
  | error e => exact nomatch h
  | ok a => exact ⟨a, rfl, Except.ok.inj h⟩

theorem beginSpend_relabels {leaf : Nat} (h : SpendJournal.beginSpend leaf entry s = .ok s') :
    Relabelled s s' := by
  rw [SpendJournal.beginSpend] at h
  cases hfind : s.notes.find? fun n => n.leafIndex = leaf with
  | none => rw [hfind] at h; exact nomatch h
  | some note =>
    rw [hfind] at h
    dsimp only at h
    by_cases hspend : noteLifecycle note ≠ .spendable
    · rw [if_pos hspend] at h
      exact nomatch h
    · rw [if_neg hspend] at h
      split at h
      · exact nomatch h
      split at h
      · exact nomatch h
      obtain rfl := Except.ok.inj h
      refine relabelled_notes (forall₂_modifyFirst (fun _ => .same) fun n hn => ?_)
      obtain rfl := Option.some.inj (hfind.symm.trans hn)
      refine .lock ?_
      rw [noteLifecycle, ne_eq, not_not] at hspend
      cases hstate : note.state with
      | none => rw [hstate] at hspend; exact nomatch hspend
      | some st => rw [hstate] at hspend; exact congrArg some hspend

theorem markDispatched_relabels (h : SpendJournal.markDispatched spendId atNs s = .ok s') :
    Relabelled s s' := by
  obtain ⟨_, _, rfl⟩ := ok_of_entry h
  exact relabelled_journal _ _

theorem archiveNeverDispatched_relabels
    (h : SpendJournal.archiveNeverDispatched spendId leaf text s = .ok s') : Relabelled s s' := by
  obtain ⟨_, _, rfl⟩ := ok_of_entry h
  refine relabelled_notes (relabel_leaf (fun n => ?_) leaf)
  by_cases hp : n.state = some .pending
  · rw [if_pos hp]
    exact .unlock hp
  · rw [if_neg hp]
    exact .same

theorem persistFinalRequest_relabels
    (h : SpendJournal.persistFinalRequest spendId text s = .ok s') : Relabelled s s' := by
  obtain ⟨_, _, rfl⟩ := ok_of_entry h
  exact relabelled_journal _ _

theorem finalizeFromSpendOk_relabels
    (h : SpendJournal.finalizeFromSpendOk spendId leaf s = .ok s') : Relabelled s s' := by
  obtain ⟨e, _, rfl⟩ := ok_of_entry h
  refine relabelled_notes (relabel_leaf (fun n => ?_) leaf)
  by_cases hn : e.nullifierHex.length = 32 ∧ n.nullifier = some e.nullifierHex
  · rw [if_pos hn]
    exact .spend
  · rw [if_neg hn]
    exact .same

theorem markPayoutPending_relabels (h : SpendJournal.markPayoutPending spendId text s = .ok s') :
    Relabelled s s' := by
  obtain ⟨_, _, rfl⟩ := ok_of_entry h
  exact relabelled_journal _ _

theorem importRecoveryRequired_relabels
    (h : SpendJournal.importRecoveryRequired entry s = .ok s') : Relabelled s s' := by
  rw [SpendJournal.importRecoveryRequired] at h
  split at h
  · obtain rfl := Except.ok.inj h
    exact ⟨relabel_refl _, rfl, rfl⟩
  · obtain rfl := Except.ok.inj h
    refine relabelled_notes ?_
    split
    · exact relabel_refl _
    · refine List.forall₂_map_right_iff.2 (List.forall₂_same.2 fun n _ => ?_)
      by_cases hn : n.nullifier = some entry.nullifierHex ∧ n.state = some .spendable
      · rw [if_pos hn]
        exact .lock hn.2
      · rw [if_neg hn]
        exact .same

theorem recordCollisionRetry_relabels
    (h : SpendJournal.recordCollisionRetry spendId entry s = .ok s') : Relabelled s s' := by
  rw [SpendJournal.recordCollisionRetry] at h
  cases hlook : SpendJournal.knownEntry s spendId with
  | error e => rw [hlook] at h; exact nomatch h
  | ok e =>
    rw [hlook] at h
    simp only [bind, Except.bind, pure, Except.pure, throw, throwThe, MonadExceptOf.throw] at h
    split at h
    · exact nomatch h
    · obtain rfl := Except.ok.inj h
      exact relabelled_journal _ _

end

/-! ### One merge -/

/-- A nullifier, where there is one, is of 32 bytes. -/
def LongNullifiers (notes : List ScannedNote) : Prop :=
  ∀ n ∈ notes, ∀ nf, n.nullifier = some nf → nf.length = 32

/-- As it was, or no longer spendable. -/
def Lowered (n n' : ScannedNote) : Prop :=
  n' = n ∨ n.state = some .spendable ∧ ∃ st, st ≠ some .spendable ∧ n' = {n with state := st}

/-- What holds of the note at a leaf from then on: an earlier sighting stays the sighting, and a
note that is spent, or has no value, is never spendable. -/
def Unspendable (W : NoteWorld) (n : ScannedNote) : Prop :=
  n.state = some .spent ∨ n.state = some .dummy ∧ W.valueAt n.leafIndex = 0

structure Follows (W : NoteWorld) (n n' : ScannedNote) : Prop where
  leaf : n'.leafIndex = n.leafIndex
  seen : ∀ t, n.firstSeenAtNs = some t → ∃ t' ≤ t, n'.firstSeenAtNs = some t'
  spent : Unspendable W n → Unspendable W n'

/-- The outcome's spent set knows the notes it lists that the cache has recorded spent, those
without a value apart. -/
def SpentSetCurrent (W : NoteWorld) (s : CachedScanState) (c : CacheChange) : Prop :=
  ∀ outcome, c.outcome? = some outcome → ∀ n ∈ s.notes, n.state = some .spent →
    n.leafIndex ∈ outcome.notes.map ScannedNote.leafIndex → W.valueAt n.leafIndex ≠ 0 →
      W.nullifierAt n.leafIndex ∈ outcome.spentSet

section
variable {W : NoteWorld} {s : CachedScanState} {outcome : ScanOutcome} {endedAt : Nat}
  {nowNs : Option Nat} {via : Option FirstSeenVia} {owned : List Bytes}
  {prev next : List ScannedNote} {n n' n'' : ScannedNote} {leaf : Nat}

theorem Follows.refl (W : NoteWorld) (n : ScannedNote) : Follows W n n :=
  ⟨rfl, fun t h => ⟨t, Nat.le_refl t, h⟩, id⟩

theorem Follows.trans (h : Follows W n n') (h' : Follows W n' n'') : Follows W n n'' where
  leaf := h'.leaf.trans h.leaf
  seen t ht := by
    obtain ⟨t', hle, ht'⟩ := h.seen t ht
    obtain ⟨t'', hle', ht''⟩ := h'.seen t' ht'
    exact ⟨t'', Nat.le_trans hle' hle, ht''⟩
  spent := h'.spent ∘ h.spent

theorem Unspendable.not_spendable (h : Unspendable W n) : n.state ≠ some .spendable := by
  rcases h with h | ⟨h, _⟩ <;> rw [h] <;> decide

theorem reconcile_lowered (outcome : ScanOutcome) (owned : List Bytes) (n : ScannedNote) :
    Lowered n (reconcile outcome owned n) := by
  rw [reconcile]
  by_cases hs : n.state = some .spendable
  · rw [if_pos hs]
    split
    · exact .inl rfl
    · split
      · exact .inr ⟨hs, some .spent, by decide, rfl⟩
      split
      · exact .inr ⟨hs, some .pending, by decide, rfl⟩
      · exact .inl rfl
  · rw [if_neg hs]
    exact .inl rfl

/-- A note keeps all but its state. -/
theorem Lowered.eq (h : Lowered n n') : n' = {n with state := n'.state} := by
  rcases h with rfl | ⟨_, st, _, rfl⟩ <;> rfl

theorem Lowered.follows (h : Lowered n n') : Follows W n n' := by
  rcases h with rfl | ⟨hs, st, _, rfl⟩
  · exact .refl W n'
  · exact ⟨rfl, fun t ht => ⟨t, Nat.le_refl t, ht⟩, fun hu => (hu.not_spendable hs).elim⟩

/-- A note left spendable was so, and is as it was. -/
theorem Lowered.spendable (h : Lowered n n') (hs : n'.state = some .spendable) : n' = n := by
  rcases h with rfl | ⟨_, st, hst, rfl⟩
  · rfl
  · exact (hst hs).elim

theorem reconcile_again (outcome : ScanOutcome) (owned : List Bytes) (n : ScannedNote) :
    reconcile outcome owned (reconcile outcome owned n) = reconcile outcome owned n := by
  rcases reconcile_lowered outcome owned n with h | ⟨_, st, hst, h⟩
  · rw [h, h]
  · rw [h, reconcile, if_neg hst]

theorem reconcile_owned {nf : Bytes} (h : reconcile outcome owned n = n)
    (hs : n.state = some .spendable) (hnf : n.nullifier = some nf) : nf ∉ owned := by
  intro hown
  rw [reconcile, if_pos hs, hnf] at h
  dsimp only at h
  rw [if_pos hown] at h
  have hstate := (congrArg ScannedNote.state h).trans hs
  split at hstate
  · exact nomatch (Option.some.inj hstate)
  · exact nomatch (Option.some.inj hstate)

/-- A note keeps all but its sighting. -/
theorem stamp_eq (nowNs : Option Nat) (via : Option FirstSeenVia) (n : ScannedNote) :
    ∃ seen how, stamp nowNs via n = {n with firstSeenAtNs := seen, firstSeenVia := how} := by
  cases nowNs with
  | none => exact ⟨_, _, rfl⟩
  | some now =>
    unfold stamp
    split
    · exact ⟨_, _, rfl⟩
    · exact ⟨n.firstSeenAtNs, n.firstSeenVia, rfl⟩

theorem stamped_leaves (nowNs : Option Nat) (via : Option FirstSeenVia) (notes : List ScannedNote) :
    (notes.map (stamp nowNs via)).map ScannedNote.leafIndex = notes.map ScannedNote.leafIndex := by
  rw [List.map_map]
  refine List.map_congr_left fun n _ => ?_
  obtain ⟨seen, how, h⟩ := stamp_eq nowNs via n
  rw [Function.comp_apply, h]

theorem leaf_of_mergedAt (h : mergedAt (noteAt prev leaf) (noteAt next leaf) = some n) :
    n.leafIndex = leaf := by
  cases hn : noteAt next leaf with
  | none =>
    rw [hn] at h
    exact (mem_of_noteAt h).2
  | some m =>
    rw [hn] at h
    obtain ⟨_, _, hm⟩ := mergedNote_eq (noteAt prev leaf) m
    rw [← Option.some.inj h, hm]
    exact (mem_of_noteAt hn).2

theorem mem_mergeScannedNotes (hprev : OneNoteALeaf prev) (hnext : OneNoteALeaf next) :
    n ∈ mergeScannedNotes prev next ↔
      mergedAt (noteAt prev n.leafIndex) (noteAt next n.leafIndex) = some n := by
  rw [mergeScannedNotes, List.mem_map]
  constructor
  · rintro ⟨⟨leaf, n⟩, h, rfl⟩
    rw [StableMap.mem_toList, merged_get hprev hnext] at h
    obtain rfl := leaf_of_mergedAt h
    exact h
  · intro h
    exact ⟨(n.leafIndex, n), StableMap.mem_toList.2 (by rw [merged_get hprev hnext, h]), rfl⟩

theorem mergeScannedNotes_one (hprev : OneNoteALeaf prev) (hnext : OneNoteALeaf next) :
    OneNoteALeaf (mergeScannedNotes prev next) := by
  have hkeys : (mergeScannedNotes prev next).map ScannedNote.leafIndex =
      (mergeInto (indexNotes prev) next).toList.map Prod.fst := by
    rw [mergeScannedNotes, List.map_map]
    refine List.map_congr_left fun e he => ?_
    have h := StableMap.mem_toList (k := e.1) (v := e.2) |>.1 he
    rw [merged_get hprev hnext] at h
    exact leaf_of_mergedAt h
  rw [OneNoteALeaf, hkeys, List.Nodup, List.pairwise_map]
  refine Std.ExtTreeMap.ordered_keys_toList.imp fun {a b} hlt heq => ?_
  exact absurd (Std.ReflCmp.compare_self.symm.trans (heq ▸ hlt : compare a.1 a.1 = .lt)) (by decide)

/-- An outcome's note, whatever its stamp. -/
theorem outcome_note {m : ScannedNote} (hC : W.Correct outcome endedAt)
    (h : noteAt (outcome.notes.map (stamp nowNs via)) leaf = some m) :
    leaf ∈ outcome.notes.map ScannedNote.leafIndex ∧ m.nullifier = some (W.nullifierAt leaf) ∧
      m.state = some (if W.valueAt leaf = 0 then .dummy
        else if W.nullifierAt leaf ∈ outcome.spentSet then .spent else .spendable) := by
  obtain ⟨hm, rfl⟩ := mem_of_noteAt h
  obtain ⟨o, ho, rfl⟩ := List.mem_map.1 hm
  obtain ⟨seen, how, hstamp⟩ := stamp_eq nowNs via o
  obtain ⟨hvalue, hnf, hstate⟩ := hC.notes o ho
  rw [hvalue] at hstate
  have hlisted : o.leafIndex ∈ outcome.notes.map ScannedNote.leafIndex := List.mem_map_of_mem ho
  rw [hstamp]
  exact ⟨hlisted, hnf, hstate⟩

theorem stamped_one (hC : W.Correct outcome endedAt) (nowNs : Option Nat)
    (via : Option FirstSeenVia) : OneNoteALeaf (outcome.notes.map (stamp nowNs via)) := by
  rw [OneNoteALeaf, stamped_leaves]
  exact hC.distinct

/-- A merged note is the outcome's, with the sighting that was known, or one the outcome has not. -/
theorem merged_cases (hone : OneNoteALeaf prev) (hnext : OneNoteALeaf next)
    (h : n ∈ mergeScannedNotes prev next) :
    noteAt next n.leafIndex = none ∧ n ∈ prev ∨
      ∃ m, noteAt next n.leafIndex = some m ∧ n = mergedNote (noteAt prev n.leafIndex) m := by
  rw [mem_mergeScannedNotes hone hnext] at h
  cases hn : noteAt next n.leafIndex with
  | none =>
    rw [hn] at h
    exact .inl ⟨rfl, (mem_of_noteAt h).1⟩
  | some m =>
    rw [hn] at h
    exact .inr ⟨m, rfl, (Option.some.inj h).symm⟩

theorem merged_long (hone : OneNoteALeaf s.notes) (hlong : LongNullifiers s.notes)
    (hC : W.Correct outcome endedAt) :
    LongNullifiers (mergeScannedNotes s.notes (outcome.notes.map (stamp nowNs via))) := by
  intro n hn nf hnf
  rcases merged_cases hone (stamped_one hC nowNs via) hn with ⟨_, h⟩ | ⟨m, hm, h⟩
  · exact hlong n h nf hnf
  · obtain ⟨_, hmnf, _⟩ := outcome_note hC hm
    obtain ⟨_, _, hmerged⟩ := mergedNote_eq (noteAt s.notes n.leafIndex) m
    rw [h, hmerged, hmnf] at hnf
    rw [← Option.some.inj hnf]
    exact W.nullifier_length _

theorem mergeScanOutcome_long (hone : OneNoteALeaf s.notes) (hlong : LongNullifiers s.notes)
    (hC : W.Correct outcome endedAt) :
    LongNullifiers (mergeScanOutcome s outcome nowNs via).notes := by
  intro n' hn' nf hnf
  obtain ⟨n, hn, rfl⟩ := List.mem_map.1 hn'
  rw [(reconcile_lowered outcome (journalOwnedNullifiers s) n).eq] at hnf
  exact merged_long hone hlong hC n hn nf hnf

theorem mergeScanOutcome_one (hone : OneNoteALeaf s.notes) (hC : W.Correct outcome endedAt) :
    OneNoteALeaf (mergeScanOutcome s outcome nowNs via).notes := by
  have h := mergeScannedNotes_one hone (stamped_one hC nowNs via)
  rw [OneNoteALeaf, mergeScanOutcome, List.map_map]
  refine (List.map_congr_left fun n _ => ?_) ▸ h
  rw [Function.comp_apply, (reconcile_lowered outcome _ n).eq]

/-- What a merge makes of the note at a leaf. -/
theorem mergeScanOutcome_follows (hone : OneNoteALeaf s.notes) (hC : W.Correct outcome endedAt)
    (hcurrent : ∀ n ∈ s.notes, n.state = some .spent →
      n.leafIndex ∈ outcome.notes.map ScannedNote.leafIndex → W.valueAt n.leafIndex ≠ 0 →
        W.nullifierAt n.leafIndex ∈ outcome.spentSet) (hn : n ∈ s.notes) :
    ∃ n' ∈ (mergeScanOutcome s outcome nowNs via).notes, Follows W n n' := by
  have hnext := stamped_one hC nowNs via
  have hat := noteAt_of_mem hone hn
  -- It is enough to follow the note to the merged one: reconciling follows on.
  suffices h : ∃ n' ∈ mergeScannedNotes s.notes (outcome.notes.map (stamp nowNs via)),
      Follows W n n' by
    obtain ⟨n', hn', hf⟩ := h
    exact ⟨_, List.mem_map_of_mem hn', hf.trans (reconcile_lowered _ _ n').follows⟩
  cases hm : noteAt (outcome.notes.map (stamp nowNs via)) n.leafIndex with
  | none =>
    refine ⟨n, (mem_mergeScannedNotes hone hnext).2 ?_, .refl W n⟩
    rw [hm]
    exact hat
  | some m =>
    obtain ⟨hleaf, _, hstate⟩ := outcome_note hC hm
    obtain ⟨seen, how, hmerged⟩ := mergedNote_eq (some n) m
    have hmleaf : (mergedNote (some n) m).leafIndex = n.leafIndex := by
      rw [hmerged]
      exact (mem_of_noteAt hm).2
    refine ⟨mergedNote (some n) m, (mem_mergeScannedNotes hone hnext).2 ?_, hmleaf,
      fun t ht => mergedNote_seen ht m, fun hu => ?_⟩
    · rw [hmleaf, hm, hat]
      rfl
    · have hstate' : (mergedNote (some n) m).state = m.state := by rw [hmerged]
      rw [Unspendable, hmleaf, hstate', hstate]
      by_cases hv : W.valueAt n.leafIndex = 0
      · rw [if_pos hv]
        exact .inr ⟨rfl, hv⟩
      · rcases hu with hu | ⟨_, hv'⟩
        · rw [if_neg hv, if_pos (hcurrent n hn hu hleaf hv)]
          exact .inl rfl
        · exact (hv hv').elim

/-- A merge leaves no note spendable that an active entry owns. -/
theorem mergeScanOutcome_owned (hone : OneNoteALeaf s.notes) (hlong : LongNullifiers s.notes)
    (hC : W.Correct outcome endedAt) (hn' : n' ∈ (mergeScanOutcome s outcome nowNs via).notes)
    (hs : n'.state = some .spendable) {nf : Bytes} (hnf : n'.nullifier = some nf) :
    ∀ e ∈ (SpendJournal.journalOf s).entries, e.status.active = true → e.nullifierHex ≠ nf := by
  intro e he hactive heq
  obtain ⟨n, hn, rfl⟩ := List.mem_map.1 hn'
  have hsame := (reconcile_lowered outcome (journalOwnedNullifiers s) n).spendable hs
  rw [hsame] at hs hnf
  refine reconcile_owned hsame hs hnf (List.mem_filter.2 ⟨List.mem_map.2 ⟨e, ?_, heq⟩, ?_⟩)
  · exact List.mem_filter.2 ⟨he, hactive⟩
  · exact decide_eq_true (merged_long hone hlong hC n hn nf hnf)

/-- A note the outcome does not list is left as it was, or no longer spendable. -/
theorem mergeScanOutcome_absent (hone : OneNoteALeaf s.notes) (hC : W.Correct outcome endedAt)
    (hn' : n' ∈ (mergeScanOutcome s outcome nowNs via).notes)
    (habsent : n'.leafIndex ∉ outcome.notes.map ScannedNote.leafIndex) :
    ∃ n ∈ s.notes, Lowered n n' := by
  obtain ⟨n, hn, rfl⟩ := List.mem_map.1 hn'
  have hlow := reconcile_lowered outcome (journalOwnedNullifiers s) n
  rw [hlow.eq] at habsent
  rcases merged_cases hone (stamped_one hC nowNs via) hn with ⟨_, h⟩ | ⟨m, hm, _⟩
  · exact ⟨n, h, hlow⟩
  · exact (habsent (outcome_note hC hm).1).elim

theorem noteAt_map {f : ScannedNote → ScannedNote} (hf : ∀ n, (f n).leafIndex = n.leafIndex)
    (notes : List ScannedNote) (leaf : Nat) : noteAt (notes.map f) leaf = (noteAt notes leaf).map f := by
  induction notes with
  | nil => rfl
  | cons n notes ih =>
    rw [List.map_cons, noteAt_cons, noteAt_cons, hf, ih]
    by_cases h : n.leafIndex = leaf
    · rw [if_pos h, if_pos h]
      rfl
    · rw [if_neg h, if_neg h]

/-- The notes of a merge, looked up by leaf. -/
theorem noteAt_merged (hprev : OneNoteALeaf prev) (hnext : OneNoteALeaf next) (leaf : Nat) :
    noteAt (mergeScannedNotes prev next) leaf = mergedAt (noteAt prev leaf) (noteAt next leaf) := by
  cases h : mergedAt (noteAt prev leaf) (noteAt next leaf) with
  | none =>
    rw [noteAt_eq_none]
    intro hmem
    obtain ⟨n, hn, rfl⟩ := List.mem_map.1 hmem
    rw [mem_mergeScannedNotes hprev hnext, h] at hn
    exact Option.some_ne_none _ hn.symm
  | some n =>
    obtain rfl := leaf_of_mergedAt h
    exact noteAt_of_mem (mergeScannedNotes_one hprev hnext) ((mem_mergeScannedNotes hprev hnext).2 h)

/-- Merging an outcome over its own merge, reconciled, comes to the same notes. -/
theorem mergeScannedNotes_again {f : ScannedNote → ScannedNote} (hf : ∀ n, Lowered n (f n))
    (hagain : ∀ n, f (f n) = f n) (hprev : OneNoteALeaf prev) (hnext : OneNoteALeaf next) :
    (mergeScannedNotes ((mergeScannedNotes prev next).map f) next).map f =
      (mergeScannedNotes prev next).map f := by
  have hleaf : ∀ n, (f n).leafIndex = n.leafIndex := fun n => by rw [(hf n).eq]
  have hone : OneNoteALeaf ((mergeScannedNotes prev next).map f) := by
    rw [OneNoteALeaf, List.map_map]
    exact (List.map_congr_left fun n _ => (hleaf n)) ▸ mergeScannedNotes_one hprev hnext
  -- Leaf by leaf: the second merge sees the sighting of the first, and reconciles the same note.
  have hmaps : (mergeInto (indexNotes ((mergeScannedNotes prev next).map f)) next).map (fun _ n => f n) =
      (mergeInto (indexNotes prev) next).map fun _ n => f n := by
    refine Std.ExtTreeMap.ext_getElem? fun leaf => ?_
    rw [Std.ExtTreeMap.getElem?_map, Std.ExtTreeMap.getElem?_map, merged_get hone hnext,
      merged_get hprev hnext, noteAt_map hleaf, noteAt_merged hprev hnext]
    cases noteAt next leaf with
    | none =>
      cases noteAt prev leaf with
      | none => rfl
      | some n => exact congrArg some (hagain n)
    | some m =>
      refine congrArg (fun n => some (f n)) (mergedNote_again (noteAt prev leaf) m ?_ ?_)
      · rw [(hf _).eq]
      · rw [(hf _).eq]
  have hvalues : ∀ m : StableMap Nat ScannedNote,
      (m.toList.map Prod.snd).map f = (m.map fun _ n => f n).toList.map Prod.snd := fun m => by
    rw [Std.ExtTreeMap.toList_map, List.map_map, List.map_map]
    rfl
  rw [mergeScannedNotes, hvalues, hmaps, ← hvalues, ← mergeScannedNotes]

/-- Merging an outcome twice in a row changes the record of the candidates turned away, and no
more. -/
theorem mergeScanOutcome_again (nowNs : Option Nat) (via : Option FirstSeenVia)
    (hone : OneNoteALeaf s.notes) (hC : W.Correct outcome endedAt) :
    ∃ q, mergeScanOutcome (mergeScanOutcome s outcome nowNs via) outcome nowNs via =
      {mergeScanOutcome s outcome nowNs via with quarantine := q} := by
  have hnotes := mergeScannedNotes_again (reconcile_lowered outcome (journalOwnedNullifiers s))
    (reconcile_again outcome _) hone (stamped_one hC nowNs via)
  have hmax : max (max s.lastScannedIndex outcome.scannedUpTo) outcome.scannedUpTo =
      max s.lastScannedIndex outcome.scannedUpTo := by omega
  refine ⟨some (mergeQuarantine (mergeScanOutcome s outcome nowNs via).quarantine
    outcome.quarantine), ?_⟩
  rw [mergeScanOutcome]
  show CachedScanState.mk _ _ _ _ _ _ _ _ _ = CachedScanState.mk _ _ _ _ _ _ _ _ _
  congr 1

end

end StshProtocol.Wallet
