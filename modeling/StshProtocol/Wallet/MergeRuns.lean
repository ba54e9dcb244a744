import StshProtocol.Wallet.MergeKept

/-! Runs of the cache under the changes of any number of tabs.

`merges_kept` is for the runs in which no merge takes up an outcome whose spent set is behind the
cache. Of a run that does, `spent_then_spendable` is the shortest. -/
namespace StshProtocol.Wallet
open Foundation

/-! ### The floors -/

/-- The floor of a key stands, at no lower a count, and at its count with its root. -/
def FloorAdvances (key : FloorKey) (s s' : CachedScanState) : Prop :=
  ∀ floor, s.floorAt key = some floor → ∃ floor', s'.floorAt key = some floor' ∧
    floor.highestAcceptedLeafCount ≤ floor'.highestAcceptedLeafCount ∧
      (floor'.highestAcceptedLeafCount = floor.highestAcceptedLeafCount →
        floor'.rootAtCount = floor.rootAtCount)

/-- The one change that takes back a floor. -/
def CacheChange.resets : CacheChange → FloorKey → Prop
  | .resetVerifiedHistory configHash securityEpoch, key => key = ⟨configHash, securityEpoch⟩
  | _, _ => False

section
variable {key k : FloorKey} {floor : VerifiedScanFloor} {floors : VerifiedFloors}
  {s s' s'' : CachedScanState} {m : VerifiedScanMetadata}

theorem FloorAdvances.of_eq (h : s'.floorAt key = s.floorAt key) : FloorAdvances key s s' :=
  fun floor hfloor => ⟨floor, h.trans hfloor, Nat.le_refl _, fun _ => rfl⟩

theorem FloorAdvances.trans (h : FloorAdvances key s s') (h' : FloorAdvances key s' s'') :
    FloorAdvances key s s'' := by
  intro floor hfloor
  obtain ⟨floor', hfloor', hle, hroot⟩ := h floor hfloor
  obtain ⟨floor'', hfloor'', hle', hroot'⟩ := h' floor' hfloor'
  refine ⟨floor'', hfloor'', Nat.le_trans hle hle', fun heq => ?_⟩
  rw [hroot' (by omega), hroot (by omega)]

/-- The entry of a key, replaced where there is one. -/
def replaced (key : FloorKey) (floor : VerifiedScanFloor) (e : FloorKey × VerifiedScanFloor) :
    FloorKey × VerifiedScanFloor :=
  if e.1 = key then (key, floor) else e

theorem replaced_fst (e : FloorKey × VerifiedScanFloor) : (replaced key floor e).1 = e.1 := by
  rw [replaced]
  split
  · next h => exact h.symm
  · rfl

theorem find_replaced_ne (hne : k ≠ key) (floors : VerifiedFloors) :
    ((floors.map (replaced key floor)).find? fun e => e.1 = k) = floors.find? fun e => e.1 = k := by
  induction floors with
  | nil => rfl
  | cons e floors ih =>
    rw [List.map_cons, List.find?_cons, List.find?_cons, replaced_fst, ih]
    by_cases he : e.1 = k
    · rw [decide_eq_true he, replaced, if_neg (he ▸ hne)]
    · rw [decide_eq_false he]

theorem find_replaced (h : (floors.any fun e => e.1 = key) = true) :
    (floors.map (replaced key floor)).find? (fun e => e.1 = key) = some (key, floor) := by
  induction floors with
  | nil => exact nomatch h
  | cons e floors ih =>
    rw [List.map_cons, List.find?_cons, replaced_fst]
    by_cases he : e.1 = key
    · rw [decide_eq_true he, replaced, if_pos he]
    · rw [decide_eq_false he]
      rw [List.any_cons, decide_eq_false he] at h
      exact ih h

theorem find_setFloor (floors : VerifiedFloors) (key k : FloorKey) (floor : VerifiedScanFloor) :
    ((setFloor floors key floor).find? fun e => e.1 = k).map Prod.snd =
      if k = key then some floor else (floors.find? fun e => e.1 = k).map Prod.snd := by
  rw [setFloor]
  by_cases hany : (floors.any fun e => e.1 = key) = true
  · rw [if_pos hany]
    by_cases hk : k = key
    · subst hk
      rw [if_pos rfl]
      exact congrArg (Option.map Prod.snd) (find_replaced hany)
    · rw [if_neg hk]
      exact congrArg (Option.map Prod.snd) (find_replaced_ne hk floors)
  · rw [if_neg hany, List.find?_append]
    by_cases hk : k = key
    · subst hk
      have hnone : floors.find? (fun e => e.1 = k) = none := by
        rw [← Option.not_isSome_iff_eq_none, List.find?_isSome]
        simpa using hany
      rw [if_pos rfl, hnone, Option.none_or, List.find?_cons, decide_eq_true rfl]
      rfl
    · rw [if_neg hk, List.find?_cons, decide_eq_false (Ne.symm hk)]
      exact congrArg _ (Option.or_none)

theorem setFloor_again (floors : VerifiedFloors) (key : FloorKey) (floor : VerifiedScanFloor) :
    setFloor (setFloor floors key floor) key floor = setFloor floors key floor := by
  have hany : ((setFloor floors key floor).any fun e => e.1 = key) = true := by
    have h := find_setFloor floors key key floor
    rw [if_pos rfl] at h
    obtain ⟨e, he, _⟩ := Option.map_eq_some_iff.1 h
    exact List.any_eq_true.2 ⟨e, List.mem_of_find?_eq_some he, by simpa using List.find?_some he⟩
  have hself : ∀ e, replaced key floor (replaced key floor e) = replaced key floor e := fun e => by
    by_cases he : e.1 = key
    · rw [replaced, replaced_fst, if_pos he, replaced, if_pos he]
    · rw [replaced, replaced_fst, if_neg he]
  rw [setFloor, if_pos hany]
  show (setFloor floors key floor).map (replaced key floor) = _
  rw [setFloor]
  split
  · show (floors.map (replaced key floor)).map (replaced key floor) = floors.map (replaced key floor)
    rw [List.map_map]
    exact List.map_congr_left fun e _ => hself e
  · next hnone =>
    rw [List.map_append, List.map_cons, replaced, if_pos rfl]
    refine congrArg (· ++ _) ((List.map_congr_left fun e he => ?_).trans (List.map_id floors))
    have hne : e.1 ≠ key := fun h => hnone (List.any_eq_true.2 ⟨e, he, decide_eq_true h⟩)
    rw [replaced, if_neg hne]
    rfl

/-- The floor that follows on a sweep's count. -/
def nextFloor (s : CachedScanState) (m : VerifiedScanMetadata) : VerifiedScanFloor :=
  match s.floorAt m.floorKey with
  | none => ⟨m.acceptedLeafCount, m.acceptedRoot⟩
  | some floor =>
    if floor.highestAcceptedLeafCount < m.acceptedLeafCount then ⟨m.acceptedLeafCount, m.acceptedRoot⟩
    else floor

theorem floorAt_advance (s : CachedScanState) (m : VerifiedScanMetadata) (key : FloorKey) :
    (advanceVerifiedFloor s m).floorAt key =
      if key = m.floorKey then some (nextFloor s m) else s.floorAt key :=
  find_setFloor _ _ _ _

theorem advance_advances (s : CachedScanState) (m : VerifiedScanMetadata) (key : FloorKey) :
    FloorAdvances key s (advanceVerifiedFloor s m) := by
  by_cases hkey : key = m.floorKey
  · subst hkey
    intro floor hfloor
    rw [floorAt_advance, if_pos rfl, nextFloor, hfloor]
    dsimp only
    by_cases hlt : floor.highestAcceptedLeafCount < m.acceptedLeafCount
    · rw [if_pos hlt]
      refine ⟨_, rfl, Nat.le_of_lt hlt, fun heq => ?_⟩
      have : m.acceptedLeafCount = floor.highestAcceptedLeafCount := heq
      omega
    · rw [if_neg hlt]
      exact ⟨floor, rfl, Nat.le_refl _, fun _ => rfl⟩
  · exact .of_eq (by rw [floorAt_advance, if_neg hkey])

theorem reset_advances {hash : Bytes} {epoch : Nat} (h : key ≠ ⟨hash, epoch⟩) (s : CachedScanState) :
    FloorAdvances key s (resetVerifiedHistory hash epoch s) := by
  refine .of_eq (congrArg (Option.map Prod.snd) ?_)
  show List.find? _ (List.filter _ _) = _
  rw [List.find?_filter]
  refine congrArg (fun p => List.find? p (s.verifiedFloors.getD [])) (funext fun e => ?_)
  by_cases he : e.1 = key
  · simp [he, h]
  · simp [he]

end

/-! ### One change -/

/-- What a run keeps, from one state to a later one. -/
structure CacheKept (W : NoteWorld) (s s' : CachedScanState) : Prop where
  spent : ∀ n ∈ s.notes, n.state = some .spent → ∀ n' ∈ s'.notes, n'.leafIndex = n.leafIndex →
    n'.state ≠ some .spendable
  seen : ∀ n ∈ s.notes, ∀ t, n.firstSeenAtNs = some t → ∀ n' ∈ s'.notes,
    n'.leafIndex = n.leafIndex → ∃ t' ≤ t, n'.firstSeenAtNs = some t'
  scanned : s.lastScannedIndex ≤ s'.lastScannedIndex
  floors : ∀ key, (cacheSystem W s).RunIf (fun _ c => ¬c.resets key) s' → FloorAdvances key s s'

/-- What one merge keeps. -/
structure MergeKept (s : CachedScanState) (c : CacheChange) (outcome : ScanOutcome)
    (s' : CachedScanState) : Prop where
  owned : ∀ n ∈ s'.notes, n.state = some .spendable → ∀ nf, n.nullifier = some nf →
    ∀ e ∈ (SpendJournal.journalOf s').entries, e.status.active = true → e.nullifierHex ≠ nf
  absent : ∀ n' ∈ s'.notes, n'.leafIndex ∉ outcome.notes.map ScannedNote.leafIndex →
    ∃ n ∈ s.notes, Lowered n n'
  again : ∃ q, c.apply s' = .ok {s' with quarantine := q}

section
variable {W : NoteWorld} {s s' s'' : CachedScanState} {c : CacheChange} {outcome : ScanOutcome}
  {endedAt : Nat} {m : VerifiedScanMetadata} {nowNs : Option Nat} {seenAtNs : Nat}
  {via : Option FirstSeenVia} {key : FloorKey}

/-- Note by note, and as far as was scanned. -/
structure Advance (W : NoteWorld) (s s' : CachedScanState) : Prop where
  notes : ∀ n ∈ s.notes, ∃ n' ∈ s'.notes, Follows W n n'
  scanned : s.lastScannedIndex ≤ s'.lastScannedIndex

theorem Advance.refl (W : NoteWorld) (s : CachedScanState) : Advance W s s :=
  ⟨fun n hn => ⟨n, hn, .refl W n⟩, Nat.le_refl _⟩

theorem Advance.trans (h : Advance W s s') (h' : Advance W s' s'') : Advance W s s'' where
  notes n hn := by
    obtain ⟨n', hn', hf⟩ := h.notes n hn
    obtain ⟨n'', hn'', hf'⟩ := h'.notes n' hn'
    exact ⟨n'', hn'', hf.trans hf'⟩
  scanned := Nat.le_trans h.scanned h'.scanned

theorem Relabel.follows {n n' : ScannedNote} (h : Relabel n n') : Follows W n n' := by
  cases h with
  | same => exact .refl W n
  | lock h => exact ⟨rfl, fun t ht => ⟨t, Nat.le_refl t, ht⟩, fun hu => (hu.not_spendable h).elim⟩
  | unlock h =>
    refine ⟨rfl, fun t ht => ⟨t, Nat.le_refl t, ht⟩, fun hu => ?_⟩
    rcases hu with hu | ⟨hu, _⟩ <;> exact nomatch Option.some.inj (h.symm.trans hu)
  | spend => exact ⟨rfl, fun t ht => ⟨t, Nat.le_refl t, ht⟩, fun _ => .inl rfl⟩

theorem Relabelled.advance (h : Relabelled s s') : Advance W s s' := by
  refine ⟨fun n hn => ?_, Nat.le_of_eq h.scanned.symm⟩
  obtain ⟨n', hn', hr⟩ := forall₂_left h.notes hn
  exact ⟨n', hn', hr.follows⟩

theorem Relabelled.one (h : Relabelled s s') (hone : OneNoteALeaf s.notes) :
    OneNoteALeaf s'.notes := by
  have hleaves := map_eq_of_forall₂ ScannedNote.leafIndex h.notes fun a b hr => by cases hr <;> rfl
  rw [OneNoteALeaf, hleaves]
  exact hone

theorem Relabelled.long (h : Relabelled s s') (hlong : LongNullifiers s.notes) :
    LongNullifiers s'.notes := by
  intro n' hn' nf hnf
  have hnfs := map_eq_of_forall₂ ScannedNote.nullifier h.notes fun a b hr => by cases hr <;> rfl
  obtain ⟨n, hn, heq⟩ := List.mem_map.1 (hnfs ▸ List.mem_map_of_mem hn')
  exact hlong n hn nf (heq.trans hnf)

theorem merge_advances (nowNs : Option Nat) (via : Option FirstSeenVia)
    (hone : OneNoteALeaf s.notes) (hC : W.Correct outcome endedAt)
    (hout : c.outcome? = some outcome) (hcurrent : SpentSetCurrent W s c) :
    Advance W s (mergeScanOutcome s outcome nowNs via) :=
  ⟨fun _ hn => mergeScanOutcome_follows hone hC (hcurrent outcome hout) hn, Nat.le_max_left _ _⟩

/-- A merge commits the merged state, and a verified one also its floor. -/
theorem merge_cases (hout : c.outcome? = some outcome) (h : c.apply s = .ok s') :
    (∃ nowNs via, c = .merge outcome nowNs via ∧ s' = mergeScanOutcome s outcome nowNs via) ∨
      ∃ m seenAtNs via, c = .commitVerified outcome m seenAtNs via ∧
        checkVerifiedFloor s m = .ok () ∧
          s' = advanceVerifiedFloor (mergeScanOutcome s outcome (some seenAtNs) via) m := by
  cases c with
  | merge o nowNs via =>
    obtain rfl := Option.some.inj hout
    exact .inl ⟨nowNs, via, rfl, (Except.ok.inj h).symm⟩
  | commitVerified o m seenAtNs via =>
    obtain rfl := Option.some.inj hout
    cases hcheck : checkVerifiedFloor s m with
    | error e =>
      rw [CacheChange.apply, commitVerifiedScan, hcheck] at h
      exact nomatch h
    | ok u =>
      rw [CacheChange.apply, commitVerifiedScan, hcheck] at h
      exact .inr ⟨m, seenAtNs, via, rfl, hcheck, (Except.ok.inj h).symm⟩
  | _ => exact nomatch hout

/-- A change that merges nothing relabels, but for the reset of a floor. -/
theorem other_cases (hout : c.outcome? = none) (h : c.apply s = .ok s') :
    Relabelled s s' ∨ ∃ hash epoch, c = .resetVerifiedHistory hash epoch ∧
      s' = resetVerifiedHistory hash epoch s := by
  cases c with
  | merge | commitVerified => exact nomatch hout
  | beginSpend => exact .inl (beginSpend_relabels h)
  | markDispatched => exact .inl (markDispatched_relabels h)
  | archiveNeverDispatched => exact .inl (archiveNeverDispatched_relabels h)
  | persistFinalRequest => exact .inl (persistFinalRequest_relabels h)
  | finalizeFromSpendOk => exact .inl (finalizeFromSpendOk_relabels h)
  | markPayoutPending => exact .inl (markPayoutPending_relabels h)
  | importRecoveryRequired => exact .inl (importRecoveryRequired_relabels h)
  | recordCollisionRetry => exact .inl (recordCollisionRetry_relabels h)
  | resetVerifiedHistory hash epoch => exact .inr ⟨hash, epoch, rfl, (Except.ok.inj h).symm⟩

/-- The shape of the cached notes every change keeps. -/
structure Shaped (s : CachedScanState) : Prop where
  one : OneNoteALeaf s.notes
  long : LongNullifiers s.notes

theorem change_shaped (hs : Shaped s)
    (hcorrect : ∀ outcome, c.outcome? = some outcome → ∃ endedAt, W.Correct outcome endedAt)
    (h : c.apply s = .ok s') : Shaped s' := by
  cases hout : c.outcome? with
  | some outcome =>
    obtain ⟨endedAt, hC⟩ := hcorrect outcome hout
    rcases merge_cases hout h with ⟨nowNs, via, _, rfl⟩ | ⟨m, seenAtNs, via, _, _, rfl⟩
    · exact ⟨mergeScanOutcome_one hs.one hC, mergeScanOutcome_long hs.one hs.long hC⟩
    · exact ⟨mergeScanOutcome_one hs.one hC, mergeScanOutcome_long hs.one hs.long hC⟩
  | none =>
    rcases other_cases hout h with hr | ⟨hash, epoch, _, rfl⟩
    · exact ⟨hr.one hs.one, hr.long hs.long⟩
    · exact ⟨hs.one, hs.long⟩

theorem change_advances (hs : Shaped s)
    (hcorrect : ∀ outcome, c.outcome? = some outcome → ∃ endedAt, W.Correct outcome endedAt)
    (hcurrent : SpentSetCurrent W s c) (h : c.apply s = .ok s') : Advance W s s' := by
  cases hout : c.outcome? with
  | some outcome =>
    obtain ⟨endedAt, hC⟩ := hcorrect outcome hout
    rcases merge_cases hout h with ⟨nowNs, via, _, rfl⟩ | ⟨m, seenAtNs, via, _, _, rfl⟩
    · exact merge_advances nowNs via hs.one hC hout hcurrent
    · have hadv := merge_advances (some seenAtNs) via hs.one hC hout hcurrent
      exact ⟨hadv.notes, hadv.scanned⟩
  | none =>
    rcases other_cases hout h with hr | ⟨hash, epoch, _, rfl⟩
    · exact hr.advance
    · exact ⟨(Advance.refl W s).notes, Nat.le_refl _⟩

theorem change_floor (hkey : ¬c.resets key) (h : c.apply s = .ok s') : FloorAdvances key s s' := by
  cases hout : c.outcome? with
  | some outcome =>
    rcases merge_cases hout h with ⟨nowNs, via, _, rfl⟩ | ⟨m, seenAtNs, via, _, _, rfl⟩
    · exact .of_eq rfl
    · exact advance_advances (mergeScanOutcome s outcome (some seenAtNs) via) m key
  | none =>
    rcases other_cases hout h with hr | ⟨hash, epoch, rfl, rfl⟩
    · exact .of_eq (by rw [CachedScanState.floorAt, hr.floors, ← CachedScanState.floorAt])
    · exact reset_advances hkey s

/-! ### A merge, and runs -/

/-- The floor that a checked sweep leaves is the sweep's own. -/
theorem nextFloor_of_check (hcheck : checkVerifiedFloor s m = .ok ()) :
    nextFloor s m = ⟨m.acceptedLeafCount, m.acceptedRoot⟩ := by
  rw [nextFloor]
  rw [checkVerifiedFloor] at hcheck
  cases hfloor : s.floorAt m.floorKey with
  | none => rfl
  | some floor =>
    rw [hfloor] at hcheck
    dsimp only at hcheck ⊢
    by_cases hlt : floor.highestAcceptedLeafCount < m.acceptedLeafCount
    · rw [if_pos hlt]
    · rw [if_neg hlt]
      by_cases hback : m.acceptedLeafCount < floor.highestAcceptedLeafCount
      · rw [if_pos hback] at hcheck
        exact nomatch hcheck
      · have hcount : m.acceptedLeafCount = floor.highestAcceptedLeafCount := by omega
        rw [if_neg hback] at hcheck
        by_cases hroot : m.acceptedRoot = floor.rootAtCount
        · rw [hcount, hroot]
        · rw [if_pos ⟨hcount, hroot⟩] at hcheck
          exact nomatch hcheck

/-- A sweep stands against the floor it has left, and leaves it there. -/
theorem advance_again (hcheck : checkVerifiedFloor s m = .ok ()) :
    checkVerifiedFloor (advanceVerifiedFloor s m) m = .ok () ∧
      advanceVerifiedFloor (advanceVerifiedFloor s m) m = advanceVerifiedFloor s m := by
  have hfloor : (advanceVerifiedFloor s m).floorAt m.floorKey =
      some ⟨m.acceptedLeafCount, m.acceptedRoot⟩ := by
    rw [floorAt_advance, if_pos rfl, nextFloor_of_check hcheck]
  have hcheck' : checkVerifiedFloor (advanceVerifiedFloor s m) m = .ok () := by
    rw [checkVerifiedFloor, hfloor]
    dsimp only
    rw [if_neg (Nat.lt_irrefl _), if_neg fun h => h.2 rfl]
  refine ⟨hcheck', ?_⟩
  have hnext : nextFloor (advanceVerifiedFloor s m) m = nextFloor s m := by
    rw [nextFloor_of_check hcheck', nextFloor_of_check hcheck]
  show {s with
    verifiedScan := some m
    verifiedFloors := some (setFloor (setFloor (s.verifiedFloors.getD []) m.floorKey (nextFloor s m))
      m.floorKey (nextFloor (advanceVerifiedFloor s m) m))} = advanceVerifiedFloor s m
  rw [hnext, setFloor_again]
  rfl

theorem merge_kept (hs : Shaped s) (hC : W.Correct outcome endedAt)
    (hout : c.outcome? = some outcome) (h : c.apply s = .ok s') : MergeKept s c outcome s' := by
  rcases merge_cases hout h with ⟨nowNs, via, rfl, rfl⟩ | ⟨m, seenAtNs, via, rfl, hcheck, rfl⟩
  · refine ⟨fun n hn hst nf hnf => mergeScanOutcome_owned hs.one hs.long hC hn hst hnf,
      fun n' hn' => mergeScanOutcome_absent hs.one hC hn', ?_⟩
    obtain ⟨q, hq⟩ := mergeScanOutcome_again nowNs via hs.one hC
    exact ⟨q, congrArg Except.ok hq⟩
  · refine ⟨fun n hn hst nf hnf => mergeScanOutcome_owned hs.one hs.long hC hn hst hnf,
      fun n' hn' => mergeScanOutcome_absent hs.one hC hn', ?_⟩
    obtain ⟨q, hq⟩ := mergeScanOutcome_again (some seenAtNs) via hs.one hC
    refine ⟨q, ?_⟩
    obtain ⟨hcheck', hadv⟩ := advance_again (s := mergeScanOutcome s outcome (some seenAtNs) via) hcheck
    rw [CacheChange.apply, commitVerifiedScan, hcheck']
    -- The floor is not read by the merge, nor the notes by the floor.
    show Except.ok (advanceVerifiedFloor (advanceVerifiedFloor (mergeScanOutcome
      (mergeScanOutcome s outcome (some seenAtNs) via) outcome (some seenAtNs) via) m) m) = _
    rw [hq]
    show Except.ok {advanceVerifiedFloor (advanceVerifiedFloor
      (mergeScanOutcome s outcome (some seenAtNs) via) m) m with quarantine := q} = _
    rw [hadv]

end

/-! ### Runs -/

section
variable {W : NoteWorld} {s₀ s s' : CachedScanState} {key : FloorKey}

/-- The state is as shaped as the one the run began in. -/
theorem run_shaped {ok : CachedScanState → CacheChange → Prop} (hs : Shaped s₀)
    (run : (cacheSystem W s₀).RunIf ok s) : Shaped s := by
  refine run.invariant (fun _ h => h ▸ hs) fun s c s' _ ih _ hstep => ?_
  obtain ⟨hcorrect, h | ⟨_, rfl⟩⟩ := hstep
  · exact change_shaped ih hcorrect h
  · exact ih

theorem run_advances (hs : Shaped s₀) (run : (cacheSystem W s₀).RunIf (SpentSetCurrent W) s) :
    Advance W s₀ s := by
  refine run.invariant (fun _ h => h ▸ .refl W s₀) fun s c s' prior ih hcurrent hstep => ?_
  obtain ⟨hcorrect, h | ⟨_, rfl⟩⟩ := hstep
  · exact ih.trans (change_advances (run_shaped hs prior) hcorrect hcurrent h)
  · exact ih

theorem run_floor (run : (cacheSystem W s₀).RunIf (fun _ c => ¬c.resets key) s) :
    FloorAdvances key s₀ s := by
  refine run.invariant (fun _ h => h ▸ .of_eq rfl) fun s c s' _ ih hkey hstep => ?_
  obtain ⟨_, h | ⟨_, rfl⟩⟩ := hstep
  · exact ih.trans (change_floor hkey h)
  · exact ih

/-- Over runs that merge no outcome whose spent set is behind the cache, begun with one note a leaf
and nullifiers of 32 bytes: from any state to any later one, and at any merge. -/
theorem merges_kept (hone : OneNoteALeaf s₀.notes) (hlong : LongNullifiers s₀.notes)
    (run : (cacheSystem W s₀).RunIf (SpentSetCurrent W) s)
    (later : (cacheSystem W s).RunIf (SpentSetCurrent W) s') :
    CacheKept W s s' ∧ ∀ c outcome endedAt t, c.outcome? = some outcome →
      W.Correct outcome endedAt → c.apply s = .ok t → MergeKept s c outcome t := by
  have hs := run_shaped ⟨hone, hlong⟩ run
  have hs' := run_shaped hs later
  have hadv := run_advances hs later
  refine ⟨⟨fun n hn hspent n' hn' hleaf => ?_, fun n hn t ht n' hn' hleaf => ?_, hadv.scanned,
    fun key hrun => run_floor hrun⟩, fun c outcome endedAt t hout hC h => merge_kept hs hC hout h⟩
  · obtain ⟨a, ha, hf⟩ := hadv.notes n hn
    obtain rfl := hs'.one.eq hn' ha (hleaf.trans hf.leaf.symm)
    exact (hf.spent (.inl hspent)).not_spendable
  · obtain ⟨a, ha, hf⟩ := hadv.notes n hn
    obtain rfl := hs'.one.eq hn' ha (hleaf.trans hf.leaf.symm)
    exact hf.seen t ht

end

/-! ### An older scan after a newer one -/

/-- One note, spent between the first scan and the second. -/
def sampleNullifier : Bytes := List.replicate 32 7

def sampleWorld : NoteWorld where
  valueAt _ := 5
  nullifierAt _ := sampleNullifier
  nullifier_length _ := rfl
  registry t nf := 1 ≤ t ∧ nf = sampleNullifier
  grows hab h := ⟨Nat.le_trans h.1 hab, h.2⟩

def sampleScanned (state : NoteLifecycleState) : ScannedNote where
  leafIndex := 3
  value := 5
  rho := []
  rseed := []
  recipientPk := []
  nonce := some []
  commitment := some []
  nullifier := some sampleNullifier
  state := some state
  verified := true
  firstSeenAtNs := none
  firstSeenVia := none

def sampleOutcome (state : NoteLifecycleState) (spentSet : List Bytes) : ScanOutcome where
  notes := [sampleScanned state]
  scannedUpTo := 4
  mirrorHead := ⟨4, []⟩
  quarantine := ⟨0, []⟩
  spentSet := spentSet

def olderScan : CacheChange := .merge (sampleOutcome .spendable []) (some 1) none

def newerScan : CacheChange := .merge (sampleOutcome .spent [sampleNullifier]) (some 2) none

theorem olderScan_correct : sampleWorld.Correct (sampleOutcome .spendable []) 0 where
  distinct := by decide
  spentSet _ := ⟨fun h => (nomatch h), fun h => absurd h.1 (by decide)⟩
  notes n hn := by
    obtain rfl := List.mem_singleton.1 hn
    exact ⟨rfl, rfl, rfl⟩

theorem newerScan_correct : sampleWorld.Correct (sampleOutcome .spent [sampleNullifier]) 1 where
  distinct := by decide
  spentSet nf := List.mem_singleton.trans ⟨fun h => ⟨Nat.le_refl 1, h⟩, fun h => h.2⟩
  notes n hn := by
    obtain rfl := List.mem_singleton.1 hn
    exact ⟨rfl, rfl, rfl⟩

/-- A merge of a correct outcome, as a step. -/
theorem step_merge {W : NoteWorld} {s₀ s : CachedScanState} {outcome : ScanOutcome} {endedAt : Nat}
    (hC : W.Correct outcome endedAt) (nowNs : Option Nat) (via : Option FirstSeenVia) :
    (cacheSystem W s₀).step s (.merge outcome nowNs via) (mergeScanOutcome s outcome nowNs via) :=
  ⟨fun _ h => Option.some.inj h ▸ ⟨endedAt, hC⟩, .inl rfl⟩

/-- Two correct scans, the older one's outcome merged over the newer one's: a note recorded spent
is spendable. -/
theorem spent_then_spendable : ∃ s s', (cacheSystem sampleWorld emptyScanState).Reachable s ∧
    (cacheSystem sampleWorld s).Reachable s' ∧ ∃ n ∈ s.notes, n.state = some .spent ∧
      ∃ n' ∈ s'.notes, n'.leafIndex = n.leafIndex ∧ n'.state = some .spendable := by
  refine ⟨mergeScanOutcome emptyScanState (sampleOutcome .spent [sampleNullifier]) (some 2) none,
    mergeScanOutcome (mergeScanOutcome emptyScanState (sampleOutcome .spent [sampleNullifier])
      (some 2) none) (sampleOutcome .spendable []) (some 1) none,
    .step (.start rfl) trivial (step_merge newerScan_correct _ _),
    .step (.start rfl) trivial (step_merge olderScan_correct _ _), ?_⟩
  exact ⟨{sampleScanned .spent with firstSeenAtNs := some 2}, by decide +kernel, rfl,
    {sampleScanned .spendable with firstSeenAtNs := some 1}, by decide +kernel, rfl, rfl⟩

/-- In the order of the scans, the note stays spent. -/
theorem merges_kept_in_order : ∃ s s', (∃ n ∈ s.notes, n.state = some .spendable) ∧
    (∃ n ∈ s'.notes, n.state = some .spent) ∧ CacheKept sampleWorld s s' ∧
      ∀ t, olderScan.apply s = .ok t → MergeKept s olderScan (sampleOutcome .spendable []) t := by
  let s := mergeScanOutcome emptyScanState (sampleOutcome .spendable []) (some 1) none
  let s' := mergeScanOutcome s (sampleOutcome .spent [sampleNullifier]) (some 2) none
  have hnone : SpentSetCurrent sampleWorld emptyScanState olderScan :=
    fun _ _ n hn => nomatch hn
  have hnotes : s.notes = [{sampleScanned .spendable with firstSeenAtNs := some 1}] := by
    decide +kernel
  have hfresh : SpentSetCurrent sampleWorld s newerScan := by
    intro _ _ n hn hspent
    rw [hnotes] at hn
    obtain rfl := List.mem_singleton.1 hn
    exact nomatch Option.some.inj hspent
  have run : (cacheSystem sampleWorld emptyScanState).RunIf (SpentSetCurrent sampleWorld) s :=
    .step (.start rfl) hnone (step_merge olderScan_correct _ _)
  have later : (cacheSystem sampleWorld s).RunIf (SpentSetCurrent sampleWorld) s' :=
    .step (.start rfl) hfresh (step_merge newerScan_correct _ _)
  have hone : OneNoteALeaf emptyScanState.notes := List.nodup_nil
  have hlong : LongNullifiers emptyScanState.notes := fun n hn => (nomatch hn)
  have h := merges_kept hone hlong run later
  refine ⟨s, s', ⟨_, by rw [hnotes]; exact List.mem_singleton_self _, rfl⟩,
    ⟨{sampleScanned .spent with firstSeenAtNs := some 1}, by decide +kernel, rfl⟩, h.1, ?_⟩
  exact fun t ht => h.2 _ _ 0 t rfl olderScan_correct ht

end StshProtocol.Wallet
