import StshProtocol.ShieldedPool.Recovery.Walks

/-! The recovery scan one record at a time.

`ScanSteps n s s'` says the scan gets from `s` to `s'` by visiting `n` records,
whatever messages the visits fall into. It is deterministic, so where it ends does
not depend on how it was cut (`ScanSteps.unique`); the source's slices and its
budgeted loop take such steps and no others (`recoveryScanSlice_steps`,
`advanceLoop_steps`). -/
namespace StshProtocol.ShieldedPool.Recovery
open Foundation

/-- Change the two things no visit reads: the count, and the stored cursor. -/
def ScanState.adjust (f : Nat → Nat) (g : Bytes → Bytes) (s : ScanState) : ScanState :=
  ⟨{s.cur with scanned := f s.cur.scanned},
    {s.pool with recovery.cursor := g s.pool.recovery.cursor}⟩

/-- Count `n` scanned records. -/
def ScanState.count (n : Nat) (s : ScanState) : ScanState :=
  {s with cur.scanned := satAdd64 s.cur.scanned n}

/-- Put other bytes in the cursor's cell. -/
def ScanState.recell (b : Bytes) (s : ScanState) : ScanState :=
  {s with pool.recovery.cursor := b}

theorem ScanState.recell_eq (b : Bytes) (s : ScanState) :
    s.recell b = s.adjust id fun _ => b := rfl

theorem ScanState.count_count (m n : Nat) (s : ScanState) :
    (s.count m).count n = s.count (m + n) := by
  have h : satAdd64 (satAdd64 s.cur.scanned m) n = satAdd64 s.cur.scanned (m + n) := by
    simp only [satAdd64]
    omega
  simp only [ScanState.count, h]

theorem ScanState.count_zero {s : ScanState} (h : s.cur.scanned ≤ u64Max) : s.count 0 = s := by
  have h' : satAdd64 s.cur.scanned 0 = s.cur.scanned := satAdd64_eq h
  simp only [ScanState.count, h']

/-- A visit with its record counted. -/
def counted {α : Type} (v : ScanState → α → Except RecoveryTrap ScanState) (s : ScanState) (e : α) :
    Except RecoveryTrap ScanState := (v s e).map (·.count 1)

theorem counted_ok {α : Type} {v : ScanState → α → Except RecoveryTrap ScanState} {s s' : ScanState}
    {e : α} (h : counted v s e = .ok s') : ∃ t, v s e = .ok t ∧ s' = t.count 1 := by
  unfold counted at h
  cases hv : v s e with
  | error t => rw [hv] at h; cases h
  | ok t => rw [hv] at h; cases h; exact ⟨t, rfl, rfl⟩

/-! ### The phases -/

def depositWalk (phase : Nat) (h : depositPhase phase) :
    KeyWalk ScanState RecoveryTrap Bytes32 PendingDeposit where
  map s := s.pool.deposits.pending
  last s := s.cur.lastDeposit
  visit := counted (depositVisit phase)
  moves _ hv := by
    obtain ⟨t, ht, rfl⟩ := counted_ok hv
    exact (depositVisit_visited h ht).last_eq
  own _ hv a ha := by
    obtain ⟨t, ht, rfl⟩ := counted_ok hv
    rcases (depositVisit_visited h ht).pending with hp | ⟨status, hp⟩
    · rw [ScanState.count, hp]
    · rw [ScanState.count, hp, StableMap.get_insert_ne _ ha.symm]

def spendWalk (phase : Nat) (h : spendPhase phase) :
    KeyWalk ScanState RecoveryTrap SpendId PendingSpend where
  map s := s.pool.spends.pending
  last s := s.cur.lastSpend
  visit := counted (spendVisit phase)
  moves hk hv := by
    obtain ⟨t, ht, rfl⟩ := counted_ok hv
    exact (spendVisit_visited h hk ht).last_eq
  own hk hv a ha := by
    obtain ⟨t, ht, rfl⟩ := counted_ok hv
    rcases (spendVisit_visited h hk ht).pending with ⟨_, hp | ⟨status, hp⟩⟩ | ⟨_, _, hp⟩
    · rw [ScanState.count, hp]
    · rw [ScanState.count, hp, StableMap.get_insert_ne _ ha.symm]
    · rw [ScanState.count, hp, StableMap.get_erase_ne ha.symm]

theorem depositWalk_visit {phase : Nat} {h : depositPhase phase} {s s' : ScanState}
    {e : Bytes32 × PendingDeposit} (hv : (depositWalk phase h).visit s e = .ok s') :
    ∃ t, depositVisit phase s e = .ok t ∧ s' = t.count 1 := counted_ok hv

theorem spendWalk_visit {phase : Nat} {h : spendPhase phase} {s s' : ScanState}
    {e : SpendId × PendingSpend} (hv : (spendWalk phase h).visit s e = .ok s') :
    ∃ t, spendVisit phase s e = .ok t ∧ s' = t.count 1 := counted_ok hv

/-- The deposits a deposit phase has before it. -/
def depositsAhead (s : ScanState) : List (Bytes32 × PendingDeposit) :=
  s.pool.deposits.pending.entriesAfter s.cur.lastDeposit

/-- The spends a spend phase has before it. -/
def spendsAhead (s : ScanState) : List (SpendId × PendingSpend) :=
  s.pool.spends.pending.entriesAfter s.cur.lastSpend

/-- The scan's next visit; `none` where the phase is exhausted. -/
def nextVisit (s : ScanState) : Option (Except RecoveryTrap ScanState) :=
  match s.cur.phase with
  | 0 | 3 | 4 => (depositsAhead s).head?.map (counted (depositVisit s.cur.phase) s)
  | 1 | 2 | 5 => (spendsAhead s).head?.map (counted (spendVisit s.cur.phase) s)
  | _ => none

/-- The scan gets from one state to another by `n` visits. -/
inductive ScanSteps : Nat → ScanState → ScanState → Prop
  | refl (s : ScanState) : ScanSteps 0 s s
  | next {n : Nat} {s s' : ScanState} : s.cur.isComplete = false → nextVisit s = none →
      ScanSteps n (nextPhase s) s' → ScanSteps n s s'
  | visit {n : Nat} {s s₁ s' : ScanState} : nextVisit s = some (.ok s₁) →
      ScanSteps n s₁ s' → ScanSteps (n + 1) s s'

theorem ScanSteps.trans {m n : Nat} {a b c : ScanState} (h : ScanSteps m a b)
    (h' : ScanSteps n b c) : ScanSteps (m + n) a c := by
  induction h with
  | refl s => rwa [Nat.zero_add]
  | next hc hv _ ih => exact .next hc hv (ih h')
  | @visit k s s₁ s' hv _ ih =>
    rw [Nat.add_right_comm]
    exact .visit hv (ih h')

theorem nextVisit_of_complete {s : ScanState} (h : s.cur.isComplete = true) : nextVisit s = none := by
  unfold RecoveryCursor.isComplete cursorPhaseComplete at h
  unfold nextVisit
  split <;> simp_all

/-- A finished scan stays where it is, and there is one way to get there. -/
theorem ScanSteps.unique {m n : Nat} {s a b : ScanState} (h : ScanSteps m s a)
    (h' : ScanSteps n s b) (ha : a.cur.isComplete = true) (hb : b.cur.isComplete = true) :
    a = b ∧ m = n := by
  induction h generalizing n with
  | refl s =>
    cases h' with
    | refl => exact ⟨rfl, rfl⟩
    | next hc _ _ => rw [ha] at hc; cases hc
    | visit hv _ => rw [nextVisit_of_complete ha] at hv; cases hv
  | next hc hv _ ih =>
    cases h' with
    | refl => rw [hb] at hc; cases hc
    | next _ _ h' => exact ih h' ha
    | visit hv' _ => rw [hv] at hv'; cases hv'
  | visit hv _ ih =>
    cases h' with
    | refl => rw [nextVisit_of_complete hb] at hv; cases hv
    | next _ hv' _ => rw [hv] at hv'; cases hv'
    | visit hv' h' =>
      rw [hv] at hv'
      cases hv'
      obtain ⟨hab, hmn⟩ := ih h' ha
      exact ⟨hab, by rw [hmn]⟩

/-- From a state short of a complete one on the way to it, the rest of the way. -/
theorem ScanSteps.suffix {m n : Nat} {s a b : ScanState} (h : ScanSteps m s a)
    (h' : ScanSteps n s b) (hb : b.cur.isComplete = true) (hnc : a.cur.isComplete = false ∨ m ≤ n) :
    ∃ k, ScanSteps k a b ∧ m + k = n := by
  induction h generalizing n with
  | refl s => exact ⟨n, h', Nat.zero_add n⟩
  | @next k s s' hc hv hs ih =>
    cases h' with
    | refl => rw [hb] at hc; cases hc
    | next _ _ h' => exact ih h' hnc
    | visit hv' _ => rw [hv] at hv'; cases hv'
  | @visit k s s₁ s' hv hs ih =>
    cases h' with
    | refl => rw [nextVisit_of_complete hb] at hv; cases hv
    | next _ hv' _ => rw [hv] at hv'; cases hv'
    | @visit n _ s₂ _ hv' h' =>
      rw [hv] at hv'
      cases hv'
      obtain ⟨j, hj, rfl⟩ := ih h' (hnc.imp_right Nat.le_of_succ_le_succ)
      exact ⟨j, hj, by omega⟩

/-! ### The counted visits of a batch -/

section Batch
variable {α : Type} {v : ScanState → α → Except RecoveryTrap ScanState}

theorem foldlM_count (hv : ∀ n s e, v (s.count n) e = (v s e).map (·.count n)) (n : Nat)
    (batch : List α) (s : ScanState) :
    batch.foldlM v (s.count n) = (batch.foldlM v s).map (·.count n) := by
  induction batch generalizing s with
  | nil => rfl
  | cons e batch ih =>
    rw [List.foldlM_cons, List.foldlM_cons, hv]
    cases v s e with
    | error t => rfl
    | ok s₁ => exact ih s₁

/-- Counting the batch at its end is counting each record of it. -/
theorem foldlM_counted (hv : ∀ n s e, v (s.count n) e = (v s e).map (·.count n))
    (batch : List α) {s : ScanState} (hs : s.cur.scanned ≤ u64Max) :
    batch.foldlM (counted v) s = (batch.foldlM v s).map (·.count batch.length) := by
  induction batch generalizing s with
  | nil =>
    show Except.ok s = Except.ok (s.count 0)
    rw [ScanState.count_zero hs]
  | cons e batch ih =>
    rw [List.foldlM_cons, List.foldlM_cons, counted]
    cases v s e with
    | error t => rfl
    | ok s₁ =>
      show batch.foldlM (counted v) (s₁.count 1) = (batch.foldlM v s₁).map (·.count (batch.length + 1))
      rw [ih (Nat.min_le_right _ _), foldlM_count hv]
      cases batch.foldlM v s₁ with
      | error t => rfl
      | ok s₂ =>
        show Except.ok ((s₂.count 1).count batch.length) = Except.ok (s₂.count (batch.length + 1))
        rw [ScanState.count_count, Nat.add_comm]

theorem foldlM_of_counted (hv : ∀ n s e, v (s.count n) e = (v s e).map (·.count n))
    {batch : List α} {s s' : ScanState} (hs : s.cur.scanned ≤ u64Max)
    (h : batch.foldlM (counted v) s = .ok s') : ∃ t, batch.foldlM v s = .ok t := by
  rw [foldlM_counted hv batch hs] at h
  cases hf : batch.foldlM v s with
  | error t => rw [hf] at h; cases h
  | ok t => exact ⟨t, rfl⟩

/-- Where a batch gets through, so does one whose visits trap in other words. -/
theorem foldlM_weaken {w : ScanState → α → Except RecoveryTrap ScanState}
    (h : ∀ s s' e, v s e = .ok s' → w s e = .ok s') {batch : List α} {s s' : ScanState}
    (hf : batch.foldlM v s = .ok s') : batch.foldlM w s = .ok s' := by
  induction batch generalizing s with
  | nil => exact hf
  | cons e batch ih =>
    rw [List.foldlM_cons] at hf ⊢
    cases hv : v s e with
    | error t => rw [hv] at hf; cases hf
    | ok s₁ =>
      rw [hv] at hf
      rw [h s s₁ e hv]
      exact ih hf

end Batch

theorem depositLeaseCheck_during {owner : Option AppendLeaseOwner} {d : Bool} (d' : Bool)
    {key : Bytes32} {dep : PendingDeposit} (h : depositLeaseCheck owner d key dep = .ok ()) :
    depositLeaseCheck owner d' key dep = .ok () := by
  unfold depositLeaseCheck at h ⊢
  split_ifs at h ⊢
  rfl

theorem spendLeaseCheck_during {owner : Option AppendLeaseOwner} {d : Bool} (d' : Bool)
    {id : SpendId} {spend : PendingSpend} (h : spendLeaseCheck owner d id spend = .ok ()) :
    spendLeaseCheck owner d' id spend = .ok () := by
  unfold spendLeaseCheck at h ⊢
  split_ifs at h ⊢
  rfl

theorem visitDepositLease_during {d : Bool} (d' : Bool) (s s' : ScanState)
    (e : Bytes32 × PendingDeposit) (h : visitDepositLease d s e = .ok s') :
    visitDepositLease d' s e = .ok s' := by
  obtain ⟨hc, rfl⟩ := visitDepositLease_ok h
  rw [visitDepositLease, depositLeaseCheck_during d' hc]
  rfl

theorem visitSpendLease_during {d : Bool} (d' : Bool) (s s' : ScanState)
    (e : SpendId × PendingSpend) (h : visitSpendLease d s e = .ok s') :
    visitSpendLease d' s e = .ok s' := by
  obtain ⟨hc, rfl⟩ := visitSpendLease_ok h
  rw [visitSpendLease, spendLeaseCheck_during d' hc]
  rfl

theorem normalizeDeposit_recovery (p : Pool) (cells : RecoveryCells) (key : Bytes32)
    (dep : PendingDeposit) :
    normalizeDepositRecordForUpgrade {p with recovery := cells} key dep =
      (normalizeDepositRecordForUpgrade p key dep).map fun p => {p with recovery := cells} := by
  unfold normalizeDepositRecordForUpgrade
  cases classifyDepositStatusForUpgrade dep.status with
  | resolveAppendInFlightByIndex => cases dep.expectedLeafIndex <;> rfl
  | _ => rfl

theorem normalizeSpend_recovery (p : Pool) (cells : RecoveryCells) (id : SpendId)
    (spend : PendingSpend) :
    normalizeSpendRecordForUpgrade {p with recovery := cells} id spend =
      ({(normalizeSpendRecordForUpgrade p id spend).1 with recovery := cells},
        (normalizeSpendRecordForUpgrade p id spend).2) := by
  unfold normalizeSpendRecordForUpgrade deindexSpendRecord
  cases classifySpendStatusForUpgrade spend.status with
  | removeRecord => cases spend.submitter <;> rfl
  | _ => rfl

theorem normalizeSpend_cell (p : Pool) (id : SpendId) (spend : PendingSpend) :
    (normalizeSpendRecordForUpgrade p id spend).1.recovery = p.recovery := by
  unfold normalizeSpendRecordForUpgrade deindexSpendRecord
  cases classifySpendStatusForUpgrade spend.status with
  | removeRecord => cases spend.submitter <;> rfl
  | _ => rfl

theorem normalizeDeposit_cell {p p' : Pool} {key : Bytes32} {dep : PendingDeposit}
    (h : normalizeDepositRecordForUpgrade p key dep = .ok p') : p'.recovery = p.recovery := by
  rcases normalizeDeposit_cases h with rfl | rfl <;> rfl

theorem depositVisit_adjust (phase : Nat) (f : Nat → Nat) (g : Bytes → Bytes) (s : ScanState)
    (e : Bytes32 × PendingDeposit) :
    depositVisit phase (s.adjust f g) e = (depositVisit phase s e).map (·.adjust f g) := by
  unfold depositVisit
  split
  · show (do depositLeaseCheck (settledLeaseOwner s.pool) true e.1 e.2; return _) = _
    rw [visitDepositLease]
    cases depositLeaseCheck (settledLeaseOwner s.pool) true e.1 e.2 <;> rfl
  · simp only [visitDepositNormalize, ScanState.adjust, normalizeDeposit_recovery]
    cases hn : normalizeDepositRecordForUpgrade s.pool e.1 e.2 with
    | error t => rfl
    | ok pool =>
      simp only [Except.map, sawDeposit, logVisit, normalizeDeposit_cell hn]
  · simp only [visitDepositIndex]
    split
    · split <;> rfl
    · rfl

theorem spendVisit_adjust (phase : Nat) (f : Nat → Nat) (g : Bytes → Bytes) (s : ScanState)
    (e : SpendId × PendingSpend) :
    spendVisit phase (s.adjust f g) e = (spendVisit phase s e).map (·.adjust f g) := by
  unfold spendVisit
  split
  · show (do spendLeaseCheck (settledLeaseOwner s.pool) true e.1 e.2; return _) = _
    rw [visitSpendLease]
    cases spendLeaseCheck (settledLeaseOwner s.pool) true e.1 e.2 <;> rfl
  · simp only [visitSpendReinstate, visitSpendNormalize, ScanState.adjust, normalizeSpend_recovery]
    cases ((normalizeSpendRecordForUpgrade s.pool e.1 e.2).1.spends.pending[e.1]?).isNone <;>
      simp only [Except.map, sawSpend, logVisit, normalizeSpend_cell, noteRemoval,
        Bool.false_eq_true, if_true, if_false]
  · simp only [visitSpendIndex]
    split
    · split <;> rfl
    · rfl

theorem depositVisit_count (phase n : Nat) (s : ScanState) (e : Bytes32 × PendingDeposit) :
    depositVisit phase (s.count n) e = (depositVisit phase s e).map (·.count n) :=
  depositVisit_adjust phase (satAdd64 · n) id s e

theorem spendVisit_count (phase n : Nat) (s : ScanState) (e : SpendId × PendingSpend) :
    spendVisit phase (s.count n) e = (spendVisit phase s e).map (·.count n) :=
  spendVisit_adjust phase (satAdd64 · n) id s e

/-- A batch of phase 2 with the collected records reinstated. -/
def reinstated (r : ScanState × List PendingSpend) : ScanState :=
  {r.1 with pool.spends.inflight := rebuildInflightNullifiers r.2 r.1.pool.spends.inflight}

theorem normalizeSpend_inflight (p : Pool) (set : StableSet Bytes32) (id : SpendId)
    (spend : PendingSpend) :
    normalizeSpendRecordForUpgrade {p with spends.inflight := set} id spend =
      ({(normalizeSpendRecordForUpgrade p id spend).1 with spends.inflight := set},
        (normalizeSpendRecordForUpgrade p id spend).2) := by
  unfold normalizeSpendRecordForUpgrade deindexSpendRecord
  cases classifySpendStatusForUpgrade spend.status with
  | removeRecord => cases spend.submitter <;> rfl
  | _ => rfl

theorem normalizeSpend_keeps_inflight (p : Pool) (id : SpendId) (spend : PendingSpend) :
    (normalizeSpendRecordForUpgrade p id spend).1.spends.inflight = p.spends.inflight := by
  unfold normalizeSpendRecordForUpgrade deindexSpendRecord
  cases classifySpendStatusForUpgrade spend.status with
  | removeRecord => cases spend.submitter <;> rfl
  | _ => rfl

theorem rebuildInflightNullifiers_append (a b : List PendingSpend) (set : StableSet Bytes32) :
    rebuildInflightNullifiers (a ++ b) set =
      rebuildInflightNullifiers b (rebuildInflightNullifiers a set) :=
  List.foldl_append

theorem reinstated_visit (r : ScanState × List PendingSpend) (e : SpendId × PendingSpend) :
    reinstated (visitSpendNormalize r e) = visitSpendReinstate (reinstated r) e := by
  obtain ⟨s, acc⟩ := r
  obtain ⟨id, spend⟩ := e
  simp only [reinstated, visitSpendReinstate, visitSpendNormalize, normalizeSpend_inflight,
    rebuildInflightNullifiers_append, sawSpend, logVisit, normalizeSpend_keeps_inflight,
    List.nil_append]

theorem reinstated_foldl (batch : List (SpendId × PendingSpend))
    (r : ScanState × List PendingSpend) :
    reinstated (batch.foldl visitSpendNormalize r) = batch.foldl visitSpendReinstate (reinstated r) := by
  induction batch generalizing r with
  | nil => rfl
  | cons e batch ih => rw [List.foldl_cons, List.foldl_cons, ih, reinstated_visit]

/-! ### The slice -/

theorem foldlM_pair_ok {α : Type} {v : ScanState → α → Except RecoveryTrap ScanState}
    {batch : List α} {s s₁ : ScanState} {done : Nat} :
    (do return (← batch.foldlM v s, batch.length) : Except RecoveryTrap (ScanState × Nat)) =
      .ok (s₁, done) ↔ batch.foldlM v s = .ok s₁ ∧ done = batch.length := by
  cases batch.foldlM v s with
  | error t => exact ⟨nofun, nofun⟩
  | ok s' =>
    show Except.ok (s', batch.length) = Except.ok (s₁, done) ↔ Except.ok s' = Except.ok s₁ ∧ _
    rw [Except.ok.injEq, Except.ok.injEq, Prod.mk.injEq]
    exact and_congr_right fun _ => eq_comm

theorem recoveryScanSlice_deposits {s s₁ : ScanState} {budget done : Nat} {d : Bool}
    (hph : depositPhase s.cur.phase) :
    recoveryScanSlice s budget d = .ok (s₁, done) ↔
      ((depositsAhead s).take budget).foldlM (depositVisit s.cur.phase) s = .ok s₁ ∧
        done = ((depositsAhead s).take budget).length := by
  unfold recoveryScanSlice
  rcases hph with h | h | h
  · simp only [h, foldlM_pair_ok]
    exact and_congr_left fun _ =>
      ⟨foldlM_weaken (visitDepositLease_during true), foldlM_weaken (visitDepositLease_during d)⟩
  · simp only [h, foldlM_pair_ok]
    rfl
  · simp only [h]
    rw [← foldlM_pair_ok]
    show _ ↔ (do return (← ((depositsAhead s).take budget).foldlM
      (fun s e => Except.ok (visitDepositIndex s e)) s, _)) = _
    rw [foldlM_pure_ok]
    rfl

theorem recoveryScanSlice_spends {s s₁ : ScanState} {budget done : Nat} {d : Bool}
    (hph : spendPhase s.cur.phase) :
    recoveryScanSlice s budget d = .ok (s₁, done) ↔
      ((spendsAhead s).take budget).foldlM (spendVisit s.cur.phase) s = .ok s₁ ∧
        done = ((spendsAhead s).take budget).length := by
  unfold recoveryScanSlice
  rcases hph with h | h | h
  · simp only [h, foldlM_pair_ok]
    exact and_congr_left fun _ =>
      ⟨foldlM_weaken (visitSpendLease_during true), foldlM_weaken (visitSpendLease_during d)⟩
  · have hr := reinstated_foldl (spendBatch s budget) (s, [])
    simp only [h]
    rw [← foldlM_pair_ok]
    show _ ↔ (do return (← ((spendsAhead s).take budget).foldlM
      (fun s e => Except.ok (visitSpendReinstate s e)) s, _)) = _
    rw [foldlM_pure_ok]
    exact Eq.congr_left (congrArg (fun r => Except.ok (r, (spendBatch s budget).length)) hr)
  · simp only [h, foldlM_pair_ok]
    rfl

theorem isComplete_iff {cur : RecoveryCursor} : cur.isComplete = true ↔ 6 ≤ cur.phase := by
  rw [RecoveryCursor.isComplete, decide_eq_true_eq, cursorPhaseComplete]

theorem not_isComplete_iff {cur : RecoveryCursor} : cur.isComplete = false ↔ cur.phase < 6 := by
  rw [RecoveryCursor.isComplete, decide_eq_false_iff_not, Nat.not_le, cursorPhaseComplete]

theorem phase_cases {phase : Nat} (h : phase < 6) : depositPhase phase ∨ spendPhase phase := by
  unfold depositPhase spendPhase
  omega

theorem nextVisit_deposit {s : ScanState} (h : depositPhase s.cur.phase) :
    nextVisit s = (depositsAhead s).head?.map (counted (depositVisit s.cur.phase) s) := by
  rcases h with h | h | h <;> simp [nextVisit, h]

theorem nextVisit_spend {s : ScanState} (h : spendPhase s.cur.phase) :
    nextVisit s = (spendsAhead s).head?.map (counted (spendVisit s.cur.phase) s) := by
  rcases h with h | h | h <;> simp [nextVisit, h]

theorem nextVisit_complete {s : ScanState} (h : ¬ s.cur.phase < 6) : nextVisit s = none :=
  nextVisit_of_complete (isComplete_iff.2 (Nat.le_of_not_lt h))

theorem nextVisit_recell (b : Bytes) (s : ScanState) :
    nextVisit (s.recell b) = (nextVisit s).map (·.map (·.recell b)) := by
  by_cases hlt : s.cur.phase < 6
  · rcases phase_cases hlt with hd | hsp
    · have hv : ∀ e, counted (depositVisit s.cur.phase) (s.recell b) e =
          (counted (depositVisit s.cur.phase) s e).map (·.recell b) := fun e => by
        rw [counted, counted, ScanState.recell_eq, depositVisit_adjust]
        cases depositVisit s.cur.phase s e <;> rfl
      rw [nextVisit_deposit hd, nextVisit_deposit (s := s.recell b) hd, Option.map_map]
      exact congrArg (fun v => (depositsAhead s).head?.map v) (funext hv)
    · have hv : ∀ e, counted (spendVisit s.cur.phase) (s.recell b) e =
          (counted (spendVisit s.cur.phase) s e).map (·.recell b) := fun e => by
        rw [counted, counted, ScanState.recell_eq, spendVisit_adjust]
        cases spendVisit s.cur.phase s e <;> rfl
      rw [nextVisit_spend hsp, nextVisit_spend (s := s.recell b) hsp, Option.map_map]
      exact congrArg (fun v => (spendsAhead s).head?.map v) (funext hv)
  · rw [nextVisit_complete hlt, nextVisit_complete (s := s.recell b) hlt]
    rfl

/-- The scan goes the same way whatever its cell holds. -/
theorem ScanSteps.recell {n : Nat} {s s' : ScanState} (b : Bytes) (h : ScanSteps n s s') :
    ScanSteps n (s.recell b) (s'.recell b) := by
  induction h with
  | refl s => exact .refl _
  | next hc hv _ ih => exact .next hc (by rw [nextVisit_recell, hv]; rfl) ih
  | visit hv _ ih => exact .visit (by rw [nextVisit_recell, hv]; rfl) ih

/-- A walk is what the scan does in a phase. -/
structure RunsPhase {κ ν : Type} [Ord κ] [Std.TransOrd κ]
    (W : KeyWalk ScanState RecoveryTrap κ ν) (phase : Nat) : Prop where
  next : ∀ {s : ScanState}, s.cur.phase = phase → nextVisit s = (W.ahead s).head?.map (W.visit s)
  stays : ∀ {s s' : ScanState} {e : κ × ν} {rest : List (κ × ν)},
    W.ahead s = e :: rest → W.visit s e = .ok s' → s'.cur.phase = s.cur.phase

theorem depositWalk_runs {phase : Nat} (h : depositPhase phase) :
    RunsPhase (depositWalk phase h) phase where
  next := by
    rintro s rfl
    exact nextVisit_deposit h
  stays _ hv := by
    obtain ⟨t, ht, rfl⟩ := counted_ok hv
    exact (depositVisit_visited h ht).phase_eq

theorem spendWalk_runs {phase : Nat} (h : spendPhase phase) :
    RunsPhase (spendWalk phase h) phase where
  next := by
    rintro s rfl
    exact nextVisit_spend h
  stays ha hv := by
    obtain ⟨t, ht, rfl⟩ := counted_ok hv
    have hk := (StableMap.mem_entriesAfter.1 (ha ▸ List.mem_cons_self)).1
    exact (spendVisit_visited h hk ht).phase_eq

section RunsPhase
variable {κ ν : Type} [Ord κ] [Std.TransOrd κ] [Std.LawfulEqOrd κ]
  {W : KeyWalk ScanState RecoveryTrap κ ν} {phase : Nat}

/-- The visits of a batch are steps of the scan. -/
theorem RunsPhase.steps (R : RunsPhase W phase) {batch rest : List (κ × ν)} {s s' : ScanState}
    (hs : s.cur.phase = phase) (ha : W.ahead s = batch ++ rest)
    (hf : batch.foldlM W.visit s = .ok s') :
    ScanSteps batch.length s s' ∧ W.ahead s' = rest ∧ s'.cur.phase = phase := by
  induction batch generalizing s with
  | nil =>
    cases hf
    exact ⟨.refl _, ha, hs⟩
  | cons e batch ih =>
    rw [List.foldlM_cons] at hf
    cases hv : W.visit s e with
    | error t => rw [hv] at hf; cases hf
    | ok s₁ =>
      rw [hv] at hf
      have hnext : nextVisit s = some (.ok s₁) := by
        rw [R.next hs, ha]
        exact congrArg some hv
      obtain ⟨hsteps, hrest⟩ := ih ((R.stays ha hv).trans hs) (KeyWalk.ahead_visit ha hv) hf
      exact ⟨.visit hnext hsteps, hrest⟩

/-- A batch gets through when the scan has an end. -/
theorem RunsPhase.progress (R : RunsPhase W phase) (hph : phase < 6) {batch rest : List (κ × ν)}
    {n : Nat} {s c : ScanState} (hs : s.cur.phase = phase) (ha : W.ahead s = batch ++ rest)
    (h : ScanSteps n s c) (hc : c.cur.isComplete = true) :
    ∃ s', batch.foldlM W.visit s = .ok s' := by
  induction batch generalizing s n with
  | nil => exact ⟨s, rfl⟩
  | cons e batch ih =>
    have hnext := R.next hs
    rw [ha] at hnext
    cases h with
    | refl =>
      rw [isComplete_iff] at hc
      omega
    | next _ hnone _ => rw [hnext] at hnone; cases hnone
    | @visit n _ s₁ _ hv h =>
      rw [hnext] at hv
      have hv := Option.some.inj hv
      rw [List.foldlM_cons, hv]
      exact ih ((R.stays ha hv).trans hs) (KeyWalk.ahead_visit ha hv) h

end RunsPhase

/-- What a slice does: `done` visits, no more than its budget, and all that the
phase has left when they are fewer. -/
theorem recoveryScanSlice_steps {s s₁ : ScanState} {budget done : Nat} {d : Bool}
    (hph : s.cur.phase < 6) (hs : s.cur.scanned ≤ u64Max)
    (h : recoveryScanSlice s budget d = .ok (s₁, done)) :
    ScanSteps done s (s₁.count done) ∧ done ≤ budget ∧ s₁.cur.phase = s.cur.phase ∧
      (done < budget → nextVisit (s₁.count done) = none) ∧ (done = 0 → s₁ = s) := by
  rcases phase_cases hph with hd | hsp
  · obtain ⟨hf, rfl⟩ := (recoveryScanSlice_deposits hd).1 h
    have hc := foldlM_counted (depositVisit_count s.cur.phase)
      ((depositsAhead s).take budget) hs
    rw [hf] at hc
    obtain ⟨hsteps, hrest, hphase⟩ := (depositWalk_runs hd).steps rfl
      (List.take_append_drop budget (depositsAhead s)).symm hc
    refine ⟨hsteps, List.length_take_le _ _, hphase, fun hlt => ?_, fun hz => ?_⟩
    · rw [(depositWalk_runs hd).next hphase, hrest, List.drop_eq_nil_of_le]
      · rfl
      · rw [List.length_take] at hlt
        omega
    · rw [List.eq_nil_of_length_eq_zero hz] at hf
      cases hf
      rfl
  · obtain ⟨hf, rfl⟩ := (recoveryScanSlice_spends hsp).1 h
    have hc := foldlM_counted (spendVisit_count s.cur.phase) ((spendsAhead s).take budget) hs
    rw [hf] at hc
    obtain ⟨hsteps, hrest, hphase⟩ := (spendWalk_runs hsp).steps rfl
      (List.take_append_drop budget (spendsAhead s)).symm hc
    refine ⟨hsteps, List.length_take_le _ _, hphase, fun hlt => ?_, fun hz => ?_⟩
    · rw [(spendWalk_runs hsp).next hphase, hrest, List.drop_eq_nil_of_le]
      · rfl
      · rw [List.length_take] at hlt
        omega
    · rw [List.eq_nil_of_length_eq_zero hz] at hf
      cases hf
      rfl

/-- The budgeted loop takes steps of the scan, at most its budget; given turns
enough it stops for one of its two reasons, and it ends the scan only with budget to
spare. -/
theorem advanceLoop_steps {d : Bool} {turns budget : Nat} {s s' : ScanState}
    (hs : s.cur.scanned ≤ u64Max) (hph : s.cur.phase ≤ 6)
    (h : advanceLoop d turns s budget = .ok s') :
    ∃ n, ScanSteps n s s' ∧ n ≤ budget ∧
      (budget + 6 ≤ turns + s.cur.phase → n = budget ∨ s'.cur.isComplete = true) ∧
      (s.cur.isComplete = false → s'.cur.isComplete = true → n < budget) := by
  induction turns generalizing s budget with
  | zero =>
    cases h
    refine ⟨0, .refl _, Nat.zero_le _, fun hb => ?_, fun hc hc' => ?_⟩
    · rw [isComplete_iff]
      omega
    · rw [hc] at hc'
      cases hc'
  | succ turns ih =>
    rw [advanceLoop] at h
    split at h
    · rename_i hstop
      cases h
      refine ⟨0, .refl _, Nat.zero_le _, fun _ => ?_, fun hc hc' => ?_⟩
      · simp only [Bool.or_eq_true, decide_eq_true_eq] at hstop
        exact hstop.imp_left Eq.symm
      · rw [hc] at hc'
        cases hc'
    · rename_i hgo
      simp only [Bool.or_eq_true, decide_eq_true_eq, not_or, Bool.not_eq_true] at hgo
      obtain ⟨hbudget, hcomplete⟩ := hgo
      have hlt := not_isComplete_iff.1 hcomplete
      cases hslice : recoveryScanSlice s budget d with
      | error t => rw [hslice] at h; cases h
      | ok r =>
        obtain ⟨s₁, done⟩ := r
        rw [hslice] at h
        obtain ⟨hsteps, hle, hphase, hexhausted, hsame⟩ := recoveryScanSlice_steps hlt hs hslice
        by_cases hdone : done = 0
        · obtain rfl := hsame hdone
          subst hdone
          simp only [Except.bind, bind, if_true] at h
          have hnone := hexhausted (Nat.pos_of_ne_zero hbudget)
          rw [ScanState.count_zero hs] at hnone
          obtain ⟨n, hn, hnb, hturns, hspare⟩ := ih (s := nextPhase s₁) hs
            (by show s₁.cur.phase + 1 ≤ 6; omega) h
          refine ⟨n, .next hcomplete hnone hn, hnb, fun hb => hturns ?_, fun _ hc' => ?_⟩
          · show budget + 6 ≤ turns + (s₁.cur.phase + 1)
            omega
          · cases hc : (nextPhase s₁).cur.isComplete with
            | false => exact hspare hc hc'
            | true =>
              -- The scan ended here, before any of the budget was spent.
              obtain ⟨_, rfl⟩ := hn.unique (.refl _) hc' hc
              exact Nat.pos_of_ne_zero hbudget
        · simp only [Except.bind, bind, if_neg hdone] at h
          obtain ⟨n, hn, hnb, hturns, hspare⟩ := ih (s := s₁.count done) (Nat.min_le_right _ _)
            (by show s₁.cur.phase ≤ 6; omega) h
          refine ⟨done + n, hsteps.trans hn, by omega, fun hb => ?_, fun _ hc' => ?_⟩
          · have hb' : budget - min done budget + 6 ≤ turns + (s₁.count done).cur.phase := by
              show _ ≤ turns + s₁.cur.phase
              omega
            rcases hturns hb' with heq | hc
            · exact .inl (by omega)
            · exact .inr hc
          · have hlt' := hspare (not_isComplete_iff.2 (by show s₁.cur.phase < 6; omega)) hc'
            omega

theorem recoveryScanSlice_progress {s c : ScanState} {n budget : Nat} {d : Bool}
    (hph : s.cur.phase < 6) (hs : s.cur.scanned ≤ u64Max) (h : ScanSteps n s c)
    (hc : c.cur.isComplete = true) : ∃ r, recoveryScanSlice s budget d = .ok r := by
  rcases phase_cases hph with hd | hsp
  · obtain ⟨s', hf⟩ := (depositWalk_runs hd).progress hph rfl
      (List.take_append_drop budget (depositsAhead s)).symm h hc
    obtain ⟨t, ht⟩ := foldlM_of_counted (depositVisit_count s.cur.phase) hs hf
    exact ⟨_, (recoveryScanSlice_deposits hd).2 ⟨ht, rfl⟩⟩
  · obtain ⟨s', hf⟩ := (spendWalk_runs hsp).progress hph rfl
      (List.take_append_drop budget (spendsAhead s)).symm h hc
    obtain ⟨t, ht⟩ := foldlM_of_counted (spendVisit_count s.cur.phase) hs hf
    exact ⟨_, (recoveryScanSlice_spends hsp).2 ⟨ht, rfl⟩⟩

/-- When the scan has an end, no call of the loop traps on the way there. -/
theorem advanceLoop_progress {d : Bool} {turns budget n : Nat} {s c : ScanState}
    (hs : s.cur.scanned ≤ u64Max) (h : ScanSteps n s c) (hc : c.cur.isComplete = true) :
    ∃ s', advanceLoop d turns s budget = .ok s' := by
  induction turns generalizing s budget n with
  | zero => exact ⟨s, rfl⟩
  | succ turns ih =>
    rw [advanceLoop]
    split
    · exact ⟨s, rfl⟩
    · rename_i hgo
      simp only [Bool.or_eq_true, decide_eq_true_eq, not_or, Bool.not_eq_true] at hgo
      obtain ⟨hbudget, hcomplete⟩ := hgo
      have hlt := not_isComplete_iff.1 hcomplete
      obtain ⟨⟨s₁, done⟩, hslice⟩ : ∃ r, recoveryScanSlice s budget d = .ok r :=
        recoveryScanSlice_progress hlt hs h hc
      obtain ⟨hsteps, _, hphase, hexhausted, hsame⟩ := recoveryScanSlice_steps hlt hs hslice
      rw [hslice]
      by_cases hdone : done = 0
      · obtain rfl := hsame hdone
        subst hdone
        simp only [Except.bind, bind, if_true]
        have hnone := hexhausted (Nat.pos_of_ne_zero hbudget)
        rw [ScanState.count_zero hs] at hnone
        cases h with
        | refl => rw [hc] at hcomplete; cases hcomplete
        | next _ _ h => exact ih hs h
        | visit hv _ => rw [hnone] at hv; cases hv
      · simp only [Except.bind, bind, if_neg hdone]
        obtain ⟨k, hk, _⟩ := hsteps.suffix h hc
          (.inl (by rw [not_isComplete_iff]; show s₁.cur.phase < 6; omega))
        exact ih (Nat.min_le_right _ _) hk

end StshProtocol.ShieldedPool.Recovery
