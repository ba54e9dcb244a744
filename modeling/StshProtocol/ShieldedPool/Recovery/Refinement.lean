import StshProtocol.ShieldedPool.Recovery.Eager

/-! Chunked recovery is eager recovery.

What the scan does beyond the books of the eager pass is its accounting: which
records it looked at, in which pass, and the tallies its last chunk compares with
the index. Both come phase by phase from what a visit adds (`PhaseDone.visits`,
`depositWalk4_indexes`, `spendWalk5_indexes`). -/
namespace StshProtocol.ShieldedPool.Recovery
open Foundation

/-! ### The record of visits -/

def depositVisits (phase : Nat) (p : Pool) : List (Nat × AppendLeaseOwner) :=
  p.deposits.pending.keys.map fun key => (phase, .deposit key)

def spendVisits (phase : Nat) (p : Pool) : List (Nat × AppendLeaseOwner) :=
  p.spends.pending.keys.map fun id => (phase, .spend id)

/-- Normalization removes the spends that had changed nothing yet. -/
def removedByRecovery (spend : PendingSpend) : Bool :=
  classifySpendStatusForUpgrade spend.status == .removeRecord

def keptSpends (p : Pool) : List (SpendId × PendingSpend) :=
  p.spends.pending.toList.filter fun e => !removedByRecovery e.2

/-- The visits of a recovery of `p`: three passes over the deposits, two over the
spends, and a third over those that phase 2 did not remove. -/
def scanPasses (p : Pool) : List (Nat × AppendLeaseOwner) :=
  depositVisits 0 p ++ spendVisits 1 p ++ spendVisits 2 p ++ depositVisits 3 p
    ++ depositVisits 4 p ++ (keptSpends p).map fun e => (5, .spend e.1)

theorem mem_depositVisits {phase : Nat} {p : Pool} {visit : Nat × AppendLeaseOwner}
    (h : visit ∈ depositVisits phase p) : visit.1 = phase := by
  obtain ⟨key, _, rfl⟩ := List.mem_map.1 h
  rfl

theorem mem_spendVisits {phase : Nat} {p : Pool} {visit : Nat × AppendLeaseOwner}
    (h : visit ∈ spendVisits phase p) : visit.1 = phase := by
  obtain ⟨id, _, rfl⟩ := List.mem_map.1 h
  rfl

theorem keptSpends_sorted (p : Pool) :
    ((keptSpends p).map (·.1)).Pairwise fun a b => compare a b = .lt :=
  (p.spends.pending.ordered_keys_toList.filter _).map _ fun _ _ hlt => hlt

theorem mem_keptVisits {p : Pool} {visit : Nat × AppendLeaseOwner}
    (h : visit ∈ (keptSpends p).map fun e => (5, AppendLeaseOwner.spend e.1)) : visit.1 = 5 := by
  obtain ⟨e, _, rfl⟩ := List.mem_map.1 h
  rfl

/-- No record is visited twice in one pass. -/
theorem scanPasses_nodup (p : Pool) : (scanPasses p).Nodup := by
  have hd : ∀ phase, (depositVisits phase p).Nodup := fun phase =>
    List.Pairwise.map _ (fun a b hne heq => hne (by cases heq; rfl)) (StableMap.keys_nodup _)
  have hs : ∀ phase, (spendVisits phase p).Nodup := fun phase =>
    List.Pairwise.map _ (fun a b hne heq => hne (by cases heq; rfl)) (StableMap.keys_nodup _)
  have hk : ((keptSpends p).map fun e => (5, AppendLeaseOwner.spend e.1)).Nodup := by
    refine List.Pairwise.map _ (fun a b hlt heq => ?_)
      (p.spends.pending.ordered_keys_toList.filter fun e => !removedByRecovery e.2)
    simp only [Prod.mk.injEq, AppendLeaseOwner.spend.injEq, true_and] at heq
    rw [heq] at hlt
    simp at hlt
  unfold scanPasses
  simp only [List.nodup_append, hd, hs, hk, List.mem_append, true_and, or_imp, forall_and]
  and_intros <;> intro a ha b hb <;> grind [mem_depositVisits, mem_spendVisits, mem_keptVisits]

section
variable {κ ν τ : Type} [Ord κ] [Std.TransOrd κ] [Std.LawfulEqOrd κ]
  {W : KeyWalk ScanState RecoveryTrap κ ν} {s t : ScanState}

/-- What no visit of a phase changes, the phase does not change. -/
theorem PhaseDone.same {g : ScanState → τ} (h : PhaseDone W s t)
    (hg : ∀ {s s' k v}, (W.map s)[k]? = some v → W.visit s (k, v) = .ok s' → g s' = g s) :
    g t = g s :=
  KeyWalk.walk_induction (P := fun r => g r = g s)
    (fun ha hv hr => (hg (StableMap.get_of_ahead ha) hv).trans hr) h.walked rfl

/-- The visits of a phase, in the order of the map. -/
theorem PhaseDone.visits {f : κ → Nat × AppendLeaseOwner} (h : PhaseDone W s t)
    (hv : ∀ {s s' k v}, (W.map s)[k]? = some v → W.visit s (k, v) = .ok s' →
      s'.pool.recovery.visits = s.pool.recovery.visits ++ [f k]) :
    t.pool.recovery.visits = s.pool.recovery.visits ++ (W.ahead s).map fun e => f e.1 := by
  rw [KeyWalk.walk_folds (g := fun s => s.pool.recovery.visits) (f := fun l e => l ++ [f e.1])
    hv h.walked]
  generalize W.ahead s = batch
  generalize s.pool.recovery.visits = visits
  induction batch generalizing visits with
  | nil => exact (List.append_nil visits).symm
  | cons e batch ih =>
    rw [List.foldl_cons, ih, List.map_cons, List.append_assoc]
    rfl

end

theorem depositWalk_spends {phase : Nat} {h : depositPhase phase} {s t : ScanState}
    (hd : PhaseDone (depositWalk phase h) s t) : t.pool.spends = s.pool.spends :=
  hd.same (g := fun s => s.pool.spends) fun _ hv => by
    obtain ⟨r, hr, rfl⟩ := depositWalk_visit hv
    exact (depositVisit_visited h hr).spends_eq

theorem spendWalk_deposits {phase : Nat} {h : spendPhase phase} {s t : ScanState}
    (hd : PhaseDone (spendWalk phase h) s t) : t.pool.deposits = s.pool.deposits :=
  hd.same (g := fun s => s.pool.deposits) fun hk hv => by
    obtain ⟨r, hr, rfl⟩ := spendWalk_visit hv
    exact (spendVisit_visited h hk hr).deposits_eq

/-- No deposit comes or goes. -/
theorem depositWalk_keys {phase : Nat} {h : depositPhase phase} {s t : ScanState}
    (hd : PhaseDone (depositWalk phase h) s t) :
    t.pool.deposits.pending.keys = s.pool.deposits.pending.keys :=
  hd.same (g := fun s => s.pool.deposits.pending.keys) fun hk hv => by
    obtain ⟨r, hr, rfl⟩ := depositWalk_visit hv
    show r.pool.deposits.pending.keys = _
    rcases (depositVisit_visited h hr).pending with hp | ⟨status, hp⟩
    · rw [hp]
    · rw [hp]
      exact StableMap.keys_insert_of_get _ hk

theorem depositWalk_visits {phase : Nat} {h : depositPhase phase} {s t : ScanState}
    (hs : s.cur.lastDeposit = none) (hd : PhaseDone (depositWalk phase h) s t) :
    t.pool.recovery.visits = s.pool.recovery.visits ++ depositVisits phase s.pool := by
  have ha : (depositWalk phase h).ahead s = s.pool.deposits.pending.toList := by
    show s.pool.deposits.pending.entriesAfter s.cur.lastDeposit = _
    rw [hs]
    rfl
  rw [hd.visits (f := fun key => (phase, .deposit key)), ha, depositVisits,
    ← Std.ExtTreeMap.map_fst_toList_eq_keys, List.map_map]
  · rfl
  · intro s s' k v hk hv
    obtain ⟨r, hr, rfl⟩ := depositWalk_visit hv
    show r.pool.recovery.visits = _
    rw [(depositVisit_visited h hr).pool]

theorem spendWalk_visits {phase : Nat} {h : spendPhase phase} {s t : ScanState}
    (hs : s.cur.lastSpend = none) (hd : PhaseDone (spendWalk phase h) s t) :
    t.pool.recovery.visits = s.pool.recovery.visits ++ spendVisits phase s.pool := by
  have ha : (spendWalk phase h).ahead s = s.pool.spends.pending.toList := by
    show s.pool.spends.pending.entriesAfter s.cur.lastSpend = _
    rw [hs]
    rfl
  rw [hd.visits (f := fun id => (phase, .spend id)), ha, spendVisits,
    ← Std.ExtTreeMap.map_fst_toList_eq_keys, List.map_map]
  · rfl
  · intro s s' k v hk hv
    obtain ⟨r, hr, rfl⟩ := spendWalk_visit hv
    show r.pool.recovery.visits = _
    rw [(spendVisit_visited h hk hr).pool]

theorem spendWalk_pending {phase : Nat} {h : spendPhase phase} {s t : ScanState} (hph : phase ≠ 2)
    (hd : PhaseDone (spendWalk phase h) s t) : t.pool.spends.pending = s.pool.spends.pending :=
  hd.same (g := fun s => s.pool.spends.pending) fun hk hv => by
    obtain ⟨r, hr, rfl⟩ := spendWalk_visit hv
    rcases h with rfl | rfl | rfl
    · obtain ⟨_, rfl⟩ := visitSpendLease_ok hr
      rfl
    · exact absurd rfl hph
    · show r.pool.spends.pending = _
      exact visitSpendIndex_pending hr

@[simp] theorem nextPhase_pool (s : ScanState) : (nextPhase s).pool = s.pool := rfl

theorem normalizedSpendStatus_of_preserve {status : SpendStatus} (hasIndex : Bool)
    (h : classifySpendStatusForUpgrade status = .preserve) :
    normalizedSpendStatus status hasIndex = status := by
  rw [normalizedSpendStatus, h]

/-- Phase 2 removes a spend or leaves it with its normalized status. -/
theorem spendWalk2_own {s t : ScanState} (hd : PhaseDone spendWalk2 s t) (hs : s.cur.lastSpend = none)
    {id : SpendId} {spend : PendingSpend} (hspend : s.pool.spends.pending[id]? = some spend) :
    if removedByRecovery spend then t.pool.spends.pending[id]? = none
    else ∃ hasIndex, t.pool.spends.pending[id]? =
      some {spend with status := normalizedSpendStatus spend.status hasIndex} := by
  refine KeyWalk.walk_own (W := spendWalk2) (P := fun _ spend o => if removedByRecovery spend then
    o = none else ∃ hasIndex, o = some {spend with
      status := normalizedSpendStatus spend.status hasIndex}) ?_ hd.walked ?_
  · intro s s' id spend hspend hv
    obtain ⟨r, hr, rfl⟩ := spendWalk_visit hv
    cases hr
    show if removedByRecovery spend then
        (normalizeSpendRecordForUpgrade s.pool id spend).1.spends.pending[id]? = none
      else ∃ hasIndex, (normalizeSpendRecordForUpgrade s.pool id spend).1.spends.pending[id]? = _
    rcases normalizeSpend_cases s.pool id spend with ⟨hc, hn⟩ | ⟨hc, hn⟩ | ⟨hc, hn⟩
    · rw [hn, if_neg (by rw [removedByRecovery, hc]; decide)]
      exact ⟨false, by rw [normalizedSpendStatus_of_preserve _ hc]; exact hspend⟩
    · rw [hn, deindexSpendRecord_eq, if_pos (by rw [removedByRecovery, hc]; rfl)]
      exact Std.ExtTreeMap.getElem?_erase_self
    · rw [hn, if_neg (by rw [removedByRecovery, beq_iff_eq]; exact hc)]
      exact ⟨_, Std.ExtTreeMap.getElem?_insert_self⟩
  · show (id, spend) ∈ s.pool.spends.pending.entriesAfter s.cur.lastSpend
    rw [hs]
    exact StableMap.mem_toList.2 hspend

theorem mem_keptSpends {p : Pool} {id : SpendId} {spend : PendingSpend} :
    (id, spend) ∈ keptSpends p ↔
      p.spends.pending[id]? = some spend ∧ removedByRecovery spend = false := by
  rw [keptSpends, List.mem_filter, StableMap.mem_toList, Bool.not_eq_true']

/-- Phase 2 keeps the spends it does not remove. -/
theorem spendWalk2_keys {s t : ScanState} (hd : PhaseDone spendWalk2 s t)
    (hs : s.cur.lastSpend = none) :
    t.pool.spends.pending.keys = (keptSpends s.pool).map (·.1) := by
  refine StableMap.keys_eq (keptSpends_sorted s.pool) fun id => ?_
  rw [StableMap.mem_keys, List.mem_map]
  constructor
  · rintro ⟨spend', hspend'⟩
    cases hget : s.pool.spends.pending[id]? with
    | none =>
      have hnone := KeyWalk.walk_none hd.walked hget
      cases hnone.symm.trans hspend'
    | some spend =>
      have hown := spendWalk2_own hd hs hget
      split at hown
      · rw [hown] at hspend'
        cases hspend'
      · rename_i hkept
        exact ⟨(id, spend), mem_keptSpends.2 ⟨hget, (Bool.not_eq_true _).mp hkept⟩, rfl⟩
  · rintro ⟨⟨_, spend⟩, hmem, rfl⟩
    obtain ⟨hget, hkept⟩ := mem_keptSpends.1 hmem
    have hown := spendWalk2_own hd hs hget
    rw [if_neg (by rw [hkept]; exact Bool.false_ne_true)] at hown
    obtain ⟨hasIndex, hown⟩ := hown
    exact ⟨_, hown⟩

/-- Every record is visited once in each pass that reaches it. -/
theorem WholeScan.visits {s t₀ t₁ t₂ t₃ t₄ t₅ : ScanState} (hs : s.cur.lastDeposit = none)
    (h : WholeScan s t₀ t₁ t₂ t₃ t₄ t₅) :
    t₅.pool.recovery.visits = s.pool.recovery.visits ++ scanPasses s.pool ∧
      t₅.pool.deposits.pending.keys = s.pool.deposits.pending.keys := by
  have d₀ := depositWalk_keys h.phase₀
  have d₁ := spendWalk_deposits h.phase₁
  have d₂ := spendWalk_deposits h.phase₂
  have d₃ := depositWalk_keys h.phase₃
  have d₄ := depositWalk_keys h.phase₄
  have d₅ := spendWalk_deposits h.phase₅
  have s₀ := depositWalk_spends h.phase₀
  have s₁ := spendWalk_pending (by decide) h.phase₁
  have s₂ := spendWalk2_keys h.phase₂ rfl
  have s₃ := depositWalk_spends h.phase₃
  have s₄ := depositWalk_spends h.phase₄
  have v₀ := depositWalk_visits hs h.phase₀
  have v₁ := spendWalk_visits rfl h.phase₁
  have v₂ := spendWalk_visits rfl h.phase₂
  have v₃ := depositWalk_visits rfl h.phase₃
  have v₄ := depositWalk_visits rfl h.phase₄
  have v₅ := spendWalk_visits rfl h.phase₅
  simp only [nextPhase_pool] at d₁ d₂ d₃ d₄ d₅ s₁ s₂ s₃ s₄ v₁ v₂ v₃ v₄ v₅
  have k₂ : t₂.pool.deposits.pending.keys = s.pool.deposits.pending.keys := by rw [d₂, d₁, d₀]
  refine ⟨?_, by rw [d₅, d₄, d₃, k₂]⟩
  rw [v₅, v₄, v₃, v₂, v₁, v₀]
  simp only [scanPasses, depositVisits, spendVisits, keptSpends, List.append_assoc, d₃, k₂, s₀, s₁,
    s₂, s₃, s₄, List.map_map]
  rfl

/-! ### The tallies of the index -/

/-- Every row of the deposit index is the row of a deposit that needs recovery. -/
def DepositRowsFresh (b : DepositBook) : Prop :=
  ∀ owner key, b.active.contains (owner, key) = true →
    ∃ dep, b.pending[key]? = some dep ∧ dep.depositor = some owner ∧
      depositRecoveryRequired dep.status = true

/-- Every row of the spend index is the row of a spend that needs recovery. -/
def SpendRowsFresh (b : SpendBook) : Prop :=
  ∀ owner id, b.active.contains (owner, id) = true →
    ∃ spend, b.pending[id]? = some spend ∧ spend.submitter = some owner ∧ spend.spendId = id ∧
      spendRecoveryRequired spend.status = true

/-- The row phase 4 inserts for a deposit. -/
def depositRow (entry : Bytes32 × PendingDeposit) : Option (Principal × Bytes32) :=
  if depositRecoveryRequired entry.2.status then entry.2.depositor.map fun owner => (owner, entry.1)
  else none

/-- The row phase 5 inserts for a spend. -/
def spendRow (entry : SpendId × PendingSpend) : Option (Principal × SpendId) :=
  if spendRecoveryRequired entry.2.status then entry.2.submitter.map fun owner => (owner, entry.1)
  else none

theorem foldl_filterMap {α β γ : Type} (row : α → Option β) (g : γ → β → γ) (l : List α) (c : γ) :
    (l.filterMap row).foldl g c = l.foldl (fun c a => (row a).elim c (g c)) c := by
  induction l generalizing c with
  | nil => rfl
  | cons a l ih => cases h : row a <;> simp [h, ih]

theorem foldl_satAdd64 {α : Type} (l : List α) {n : Nat} (h : n ≤ u64Max) :
    l.foldl (fun n _ => satAdd64 n 1) n = min (n + l.length) u64Max := by
  induction l generalizing n with
  | nil => exact (Nat.min_eq_left h).symm
  | cons a l ih =>
    have hn : satAdd64 n 1 ≤ u64Max := Nat.min_le_right _ _
    rw [List.foldl_cons, ih hn, satAdd64, List.length_cons]
    omega

section
variable {κ ν : Type} [Ord κ] [Std.TransOrd κ] [Std.LawfulEqOrd κ] [Ord (Principal × κ)]
  [Std.TransOrd (Principal × κ)] [Std.LawfulEqOrd (Principal × κ)]
  {row : κ × ν → Option (Principal × κ)} {m : StableMap κ ν}

/-- One row for each record that has one: an index that held none of other records
is as large as its tally. -/
theorem size_index (hrow : ∀ {e r}, row e = some r → r.2 = e.1) {index : StableSet (Principal × κ)}
    (hfresh : ∀ r, index.contains r = true → ∃ e ∈ m.toList, row e = some r)
    (hm : m.size ≤ u64Max) :
    ((m.toList.filterMap row).foldl (fun index r => index.insert r ()) index).size =
      (m.toList.filterMap row).foldl (fun n _ => satAdd64 n 1) 0 := by
  have hnodup : (m.toList.filterMap row).Nodup := by
    refine List.Pairwise.filterMap row ?_ m.ordered_keys_toList
    rintro a b hlt r hr r' hr' rfl
    rw [← hrow hr, ← hrow hr'] at hlt
    simp at hlt
  have hlen : (m.toList.filterMap row).length ≤ m.size := by
    rw [← Std.ExtTreeMap.length_toList]
    exact List.length_filterMap_le row m.toList
  rw [foldl_satAdd64 _ (Nat.zero_le _), Nat.zero_add, Nat.min_eq_left (Nat.le_trans hlen hm)]
  refine StableMap.size_foldl_insert () hnodup fun r hr => ?_
  rw [Std.ExtTreeMap.mem_keys, ← Std.ExtTreeMap.contains_iff_mem] at hr
  exact List.mem_filterMap.2 (hfresh r hr)

end

theorem depositRow_key {e : Bytes32 × PendingDeposit} {r : Principal × Bytes32}
    (h : depositRow e = some r) : r.2 = e.1 := by
  unfold depositRow at h
  split at h
  · obtain ⟨owner, _, rfl⟩ := Option.map_eq_some_iff.1 h
    rfl
  · cases h

theorem spendRow_key {e : SpendId × PendingSpend} {r : Principal × SpendId}
    (h : spendRow e = some r) : r.2 = e.1 := by
  unfold spendRow at h
  split at h
  · obtain ⟨owner, _, rfl⟩ := Option.map_eq_some_iff.1 h
    rfl
  · cases h

/-- Phase 4 inserts and counts a deposit's row, when it has one. -/
theorem visitDepositIndex_row (s : ScanState) (e : Bytes32 × PendingDeposit) :
    visitDepositIndex s e = sawDeposit (match depositRow e with
      | some r => ⟨{s.cur with expectedDeposits := satAdd64 s.cur.expectedDeposits 1},
          {s.pool with deposits.active := s.pool.deposits.active.insert r ()}⟩
      | none => s) 4 e.1 := by
  unfold visitDepositIndex depositRow
  dsimp only
  split
  · cases e.2.depositor <;> rfl
  · rfl

/-- Phase 5 inserts and counts a spend's row, when it has one. -/
theorem visitSpendIndex_row {s s' : ScanState} {e : SpendId × PendingSpend}
    (h : spendVisit 5 s e = .ok s') :
    s' = sawSpend (match spendRow e with
      | some r => ⟨{s.cur with expectedSpends := satAdd64 s.cur.expectedSpends 1},
          {s.pool with spends.active := s.pool.spends.active.insert r ()}⟩
      | none => s) 5 e.1 := by
  simp only [spendVisit, visitSpendIndex] at h
  unfold spendRow
  split at h
  · rename_i hreq
    rw [if_pos hreq]
    cases hs : e.2.submitter with
    | none => rw [hs] at h; cases h
    | some owner => rw [hs] at h; cases h; rfl
  · rename_i hreq
    rw [if_neg hreq]
    cases h
    rfl

theorem depositWalk4_row {s s' : ScanState} {e : Bytes32 × PendingDeposit}
    (hv : depositWalk4.visit s e = .ok s') :
    s'.pool.deposits.active = (depositRow e).elim s.pool.deposits.active (s.pool.deposits.active.insert · ()) ∧
    s'.cur.expectedDeposits =
      (depositRow e).elim s.cur.expectedDeposits fun _ => satAdd64 s.cur.expectedDeposits 1 := by
  obtain ⟨r, hr, rfl⟩ := depositWalk_visit hv
  cases hr
  rw [visitDepositIndex_row]
  cases depositRow e <;> exact ⟨rfl, rfl⟩

/-- Phase 4 leaves as many rows as it counted. -/
theorem depositWalk4_indexes {s t : ScanState} (hd : PhaseDone depositWalk4 s t)
    (hs : s.cur.lastDeposit = none) (hz : s.cur.expectedDeposits = 0)
    (hfresh : DepositRowsFresh s.pool.deposits) (hm : s.pool.deposits.pending.size ≤ u64Max) :
    t.pool.deposits.active.size = t.cur.expectedDeposits := by
  have ha : depositWalk4.ahead s = s.pool.deposits.pending.toList := by
    show s.pool.deposits.pending.entriesAfter s.cur.lastDeposit = _
    rw [hs]
    rfl
  have hactive := KeyWalk.walk_folds (W := depositWalk4) (g := fun s => s.pool.deposits.active)
    (f := fun index e => (depositRow e).elim index (index.insert · ()))
    (fun _ hv => (depositWalk4_row hv).1) hd.walked
  have hcount := KeyWalk.walk_folds (W := depositWalk4) (g := fun s => s.cur.expectedDeposits)
    (f := fun n e => (depositRow e).elim n fun _ => satAdd64 n 1)
    (fun _ hv => (depositWalk4_row hv).2) hd.walked
  have hrows : ∀ r, s.pool.deposits.active.contains r = true →
      ∃ e ∈ s.pool.deposits.pending.toList, depositRow e = some r := by
    rintro ⟨owner, key⟩ hr
    obtain ⟨dep, hdep, howner, hreq⟩ := hfresh owner key hr
    exact ⟨(key, dep), StableMap.mem_toList.2 hdep, by rw [depositRow, if_pos hreq, howner]; rfl⟩
  have hsize := size_index depositRow_key hrows hm
  rw [foldl_filterMap, foldl_filterMap] at hsize
  rw [hactive, hcount, ha, hz, hsize]

theorem spendWalk5_row {s s' : ScanState} {e : SpendId × PendingSpend}
    (hv : spendWalk5.visit s e = .ok s') :
    s'.pool.spends.active = (spendRow e).elim s.pool.spends.active (s.pool.spends.active.insert · ()) ∧
    s'.cur.expectedSpends =
      (spendRow e).elim s.cur.expectedSpends fun _ => satAdd64 s.cur.expectedSpends 1 := by
  obtain ⟨r, hr, rfl⟩ := spendWalk_visit hv
  rw [visitSpendIndex_row hr]
  cases spendRow e <;> exact ⟨rfl, rfl⟩

/-- Phase 5 leaves as many rows as it counted. -/
theorem spendWalk5_indexes {s t : ScanState} (hd : PhaseDone spendWalk5 s t)
    (hs : s.cur.lastSpend = none) (hz : s.cur.expectedSpends = 0)
    (hfresh : SpendRowsFresh s.pool.spends) (hm : s.pool.spends.pending.size ≤ u64Max) :
    t.pool.spends.active.size = t.cur.expectedSpends := by
  have ha : spendWalk5.ahead s = s.pool.spends.pending.toList := by
    show s.pool.spends.pending.entriesAfter s.cur.lastSpend = _
    rw [hs]
    rfl
  have hactive := KeyWalk.walk_folds (W := spendWalk5) (g := fun s => s.pool.spends.active)
    (f := fun index e => (spendRow e).elim index (index.insert · ()))
    (fun _ hv => (spendWalk5_row hv).1) hd.walked
  have hcount := KeyWalk.walk_folds (W := spendWalk5) (g := fun s => s.cur.expectedSpends)
    (f := fun n e => (spendRow e).elim n fun _ => satAdd64 n 1)
    (fun _ hv => (spendWalk5_row hv).2) hd.walked
  have hrows : ∀ r, s.pool.spends.active.contains r = true →
      ∃ e ∈ s.pool.spends.pending.toList, spendRow e = some r := by
    rintro ⟨owner, id⟩ hr
    obtain ⟨spend, hspend, howner, _, hreq⟩ := hfresh owner id hr
    exact ⟨(id, spend), StableMap.mem_toList.2 hspend, by rw [spendRow, if_pos hreq, howner]; rfl⟩
  have hsize := size_index spendRow_key hrows hm
  rw [foldl_filterMap, foldl_filterMap] at hsize
  rw [hactive, hcount, ha, hz, hsize]

/-! ### The index stays fresh until it is built -/

theorem depositWalk3_fresh {s t : ScanState} (hd : PhaseDone depositWalk3 s t)
    (h : DepositRowsFresh s.pool.deposits) : DepositRowsFresh t.pool.deposits := by
  refine KeyWalk.walk_induction (P := fun s => DepositRowsFresh s.pool.deposits) ?_ hd.walked h
  intro s s' e rest ha hv hfresh
  have hkey := StableMap.get_of_ahead ha
  obtain ⟨r, hr, rfl⟩ := depositWalk_visit hv
  simp only [depositVisit, visitDepositNormalize] at hr
  split at hr
  · rename_i pool hn
    cases hr
    rcases normalizeDeposit_cases hn with rfl | rfl
    · exact hfresh
    · intro owner key hrow
      obtain ⟨dep, hdep, howner, hreq⟩ := hfresh owner key hrow
      by_cases hk : e.1 = key
      · subst hk
        cases hkey.symm.trans hdep
        exact ⟨_, Std.ExtTreeMap.getElem?_insert_self, howner, rfl⟩
      · exact ⟨dep, (StableMap.get_insert_ne _ hk).trans hdep, howner, hreq⟩
  · cases hr

theorem spendRecoveryRequired_normalized {status : SpendStatus} (hasIndex : Bool)
    (h : spendRecoveryRequired status = true) :
    spendRecoveryRequired (normalizedSpendStatus status hasIndex) = true := by
  cases status <;> cases hasIndex <;> exact h

/-- Normalization keeps the index fresh: a spend it removes takes its row along. -/
theorem normalizeSpend_fresh {p : Pool} {id : SpendId} {spend : PendingSpend}
    (hkey : p.spends.pending[id]? = some spend) (h : SpendRowsFresh p.spends) :
    SpendRowsFresh (normalizeSpendRecordForUpgrade p id spend).1.spends := by
  rcases normalizeSpend_cases p id spend with ⟨_, hn⟩ | ⟨_, hn⟩ | ⟨_, hn⟩
  · rw [hn]
    exact h
  · rw [hn]
    intro owner i hrow
    have hrow' : p.spends.active.contains (owner, i) = true ∧
        spend.submitter.map (fun o => (o, spend.spendId)) ≠ some (owner, i) := by
      cases hs : spend.submitter with
      | none =>
        rw [deindexSpendRecord, hs] at hrow
        exact ⟨hrow, nofun⟩
      | some o =>
        rw [deindexSpendRecord, hs] at hrow
        simp only [Std.ExtTreeMap.contains_erase, Bool.and_eq_true] at hrow
        refine ⟨hrow.2, fun heq => ?_⟩
        cases heq
        simp at hrow
    obtain ⟨spend', hspend', howner, hid, hreq⟩ := h owner i hrow'.1
    have hne : id ≠ i := by
      rintro rfl
      cases hkey.symm.trans hspend'
      exact hrow'.2 (by rw [howner, hid]; rfl)
    refine ⟨spend', ?_, howner, hid, hreq⟩
    rw [deindexSpendRecord_eq]
    exact (StableMap.get_erase_ne hne).trans hspend'
  · rw [hn]
    intro owner i hrow
    obtain ⟨spend', hspend', howner, hid, hreq⟩ := h owner i hrow
    by_cases hi : id = i
    · subst hi
      cases hkey.symm.trans hspend'
      exact ⟨_, Std.ExtTreeMap.getElem?_insert_self, howner, hid,
        spendRecoveryRequired_normalized _ hreq⟩
    · exact ⟨spend', (StableMap.get_insert_ne _ hi).trans hspend', howner, hid, hreq⟩

theorem spendWalk2_fresh {s t : ScanState} (hd : PhaseDone spendWalk2 s t)
    (h : SpendRowsFresh s.pool.spends) : SpendRowsFresh t.pool.spends := by
  refine KeyWalk.walk_induction (P := fun s => SpendRowsFresh s.pool.spends) ?_ hd.walked h
  intro s s' e rest ha hv hfresh
  have hkey := StableMap.get_of_ahead ha
  obtain ⟨r, hr, rfl⟩ := spendWalk_visit hv
  cases hr
  exact normalizeSpend_fresh (p := s.pool) hkey hfresh

/-- Only phase 4 counts deposits. -/
theorem depositWalk_expected {phase : Nat} {h : depositPhase phase} {s t : ScanState} (hph : phase ≠ 4)
    (hd : PhaseDone (depositWalk phase h) s t) : t.cur.expectedDeposits = s.cur.expectedDeposits :=
  hd.same (g := fun s => s.cur.expectedDeposits) fun {s s' key dep} _ hv => by
    obtain ⟨r, hr, rfl⟩ := depositWalk_visit hv
    rcases h with rfl | rfl | rfl
    · obtain ⟨_, rfl⟩ := visitDepositLease_ok hr
      rfl
    · simp only [depositVisit, visitDepositNormalize] at hr
      split at hr
      · cases hr
        rfl
      · cases hr
    · exact absurd rfl hph

/-- Only phase 5 counts spends. -/
theorem spendWalk_expected {phase : Nat} {h : spendPhase phase} {s t : ScanState} (hph : phase ≠ 5)
    (hd : PhaseDone (spendWalk phase h) s t) : t.cur.expectedSpends = s.cur.expectedSpends :=
  hd.same (g := fun s => s.cur.expectedSpends) fun {s s' id spend} _ hv => by
    obtain ⟨r, hr, rfl⟩ := spendWalk_visit hv
    rcases h with rfl | rfl | rfl
    · obtain ⟨_, rfl⟩ := visitSpendLease_ok hr
      rfl
    · cases hr
      simp only [visitSpendReinstate, visitSpendNormalize, noteRemoval]
      split <;> rfl
    · exact absurd rfl hph

theorem spendWalk_expectedDeposits {phase : Nat} {h : spendPhase phase} {s t : ScanState}
    (hd : PhaseDone (spendWalk phase h) s t) : t.cur.expectedDeposits = s.cur.expectedDeposits :=
  hd.same (g := fun s => s.cur.expectedDeposits) fun hk hv => by
    obtain ⟨r, hr, rfl⟩ := spendWalk_visit hv
    exact (spendVisit_visited h hk hr).counts_eq.2

theorem depositWalk_expectedSpends {phase : Nat} {h : depositPhase phase} {s t : ScanState}
    (hd : PhaseDone (depositWalk phase h) s t) : t.cur.expectedSpends = s.cur.expectedSpends :=
  hd.same (g := fun s => s.cur.expectedSpends) fun _ hv => by
    obtain ⟨r, hr, rfl⟩ := depositWalk_visit hv
    exact (depositVisit_visited h hr).counts_eq.2.2

/-- A pass over the spends adds none. -/
theorem spendWalk_size {phase : Nat} {h : spendPhase phase} {s t : ScanState}
    (hd : PhaseDone (spendWalk phase h) s t) :
    t.pool.spends.pending.size ≤ s.pool.spends.pending.size := by
  refine KeyWalk.walk_induction (P := fun r => r.pool.spends.pending.size ≤ s.pool.spends.pending.size)
    ?_ hd.walked (Nat.le_refl _)
  intro r r' e rest ha hv hle
  have hkey := StableMap.get_of_ahead ha
  obtain ⟨u, hu, rfl⟩ := spendWalk_visit hv
  show u.pool.spends.pending.size ≤ _
  rcases (spendVisit_visited h hkey hu).pending with ⟨_, hp | ⟨status, hp⟩⟩ | ⟨_, _, hp⟩
  · rw [hp]
    exact hle
  · rw [hp]
    exact Nat.le_trans (Nat.le_of_eq (StableMap.size_insert_of_get _ hkey)) hle
  · rw [hp]
    have hsize : (r.pool.spends.pending.erase e.1).size + 1 = r.pool.spends.pending.size :=
      StableMap.size_erase_of_get hkey
    omega

theorem depositWalk0_deposits {s t : ScanState} (hd : PhaseDone depositWalk0 s t) :
    t.pool.deposits = s.pool.deposits :=
  hd.same (g := fun s => s.pool.deposits) fun _ hv => by
    obtain ⟨r, hr, rfl⟩ := depositWalk_visit hv
    obtain ⟨_, rfl⟩ := visitDepositLease_ok hr
    rfl

theorem spendWalk1_spends {s t : ScanState} (hd : PhaseDone spendWalk1 s t) :
    t.pool.spends = s.pool.spends :=
  hd.same (g := fun s => s.pool.spends) fun _ hv => by
    obtain ⟨r, hr, rfl⟩ := spendWalk_visit hv
    obtain ⟨_, rfl⟩ := visitSpendLease_ok hr
    rfl

theorem startScan_fits (p : StablePool) :
    p.deposits.pending.size ≤ u64Max ∧ p.spends.pending.size ≤ u64Max := by
  have hfits : (2 : Nat) ^ 40 ≤ u64Max := by decide
  have := p.fits
  exact ⟨by omega, by omega⟩

/-- Over a fresh deposit index the scan counts what it builds. -/
theorem WholeScan.deposits_indexed {p : StablePool} {t₀ t₁ t₂ t₃ t₄ t₅ : ScanState}
    (h : WholeScan (startScan p.toPool) t₀ t₁ t₂ t₃ t₄ t₅) (hfresh : DepositRowsFresh p.deposits) :
    t₅.pool.deposits.active.size = t₅.cur.expectedDeposits := by
  have d₂ : (nextPhase t₂).pool.deposits = p.deposits :=
    (spendWalk_deposits h.phase₂).trans ((spendWalk_deposits h.phase₁).trans
      (depositWalk0_deposits h.phase₀))
  have hz : (nextPhase t₃).cur.expectedDeposits = 0 :=
    (depositWalk_expected (by decide) h.phase₃).trans ((spendWalk_expectedDeposits h.phase₂).trans
      ((spendWalk_expectedDeposits h.phase₁).trans (depositWalk_expected (by decide) h.phase₀)))
  have hsize : (nextPhase t₃).pool.deposits.pending.size = p.deposits.pending.size := by
    have hkeys := depositWalk_keys h.phase₃
    rw [d₂] at hkeys
    rw [← Std.ExtTreeMap.length_keys, ← Std.ExtTreeMap.length_keys]
    exact congrArg List.length hkeys
  have hfresh₃ : DepositRowsFresh t₃.pool.deposits :=
    depositWalk3_fresh h.phase₃ (d₂.symm ▸ hfresh)
  have hindex := depositWalk4_indexes h.phase₄ rfl hz hfresh₃ (hsize ▸ (startScan_fits p).1)
  rw [spendWalk_deposits h.phase₅, spendWalk_expectedDeposits h.phase₅]
  exact hindex

/-- Over a fresh spend index the scan counts what it builds. -/
theorem WholeScan.spends_indexed {p : StablePool} {t₀ t₁ t₂ t₃ t₄ t₅ : ScanState}
    (h : WholeScan (startScan p.toPool) t₀ t₁ t₂ t₃ t₄ t₅) (hfresh : SpendRowsFresh p.spends) :
    t₅.pool.spends.active.size = t₅.cur.expectedSpends := by
  have s₁ : (nextPhase t₁).pool.spends = p.spends :=
    (spendWalk1_spends h.phase₁).trans (depositWalk_spends h.phase₀)
  have s₃ := depositWalk_spends h.phase₃
  have s₄ := depositWalk_spends h.phase₄
  rw [nextPhase_pool] at s₃ s₄
  rw [s₃] at s₄
  have hz : (nextPhase t₄).cur.expectedSpends = 0 :=
    (depositWalk_expectedSpends h.phase₄).trans ((depositWalk_expectedSpends h.phase₃).trans
      ((spendWalk_expected (by decide) h.phase₂).trans
        ((spendWalk_expected (by decide) h.phase₁).trans (depositWalk_expectedSpends h.phase₀))))
  have hsize : t₄.pool.spends.pending.size ≤ p.spends.pending.size := by
    have hle := spendWalk_size h.phase₂
    rwa [s₁, ← s₄] at hle
  have hfresh₄ : SpendRowsFresh t₄.pool.spends := by
    rw [s₄]
    exact spendWalk2_fresh h.phase₂ (s₁.symm ▸ hfresh)
  exact spendWalk5_indexes h.phase₅ rfl hz hfresh₄ (Nat.le_trans hsize (startScan_fits p).2)

/-- Chunked recovery is eager recovery, however it is chunked: when no chunk traps
and the cursor is complete, the eager pass succeeds too and leaves the same books;
every record was visited once in each of its passes; the tallies are the sizes of the
indexes if these held no stale rows; and no work remains. -/
theorem chunked_recovery_eq_eager (p : StablePool) (first : Nat) (rest : List Nat) (q : Pool)
    (h : recoveryChunks first rest p.toPool = .ok q) (hdone : recoveryPending q = false) :
    (∃ e, eagerRecovery p.toPool = .ok e ∧ SameBooks q e) ∧
    q.recovery.visits = p.recovery.visits ++ scanPasses p.toPool ∧
    (scanPasses p.toPool).Nodup ∧
    q.deposits.pending.keys = p.deposits.pending.keys ∧
    (DepositRowsFresh p.deposits →
      (recoveryCursor q).expectedDeposits = q.deposits.active.size) ∧
    (SpendRowsFresh p.spends → (recoveryCursor q).expectedSpends = q.spends.active.size) ∧
    (recoveryCursor q).remaining = 0 := by
  obtain ⟨n, s, hsteps, ht, hq⟩ := recoveryChunks_stored h
  have hcur := hq.cursor ht
  have hc : s.cur.isComplete = true := by
    rw [hq.pending ht] at hdone
    simpa using hdone
  obtain ⟨t₀, t₁, t₂, t₃, t₄, t₅, hwhole, rfl⟩ := hsteps.whole rfl hc
  obtain ⟨hbooks, hvisits⟩ := hq.books
  obtain ⟨e, he, cells, hb⟩ := hwhole.eager
  obtain ⟨hlog, hkeys⟩ := hwhole.visits rfl
  have hd : q.deposits = t₅.pool.deposits := by rw [hbooks]; rfl
  have hs : q.spends = t₅.pool.spends := by rw [hbooks]; rfl
  refine ⟨⟨e, he, q.recovery, ?_⟩, ?_, scanPasses_nodup _, ?_, fun hfresh => ?_, fun hfresh => ?_, ?_⟩
  · rw [hbooks, nextPhase_pool, hb]
  · rw [hvisits, nextPhase_pool, hlog]
    rfl
  · rw [hd, hkeys]
    rfl
  · rw [hcur, hd]
    exact (hwhole.deposits_indexed hfresh).symm
  · rw [hcur, hs]
    exact (hwhole.spends_indexed hfresh).symm
  · rw [hcur, ht.remaining, outstanding_of_complete]
    exact Nat.le_antisymm ht.phase (isComplete_iff.1 hc)

def sampleDeposit : PendingDeposit where
  operation := 0
  noteCommitment := 1
  privateBalance := 5
  opsAmount := 0
  insuranceAmount := 0
  stakingAmount := none
  encryptedPayload := []
  depositor := some 7
  status := .transferPending
  createdAtNs := 0
  expectedLeafIndex := none
  finalizedAtNs := none

def sampleSpend : PendingSpend where
  spendId := 3
  nullifiers := [9]
  outputCommitments := [11, 12]
  publicPayout := none
  outputsCommitted := 0
  fee := none
  status := .nullifierReserved
  createdAtNs := 0
  submitter := some 7
  finalizedAtNs := none
  feeSplitOps := none
  feeSplitInsurance := none
  feeSplitStaking := none

/-- A pool with one deposit and one reserved spend, just after an upgrade. -/
def samplePool : StablePool where
  deposits := ⟨(∅ : StableMap _ _).insert 1 sampleDeposit, ∅, ∅, ∅, ∅⟩
  spends := ⟨(∅ : StableMap _ _).insert 3 sampleSpend, ∅, ∅, ∅, ∅, ∅⟩
  lease := ⟨0, none⟩
  roots := ⟨∅, none⟩
  recovery := ⟨[], 0, [], none⟩
  fits := by decide +kernel

theorem samplePool_recovers :
    ∃ q, recoveryChunks 2 [2, 2, 2] samplePool.toPool = .ok q ∧ recoveryPending q = false := by
  have h : ((recoveryChunks 2 [2, 2, 2] samplePool.toPool).toOption.any
      fun q => !recoveryPending q) = true := by decide +kernel
  cases hq : recoveryChunks 2 [2, 2, 2] samplePool.toPool with
  | error t => rw [hq] at h; cases h
  | ok q =>
    rw [hq] at h
    exact ⟨q, rfl, by simpa [Except.toOption] using h⟩

theorem samplePool_eq_eager : ∃ q e, recoveryChunks 2 [2, 2, 2] samplePool.toPool = .ok q ∧
    eagerRecovery samplePool.toPool = .ok e ∧ SameBooks q e := by
  obtain ⟨q, hq, hdone⟩ := samplePool_recovers
  obtain ⟨⟨e, he, hb⟩, _⟩ := chunked_recovery_eq_eager samplePool 2 [2, 2, 2] q hq hdone
  exact ⟨q, e, hq, he, hb⟩

end StshProtocol.ShieldedPool.Recovery
