import StshProtocol.Foundation.KeyWalk
import StshProtocol.ShieldedPool.Recovery.Scan

/-! The six phases of the recovery scan as walks by key.

A phase's slice is a slice of its walk: the source collects the records first and
changes them after, and phase 2 reinstates a whole batch of reservations at once,
but each record's work touches no other record, so visiting them one by one comes
to the same (`recoveryScanSlice_deposits`, `recoveryScanSlice_spends`). -/
namespace StshProtocol.ShieldedPool.Recovery
open Foundation

/-- Phase 2 for one record: normalize, then reinstate its reservation. -/
def visitSpendReinstate (s : ScanState) (entry : SpendId × PendingSpend) : ScanState :=
  let (s, reinstate) := visitSpendNormalize (s, []) entry
  {s with pool.spends.inflight := rebuildInflightNullifiers reinstate s.pool.spends.inflight}

/-- The deposit phases are 0, 3 and 4. -/
def depositVisit (phase : Nat) (s : ScanState) (entry : Bytes32 × PendingDeposit) :
    Except RecoveryTrap ScanState :=
  match phase with
  | 0 => visitDepositLease true s entry
  | 3 => visitDepositNormalize s entry
  | _ => .ok (visitDepositIndex s entry)

/-- The spend phases are 1, 2 and 5. -/
def spendVisit (phase : Nat) (s : ScanState) (entry : SpendId × PendingSpend) :
    Except RecoveryTrap ScanState :=
  match phase with
  | 1 => visitSpendLease true s entry
  | 2 => .ok (visitSpendReinstate s entry)
  | _ => visitSpendIndex s entry

/-! ### What a visit does -/

/-- A deposit's visit moves the cursor to it, may count it as indexed, may give it
another status and index it, and touches nothing else. -/
structure DepositVisited (phase : Nat) (s s' : ScanState) (key : Bytes32) (dep : PendingDeposit) :
    Prop where
  cur : s'.cur = {s.cur with
    lastDeposit := some key, expectedDeposits := s'.cur.expectedDeposits}
  pool : s'.pool = {s.pool with
    deposits.pending := s'.pool.deposits.pending
    deposits.active := s'.pool.deposits.active
    recovery.visits := s.pool.recovery.visits ++ [(phase, .deposit key)]}
  expected : s'.cur.expectedDeposits ≤ s.cur.expectedDeposits + 1
  pending : s'.pool.deposits.pending = s.pool.deposits.pending ∨
    ∃ status, s'.pool.deposits.pending = s.pool.deposits.pending.insert key {dep with status}

section
variable {phase : Nat} {s s' : ScanState} {key : Bytes32} {dep : PendingDeposit}

theorem DepositVisited.phase_eq (h : DepositVisited phase s s' key dep) :
    s'.cur.phase = s.cur.phase := by rw [h.cur]

theorem DepositVisited.last_eq (h : DepositVisited phase s s' key dep) :
    s'.cur.lastDeposit = some key := by rw [h.cur]

theorem DepositVisited.totals_eq (h : DepositVisited phase s s' key dep) :
    s'.cur.depositsTotal = s.cur.depositsTotal ∧ s'.cur.spendsTotal = s.cur.spendsTotal :=
  ⟨by rw [h.cur], by rw [h.cur]⟩

theorem DepositVisited.counts_eq (h : DepositVisited phase s s' key dep) :
    s'.cur.scanned = s.cur.scanned ∧ s'.cur.removedVisits = s.cur.removedVisits ∧
      s'.cur.expectedSpends = s.cur.expectedSpends :=
  ⟨by rw [h.cur], by rw [h.cur], by rw [h.cur]⟩

theorem DepositVisited.spends_eq (h : DepositVisited phase s s' key dep) :
    s'.pool.spends = s.pool.spends := by rw [h.pool]

end

theorem visitDepositLease_ok {d : Bool} {s s' : ScanState} {e : Bytes32 × PendingDeposit}
    (h : visitDepositLease d s e = .ok s') :
    depositLeaseCheck (settledLeaseOwner s.pool) d e.1 e.2 = .ok () ∧ s' = sawDeposit s 0 e.1 := by
  unfold visitDepositLease at h
  cases hc : depositLeaseCheck (settledLeaseOwner s.pool) d e.1 e.2 with
  | error t => rw [hc] at h; cases h
  | ok u => rw [hc] at h; cases h; exact ⟨rfl, rfl⟩

theorem visitDepositLease_visited {d : Bool} {s s' : ScanState} {key : Bytes32}
    {dep : PendingDeposit} (h : visitDepositLease d s (key, dep) = .ok s') :
    DepositVisited 0 s s' key dep := by
  obtain ⟨_, rfl⟩ := visitDepositLease_ok h
  exact ⟨rfl, rfl, Nat.le_succ _, .inl rfl⟩

theorem normalizeDeposit_cases {p p' : Pool} {key : Bytes32} {dep : PendingDeposit}
    (h : normalizeDepositRecordForUpgrade p key dep = .ok p') :
    p' = p ∨ p' = setPendingDeposit p key {dep with status := .commitmentAppendUnknown} := by
  unfold normalizeDepositRecordForUpgrade at h
  split at h
  · cases h; exact .inl rfl
  · cases h; exact .inr rfl
  · split at h
    · cases h; exact .inr rfl
    · cases h

theorem visitDepositNormalize_visited {s s' : ScanState} {key : Bytes32} {dep : PendingDeposit}
    (h : visitDepositNormalize s (key, dep) = .ok s') : DepositVisited 3 s s' key dep := by
  simp only [visitDepositNormalize] at h
  split at h
  · rename_i pool hn
    cases h
    rcases normalizeDeposit_cases hn with rfl | rfl
    · exact ⟨rfl, rfl, Nat.le_succ _, .inl rfl⟩
    · exact ⟨rfl, rfl, Nat.le_succ _, .inr ⟨_, rfl⟩⟩
  · cases h

theorem visitDepositIndex_visited (s : ScanState) (key : Bytes32) (dep : PendingDeposit) :
    DepositVisited 4 s (visitDepositIndex s (key, dep)) key dep := by
  simp only [visitDepositIndex]
  split
  · cases dep.depositor with
    | none => exact ⟨rfl, rfl, Nat.le_succ _, .inl rfl⟩
    | some owner => exact ⟨rfl, rfl, Nat.min_le_left _ _, .inl rfl⟩
  · exact ⟨rfl, rfl, Nat.le_succ _, .inl rfl⟩

def depositPhase (phase : Nat) : Prop := phase = 0 ∨ phase = 3 ∨ phase = 4

theorem depositVisit_visited {phase : Nat} (hph : depositPhase phase) {s s' : ScanState}
    {key : Bytes32} {dep : PendingDeposit} (h : depositVisit phase s (key, dep) = .ok s') :
    DepositVisited phase s s' key dep := by
  rcases hph with rfl | rfl | rfl
  · exact visitDepositLease_visited h
  · exact visitDepositNormalize_visited h
  · cases h
    exact visitDepositIndex_visited s key dep

/-- A spend's visit moves the cursor to it, may count it as indexed or removed, may
give it another status, remove it, index it or reinstate its reservation, and
touches nothing else. -/
structure SpendVisited (phase : Nat) (s s' : ScanState) (id : SpendId) (spend : PendingSpend) :
    Prop where
  cur : s'.cur = {s.cur with
    lastSpend := some id
    expectedSpends := s'.cur.expectedSpends
    removedVisits := s'.cur.removedVisits}
  pool : s'.pool = {s.pool with
    spends.pending := s'.pool.spends.pending
    spends.active := s'.pool.spends.active
    spends.inflight := s'.pool.spends.inflight
    recovery.visits := s.pool.recovery.visits ++ [(phase, .spend id)]}
  expected : s'.cur.expectedSpends ≤ s.cur.expectedSpends + 1
  pending : (s'.cur.removedVisits = s.cur.removedVisits ∧
      (s'.pool.spends.pending = s.pool.spends.pending ∨
        ∃ status, s'.pool.spends.pending = s.pool.spends.pending.insert id {spend with status})) ∨
    (phase = 2 ∧ s'.cur.removedVisits = satAdd64 s.cur.removedVisits 1 ∧
      s'.pool.spends.pending = s.pool.spends.pending.erase id)

section
variable {phase : Nat} {s s' : ScanState} {id : SpendId} {spend : PendingSpend}

theorem SpendVisited.phase_eq (h : SpendVisited phase s s' id spend) :
    s'.cur.phase = s.cur.phase := by rw [h.cur]

theorem SpendVisited.last_eq (h : SpendVisited phase s s' id spend) :
    s'.cur.lastSpend = some id := by rw [h.cur]

theorem SpendVisited.totals_eq (h : SpendVisited phase s s' id spend) :
    s'.cur.depositsTotal = s.cur.depositsTotal ∧ s'.cur.spendsTotal = s.cur.spendsTotal :=
  ⟨by rw [h.cur], by rw [h.cur]⟩

theorem SpendVisited.counts_eq (h : SpendVisited phase s s' id spend) :
    s'.cur.scanned = s.cur.scanned ∧ s'.cur.expectedDeposits = s.cur.expectedDeposits :=
  ⟨by rw [h.cur], by rw [h.cur]⟩

theorem SpendVisited.deposits_eq (h : SpendVisited phase s s' id spend) :
    s'.pool.deposits = s.pool.deposits := by rw [h.pool]

end

theorem visitSpendLease_ok {d : Bool} {s s' : ScanState} {e : SpendId × PendingSpend}
    (h : visitSpendLease d s e = .ok s') :
    spendLeaseCheck (settledLeaseOwner s.pool) d e.1 e.2 = .ok () ∧ s' = sawSpend s 1 e.1 := by
  unfold visitSpendLease at h
  cases hc : spendLeaseCheck (settledLeaseOwner s.pool) d e.1 e.2 with
  | error t => rw [hc] at h; cases h
  | ok u => rw [hc] at h; cases h; exact ⟨rfl, rfl⟩

theorem visitSpendLease_visited {d : Bool} {s s' : ScanState} {id : SpendId} {spend : PendingSpend}
    (h : visitSpendLease d s (id, spend) = .ok s') : SpendVisited 1 s s' id spend := by
  obtain ⟨_, rfl⟩ := visitSpendLease_ok h
  exact ⟨rfl, rfl, Nat.le_succ _, .inl ⟨rfl, .inl rfl⟩⟩

theorem visitSpendIndex_visited {s s' : ScanState} {id : SpendId} {spend : PendingSpend}
    (h : visitSpendIndex s (id, spend) = .ok s') : SpendVisited 5 s s' id spend := by
  simp only [visitSpendIndex] at h
  split at h
  · cases hs : spend.submitter with
    | none => rw [hs] at h; cases h
    | some owner => rw [hs] at h; cases h; exact ⟨rfl, rfl, Nat.min_le_left _ _, .inl ⟨rfl, .inl rfl⟩⟩
  · cases h
    exact ⟨rfl, rfl, Nat.le_succ _, .inl ⟨rfl, .inl rfl⟩⟩

theorem visitSpendIndex_pending {s s' : ScanState} {e : SpendId × PendingSpend}
    (h : spendVisit 5 s e = .ok s') : s'.pool.spends.pending = s.pool.spends.pending := by
  simp only [spendVisit, visitSpendIndex] at h
  split at h
  · cases hs : e.2.submitter with
    | none => rw [hs] at h; cases h
    | some owner => rw [hs] at h; cases h; rfl
  · cases h
    rfl

/-- The record as normalization leaves it. -/
def normalizedSpend (p : Pool) (id : SpendId) (spend : PendingSpend) : PendingSpend :=
  {spend with status := normalizedSpendStatus spend.status (hasExpectedIndex p id)}

/-- Normalization leaves a record alone, removes and deindexes it, or overwrites it. -/
theorem normalizeSpend_cases (p : Pool) (id : SpendId) (spend : PendingSpend) :
    (classifySpendStatusForUpgrade spend.status = .preserve ∧
      normalizeSpendRecordForUpgrade p id spend = (p, normalizedSpend p id spend)) ∨
    (classifySpendStatusForUpgrade spend.status = .removeRecord ∧
      normalizeSpendRecordForUpgrade p id spend =
        (deindexSpendRecord {p with spends.pending := p.spends.pending.erase id} spend,
          normalizedSpend p id spend)) ∨
    (classifySpendStatusForUpgrade spend.status ≠ .removeRecord ∧
      normalizeSpendRecordForUpgrade p id spend =
        (setPendingSpend p id (normalizedSpend p id spend), normalizedSpend p id spend)) := by
  unfold normalizeSpendRecordForUpgrade
  cases hc : classifySpendStatusForUpgrade spend.status with
  | preserve => exact .inl ⟨rfl, rfl⟩
  | removeRecord => exact .inr (.inl ⟨rfl, rfl⟩)
  | normalizeToNullifierInsertUnknown => exact .inr (.inr ⟨nofun, rfl⟩)
  | resolveActiveAppendInFlightByIndex => exact .inr (.inr ⟨nofun, rfl⟩)

theorem deindexSpendRecord_eq (p : Pool) (spend : PendingSpend) :
    deindexSpendRecord p spend =
      {p with spends.active := (deindexSpendRecord p spend).spends.active} := by
  unfold deindexSpendRecord
  cases spend.submitter <;> rfl

theorem visitSpendReinstate_visited {s : ScanState} {id : SpendId} {spend : PendingSpend}
    (hs : s.pool.spends.pending[id]? = some spend) :
    SpendVisited 2 s (visitSpendReinstate s (id, spend)) id spend := by
  simp only [visitSpendReinstate, visitSpendNormalize]
  rcases normalizeSpend_cases s.pool id spend with ⟨_, hn⟩ | ⟨_, hn⟩ | ⟨_, hn⟩
  · simp only [hn, hs, Option.isNone_some]
    exact ⟨rfl, rfl, Nat.le_succ _, .inl ⟨rfl, .inl rfl⟩⟩
  · simp only [hn]
    rw [deindexSpendRecord_eq]
    simp only [StableMap.get_erase, if_true, Option.isNone_none]
    exact ⟨rfl, rfl, Nat.le_succ _, .inr ⟨rfl, rfl, rfl⟩⟩
  · simp only [hn, setPendingSpend, StableMap.get_insert, if_true, Option.isNone_some]
    exact ⟨rfl, rfl, Nat.le_succ _, .inl ⟨rfl, .inr ⟨_, rfl⟩⟩⟩

def spendPhase (phase : Nat) : Prop := phase = 1 ∨ phase = 2 ∨ phase = 5

theorem spendVisit_visited {phase : Nat} (hph : spendPhase phase) {s s' : ScanState} {id : SpendId}
    {spend : PendingSpend} (hs : s.pool.spends.pending[id]? = some spend)
    (h : spendVisit phase s (id, spend) = .ok s') : SpendVisited phase s s' id spend := by
  rcases hph with rfl | rfl | rfl
  · exact visitSpendLease_visited h
  · cases h
    exact visitSpendReinstate_visited hs
  · exact visitSpendIndex_visited h

end StshProtocol.ShieldedPool.Recovery
