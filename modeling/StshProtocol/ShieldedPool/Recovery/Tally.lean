import StshProtocol.ShieldedPool.Recovery.Steps

/-! What the cursor's counts say.

`outstanding` is the number of visits a scan still has to make if it removes no
more records. Each visit moves one from there to `scanned`, a removal moves one
more to `removed_visits`, so the three always add up to the snapshotted work
(`Tally`). From this the cursor's `remaining` is `outstanding`, its stored bytes
read back as they were written, and the chunks of a scan, with the cursor encoded
and decoded between them, are one run of the scan (`advance_steps`). -/
namespace StshProtocol.ShieldedPool.Recovery
open Foundation

/-- How often the phases after this one walk the deposits. -/
def laterDepositPasses : Nat → Nat
  | 0 | 1 | 2 => 2
  | 3 => 1
  | _ => 0

/-- How often the phases after this one walk the spends. -/
def laterSpendPasses : Nat → Nat
  | 0 => 3
  | 1 => 2
  | 2 | 3 | 4 => 1
  | _ => 0

/-- The records this phase has before it. -/
def aheadCount (s : ScanState) : Nat :=
  match s.cur.phase with
  | 0 | 3 | 4 => (depositsAhead s).length
  | 1 | 2 | 5 => (spendsAhead s).length
  | _ => 0

/-- The visits still to come, if no more records are removed. -/
def outstanding (s : ScanState) : Nat :=
  aheadCount s + laterDepositPasses s.cur.phase * s.pool.deposits.pending.size
    + laterSpendPasses s.cur.phase * s.pool.spends.pending.size

/-- The snapshotted work. -/
def work (cur : RecoveryCursor) : Nat :=
  (cur.depositsTotal + cur.spendsTotal) * recoveryPassesPerRecord

/-- The counts of a cursor that began with the right totals. -/
structure Tally (s : ScanState) : Prop where
  fits : work s.cur ≤ u64Max
  phase : s.cur.phase ≤ cursorPhaseComplete
  total : s.cur.scanned + s.cur.removedVisits + outstanding s = work s.cur
  indexed : s.cur.expectedDeposits + s.cur.expectedSpends ≤ s.cur.scanned

theorem aheadCount_deposit {s : ScanState} (h : depositPhase s.cur.phase) :
    aheadCount s = (depositsAhead s).length := by
  rcases h with h | h | h <;> simp only [aheadCount, h]

theorem aheadCount_spend {s : ScanState} (h : spendPhase s.cur.phase) :
    aheadCount s = (spendsAhead s).length := by
  rcases h with h | h | h <;> simp only [aheadCount, h]

theorem outstanding_of_complete {s : ScanState} (h : s.cur.phase = 6) : outstanding s = 0 := by
  simp only [outstanding, aheadCount, laterDepositPasses, laterSpendPasses, h, Nat.zero_mul]

theorem nextVisit_none_iff {s : ScanState} (h : s.cur.phase < 6) :
    nextVisit s = none ↔ aheadCount s = 0 := by
  rcases phase_cases h with hd | hsp
  · rw [nextVisit_deposit hd, aheadCount_deposit hd, Option.map_eq_none_iff, List.head?_eq_none_iff,
      List.length_eq_zero_iff]
  · rw [nextVisit_spend hsp, aheadCount_spend hsp, Option.map_eq_none_iff, List.head?_eq_none_iff,
      List.length_eq_zero_iff]

/-- Opening the next phase leaves as much to do. -/
theorem outstanding_nextPhase {s : ScanState} (h : s.cur.phase < 6) (ha : aheadCount s = 0) :
    outstanding (nextPhase s) = outstanding s := by
  have hd : (depositsAhead (nextPhase s)).length = s.pool.deposits.pending.size :=
    Std.ExtTreeMap.length_toList
  have hsp : (spendsAhead (nextPhase s)).length = s.pool.spends.pending.size :=
    Std.ExtTreeMap.length_toList
  have hp : s.cur.phase = 0 ∨ s.cur.phase = 1 ∨ s.cur.phase = 2 ∨ s.cur.phase = 3 ∨
      s.cur.phase = 4 ∨ s.cur.phase = 5 := by omega
  have hph : (nextPhase s).cur.phase = s.cur.phase + 1 := rfl
  have hpool : (nextPhase s).pool = s.pool := rfl
  unfold outstanding
  rw [ha]
  rcases hp with h | h | h | h | h | h <;>
    simp only [aheadCount, hph, hpool, h, hd, hsp, laterDepositPasses, laterSpendPasses] <;> omega

/-- What a visit does to the counts: one more record scanned, one visit fewer
outstanding, and one fewer again for a record it removed. -/
structure VisitCounted (s s' : ScanState) : Prop where
  phase : s'.cur.phase = s.cur.phase
  work : work s'.cur = work s.cur
  scanned : s'.cur.scanned = satAdd64 s.cur.scanned 1
  outstanding : (s'.cur.removedVisits = s.cur.removedVisits ∧
      outstanding s = outstanding s' + 1) ∨
    (s'.cur.removedVisits = satAdd64 s.cur.removedVisits 1 ∧ outstanding s = outstanding s' + 2)
  expected : s'.cur.expectedDeposits + s'.cur.expectedSpends ≤
    s.cur.expectedDeposits + s.cur.expectedSpends + 1

theorem deposit_counted {s s' : ScanState} (hd : depositPhase s.cur.phase)
    {e : Bytes32 × PendingDeposit} {rest : List (Bytes32 × PendingDeposit)}
    (ha : depositsAhead s = e :: rest) (hv : counted (depositVisit s.cur.phase) s e = .ok s') :
    VisitCounted s s' := by
  have hrest : depositsAhead s' = rest :=
    KeyWalk.ahead_visit (W := depositWalk s.cur.phase hd) ha hv
  have hmem : e ∈ depositsAhead s := ha ▸ List.mem_cons_self
  have hkey := (StableMap.mem_entriesAfter.1 hmem).1
  obtain ⟨t, hvt, rfl⟩ := counted_ok hv
  have hvis := depositVisit_visited hd hvt
  have hsize : t.pool.deposits.pending.size = s.pool.deposits.pending.size := by
    rcases hvis.pending with hp | ⟨status, hp⟩
    · rw [hp]
    · rw [hp, StableMap.size_insert_of_get _ hkey]
  refine ⟨hvis.phase_eq, ?_, ?_, .inl ⟨hvis.counts_eq.2.1, ?_⟩, ?_⟩
  · show (t.cur.depositsTotal + t.cur.spendsTotal) * _ = _
    rw [hvis.totals_eq.1, hvis.totals_eq.2, work]
  · show satAdd64 t.cur.scanned 1 = _
    rw [hvis.counts_eq.1]
  · have hphase : (t.count 1).cur.phase = s.cur.phase := hvis.phase_eq
    rw [outstanding, outstanding, aheadCount_deposit hd, aheadCount_deposit (hphase.symm ▸ hd), ha,
      hrest, hphase]
    show _ = rest.length + _ * t.pool.deposits.pending.size + _ * t.pool.spends.pending.size + 1
    rw [hsize, hvis.spends_eq, List.length_cons]
    omega
  · have hexpected := hvis.expected
    show t.cur.expectedDeposits + t.cur.expectedSpends ≤ _
    rw [hvis.counts_eq.2.2]
    omega

theorem spend_counted {s s' : ScanState} (hsp : spendPhase s.cur.phase)
    {e : SpendId × PendingSpend} {rest : List (SpendId × PendingSpend)}
    (ha : spendsAhead s = e :: rest) (hv : counted (spendVisit s.cur.phase) s e = .ok s') :
    VisitCounted s s' := by
  have hrest : spendsAhead s' = rest := KeyWalk.ahead_visit (W := spendWalk s.cur.phase hsp) ha hv
  have hmem : e ∈ spendsAhead s := ha ▸ List.mem_cons_self
  have hkey := (StableMap.mem_entriesAfter.1 hmem).1
  obtain ⟨t, hvt, rfl⟩ := counted_ok hv
  have hvis := spendVisit_visited hsp hkey hvt
  have hphase : (t.count 1).cur.phase = s.cur.phase := hvis.phase_eq
  have hout : outstanding (t.count 1) = rest.length
      + laterDepositPasses s.cur.phase * s.pool.deposits.pending.size
      + laterSpendPasses s.cur.phase * t.pool.spends.pending.size := by
    rw [outstanding, aheadCount_spend (hphase.symm ▸ hsp), hrest, hphase, ← hvis.deposits_eq]
    rfl
  have hout' : outstanding s = rest.length + 1
      + laterDepositPasses s.cur.phase * s.pool.deposits.pending.size
      + laterSpendPasses s.cur.phase * s.pool.spends.pending.size := by
    rw [outstanding, aheadCount_spend hsp, ha, List.length_cons]
  refine ⟨hvis.phase_eq, ?_, ?_, ?_, ?_⟩
  · show (t.cur.depositsTotal + t.cur.spendsTotal) * _ = _
    rw [hvis.totals_eq.1, hvis.totals_eq.2, work]
  · show satAdd64 t.cur.scanned 1 = _
    rw [hvis.counts_eq.1]
  · rcases hvis.pending with ⟨hrem, hp⟩ | ⟨htwo, hrem, hp⟩
    · have hsize : t.pool.spends.pending.size = s.pool.spends.pending.size := by
        rcases hp with hp | ⟨status, hp⟩
        · rw [hp]
        · rw [hp, StableMap.size_insert_of_get _ hkey]
      refine .inl ⟨hrem, ?_⟩
      rw [hout, hout', hsize]
      omega
    · -- Only phase 2 removes, and one pass over the spends comes after it.
      have hsize := StableMap.size_erase_of_get hkey
      refine .inr ⟨hrem, ?_⟩
      rw [hout, hout', hp, htwo, laterSpendPasses, Nat.one_mul, Nat.one_mul]
      omega
  · have hexpected := hvis.expected
    show t.cur.expectedDeposits + t.cur.expectedSpends ≤ _
    rw [hvis.counts_eq.2]
    omega

theorem nextVisit_counted {s s' : ScanState} (hv : nextVisit s = some (.ok s')) :
    s.cur.phase < 6 ∧ VisitCounted s s' := by
  have hlt : s.cur.phase < 6 := by
    rw [← not_isComplete_iff, ← Bool.not_eq_true]
    intro hc
    rw [nextVisit_of_complete hc] at hv
    cases hv
  refine ⟨hlt, ?_⟩
  rcases phase_cases hlt with hd | hsp
  · rw [nextVisit_deposit hd] at hv
    cases ha : depositsAhead s with
    | nil => rw [ha] at hv; cases hv
    | cons e rest =>
      rw [ha] at hv
      exact deposit_counted hd ha (Option.some.inj hv)
  · rw [nextVisit_spend hsp] at hv
    cases ha : spendsAhead s with
    | nil => rw [ha] at hv; cases hv
    | cons e rest =>
      rw [ha] at hv
      exact spend_counted hsp ha (Option.some.inj hv)

/-- No count saturates: what a visit adds was outstanding before. -/
theorem tally_visit {s s' : ScanState} (hv : nextVisit s = some (.ok s')) (ht : Tally s) :
    Tally s' ∧ s'.cur.scanned = s.cur.scanned + 1 := by
  obtain ⟨_, hc⟩ := nextVisit_counted hv
  have htotal := ht.total
  have hfits := ht.fits
  have hindexed := ht.indexed
  have hexpected := hc.expected
  have hscanned : s'.cur.scanned = s.cur.scanned + 1 := by
    rw [hc.scanned, satAdd64_eq]
    rcases hc.outstanding with ⟨_, ho⟩ | ⟨_, ho⟩ <;> omega
  refine ⟨⟨hc.work ▸ ht.fits, hc.phase ▸ ht.phase, ?_, by omega⟩, hscanned⟩
  rw [hc.work]
  rcases hc.outstanding with ⟨hr, ho⟩ | ⟨hr, ho⟩
  · omega
  · rw [satAdd64_eq (by omega)] at hr
    omega

theorem tally_next {s : ScanState} (hc : s.cur.isComplete = false) (hv : nextVisit s = none)
    (ht : Tally s) : Tally (nextPhase s) := by
  have hlt := not_isComplete_iff.1 hc
  refine ⟨ht.fits, ?_, ?_, ht.indexed⟩
  · show s.cur.phase + 1 ≤ 6
    omega
  · rw [outstanding_nextPhase hlt ((nextVisit_none_iff hlt).1 hv)]
    exact ht.total

theorem ScanSteps.tally {n : Nat} {s s' : ScanState} (h : ScanSteps n s s') (ht : Tally s) :
    Tally s' := by
  induction h with
  | refl s => exact ht
  | next hc hv _ ih => exact ih (tally_next hc hv ht)
  | visit hv _ ih => exact ih (tally_visit hv ht).1

/-- The visits made are the visits counted. -/
theorem ScanSteps.scanned {n : Nat} {s s' : ScanState} (h : ScanSteps n s s') (ht : Tally s) :
    s'.cur.scanned = s.cur.scanned + n ∧ work s'.cur = work s.cur := by
  induction h with
  | refl s => exact ⟨rfl, rfl⟩
  | next hc hv _ ih => exact ih (tally_next hc hv ht)
  | @visit n s s₁ s' hv hs ih =>
    obtain ⟨ht', hs'⟩ := tally_visit hv ht
    obtain ⟨hn, hw⟩ := ih ht'
    exact ⟨by omega, hw.trans (nextVisit_counted hv).2.work⟩

/-! ### The cursor in its cell -/

theorem Tally.remaining {s : ScanState} (ht : Tally s) : s.cur.remaining = outstanding s := by
  have htotal := ht.total
  have hfits := ht.fits
  unfold work recoveryPassesPerRecord at htotal hfits
  rw [RecoveryCursor.remaining, satAdd64_eq (by omega), satMul64_eq (by
    unfold recoveryPassesPerRecord; omega)]
  unfold recoveryPassesPerRecord
  omega

theorem Tally.inRange {s : ScanState} (ht : Tally s) : s.cur.InRange := by
  have htotal := ht.total
  have hfits := ht.fits
  have hindexed := ht.indexed
  unfold work recoveryPassesPerRecord at htotal hfits
  exact ⟨ht.phase, by omega, by omega, by omega, by omega, by omega, by omega⟩

theorem Tally.decodes {s : ScanState} (ht : Tally s) : s.cur.decodesConsistently = true := by
  have htotal := ht.total
  have hfits := ht.fits
  have hphase := ht.phase
  have hrem := ht.remaining
  unfold work at htotal hfits
  have hzero : s.cur.phase = 6 → s.cur.remaining = 0 := fun h => by
    rw [hrem, outstanding_of_complete h]
  unfold RecoveryCursor.decodesConsistently
  rw [if_neg (by omega), if_neg, decide_eq_true_eq, satAdd64_eq (by omega), satAdd64_eq, satMul64_eq]
  · omega
  · omega
  · unfold recoveryPassesPerRecord at hfits
    omega
  · intro h
    simp only [Bool.and_eq_true, beq_iff_eq, bne_iff_ne] at h
    exact h.2 (hzero h.1)

/-- What was stored is what is read. -/
theorem Tally.stored {s : ScanState} (ht : Tally s) (p : Pool) :
    recoveryCursor (commitRecoveryCursor p s.cur) = s.cur :=
  RecoveryCursor.fromBytes_toBytes ht.inRange ht.decodes

theorem Tally.not_failClosed {s : ScanState} (ht : Tally s) :
    s.cur.isFailClosedDefault = false := by
  have hfits := ht.fits
  unfold work recoveryPassesPerRecord at hfits
  unfold RecoveryCursor.isFailClosedDefault
  have : s.cur.depositsTotal ≠ u64Max := by
    unfold u64Max at hfits ⊢
    omega
  simp [this]

end StshProtocol.ShieldedPool.Recovery
