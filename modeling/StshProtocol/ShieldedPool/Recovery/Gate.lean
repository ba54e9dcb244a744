import StshProtocol.ShieldedPool.Recovery.Clean

/-! When the recovery gate opens.

`recovery_gate` opens on `remaining == 0`, a count of visits; the recovery is
finished when the cursor's phase says so. The two come apart when a chunk spends its
last unit of budget on the scan's last visit: nothing remains, and the phase is still
5. Then the gate opens on an index that is neither checked nor stamped, and what it
admits can change the index the final check will compare with the old tallies.

That happens exactly for the pools whose scan ends and makes a multiple of
`UPGRADE_SCAN_CHUNK` visits, at least two chunks of them
(`gate_opens_recovered_iff`): of a single full chunk, spent in `post_upgrade`, the
next gated call only finishes the phase. -/
namespace StshProtocol.ShieldedPool.Recovery
open Foundation

/-- A pool whose recovery index was never built. -/
structure UnbuiltPool extends StablePool where
  unbuilt : recovery.indexVersion = 0

/-- Every spend whose nullifiers are claimed and not yet registered has them reserved. -/
def ReservedProtected (p : Pool) : Prop :=
  ∀ (id : SpendId) (spend : PendingSpend), p.spends.pending[id]? = some spend →
    reservesNullifiers spend.status = true →
      ∀ nf ∈ spend.nullifiers, nf ∈ p.spends.inflight

/-- What an operation behind the gate may do: anything that leaves the recovery cells
alone and takes no reservation from a spend it protects. -/
structure Admitted (p p' : Pool) : Prop where
  cells : p'.recovery = p.recovery
  reserved : ReservedProtected p → ReservedProtected p'

/-- The pools of a run after the upgrade of `p`; the flag says that the gate has
opened. A call that traps leaves the pool as it was, so it is no step of the run.
An operation may take several messages, and later ones do not ask the gate again. -/
inductive GateRun (p : UnbuiltPool) : Bool → Pool → Prop
  | upgrade {q : Pool} : runFirstRecoveryChunk upgradeScanChunk p.toPool = .ok q → GateRun p false q
  | refused {opened : Bool} {q q' : Pool} {e : PoolError} : GateRun p opened q →
      recoveryGate q = .ok (q', .error e) → GateRun p opened q'
  | opens {opened : Bool} {q q' : Pool} : GateRun p opened q → recoveryGate q = .ok (q', .ok ()) →
      GateRun p true q'
  | operation {q q' : Pool} : GateRun p true q → Admitted q q' → GateRun p true q'

/-- What a finished and verified recovery leaves. -/
structure Finished (p : UnbuiltPool) (q : Pool) : Prop where
  complete : recoveryPending q = false
  visited : q.recovery.visits = p.recovery.visits ++ scanPasses p.toPool
  reserved : ReservedProtected q
  stamped : q.recovery.indexVersion = recoveryIndexVersionCurrent
  checked : q.recovery.checked =
    some ((recoveryCursor q).expectedDeposits, (recoveryCursor q).expectedSpends)

/-- What an open gate promises: a finished recovery, and that nothing it admits makes a
later call trap. -/
structure GateOpened (p : UnbuiltPool) (q : Pool) : Prop extends Finished p q where
  lasting : ∀ q', Admitted q q' → ∀ trap, recoveryGate q' ≠ .error trap

/-! ### A completed scan -/

theorem reserves_not_terminal {status : SpendStatus} (h : reservesNullifiers status = true) :
    isTerminalSpendStatus status = false := by
  cases status <;> first | rfl | cases h

theorem mem_rebuildInflight {spends : List PendingSpend} {set : StableSet Bytes32} {nf : Bytes32} :
    nf ∈ rebuildInflightNullifiers spends set ↔
      nf ∈ set ∨ ∃ spend ∈ spends, reservesNullifiers spend.status = true ∧ nf ∈ spend.nullifiers := by
  induction spends generalizing set with
  | nil => simp [rebuildInflightNullifiers]
  | cons spend spends ih =>
    rw [rebuildInflightNullifiers, List.foldl_cons, ← rebuildInflightNullifiers, ih]
    simp only [List.mem_cons, exists_eq_or_imp, ← or_assoc]
    refine or_congr_left ?_
    by_cases hr : reservesNullifiers spend.status = true
    · rw [reserves_not_terminal hr, if_neg Bool.false_ne_true, if_pos hr,
        StableMap.mem_foldl_insert, or_comm]
      simp only [hr, true_and]
    · rw [if_neg hr, ite_self]
      simp only [hr, false_and, or_false, Bool.false_eq_true]

/-- The caller's copy of a normalized spend is the record that remains. -/
theorem normalizeSpend_copy {p : Pool} {id : SpendId} {spend spend' : PendingSpend}
    (hspend : p.spends.pending[id]? = some spend)
    (h : (normalizeSpendRecordForUpgrade p id spend).1.spends.pending[id]? = some spend') :
    spend' = (normalizeSpendRecordForUpgrade p id spend).2 := by
  rcases normalizeSpend_cases p id spend with ⟨hc, hn⟩ | ⟨_, hn⟩ | ⟨_, hn⟩ <;> rw [hn] at h ⊢
  · cases h.symm.trans hspend
    rw [normalizedSpend, normalizedSpendStatus_of_preserve _ hc]
  · rw [deindexSpendRecord_eq] at h
    cases h.symm.trans Std.ExtTreeMap.getElem?_erase_self
  · exact Option.some.inj (h.symm.trans Std.ExtTreeMap.getElem?_insert_self)

/-- Phase 2 leaves every spend it has seen protected. -/
theorem spendWalk2_reserved {s t : ScanState} (hd : PhaseDone spendWalk2 s t)
    (hs : s.cur.lastSpend = none) : ReservedProtected t.pool := by
  -- The invariant speaks of the records the walk has passed.
  have hinv := KeyWalk.walk_induction (W := spendWalk2) (P := fun s =>
    ∀ (id : SpendId) (spend : PendingSpend), s.pool.spends.pending[id]? = some spend →
      (∀ e ∈ spendWalk2.ahead s, e.1 ≠ id) → reservesNullifiers spend.status = true →
        ∀ nf ∈ spend.nullifiers, nf ∈ s.pool.spends.inflight) ?_ hd.walked ?_
  · intro id spend hspend hres nf hnf
    refine hinv id spend hspend (fun e he => ?_) hres nf hnf
    rw [KeyWalk.ahead_walk hd.walked] at he
    cases he
  · rintro s s' ⟨id₀, spend₀⟩ rest ha hv hinv id spend hspend hpassed hres nf hnf
    have hkey := StableMap.get_of_ahead ha
    rw [KeyWalk.ahead_visit ha hv] at hpassed
    obtain ⟨r, hr, rfl⟩ := spendWalk_visit hv
    cases hr
    show nf ∈ rebuildInflightNullifiers [(normalizeSpendRecordForUpgrade s.pool id₀ spend₀).2]
      (normalizeSpendRecordForUpgrade s.pool id₀ spend₀).1.spends.inflight
    rw [mem_rebuildInflight, normalizeSpend_keeps_inflight]
    by_cases hid : id₀ = id
    · subst hid
      obtain rfl := normalizeSpend_copy hkey hspend
      exact .inr ⟨_, List.mem_singleton_self _, hres, hnf⟩
    · refine .inl (hinv id spend ?_ ?_ hres nf hnf)
      · rw [← hspend]
        exact (spendWalk2.own hkey hv id (Ne.symm hid)).symm
      · intro e he
        rw [ha] at he
        rcases List.mem_cons.1 he with rfl | he
        · exact hid
        · exact hpassed e he
  · intro id spend hspend hpassed
    have hmem : (id, spend) ∈ s.pool.spends.pending.entriesAfter s.cur.lastSpend := by
      rw [hs]
      exact StableMap.mem_toList.2 hspend
    exact absurd rfl (hpassed (id, spend) hmem)

theorem recoveryGate_complete {q : Pool} (h : recoveryPending q = false) :
    recoveryGate q = .ok (q, .ok ()) := by
  unfold recoveryGate
  rw [h]
  rfl

theorem Finished.admitted {p : UnbuiltPool} {q q' : Pool} (h : Finished p q) (ha : Admitted q q') :
    Finished p q' where
  complete := by
    rw [recoveryPending, recoveryCursor, ha.cells]
    exact h.complete
  visited := ha.cells ▸ h.visited
  reserved := ha.reserved h.reserved
  stamped := ha.cells ▸ h.stamped
  checked := by
    rw [recoveryCursor, ha.cells]
    exact h.checked

/-- A finished recovery keeps what an open gate promises. -/
theorem Finished.opened {p : UnbuiltPool} {q : Pool} (h : Finished p q) : GateOpened p q where
  toFinished := h
  lasting q' ha trap := by
    rw [recoveryGate_complete (h.admitted ha).complete]
    nofun

theorem WholeScan.reserved {p : Pool} {t₀ t₁ t₂ t₃ t₄ t₅ : ScanState}
    (h : WholeScan (startScan p) t₀ t₁ t₂ t₃ t₄ t₅) : ReservedProtected t₅.pool := by
  have hr := spendWalk2_reserved h.phase₂ rfl
  have s₃ := depositWalk_spends h.phase₃
  have s₄ := depositWalk_spends h.phase₄
  have hpending := spendWalk_pending (by decide) h.phase₅
  have hinflight := h.phase₅.same (g := fun s => s.pool.spends.inflight) fun _ hv => by
    obtain ⟨r, hr, rfl⟩ := spendWalk_visit hv
    rw [visitSpendIndex_row hr]
    split <;> rfl
  rw [nextPhase_pool] at s₃ s₄ hpending hinflight
  unfold ReservedProtected at hr ⊢
  rw [hpending, hinflight, s₄, s₃]
  exact hr

/-- A run of chunks that completed the cursor has finished and verified the recovery. -/
theorem Stored.finished {p : UnbuiltPool} {n : Nat} {s : ScanState} {q : Pool}
    (h : ScanSteps n (startScan p.toPool) s) (hq : Stored s q) (hc : s.cur.isComplete = true) :
    Finished p q := by
  have ht := h.tally (startScan_tally p.toStablePool)
  obtain ⟨hbooks, hvisits⟩ := hq.books
  obtain ⟨t₀, t₁, t₂, t₃, t₄, t₅, hwhole, rfl⟩ := h.whole rfl hc
  have hversion : t₅.pool.recovery.indexVersion = 0 := h.cells.2.trans p.unbuilt
  obtain ⟨q₀, hfinish, hq₀⟩ := id hq
  rw [finishIfComplete, if_pos hc] at hfinish
  rcases finishRecoveryBuild_ok hfinish with ⟨hstamped, _⟩ | ⟨hd, hs, rfl⟩
  · rw [recoveryIndexStamped, nextPhase_pool, hversion] at hstamped
    cases hstamped
  · refine ⟨?_, ?_, ?_, ?_, ?_⟩
    · rw [hq.pending ht, hc]
      rfl
    · rw [hvisits]
      exact (hwhole.visits rfl).1
    · have hr := hwhole.reserved
      unfold ReservedProtected at hr ⊢
      rw [hbooks]
      exact hr
    · rw [hq₀]
      rfl
    · rw [hq.cursor ht, hq₀, ← hd, ← hs]
      rfl

/-! ### The runs -/

/-- With no visit outstanding the scan only has phases to close. -/
theorem ends_of_outstanding {s : ScanState} (hph : s.cur.phase ≤ 6) (h : outstanding s = 0) :
    ∃ c, ScanSteps 0 s c ∧ c.cur.isComplete = true := by
  induction hk : 6 - s.cur.phase generalizing s with
  | zero => exact ⟨s, .refl s, isComplete_iff.2 (by omega)⟩
  | succ k ih =>
    have hlt : s.cur.phase < 6 := by omega
    have ha : aheadCount s = 0 := by
      unfold outstanding at h
      omega
    obtain ⟨c, hsteps, hc⟩ := ih (s := nextPhase s) (by show s.cur.phase + 1 ≤ 6; omega)
      (by rw [outstanding_nextPhase hlt ha, h]) (by show 6 - (s.cur.phase + 1) = k; omega)
    exact ⟨c, .next (not_isComplete_iff.2 hlt) ((nextVisit_none_iff hlt).2 ha) hsteps, hc⟩

/-- With no visit to make none is outstanding. -/
theorem outstanding_of_ends {s c : ScanState} (h : ScanSteps 0 s c) (hph : s.cur.phase ≤ 6)
    (hc : c.cur.isComplete = true) : outstanding s = 0 := by
  generalize hn : 0 = n at h
  induction h with
  | refl s => exact outstanding_of_complete (Nat.le_antisymm hph (isComplete_iff.1 hc))
  | next hs hv _ ih =>
    have hlt := not_isComplete_iff.1 hs
    rw [← outstanding_nextPhase hlt ((nextVisit_none_iff hlt).1 hv)]
    exact ih (Nat.succ_le_of_lt hlt) hc hn
  | visit => cases hn

/-- A gated call on an unfinished recovery is one chunk of its scan, and it opens the
gate when no visit is outstanding. -/
theorem recoveryGate_steps {s : ScanState} {q q' : Pool} {r : Except PoolError Unit} (ht : Tally s)
    (hs : Stored s q) (hc : s.cur.isComplete = false) (h : recoveryGate q = .ok (q', r)) :
    ∃ n s', ScanSteps n s s' ∧ (n = upgradeScanChunk ∨ s'.cur.isComplete = true) ∧
      (s'.cur.isComplete = true → n < upgradeScanChunk) ∧ Stored s' q' ∧
        (r = .ok () ↔ outstanding s' = 0) := by
  have hpending : recoveryPending q = true := by
    rw [hs.pending ht, hc]
    rfl
  unfold recoveryGate at h
  rw [hpending] at h
  obtain ⟨⟨q₁, remaining⟩, hadvance, h⟩ := bind_ok h
  obtain ⟨n, s', hsteps, _, hstop, hspare, hs', rfl⟩ := advance_steps ht hs hadvance
  have hrem := (hsteps.tally ht).remaining
  simp only [hrem] at h
  refine ⟨n, s', hsteps, hstop, hspare hc, ?_⟩
  split at h
  · rename_i hzero
    cases h
    exact ⟨hs', fun _ => hzero, fun _ => rfl⟩
  · rename_i hzero
    cases h
    exact ⟨hs', nofun, fun hz => absurd hz hzero⟩

/-- The pools whose scan ends on the last unit of a later chunk's budget. -/
def EndsOnChunk (p : Pool) : Prop :=
  ScanClean p ∧ 2 * upgradeScanChunk ≤ recordVisits p ∧ recordVisits p % upgradeScanChunk = 0

/-- The recovery of `p` is under way: whole chunks were spent on it. -/
def UnderWay (p : UnbuiltPool) (q : Pool) : Prop :=
  ∃ k s, 1 ≤ k ∧ ScanSteps (upgradeScanChunk * k) (startScan p.toPool) s ∧
    s.cur.isComplete = false ∧ Stored s q

/-- A chunk takes the recovery a whole chunk further, or finishes it. -/
theorem chunk_underWay {p : UnbuiltPool} {k n : Nat} {s s' : ScanState} {q : Pool}
    (h : ScanSteps (upgradeScanChunk * k) (startScan p.toPool) s) (h' : ScanSteps n s s')
    (hstop : n = upgradeScanChunk ∨ s'.cur.isComplete = true) (hs' : Stored s' q) :
    Finished p q ∨ (s'.cur.isComplete = false ∧ n = upgradeScanChunk ∧
      ScanSteps (upgradeScanChunk * (k + 1)) (startScan p.toPool) s') := by
  have hsteps := h.trans h'
  cases hc : s'.cur.isComplete with
  | true => exact .inl (hs'.finished hsteps hc)
  | false =>
    have hn : n = upgradeScanChunk := hstop.resolve_right (by rw [hc]; exact Bool.false_ne_true)
    exact .inr ⟨rfl, hn, by rw [Nat.mul_succ, ← hn]; exact hn ▸ hsteps⟩

/-- No gated call opens the gate on an unfinished recovery, unless its scan ends on the
last unit of the call's budget. -/
theorem gate_opens_finished {p : UnbuiltPool} (hp : ¬ EndsOnChunk p.toPool) {q q' : Pool}
    (hq : UnderWay p q) (h : recoveryGate q = .ok (q', .ok ())) : Finished p q' := by
  obtain ⟨k, s, hk, hsteps, hc, hs⟩ := hq
  have ht := hsteps.tally (startScan_tally p.toStablePool)
  obtain ⟨n, s', hsteps', hstop, _, hs', hr⟩ := recoveryGate_steps ht hs hc h
  rcases chunk_underWay hsteps hsteps' hstop hs' with hfin | ⟨_, hn, hall⟩
  · exact hfin
  · exfalso
    have ht' := hall.tally (startScan_tally p.toStablePool)
    obtain ⟨c, hend, hcc⟩ := ends_of_outstanding ht'.phase (hr.1 rfl)
    have hvisits : upgradeScanChunk * (k + 1) = recordVisits p.toPool :=
      (hall.trans hend).visits_eq hcc
    refine hp ⟨(scan_ends_iff p.toPool).1 ⟨_, c, hall.trans hend, hcc⟩, ?_, ?_⟩
    · rw [← hvisits, Nat.mul_comm]
      exact Nat.mul_le_mul_left _ (by omega)
    · rw [← hvisits, Nat.mul_mod_right]

/-- Every pool of a run has finished its recovery, or is under way to it behind a gate
that never opened. -/
theorem GateRun.finished_or {p : UnbuiltPool} (hp : ¬ EndsOnChunk p.toPool) {opened : Bool} {q : Pool}
    (h : GateRun p opened q) : Finished p q ∨ (opened = false ∧ UnderWay p q) := by
  induction h with
  | upgrade h =>
    obtain ⟨⟨q, r⟩, hadvance, hq⟩ := bind_ok h
    cases hq
    obtain ⟨n, s, hsteps, _, hstop, _, hs, _⟩ :=
      advance_steps (startScan_tally p.toStablePool) (startScan_stored p.toPool) hadvance
    rcases chunk_underWay (k := 0) (.refl _) hsteps hstop hs with hfin | ⟨hc, _, hall⟩
    · exact .inl hfin
    · exact .inr ⟨rfl, 1, s, Nat.le_refl 1, hall, hc, hs⟩
  | refused _ hgate ih =>
    rcases ih with hfin | ⟨hclosed, k, s, hk, hsteps, hc, hs⟩
    · rw [recoveryGate_complete hfin.complete] at hgate
      cases hgate
    · obtain ⟨n, s', hsteps', hstop, _, hs', _⟩ :=
        recoveryGate_steps (hsteps.tally (startScan_tally p.toStablePool)) hs hc hgate
      rcases chunk_underWay hsteps hsteps' hstop hs' with hfin | ⟨hc', _, hall⟩
      · exact .inl hfin
      · exact .inr ⟨hclosed, k + 1, s', by omega, hall, hc', hs'⟩
  | opens _ hgate ih =>
    rcases ih with hfin | ⟨_, hway⟩
    · rw [recoveryGate_complete hfin.complete] at hgate
      cases hgate
      exact .inl hfin
    · exact .inl (gate_opens_finished hp hway hgate)
  | operation _ ha ih =>
    rcases ih with hfin | ⟨hclosed, _⟩
    · exact .inl (hfin.admitted ha)
    · cases hclosed

section
variable {p : UnbuiltPool} {w : Nat} {c s : ScanState} {q : Pool} {k : Nat}

/-- A chunk that the scan's end lies beyond, or at the last unit of, is spent whole. -/
theorem chunk_spent {d : Bool} (hend : ScanSteps w (startScan p.toPool) c)
    (hcc : c.cur.isComplete = true) (hsteps : ScanSteps (upgradeScanChunk * k) (startScan p.toPool) s)
    (hc : s.cur.isComplete = false) (hs : Stored s q) (hk : upgradeScanChunk * (k + 1) ≤ w) :
    ∃ q' s', advanceRecoveryCursorCtx upgradeScanChunk d q = .ok (q', s'.cur.remaining) ∧
      ScanSteps (upgradeScanChunk * (k + 1)) (startScan p.toPool) s' ∧
        s'.cur.isComplete = false ∧ Stored s' q' := by
  have ht := hsteps.tally (startScan_tally p.toStablePool)
  obtain ⟨m, hrest, hm⟩ := hsteps.suffix hend hcc (.inl hc)
  rw [Nat.mul_succ] at hk
  obtain ⟨⟨q', r⟩, hadvance⟩ : ∃ r, advanceRecoveryCursorCtx upgradeScanChunk d q = .ok r :=
    advance_progress ht hs hrest hcc fun hlt => by omega
  obtain ⟨n, s', hsteps', _, hstop, hspare, hs', rfl⟩ := advance_steps ht hs hadvance
  have hc' : s'.cur.isComplete = false := by
    rw [← Bool.not_eq_true]
    intro hcomplete
    obtain ⟨_, rfl⟩ := hsteps'.unique hrest hcomplete hcc
    have hlt := hspare hc hcomplete
    omega
  have hn : n = upgradeScanChunk := hstop.resolve_right (by rw [hc']; exact Bool.false_ne_true)
  refine ⟨q', s', hadvance, ?_, hc', hs'⟩
  rw [Nat.mul_succ]
  exact hsteps.trans (hn ▸ hsteps')

/-- From chunk to chunk up to the last, some gated call opens the gate too early. -/
theorem gate_opens_on_the_way {j : Nat}
    (hend : ScanSteps (upgradeScanChunk * (k + 1 + j)) (startScan p.toPool) c)
    (hcc : c.cur.isComplete = true) (hsteps : ScanSteps (upgradeScanChunk * k) (startScan p.toPool) s)
    (hc : s.cur.isComplete = false) (hs : Stored s q) (hrun : GateRun p false q) :
    ∃ q q', GateRun p false q ∧ recoveryGate q = .ok (q', .ok ()) ∧ recoveryPending q' = true := by
  induction j generalizing k s q with
  | zero =>
    obtain ⟨q', s', hadvance, hall, hc', hs'⟩ :=
      chunk_spent (d := false) hend hcc hsteps hc hs (Nat.le_refl _)
    have ht' := hall.tally (startScan_tally p.toStablePool)
    obtain ⟨m, hlast, hm⟩ := hall.suffix hend hcc (.inl hc')
    obtain rfl : m = 0 := by
      rw [Nat.add_zero] at hm
      omega
    have hzero : s'.cur.remaining = 0 := by
      rw [ht'.remaining, outstanding_of_ends hlast ht'.phase hcc]
    have hpending : recoveryPending q = true := by
      rw [hs.pending (hsteps.tally (startScan_tally p.toStablePool)), hc]
      rfl
    refine ⟨q, q', hrun, ?_, by rw [hs'.pending ht', hc']; rfl⟩
    rw [hzero] at hadvance
    unfold recoveryGate
    rw [hpending]
    exact bind_of_ok hadvance rfl
  | succ j ih =>
    obtain ⟨q', s', hadvance, hall, hc', hs'⟩ :=
      chunk_spent (d := false) hend hcc hsteps hc hs (Nat.mul_le_mul_left _ (by omega))
    have ht' := hall.tally (startScan_tally p.toStablePool)
    have hpending : recoveryPending q = true := by
      rw [hs.pending (hsteps.tally (startScan_tally p.toStablePool)), hc]
      rfl
    have hgate : recoveryGate q = if s'.cur.remaining = 0 then .ok (q', .ok ())
        else .ok (q', .error (recoveryInProgress s'.cur.remaining)) := by
      unfold recoveryGate
      rw [hpending, hadvance]
      rfl
    split at hgate
    · exact ⟨q, q', hrun, hgate, by rw [hs'.pending ht', hc']; rfl⟩
    · refine ih ?_ hall hc' hs' (hrun.refused hgate)
      rwa [show k + 1 + 1 + j = k + 1 + (j + 1) from by omega]

end

/-- Where the scan ends on a chunk's last unit, the gate opens on a phase that is not
closed. -/
theorem gate_opens_unfinished {p : UnbuiltPool} (hp : EndsOnChunk p.toPool) :
    ∃ q q', GateRun p false q ∧ recoveryGate q = .ok (q', .ok ()) ∧ recoveryPending q' = true := by
  obtain ⟨hclean, htwo, hmod⟩ := hp
  obtain ⟨n, c, hend, hcc⟩ := (scan_ends_iff p.toPool).2 hclean
  obtain ⟨j, hj⟩ := Nat.dvd_of_mod_eq_zero hmod
  have hn : n = upgradeScanChunk * j := (hend.visits_eq hcc).trans hj
  have htwo' : 2 ≤ j := by
    rw [hj, Nat.mul_comm] at htwo
    exact Nat.le_of_mul_le_mul_left htwo (by decide)
  obtain ⟨i, rfl⟩ := Nat.exists_eq_add_of_le htwo'
  subst hn
  obtain ⟨q, s, hadvance, hall, hc, hs⟩ := chunk_spent (d := true) (k := 0) hend hcc (.refl _) rfl
    (startScan_stored p.toPool) (Nat.mul_le_mul_left _ (by omega))
  exact gate_opens_on_the_way (k := 1) hend hcc hall hc hs (.upgrade (bind_of_ok hadvance rfl))

/-- The gate keeps its promise in every run exactly when the scan does not end on a
later chunk's last unit of budget. -/
theorem gate_opens_recovered_iff (p : UnbuiltPool) :
    (∀ opened q q', GateRun p opened q → recoveryGate q = .ok (q', .ok ()) → GateOpened p q') ↔
      ¬ EndsOnChunk p.toPool := by
  constructor
  · intro h hp
    obtain ⟨q, q', hrun, hgate, hpending⟩ := gate_opens_unfinished hp
    have hcomplete := (h false q q' hrun hgate).complete
    rw [hpending] at hcomplete
    cases hcomplete
  · intro hp opened q q' hrun hgate
    have hrun' := GateRun.opens hrun hgate
    rcases hrun'.finished_or hp with hfin | ⟨hclosed, _⟩
    · exact hfin.opened
    · cases hclosed

/-! ### A pool of a thousand deposits -/

/-- A pool with nothing but deposits, just after an upgrade. -/
def depositsOnly (deposits : StableMap Bytes32 PendingDeposit) (h : deposits.size ≤ 2 ^ 40) :
    UnbuiltPool where
  deposits := ⟨deposits, ∅, ∅, ∅, ∅⟩
  spends := ⟨∅, ∅, ∅, ∅, ∅, ∅⟩
  lease := ⟨0, none⟩
  roots := ⟨∅, none⟩
  recovery := ⟨[], 0, [], none⟩
  fits := h
  unbuilt := rfl

/-- Deposits that wait for their transfer make a clean scan, of three visits each. -/
theorem depositsOnly_endsOnChunk {deposits : StableMap Bytes32 PendingDeposit}
    {h : deposits.size ≤ 2 ^ 40}
    (hdep : ∀ (key : Bytes32) (dep : PendingDeposit), deposits[key]? = some dep → dep = sampleDeposit)
    (hsize : 2 * upgradeScanChunk ≤ 3 * deposits.size)
    (hchunk : 3 * deposits.size % upgradeScanChunk = 0) :
    EndsOnChunk (depositsOnly deposits h).toPool := by
  refine ⟨⟨fun key dep hget => ?_, fun id spend hget => ?_, fun id spend hget => ?_⟩, hsize, hchunk⟩
  · rw [hdep key dep hget]
    rfl
  · simp [depositsOnly] at hget
  · simp [depositsOnly] at hget

def crowdedKeys : List Bytes32 := (List.range 1000).map (BitVec.ofNat 256)

def crowdedDeposits : StableMap Bytes32 PendingDeposit :=
  crowdedKeys.foldl (fun m key => m.insert key sampleDeposit) ∅

theorem crowdedDeposits_size : crowdedDeposits.size = 1000 := by
  have hnodup : crowdedKeys.Nodup := by
    refine List.pairwise_map.2 (List.nodup_range.imp_of_mem fun {a b} ha hb hne heq => hne ?_)
    rw [List.mem_range] at ha hb
    have htoNat := congrArg BitVec.toNat heq
    rwa [BitVec.toNat_ofNat, BitVec.toNat_ofNat, Nat.mod_eq_of_lt (by omega),
      Nat.mod_eq_of_lt (by omega)] at htoNat
  rw [crowdedDeposits, StableMap.size_foldl_insert sampleDeposit hnodup (by simp), crowdedKeys,
    List.length_map, List.length_range]

theorem crowdedDeposits_get (key : Bytes32) (dep : PendingDeposit)
    (h : crowdedDeposits[key]? = some dep) : dep = sampleDeposit := by
  rcases StableMap.get_foldl_insert h with hdep | hnone
  · exact hdep
  · simp at hnone

theorem crowdedDeposits_fit : crowdedDeposits.size ≤ 2 ^ 40 := by
  rw [crowdedDeposits_size]
  decide

/-- A pool with a thousand deposits to recover, three thousand visits. -/
def crowdedPool : UnbuiltPool := depositsOnly crowdedDeposits crowdedDeposits_fit

/-- With a thousand deposits the gate opens before the recovery is finished. -/
theorem crowdedPool_gate_unfinished :
    ¬ ∀ opened q q', GateRun crowdedPool opened q → recoveryGate q = .ok (q', .ok ()) →
      GateOpened crowdedPool q' := by
  intro h
  have hends : EndsOnChunk crowdedPool.toPool :=
    depositsOnly_endsOnChunk crowdedDeposits_get (by rw [crowdedDeposits_size]; decide)
      (by rw [crowdedDeposits_size]; decide)
  obtain ⟨q, q', hrun, hgate, hpending⟩ := gate_opens_unfinished hends
  have hcomplete := (h false q q' hrun hgate).complete
  rw [hpending] at hcomplete
  cases hcomplete

end StshProtocol.ShieldedPool.Recovery
