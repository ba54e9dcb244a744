import StshProtocol.ShieldedPool.Recovery.Tally

/-! The chunks of a scan, with the cursor encoded into its cell and decoded again
between any two of them.

`startScan p` is the scan of `p` before its first visit. However the chunks are
sized, the state between two of them is a state of that one scan (`Stored`), and
what a chunk does is to visit its next records (`advance_stored`). So the run is
decided by the scan alone: it ends where the scan ends, and it never traps when
the scan has an end and its tallies are those of the index (`advance_progress`). -/
namespace StshProtocol.ShieldedPool.Recovery
open Foundation

def startScan (p : Pool) : ScanState := ⟨firstCursor p, p⟩

/-- A pool between two chunks of a scan that stands at `s`. -/
def Stored (s : ScanState) (p : Pool) : Prop :=
  ∃ q, finishIfComplete s = .ok q ∧ p = commitRecoveryCursor q s.cur

/-- The chunks of a recovery: the first in `post_upgrade`, the others in gated calls. -/
def recoveryChunks (first : Nat) (rest : List Nat) (p : Pool) : Except RecoveryTrap Pool := do
  let p ← runFirstRecoveryChunk first p
  rest.foldlM (fun p chunk => (advanceRecoveryCursorCtx chunk false p).map (·.1)) p

theorem startScan_tally (p : StablePool) : Tally (startScan p.toPool) where
  fits := by
    have := p.fits
    show (p.deposits.pending.size + p.spends.pending.size) * recoveryPassesPerRecord ≤ u64Max
    unfold recoveryPassesPerRecord u64Max
    omega
  phase := Nat.zero_le _
  total := by
    have hd : (depositsAhead (startScan p.toPool)).length = p.deposits.pending.size :=
      Std.ExtTreeMap.length_toList
    show 0 + 0 + ((depositsAhead (startScan p.toPool)).length
      + 2 * p.deposits.pending.size + 3 * p.spends.pending.size) =
      (p.deposits.pending.size + p.spends.pending.size) * 3
    omega
  indexed := Nat.le_refl 0

/-- The final check changes the version cell and the ghost note of what it compared. -/
theorem finishRecoveryBuild_ok {p q : Pool} {cur : RecoveryCursor}
    (h : finishRecoveryBuild p cur = .ok q) :
    (recoveryIndexStamped p = true ∧ q = p) ∨
    (p.deposits.active.size = cur.expectedDeposits ∧ p.spends.active.size = cur.expectedSpends ∧
      q = {p with
        recovery.indexVersion := recoveryIndexVersionCurrent
        recovery.checked := some (p.deposits.active.size, p.spends.active.size)}) := by
  unfold finishRecoveryBuild at h
  split at h
  · rename_i hs
    cases h
    exact .inl ⟨hs, rfl⟩
  · dsimp only at h
    split at h
    · cases h
    · rename_i hc
      cases h
      rw [not_or, not_not, not_not] at hc
      exact .inr ⟨hc.1, hc.2, rfl⟩

theorem finishIfComplete_books {s : ScanState} {q : Pool} (h : finishIfComplete s = .ok q) :
    q = {s.pool with recovery := q.recovery} ∧ q.recovery.visits = s.pool.recovery.visits := by
  unfold finishIfComplete at h
  split at h
  · rcases finishRecoveryBuild_ok h with ⟨_, rfl⟩ | ⟨_, _, rfl⟩ <;> exact ⟨rfl, rfl⟩
  · cases h
    exact ⟨rfl, rfl⟩

theorem Stored.books {s : ScanState} {p : Pool} (h : Stored s p) :
    p = {s.pool with recovery := p.recovery} ∧ p.recovery.visits = s.pool.recovery.visits := by
  obtain ⟨q, hq, rfl⟩ := h
  obtain ⟨hb, hv⟩ := finishIfComplete_books hq
  refine ⟨?_, hv⟩
  conv_lhs => rw [hb]
  rfl

theorem Stored.cursor {s : ScanState} {p : Pool} (ht : Tally s) (h : Stored s p) :
    recoveryCursor p = s.cur := by
  obtain ⟨q, _, rfl⟩ := h
  exact ht.stored q

theorem Stored.pending {s : ScanState} {p : Pool} (ht : Tally s) (h : Stored s p) :
    recoveryPending p = !s.cur.isComplete := by
  rw [recoveryPending, h.cursor ht]

theorem Stored.of_incomplete {s : ScanState} {p : Pool} (hc : s.cur.isComplete = false)
    (h : Stored s p) : p = (s.recell s.cur.toBytes).pool := by
  obtain ⟨q, hq, rfl⟩ := h
  rw [finishIfComplete, if_neg (by rw [hc]; exact Bool.false_ne_true)] at hq
  cases hq
  rfl

theorem finishRecoveryBuild_recell (p : Pool) (cur : RecoveryCursor) (b : Bytes) :
    finishRecoveryBuild {p with recovery.cursor := b} cur =
      (finishRecoveryBuild p cur).map fun q => {q with recovery.cursor := b} := by
  by_cases hs : recoveryIndexStamped p = true
  · rw [finishRecoveryBuild, finishRecoveryBuild, if_pos hs, if_pos (by exact hs)]
    rfl
  · rw [finishRecoveryBuild, finishRecoveryBuild, if_neg hs, if_neg (by exact hs)]
    dsimp only
    split_ifs <;> rfl

theorem finishIfComplete_recell (s : ScanState) (b : Bytes) :
    finishIfComplete (s.recell b) =
      (finishIfComplete s).map fun q => {q with recovery.cursor := b} := by
  unfold finishIfComplete
  by_cases hc : s.cur.isComplete = true
  · rw [if_pos hc, if_pos (by exact hc)]
    exact finishRecoveryBuild_recell s.pool s.cur b
  · rw [if_neg hc, if_neg (by exact hc)]
    rfl

/-- A cursor that was stored is already counted against its totals. -/
theorem Tally.snapshotTotals {s : ScanState} (ht : Tally s) (p : Pool) :
    snapshotTotals p s.cur = s.cur := by
  rw [Recovery.snapshotTotals, ht.not_failClosed]
  rfl

/-- What a chunk does to a pool whose cursor has counted right so far: at most
`chunk` visits, and fewer only when the scan ends there. -/
theorem advance_steps {chunk : Nat} {d : Bool} {s : ScanState} {p p' : Pool} {r : Nat}
    (ht : Tally s) (hs : Stored s p) (h : advanceRecoveryCursorCtx chunk d p = .ok (p', r)) :
    ∃ n s', ScanSteps n s s' ∧ n ≤ chunk ∧ (n = chunk ∨ s'.cur.isComplete = true) ∧
      (s.cur.isComplete = false → s'.cur.isComplete = true → n < chunk) ∧
      Stored s' p' ∧ r = s'.cur.remaining := by
  unfold advanceRecoveryCursorCtx at h
  rw [hs.cursor ht] at h
  cases hc : s.cur.isComplete with
  | true =>
    rw [hc, if_pos rfl] at h
    cases h
    refine ⟨0, s, .refl s, Nat.zero_le _, .inr hc, nofun, hs, ?_⟩
    rw [ht.remaining, outstanding_of_complete]
    exact Nat.le_antisymm ht.phase (isComplete_iff.1 hc)
  | false =>
    rw [hc, if_neg Bool.false_ne_true, ht.snapshotTotals] at h
    obtain rfl := hs.of_incomplete hc
    obtain ⟨t, hloop, h⟩ := bind_ok h
    obtain ⟨q, hfinish, h⟩ := bind_ok h
    cases h
    obtain ⟨n, hsteps, hn, hstop, hspare⟩ :=
      advanceLoop_steps (s := s.recell s.cur.toBytes) ht.inRange.scanned ht.phase hloop
    -- The steps from the stored state are the steps from `s`, its cell put back.
    refine ⟨n, t.recell s.pool.recovery.cursor, hsteps.recell s.pool.recovery.cursor, hn,
      hstop (Nat.le_add_right _ _), fun _ => hspare hc, ⟨{q with recovery.cursor := s.pool.recovery.cursor}, ?_, rfl⟩, rfl⟩
    rw [finishIfComplete_recell, hfinish]
    rfl

/-- A chunk does not trap when the scan has an end that it does not reach, or where the
final check passes. -/
theorem advance_progress {chunk n : Nat} {d : Bool} {s c : ScanState} {p : Pool} (ht : Tally s)
    (hs : Stored s p) (h : ScanSteps n s c) (hc : c.cur.isComplete = true)
    (hfinish : n < chunk → ∃ q, finishIfComplete c = .ok q) : ∃ r, advanceRecoveryCursorCtx chunk d p = .ok r := by
  unfold advanceRecoveryCursorCtx
  rw [hs.cursor ht]
  cases hsc : s.cur.isComplete with
  | true => exact ⟨_, if_pos rfl⟩
  | false =>
    rw [if_neg Bool.false_ne_true, ht.snapshotTotals]
    obtain rfl := hs.of_incomplete hsc
    obtain ⟨t, hloop⟩ : ∃ t, advanceLoop d (chunk + cursorPhaseComplete)
        (s.recell s.cur.toBytes) chunk = .ok t :=
      advanceLoop_progress ht.inRange.scanned (h.recell s.cur.toBytes) hc
    obtain ⟨m, hsteps, _, _, hspare⟩ :=
      advanceLoop_steps (s := s.recell s.cur.toBytes) ht.inRange.scanned ht.phase hloop
    have hfin : ∃ q, finishIfComplete t = .ok q := by
      cases htc : t.cur.isComplete with
      | false => exact ⟨t.pool, if_neg (by rw [htc]; exact Bool.false_ne_true)⟩
      | true =>
        obtain ⟨rfl, rfl⟩ := hsteps.unique (h.recell s.cur.toBytes) htc hc
        obtain ⟨q, hq⟩ := hfinish (hspare hsc htc)
        exact ⟨_, by rw [finishIfComplete_recell, hq]; rfl⟩
    obtain ⟨q, hq⟩ := hfin
    refine ⟨_, bind_of_ok hloop (bind_of_ok (a := q) hq rfl)⟩

theorem startScan_stored (p : Pool) :
    Stored (startScan p) (commitRecoveryCursor p (firstCursor p)) := ⟨p, rfl, rfl⟩

theorem laterChunks_stored {chunks : List Nat} {s : ScanState} {p q : Pool} (ht : Tally s)
    (hs : Stored s p)
    (h : chunks.foldlM (fun p chunk => (advanceRecoveryCursorCtx chunk false p).map (·.1)) p = .ok q) :
    ∃ n s', ScanSteps n s s' ∧ Stored s' q := by
  induction chunks generalizing s p with
  | nil =>
    cases h
    exact ⟨0, s, .refl s, hs⟩
  | cons chunk chunks ih =>
    obtain ⟨p₁, h₁, h⟩ := foldlM_cons_ok h
    obtain ⟨⟨p₁, r⟩, h₁, rfl⟩ := map_ok h₁
    obtain ⟨n, s₁, hsteps, _, _, _, hs₁, _⟩ := advance_steps ht hs h₁
    obtain ⟨m, s', hsteps', hs'⟩ := ih (hsteps.tally ht) hs₁ h
    exact ⟨n + m, s', hsteps.trans hsteps', hs'⟩

/-- However a scan is cut into chunks, it is one scan. -/
theorem recoveryChunks_stored {first : Nat} {rest : List Nat} {p : StablePool} {q : Pool}
    (h : recoveryChunks first rest p.toPool = .ok q) :
    ∃ n s, ScanSteps n (startScan p.toPool) s ∧ Tally s ∧ Stored s q := by
  have ht := startScan_tally p
  obtain ⟨p₁, h₁, h⟩ := bind_ok h
  obtain ⟨⟨p₁, r⟩, h₁, hp⟩ := bind_ok h₁
  cases hp
  obtain ⟨n, s₁, hsteps, _, _, _, hs₁, _⟩ := advance_steps ht (startScan_stored p.toPool) h₁
  obtain ⟨m, s, hsteps', hs⟩ := laterChunks_stored (hsteps.tally ht) hs₁ h
  exact ⟨n + m, s, hsteps.trans hsteps', hsteps'.tally (hsteps.tally ht), hs⟩

end StshProtocol.ShieldedPool.Recovery
