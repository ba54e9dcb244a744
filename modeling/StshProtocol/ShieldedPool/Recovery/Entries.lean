import StshProtocol.ShieldedPool.Recovery.Gate

/-! The entry points that ask the gate.

Twelve of them refuse by an error: the message commits, and with it the chunk it has spent on the
scan, a thousand visits. `prune_terminal_records` refuses by a trap, which takes its chunk back:
however often it is called it does not bring the recovery on. So it is the others that open the
pool, after as many refusals as there are chunks of visits left. -/
namespace StshProtocol.ShieldedPool.Recovery
open Foundation

inductive GatedEntry where
  | shieldDeposit
  | retryDepositCommitment
  | settleDepositTransfer
  | reconcileDepositCommitment
  | reconcileDepositAppendUnknown
  | reconcileDepositTransferNotExecuted
  | privateSpend
  | reconcileNullifierInsert
  | reconcilePendingSpend
  | withdraw
  | retryPrivateSpendPayout
  | reconcilePrivateSpendPayout
  | pruneTerminalRecords
  deriving DecidableEq, Repr

/-- What an entry point looks at besides the gate: the caller, the pauses, and the caps of a
request to prune. -/
structure EntryCall where
  anonymous : Bool
  operator : Bool
  mayReadPayout : Bool
  depositsPaused : Bool
  spendsPaused : Bool
  maxRecords : Nat
  maxScanRecords : Nat
  deriving DecidableEq, Repr

inductive EntryTrap where
  | onlyController
  | maxRecordsExceeded
  | maxScanRecordsExceeded
  | scan (t : RecoveryTrap)
  | scanInProgress (message : String)
  deriving DecidableEq, Repr

inductive EntryError where
  | pool (e : PoolError)
  | settlement (e : PoolError)
  | payoutOutcomePrivate
  deriving DecidableEq, Repr

/-- How a call comes through its guards and the gate. -/
inductive Entered where
  | guarded (e : EntryError)
  | trapped (t : EntryTrap)
  | refused (p : Pool) (e : EntryError)
  | passed (p : Pool)

namespace Entered

/-- The pool a message leaves that goes no further; a trap takes everything back. -/
def commit (p : Pool) : Entered → Pool
  | .guarded _ | .trapped _ => p
  | .refused p' _ | .passed p' => p'

/-- The call is refused because the recovery goes on. -/
def byRecovery : Entered → Bool
  | .refused _ _ | .trapped (.scanInProgress _) => true
  | _ => false

end Entered

/-! ### The guards -/

def maxPruneRecordsPerCall : Nat := 1_000

def maxLegacyScanRecordsPerCall : Nat := 10_000

/-- `recovery_gate()?`. -/
def gateOrError (wrap : PoolError → EntryError) (p : Pool) : Entered :=
  match recoveryGate p with
  | .error t => .trapped (.scan t)
  | .ok (p', .error e) => .refused p' (wrap e)
  | .ok (p', .ok ()) => .passed p'

def pruneRefusal (remaining : Nat) : String :=
  "prune_terminal_records: post-upgrade recovery scan in progress (~" ++ toString remaining ++
    " records remaining). This call ADVANCED the scan by one chunk before refusing, so retrying makes progress and the count falls. Pruning is refused until the scan completes."

/-- The gate of `prune_terminal_records_inner`, which answers no error. -/
def gateOrTrap (p : Pool) : Entered :=
  if recoveryPending p then
    match advanceRecoveryCursorCtx upgradeScanChunk false p with
    | .error t => .trapped (.scan t)
    | .ok (p', remaining) =>
      if 0 < remaining then .trapped (.scanInProgress (pruneRefusal remaining)) else .passed p'
  else .passed p

def assertOperatorController (c : EntryCall) (next : Entered) : Entered :=
  if c.operator then next else .trapped .onlyController

def rejectAnonymous (c : EntryCall) (next : Entered) : Entered :=
  if c.anonymous then .guarded (.pool .anonymousCaller) else next

def rejectPaused (paused : Bool) (wrap : PoolError → EntryError) (next : Entered) : Entered :=
  if paused then .guarded (wrap .paused) else next

/-- A retry's outcome is told to those who may read it. -/
def payoutAnswer (c : EntryCall) (e : PoolError) : EntryError :=
  if c.mayReadPayout then .pool e else .payoutOutcomePrivate

/-- An entry point, from its first guard to the gate. -/
def GatedEntry.enter (c : EntryCall) (p : Pool) : GatedEntry → Entered
  | .shieldDeposit =>
    rejectAnonymous c (rejectPaused c.depositsPaused .pool (gateOrError .pool p))
  | .retryDepositCommitment => rejectPaused c.depositsPaused .pool (gateOrError .pool p)
  | .settleDepositTransfer =>
    rejectPaused c.depositsPaused .settlement (gateOrError .settlement p)
  | .privateSpend => rejectAnonymous c (rejectPaused c.spendsPaused .pool (gateOrError .pool p))
  | .withdraw => gateOrError .pool p
  | .retryPrivateSpendPayout =>
    rejectPaused c.spendsPaused (payoutAnswer c) (gateOrError (payoutAnswer c) p)
  | .reconcileDepositCommitment | .reconcileDepositAppendUnknown
  | .reconcileDepositTransferNotExecuted | .reconcileNullifierInsert | .reconcilePendingSpend
  | .reconcilePrivateSpendPayout => assertOperatorController c (gateOrError .pool p)
  | .pruneTerminalRecords =>
    assertOperatorController c
      (if maxPruneRecordsPerCall < c.maxRecords then .trapped .maxRecordsExceeded
      else if maxLegacyScanRecordsPerCall < c.maxScanRecords then .trapped .maxScanRecordsExceeded
      else gateOrTrap p)

/-- How many calls of these are refused because the recovery goes on. -/
def refusals : List (GatedEntry × EntryCall) → Pool → Nat
  | [], _ => 0
  | (e, c) :: calls, p =>
    refusals calls ((e.enter c p).commit p) + (e.enter c p).byRecovery.toNat

/-! ### What a refusal leaves -/

/-- The recovery has come on by a chunk, or by what was left. -/
structure Advanced (q q' : Pool) : Prop where
  scanned : (recoveryCursor q').scanned =
    (recoveryCursor q).scanned + min (recoveryCursor q).remaining upgradeScanChunk
  visited : q'.recovery.visits.length =
    q.recovery.visits.length + min (recoveryCursor q).remaining upgradeScanChunk
  remaining : (recoveryCursor q').remaining + min (recoveryCursor q).remaining upgradeScanChunk ≤
    (recoveryCursor q).remaining

/-- The recovery has come as far as some scan. -/
def Scanning (q : Pool) : Prop := ∃ s, Tally s ∧ Stored s q

section
variable {p : UnbuiltPool} {q q' : Pool} {s s' : ScanState} {n : Nat}

theorem Scanning.remaining (ht : Tally s) (hs : Stored s q) :
    (recoveryCursor q).remaining = outstanding s := by
  rw [hs.cursor ht, ht.remaining]

/-- A visit leaves at least one fewer outstanding. -/
theorem ScanSteps.outstanding_le (h : ScanSteps n s s') : outstanding s' + n ≤ outstanding s := by
  induction h with
  | refl s => exact Nat.le_refl _
  | next hc hv _ ih =>
    have hlt := not_isComplete_iff.1 hc
    rwa [outstanding_nextPhase hlt ((nextVisit_none_iff hlt).1 hv)] at ih
  | visit hv _ ih =>
    rcases (nextVisit_counted hv).2.outstanding with ⟨-, ho⟩ | ⟨-, ho⟩ <;> omega

/-- What the gate does to a recovery that goes on: it takes it no further back, and where it refuses,
a chunk further on. -/
theorem recoveryGate_advances (ht : Tally s) (hs : Stored s q) {r : Except PoolError Unit}
    (h : recoveryGate q = .ok (q', r)) :
    Scanning q' ∧ (recoveryCursor q').remaining ≤ (recoveryCursor q).remaining ∧
      (r ≠ .ok () → Advanced q q' ∧ upgradeScanChunk ≤ (recoveryCursor q).remaining) := by
  cases hc : s.cur.isComplete with
  | true =>
    have hpending : recoveryPending q = false := by
      rw [hs.pending ht, hc]
      rfl
    cases (recoveryGate_complete hpending).symm.trans h
    exact ⟨⟨s, ht, hs⟩, Nat.le_refl _, fun hne => absurd rfl hne⟩
  | false =>
    obtain ⟨n, s', hsteps, hstop, -, hs', hr⟩ := recoveryGate_steps ht hs hc h
    have ht' := hsteps.tally ht
    have hle := hsteps.outstanding_le
    refine ⟨⟨s', ht', hs'⟩, ?_, fun hne => ?_⟩
    · rw [Scanning.remaining ht hs, Scanning.remaining ht' hs']
      omega
    · have hout : outstanding s' ≠ 0 := fun hz => hne (hr.2 hz)
      have hn : n = upgradeScanChunk := hstop.resolve_right fun hcomplete =>
        hout (outstanding_of_complete (Nat.le_antisymm ht'.phase (isComplete_iff.1 hcomplete)))
      subst hn
      have hmin : min (recoveryCursor q).remaining upgradeScanChunk = upgradeScanChunk := by
        rw [Scanning.remaining ht hs]
        exact Nat.min_eq_right (by omega)
      refine ⟨⟨?_, ?_, ?_⟩, ?_⟩
      · rw [hmin, hs.cursor ht, hs'.cursor ht', (hsteps.scanned ht).1]
      · rw [hmin, hs.books.2, hs'.books.2, hsteps.cells.1]
      · rw [hmin, Scanning.remaining ht hs, Scanning.remaining ht' hs']
        exact hle
      · rw [Scanning.remaining ht hs]
        omega

/-- Behind a gate that has not opened the recovery goes on. -/
theorem GateRun.scanning (h : GateRun p false q) : Scanning q := by
  generalize hflag : false = opened at h
  induction h with
  | upgrade h =>
    obtain ⟨⟨q, r⟩, hadvance, hq⟩ := bind_ok h
    cases hq
    have ht := startScan_tally p.toStablePool
    obtain ⟨n, s, hsteps, -, -, -, hs, -⟩ := advance_steps ht (startScan_stored p.toPool) hadvance
    exact ⟨s, hsteps.tally ht, hs⟩
  | refused _ hgate ih =>
    obtain ⟨s, ht, hs⟩ := ih hflag
    exact (recoveryGate_advances ht hs hgate).1
  | opens => exact nomatch hflag
  | operation => exact nomatch hflag

/-- A request to prune asks the same gate, and traps where the others answer the error. -/
theorem gateOrTrap_cases (q : Pool) :
    (∃ q', recoveryGate q = .ok (q', .ok ()) ∧ gateOrTrap q = .passed q') ∨
    (∃ q' e m, recoveryGate q = .ok (q', .error e) ∧ gateOrTrap q = .trapped (.scanInProgress m)) ∨
    ∃ t, gateOrTrap q = .trapped (.scan t) := by
  unfold recoveryGate gateOrTrap
  cases hpending : recoveryPending q with
  | false => exact .inl ⟨q, rfl, rfl⟩
  | true =>
    cases hadvance : advanceRecoveryCursorCtx upgradeScanChunk false q with
    | error t => exact .inr (.inr ⟨t, rfl⟩)
    | ok r =>
      obtain ⟨q', remaining⟩ := r
      by_cases hzero : remaining = 0
      · subst hzero
        exact .inl ⟨q', rfl, rfl⟩
      · refine .inr (.inl ⟨q', recoveryInProgress remaining, pruneRefusal remaining, ?_, ?_⟩)
        · show (if remaining = 0 then _ else _) = _
          rw [if_neg hzero]
          rfl
        · show (if 0 < remaining then _ else _) = _
          rw [if_pos (Nat.pos_of_ne_zero hzero)]

/-- How a call of an entry point comes through: stopped by a guard of its own or a trap of the
scan, or by the gate. -/
inductive GatedEntry.Comes (e : GatedEntry) (q : Pool) (o : Entered) : Prop
  | held : o.commit q = q → o.byRecovery = false → Comes e q o
  | passed {q' : Pool} : recoveryGate q = .ok (q', .ok ()) → o = .passed q' → Comes e q o
  | refused {q' : Pool} {err : PoolError} {e' : EntryError} : e ≠ .pruneTerminalRecords →
      recoveryGate q = .ok (q', .error err) → o = .refused q' e' → Comes e q o
  | trapped {q' : Pool} {err : PoolError} {m : String} : e = .pruneTerminalRecords →
      recoveryGate q = .ok (q', .error err) → o = .trapped (.scanInProgress m) → Comes e q o

theorem gateOrError_comes {e : GatedEntry} (he : e ≠ .pruneTerminalRecords)
    (wrap : PoolError → EntryError) : e.Comes q (gateOrError wrap q) := by
  cases h : recoveryGate q with
  | error t =>
    have heq : gateOrError wrap q = .trapped (.scan t) := by
      rw [gateOrError, h]
    rw [heq]
    exact .held rfl rfl
  | ok r =>
    obtain ⟨q', err | _⟩ := r
    · exact .refused he h (by rw [gateOrError, h])
    · exact .passed h (by rw [gateOrError, h])

theorem gateOrTrap_comes : GatedEntry.Comes .pruneTerminalRecords q (gateOrTrap q) := by
  rcases gateOrTrap_cases q with ⟨q', hgate, heq⟩ | ⟨q', err, m, hgate, heq⟩ | ⟨t, heq⟩
  · exact .passed hgate heq
  · exact .trapped rfl hgate heq
  · rw [heq]
    exact .held rfl rfl

/-- A guard that stops the call leaves the pool alone. -/
theorem GatedEntry.Comes.guard {e : GatedEntry} {stops : Bool} {o next : Entered}
    (hnext : e.Comes q next) (hcommit : o.commit q = q) (hby : o.byRecovery = false) :
    e.Comes q (if stops then o else next) := by
  cases stops with
  | true => exact .held hcommit hby
  | false => exact hnext

theorem enter_comes (e : GatedEntry) (c : EntryCall) (q : Pool) : e.Comes q (e.enter c q) := by
  have hpaused : ∀ {e : GatedEntry} {next : Entered} (paused : Bool) (wrap : PoolError → EntryError),
      e.Comes q next → e.Comes q (rejectPaused paused wrap next) :=
    fun _ _ hnext => hnext.guard rfl rfl
  have hanonymous : ∀ {e : GatedEntry} {next : Entered},
      e.Comes q next → e.Comes q (rejectAnonymous c next) := fun hnext => hnext.guard rfl rfl
  have hoperator : ∀ {e : GatedEntry} {next : Entered},
      e.Comes q next → e.Comes q (assertOperatorController c next) := fun {e next} hnext => by
    unfold assertOperatorController
    cases c.operator with
    | true => exact hnext
    | false => exact .held rfl rfl
  cases e with
  | shieldDeposit => exact hanonymous (hpaused _ _ (gateOrError_comes (by decide) _))
  | retryDepositCommitment => exact hpaused _ _ (gateOrError_comes (by decide) _)
  | settleDepositTransfer => exact hpaused _ _ (gateOrError_comes (by decide) _)
  | privateSpend => exact hanonymous (hpaused _ _ (gateOrError_comes (by decide) _))
  | withdraw => exact gateOrError_comes (by decide) _
  | retryPrivateSpendPayout => exact hpaused _ _ (gateOrError_comes (by decide) _)
  | reconcileDepositCommitment => exact hoperator (gateOrError_comes (by decide) _)
  | reconcileDepositAppendUnknown => exact hoperator (gateOrError_comes (by decide) _)
  | reconcileDepositTransferNotExecuted => exact hoperator (gateOrError_comes (by decide) _)
  | reconcileNullifierInsert => exact hoperator (gateOrError_comes (by decide) _)
  | reconcilePendingSpend => exact hoperator (gateOrError_comes (by decide) _)
  | reconcilePrivateSpendPayout => exact hoperator (gateOrError_comes (by decide) _)
  | pruneTerminalRecords =>
    refine hoperator ?_
    by_cases hrecords : maxPruneRecordsPerCall < c.maxRecords
    · rw [if_pos hrecords]
      exact .held rfl rfl
    · by_cases hscan : maxLegacyScanRecordsPerCall < c.maxScanRecords
      · rw [if_neg hrecords, if_pos hscan]
        exact .held rfl rfl
      · rw [if_neg hrecords, if_neg hscan]
        exact gateOrTrap_comes

/-! ### The refusals of a recovery -/

/-- A call leaves the recovery as it found it, or brings it on by a chunk or to its end. -/
theorem enter_scanning (e : GatedEntry) (c : EntryCall) (h : Scanning q) :
    Scanning ((e.enter c q).commit q) ∧
      (recoveryCursor ((e.enter c q).commit q)).remaining + upgradeScanChunk *
        (e.enter c q).byRecovery.toNat ≤ (recoveryCursor q).remaining +
          if e = .pruneTerminalRecords then upgradeScanChunk else 0 := by
  obtain ⟨s, ht, hs⟩ := id h
  cases enter_comes e c q with
  | held hcommit hby =>
    rw [hcommit, hby]
    exact ⟨h, Nat.le_add_right _ _⟩
  | passed hgate heq =>
    obtain ⟨hscan, hle, -⟩ := recoveryGate_advances ht hs hgate
    rw [heq]
    exact ⟨hscan, Nat.le_trans hle (Nat.le_add_right _ _)⟩
  | refused he hgate heq =>
    obtain ⟨hscan, -, hne⟩ := recoveryGate_advances ht hs hgate
    obtain ⟨hadv, hchunk⟩ := hne nofun
    have hrem := hadv.remaining
    rw [Nat.min_eq_right hchunk] at hrem
    rw [heq, if_neg he]
    exact ⟨hscan, hrem⟩
  | trapped he hgate heq =>
    rw [heq, if_pos he]
    exact ⟨h, Nat.le_refl _⟩

/-- Each refusal costs a chunk of what remains, but those of requests to prune. -/
theorem refusals_chunks (calls : List (GatedEntry × EntryCall)) (h : Scanning q) :
    upgradeScanChunk * refusals calls q ≤ (recoveryCursor q).remaining +
      upgradeScanChunk * calls.countP (fun x => x.1 = .pruneTerminalRecords) := by
  induction calls generalizing q with
  | nil => exact Nat.zero_le _
  | cons call calls ih =>
    obtain ⟨e, c⟩ := call
    obtain ⟨hscan, hle⟩ := enter_scanning e c h
    have hrest := ih hscan
    rw [List.countP_cons, refusals, Nat.mul_add, Nat.mul_add]
    by_cases he : e = .pruneTerminalRecords
    · rw [if_pos he] at hle
      rw [if_pos (decide_eq_true he)]
      omega
    · rw [if_neg he] at hle
      rw [if_neg (by rw [decide_eq_true_eq]; exact he)]
      omega

/-- A refused call brings the recovery on, unless it asks to prune. -/
theorem refused_advances {e : GatedEntry} {c : EntryCall} (h : Scanning q)
    (hby : (e.enter c q).byRecovery = true) :
    Advanced q ((e.enter c q).commit q) ↔ e ≠ .pruneTerminalRecords := by
  obtain ⟨s, ht, hs⟩ := id h
  cases enter_comes e c q with
  | held _ hnot => exact absurd (hnot.symm.trans hby) Bool.false_ne_true
  | passed _ heq => rw [heq] at hby; cases hby
  | refused he hgate heq =>
    obtain ⟨-, -, hne⟩ := recoveryGate_advances ht hs hgate
    rw [heq]
    exact iff_of_true (hne nofun).1 he
  | trapped he hgate heq =>
    obtain ⟨-, -, hne⟩ := recoveryGate_advances ht hs hgate
    rw [heq]
    refine iff_of_false (fun hadv => ?_) (fun hno => hno he)
    have hscanned := hadv.scanned
    rw [Nat.min_eq_right (hne nofun).2] at hscanned
    change (recoveryCursor q).scanned = (recoveryCursor q).scanned + 1000 at hscanned
    omega

/-- A request to prune is refused as often as it is made. -/
theorem prune_refused {c : EntryCall}
    (hby : (GatedEntry.enter c q .pruneTerminalRecords).byRecovery = true) (n : Nat) :
    refusals (List.replicate n (.pruneTerminalRecords, c)) q = n := by
  have hcommit : (GatedEntry.enter c q .pruneTerminalRecords).commit q = q := by
    cases enter_comes .pruneTerminalRecords c q with
    | held hcommit _ => exact hcommit
    | passed _ heq => rw [heq] at hby; cases hby
    | refused he => exact absurd rfl he
    | trapped _ _ heq => rw [heq]; rfl
  induction n with
  | zero => rfl
  | succ n ih => rw [List.replicate_succ, refusals, hcommit, ih, hby]; rfl

end

/-- Until the gate opens, the refusals that bring the recovery on are those of every entry point
but `prune_terminal_records`. -/
theorem refusals_advance (p : UnbuiltPool) {q : Pool} (run : GateRun p false q) :
    (∀ (e : GatedEntry) (c : EntryCall), (e.enter c q).byRecovery = true →
      (Advanced q ((e.enter c q).commit q) ↔ e ≠ .pruneTerminalRecords)) ∧
    (∀ calls : List (GatedEntry × EntryCall), refusals calls q ≤
      ((recoveryCursor q).remaining + upgradeScanChunk - 1) / upgradeScanChunk +
        calls.countP (fun x => x.1 = .pruneTerminalRecords)) ∧
    (∀ (c : EntryCall) (n : Nat),
      (GatedEntry.enter c q .pruneTerminalRecords).byRecovery = true →
        refusals (List.replicate n (.pruneTerminalRecords, c)) q = n) ∧
    ∀ (e : GatedEntry) (c : EntryCall) (t : EntryTrap), e.enter c q = .trapped t →
      (e.enter c q).commit q = q := by
  have hscan := run.scanning
  refine ⟨fun e c hby => refused_advances hscan hby, fun calls => ?_,
    fun c n hby => prune_refused hby n, fun e c t heq => by rw [heq]; rfl⟩
  have hle := refusals_chunks calls hscan
  unfold upgradeScanChunk at hle ⊢
  omega

theorem depositsOnly_recordVisits (deposits : StableMap Bytes32 PendingDeposit)
    (h : deposits.size ≤ 2 ^ 40) : recordVisits (depositsOnly deposits h).toPool = 3 * deposits.size :=
  rfl

/-- The controller's request to prune. -/
def pruneCall : EntryCall where
  anonymous := false
  operator := true
  mayReadPayout := true
  depositsPaused := false
  spendsPaused := false
  maxRecords := 1
  maxScanRecords := 1

/-- The crowded pool after its upgrade has two thousand visits to make. -/
theorem crowdedPool_halfway :
    ∃ q, GateRun crowdedPool false q ∧
      (GatedEntry.enter pruneCall q .pruneTerminalRecords).byRecovery = true ∧
        (GatedEntry.enter pruneCall q .shieldDeposit).byRecovery = true := by
  have hends : EndsOnChunk crowdedPool.toPool :=
    depositsOnly_endsOnChunk crowdedDeposits_get (by rw [crowdedDeposits_size]; decide)
      (by rw [crowdedDeposits_size]; decide)
  obtain ⟨n, c, hend, hcc⟩ := (scan_ends_iff crowdedPool.toPool).2 hends.1
  have hn : n = 3 * 1000 := by
    rw [hend.visits_eq hcc, crowdedPool, depositsOnly_recordVisits, crowdedDeposits_size]
  obtain ⟨q, s, hadvance, hall, hc, hs⟩ := chunk_spent (d := true) (k := 0) hend hcc (.refl _) rfl
    (startScan_stored crowdedPool.toPool) (by rw [hn]; decide)
  obtain ⟨q', s', hadvance', hall', hc', hs'⟩ :=
    chunk_spent (d := false) hend hcc hall hc hs (by rw [hn]; decide)
  have ht := hall.tally (startScan_tally crowdedPool.toStablePool)
  have ht' := hall'.tally (startScan_tally crowdedPool.toStablePool)
  have hpending : recoveryPending q = true := by
    rw [hs.pending ht, hc]
    rfl
  have hne : s'.cur.remaining ≠ 0 := fun hz => by
    rw [ht'.remaining] at hz
    obtain ⟨c', hclose, hcc'⟩ := ends_of_outstanding ht'.phase hz
    have hvisits := (hall'.trans hclose).visits_eq hcc'
    rw [← hend.visits_eq hcc, hn] at hvisits
    exact absurd hvisits (by decide)
  refine ⟨q, .upgrade (bind_of_ok hadvance rfl), ?_, ?_⟩
  · show (gateOrTrap q).byRecovery = true
    rw [gateOrTrap, hpending, hadvance']
    show (if 0 < s'.cur.remaining then _ else _ : Entered).byRecovery = true
    rw [if_pos (Nat.pos_of_ne_zero hne)]
    rfl
  · show (gateOrError .pool q).byRecovery = true
    have hgate : recoveryGate q = .ok (q', .error (recoveryInProgress s'.cur.remaining)) := by
      unfold recoveryGate
      rw [hpending]
      refine bind_of_ok hadvance' ?_
      show (if s'.cur.remaining = 0 then _ else _) = _
      rw [if_neg hne]
      rfl
    rw [gateOrError, hgate]
    rfl

theorem refusals_advance_crowded :
    ∃ q, GateRun crowdedPool false q ∧
      Advanced q ((GatedEntry.enter pruneCall q .shieldDeposit).commit q) := by
  obtain ⟨q, run, -, hby⟩ := crowdedPool_halfway
  exact ⟨q, run, ((refusals_advance crowdedPool run).1 _ _ hby).2 (by decide)⟩

/-- Refused a request to prune, the crowded pool is where it was. -/
theorem refused_prune_stuck :
    ¬ ∀ (p : UnbuiltPool) (q : Pool) (e : GatedEntry) (c : EntryCall), GateRun p false q →
      (e.enter c q).byRecovery = true → Advanced q ((e.enter c q).commit q) := by
  intro h
  obtain ⟨q, run, hby, -⟩ := crowdedPool_halfway
  exact (refused_advances run.scanning hby).1 (h crowdedPool q _ pruneCall run hby) rfl

end StshProtocol.ShieldedPool.Recovery
