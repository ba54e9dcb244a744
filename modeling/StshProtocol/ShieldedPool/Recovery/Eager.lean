import StshProtocol.ShieldedPool.Recovery.Chunks

/-! The recovery in one pass over the maps, and the scan against it.

`eagerRecovery` has no cursor, no budget and no cell: it checks every deposit and
every spend against the lease, normalizes the spends and rebuilds the reservations
from all of them, normalizes the deposits and indexes both maps. A scan that ends
is the six walks one after the other (`ScanSteps.whole`), and each walk does to
the books what the eager pass does (`wholeScan_eager`). -/
namespace StshProtocol.ShieldedPool.Recovery
open Foundation

/-! ### The eager pass -/

def eagerDepositLease (p : Pool) (entry : Bytes32 × PendingDeposit) : Except RecoveryTrap Pool := do
  depositLeaseCheck (settledLeaseOwner p) true entry.1 entry.2
  return p

def eagerSpendLease (p : Pool) (entry : SpendId × PendingSpend) : Except RecoveryTrap Pool := do
  spendLeaseCheck (settledLeaseOwner p) true entry.1 entry.2
  return p

/-- Normalize a spend and keep it for the rebuild. -/
def eagerSpendNormalize (acc : Pool × List PendingSpend) (entry : SpendId × PendingSpend) :
    Pool × List PendingSpend :=
  let (p, spend) := normalizeSpendRecordForUpgrade acc.1 entry.1 entry.2
  (p, acc.2 ++ [spend])

def eagerDepositNormalize (p : Pool) (entry : Bytes32 × PendingDeposit) : Except RecoveryTrap Pool :=
  normalizeDepositRecordForUpgrade p entry.1 entry.2

def eagerDepositIndex (p : Pool) (entry : Bytes32 × PendingDeposit) : Pool :=
  if depositRecoveryRequired entry.2.status then
    match entry.2.depositor with
    | some owner => insertActiveDepositIndex p owner entry.1
    | none => p
  else p

def eagerSpendIndex (p : Pool) (entry : SpendId × PendingSpend) : Except RecoveryTrap Pool :=
  if spendRecoveryRequired entry.2.status then
    match entry.2.submitter with
    | some owner => .ok (insertActiveSpendIndex p owner entry.1)
    | none => .error (.spendWithoutSubmitter entry.1)
  else .ok p

/-- All spends normalized, then all reservations rebuilt. -/
def eagerNormalizeSpends (p : Pool) : Pool :=
  let (p, normalized) := p.spends.pending.toList.foldl eagerSpendNormalize (p, [])
  {p with spends.inflight := rebuildInflightNullifiers normalized p.spends.inflight}

def eagerRecovery (p : Pool) : Except RecoveryTrap Pool := do
  let p ← p.deposits.pending.toList.foldlM eagerDepositLease p
  let p ← p.spends.pending.toList.foldlM eagerSpendLease p
  let p := eagerNormalizeSpends p
  let p ← p.deposits.pending.toList.foldlM eagerDepositNormalize p
  let p := p.deposits.pending.toList.foldl eagerDepositIndex p
  p.spends.pending.toList.foldlM eagerSpendIndex p

/-- The same pool but for the recovery cells. -/
def SameBooks (q p : Pool) : Prop := ∃ cells, q = {p with recovery := cells}

theorem SameBooks.refl (p : Pool) : SameBooks p p := ⟨p.recovery, rfl⟩

theorem SameBooks.of_eq {q p : Pool} (h : q = {p with recovery := q.recovery}) : SameBooks q p :=
  ⟨q.recovery, h⟩

theorem SameBooks.deposits {q p : Pool} (h : SameBooks q p) : q.deposits = p.deposits := by
  obtain ⟨cells, rfl⟩ := h
  rfl

theorem SameBooks.spends {q p : Pool} (h : SameBooks q p) : q.spends = p.spends := by
  obtain ⟨cells, rfl⟩ := h
  rfl

/-! ### The scan as six walks -/

abbrev depositWalk0 := depositWalk 0 (.inl rfl)
abbrev spendWalk1 := spendWalk 1 (.inl rfl)
abbrev spendWalk2 := spendWalk 2 (.inr (.inl rfl))
abbrev depositWalk3 := depositWalk 3 (.inr (.inl rfl))
abbrev depositWalk4 := depositWalk 4 (.inr (.inr rfl))
abbrev spendWalk5 := spendWalk 5 (.inr (.inr rfl))

/-- What a phase that starts at `s` comes to. -/
structure PhaseDone {κ ν : Type} [Ord κ] [Std.TransOrd κ]
    (W : KeyWalk ScanState RecoveryTrap κ ν) (s t : ScanState) : Prop where
  walked : W.walk s = .ok t
  phase : t.cur.phase = s.cur.phase

/-- On its way to the end the scan finishes the phase it is in. -/
theorem RunsPhase.done {κ ν : Type} [Ord κ] [Std.TransOrd κ] [Std.LawfulEqOrd κ]
    {W : KeyWalk ScanState RecoveryTrap κ ν} {phase n : Nat} (R : RunsPhase W phase)
    (hph : phase < 6) {s c : ScanState} (hs : s.cur.phase = phase) (h : ScanSteps n s c)
    (hc : c.cur.isComplete = true) :
    ∃ t m, PhaseDone W s t ∧ ScanSteps m (nextPhase t) c := by
  have ha : W.ahead s = W.ahead s ++ [] := (List.append_nil _).symm
  obtain ⟨t, hw⟩ := R.progress hph hs ha h hc
  obtain ⟨hsteps, hend, ht⟩ := R.steps hs ha hw
  have hnot : t.cur.isComplete = false := not_isComplete_iff.2 (ht ▸ hph)
  have hnone : nextVisit t = none := by
    rw [R.next ht, hend]
    rfl
  obtain ⟨m, hrest, _⟩ := hsteps.suffix h hc (.inl hnot)
  refine ⟨t, m, ⟨hw, ht.trans hs.symm⟩, ?_⟩
  cases hrest with
  | refl => rw [hc] at hnot; cases hnot
  | next _ _ hrest => exact hrest
  | visit hv _ => rw [hnone] at hv; cases hv

/-- The states at the ends of the six phases. -/
structure WholeScan (s t₀ t₁ t₂ t₃ t₄ t₅ : ScanState) : Prop where
  phase₀ : PhaseDone depositWalk0 s t₀
  phase₁ : PhaseDone spendWalk1 (nextPhase t₀) t₁
  phase₂ : PhaseDone spendWalk2 (nextPhase t₁) t₂
  phase₃ : PhaseDone depositWalk3 (nextPhase t₂) t₃
  phase₄ : PhaseDone depositWalk4 (nextPhase t₃) t₄
  phase₅ : PhaseDone spendWalk5 (nextPhase t₄) t₅

theorem nextPhase_phase {s t : ScanState} {n : Nat} (h : t.cur.phase = s.cur.phase)
    (hs : s.cur.phase = n) : (nextPhase t).cur.phase = n + 1 := by
  show t.cur.phase + 1 = n + 1
  rw [h, hs]

/-- A scan that ends is its six walks. -/
theorem ScanSteps.whole {n : Nat} {s c : ScanState} (hs : s.cur.phase = 0) (h : ScanSteps n s c)
    (hc : c.cur.isComplete = true) :
    ∃ t₀ t₁ t₂ t₃ t₄ t₅, WholeScan s t₀ t₁ t₂ t₃ t₄ t₅ ∧ c = nextPhase t₅ := by
  obtain ⟨t₀, _, d₀, h⟩ := (depositWalk_runs (.inl rfl)).done (by decide) hs h hc
  have hs := nextPhase_phase d₀.phase hs
  obtain ⟨t₁, _, d₁, h⟩ := (spendWalk_runs (.inl rfl)).done (by decide) hs h hc
  have hs := nextPhase_phase d₁.phase hs
  obtain ⟨t₂, _, d₂, h⟩ := (spendWalk_runs (.inr (.inl rfl))).done (by decide) hs h hc
  have hs := nextPhase_phase d₂.phase hs
  obtain ⟨t₃, _, d₃, h⟩ := (depositWalk_runs (.inr (.inl rfl))).done (by decide) hs h hc
  have hs := nextPhase_phase d₃.phase hs
  obtain ⟨t₄, _, d₄, h⟩ := (depositWalk_runs (.inr (.inr rfl))).done (by decide) hs h hc
  have hs := nextPhase_phase d₄.phase hs
  obtain ⟨t₅, _, d₅, h⟩ := (spendWalk_runs (.inr (.inr rfl))).done (by decide) hs h hc
  have hs := nextPhase_phase d₅.phase hs
  have hdone : (nextPhase t₅).cur.isComplete = true := isComplete_iff.2 (Nat.le_of_eq hs.symm)
  exact ⟨t₀, t₁, t₂, t₃, t₄, t₅, ⟨d₀, d₁, d₂, d₃, d₄, d₅⟩,
    (h.unique (.refl _) hc hdone).1⟩

/-! ### Each walk does what the eager pass does -/

theorem eager_depositLease {s s' : ScanState} {p : Pool} {e : Bytes32 × PendingDeposit}
    (h : counted (depositVisit 0) s e = .ok s') (hb : SameBooks s.pool p) :
    ∃ p', eagerDepositLease p e = .ok p' ∧ SameBooks s'.pool p' := by
  obtain ⟨cur, _⟩ := s
  obtain ⟨cells, rfl⟩ := hb
  obtain ⟨t, hv, rfl⟩ := counted_ok h
  obtain ⟨hc, rfl⟩ := visitDepositLease_ok hv
  exact ⟨p, bind_of_ok hc rfl, _, rfl⟩

theorem eager_spendLease {s s' : ScanState} {p : Pool} {e : SpendId × PendingSpend}
    (h : counted (spendVisit 1) s e = .ok s') (hb : SameBooks s.pool p) :
    ∃ p', eagerSpendLease p e = .ok p' ∧ SameBooks s'.pool p' := by
  obtain ⟨cur, _⟩ := s
  obtain ⟨cells, rfl⟩ := hb
  obtain ⟨t, hv, rfl⟩ := counted_ok h
  obtain ⟨hc, rfl⟩ := visitSpendLease_ok hv
  exact ⟨p, bind_of_ok hc rfl, _, rfl⟩

/-- The scan has reinstated the records the eager pass still holds back. -/
def Reinstated (q : Pool) (acc : Pool × List PendingSpend) : Prop :=
  SameBooks q {acc.1 with
    spends.inflight := rebuildInflightNullifiers acc.2 acc.1.spends.inflight}

theorem normalizeSpend_frame (p : Pool) (set : StableSet Bytes32) (cells : RecoveryCells)
    (id : SpendId) (spend : PendingSpend) :
    normalizeSpendRecordForUpgrade {p with spends.inflight := set, recovery := cells} id spend =
      ({(normalizeSpendRecordForUpgrade p id spend).1 with
          spends.inflight := set, recovery := cells},
        (normalizeSpendRecordForUpgrade p id spend).2) := by
  have h := normalizeSpend_recovery {p with spends.inflight := set} cells id spend
  rw [normalizeSpend_inflight] at h
  exact h

theorem eager_spendNormalize {s s' : ScanState} {acc : Pool × List PendingSpend}
    {e : SpendId × PendingSpend} (h : counted (spendVisit 2) s e = .ok s')
    (hb : Reinstated s.pool acc) : Reinstated s'.pool (eagerSpendNormalize acc e) := by
  obtain ⟨cur, _⟩ := s
  obtain ⟨p, spends⟩ := acc
  obtain ⟨cells, rfl⟩ := hb
  obtain ⟨t, hv, rfl⟩ := counted_ok h
  cases hv
  refine SameBooks.of_eq ?_
  show (visitSpendReinstate ⟨cur, {p with
    spends.inflight := rebuildInflightNullifiers spends p.spends.inflight, recovery := cells}⟩ e).pool = _
  simp only [ScanState.count, visitSpendReinstate, visitSpendNormalize, sawSpend, logVisit,
    normalizeSpend_frame, eagerSpendNormalize, List.nil_append, rebuildInflightNullifiers_append,
    normalizeSpend_keeps_inflight]

theorem eager_depositNormalize {s s' : ScanState} {p : Pool} {e : Bytes32 × PendingDeposit}
    (h : counted (depositVisit 3) s e = .ok s') (hb : SameBooks s.pool p) :
    ∃ p', eagerDepositNormalize p e = .ok p' ∧ SameBooks s'.pool p' := by
  obtain ⟨cur, _⟩ := s
  obtain ⟨cells, rfl⟩ := hb
  obtain ⟨t, hv, rfl⟩ := counted_ok h
  simp only [depositVisit, visitDepositNormalize, normalizeDeposit_recovery] at hv
  cases hn : normalizeDepositRecordForUpgrade p e.1 e.2 with
  | error t => rw [hn] at hv; cases hv
  | ok p' =>
    rw [hn] at hv
    cases hv
    exact ⟨p', hn, _, rfl⟩

theorem eager_depositIndex {s s' : ScanState} {p : Pool} {e : Bytes32 × PendingDeposit}
    (h : counted (depositVisit 4) s e = .ok s') (hb : SameBooks s.pool p) :
    SameBooks s'.pool (eagerDepositIndex p e) := by
  obtain ⟨cur, _⟩ := s
  obtain ⟨cells, rfl⟩ := hb
  obtain ⟨t, hv, rfl⟩ := counted_ok h
  cases hv
  simp only [visitDepositIndex, eagerDepositIndex]
  split
  · cases e.2.depositor <;> exact ⟨_, rfl⟩
  · exact ⟨_, rfl⟩

theorem eager_spendIndex {s s' : ScanState} {p : Pool} {e : SpendId × PendingSpend}
    (h : counted (spendVisit 5) s e = .ok s') (hb : SameBooks s.pool p) :
    ∃ p', eagerSpendIndex p e = .ok p' ∧ SameBooks s'.pool p' := by
  obtain ⟨cur, _⟩ := s
  obtain ⟨cells, rfl⟩ := hb
  obtain ⟨t, hv, rfl⟩ := counted_ok h
  simp only [spendVisit, visitSpendIndex] at hv
  unfold eagerSpendIndex
  split at hv
  · rename_i hreq
    cases hs : e.2.submitter with
    | none => rw [hs] at hv; cases hv
    | some owner =>
      rw [hs] at hv
      cases hv
      exact ⟨_, if_pos hreq, _, rfl⟩
  · rename_i hreq
    cases hv
    exact ⟨_, if_neg hreq, _, rfl⟩

section
variable {κ ν : Type} [Ord κ] [Std.TransOrd κ] [Std.LawfulEqOrd κ]
  {W : KeyWalk ScanState RecoveryTrap κ ν} {s t : ScanState} {p : Pool}

/-- A phase keeps the books when each of its visits does. -/
theorem PhaseDone.eager {f : Pool → κ × ν → Except RecoveryTrap Pool} (h : PhaseDone W s t)
    (hf : ∀ {s s' p e}, W.visit s e = .ok s' → SameBooks s.pool p →
      ∃ p', f p e = .ok p' ∧ SameBooks s'.pool p')
    (hb : SameBooks s.pool p) : ∃ p', (W.ahead s).foldlM f p = .ok p' ∧ SameBooks t.pool p' :=
  KeyWalk.walk_simulates (R := fun s p => SameBooks s.pool p) (fun _ => hf) h.walked hb

end

theorem spendWalk2_eager {s t : ScanState} {p : Pool} (h : PhaseDone spendWalk2 (nextPhase s) t)
    (hb : SameBooks s.pool p) : SameBooks t.pool (eagerNormalizeSpends p) := by
  obtain ⟨acc, hf, hr⟩ := KeyWalk.walk_simulates (W := spendWalk2)
    (R := fun s acc => Reinstated s.pool acc) (f := fun acc e => .ok (eagerSpendNormalize acc e))
    (fun _ hv hb => ⟨_, rfl, eager_spendNormalize hv hb⟩) h.walked (t := (p, [])) hb
  rw [foldlM_pure_ok, show spendWalk2.ahead (nextPhase s) = s.pool.spends.pending.toList from rfl,
    hb.spends] at hf
  rw [eagerNormalizeSpends, Except.ok.inj hf]
  exact hr

/-- The walks of a scan do to the books what the eager pass does. -/
theorem WholeScan.eager {p : Pool} {t₀ t₁ t₂ t₃ t₄ t₅ : ScanState}
    (h : WholeScan (startScan p) t₀ t₁ t₂ t₃ t₄ t₅) :
    ∃ e, eagerRecovery p = .ok e ∧ SameBooks t₅.pool e := by
  obtain ⟨p₀, h₀, b₀⟩ := h.phase₀.eager eager_depositLease (.refl p)
  obtain ⟨p₁, h₁, b₁⟩ := h.phase₁.eager eager_spendLease (p := p₀) b₀
  have b₂ := spendWalk2_eager h.phase₂ b₁
  obtain ⟨p₃, h₃, b₃⟩ := h.phase₃.eager eager_depositNormalize b₂
  obtain ⟨p₄, h₄, b₄⟩ := h.phase₄.eager (f := fun p e => .ok (eagerDepositIndex p e))
    (fun hv hb => ⟨_, rfl, eager_depositIndex hv hb⟩) b₃
  obtain ⟨p₅, h₅, b₅⟩ := h.phase₅.eager eager_spendIndex b₄
  -- Each walk started from the whole of its map.
  rw [show spendWalk1.ahead (nextPhase t₀) = t₀.pool.spends.pending.toList from rfl, b₀.spends] at h₁
  rw [show depositWalk3.ahead (nextPhase t₂) = t₂.pool.deposits.pending.toList from rfl,
    b₂.deposits] at h₃
  rw [foldlM_pure_ok, show depositWalk4.ahead (nextPhase t₃) = t₃.pool.deposits.pending.toList from rfl,
    b₃.deposits] at h₄
  rw [show spendWalk5.ahead (nextPhase t₄) = t₄.pool.spends.pending.toList from rfl, b₄.spends] at h₅
  refine ⟨p₅, bind_of_ok h₀ (bind_of_ok h₁ (bind_of_ok h₃ ?_)), b₅⟩
  rw [Except.ok.inj h₄]
  exact h₅

end StshProtocol.ShieldedPool.Recovery
