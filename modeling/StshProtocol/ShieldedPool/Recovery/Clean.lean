import StshProtocol.ShieldedPool.Recovery.Refinement

/-! Which scans end, and after how many visits.

A scan ends exactly when no record of the pool makes a visit trap (`scan_ends_iff`),
which is a condition on the records alone: no phase makes a trap out of another
phase's work. A scan that ends has made `recordVisits` visits (`ScanSteps.visits_eq`),
three to each record but two to a spend that it removed. -/
namespace StshProtocol.ShieldedPool.Recovery
open Foundation

/-- No record makes the scan trap: each passes its lease check, and each spend that
will be indexed has a submitter. -/
structure ScanClean (p : Pool) : Prop where
  deposits : ∀ (key : Bytes32) (dep : PendingDeposit), p.deposits.pending[key]? = some dep →
    depositLeaseCheck (settledLeaseOwner p) true key dep = .ok ()
  spends : ∀ (id : SpendId) (spend : PendingSpend), p.spends.pending[id]? = some spend →
    spendLeaseCheck (settledLeaseOwner p) true id spend = .ok ()
  submitters : ∀ (id : SpendId) (spend : PendingSpend), p.spends.pending[id]? = some spend →
    spendRecoveryRequired spend.status = true → removedByRecovery spend = false →
      spend.submitter.isSome = true

/-- The visits of a scan: three to each record, but for the spends it removes. -/
def recordVisits (p : Pool) : Nat :=
  3 * p.deposits.pending.size + 2 * p.spends.pending.size + (keptSpends p).length

theorem length_scanPasses (p : Pool) : (scanPasses p).length = recordVisits p := by
  simp only [scanPasses, depositVisits, spendVisits, List.length_append, List.length_map,
    Std.ExtTreeMap.length_keys, recordVisits]
  omega

/-! ### What one visit leaves alone -/

/-- A visit writes nothing to the cells but its note, and leaves the lease alone. -/
theorem nextVisit_cells {s s' : ScanState} (h : nextVisit s = some (.ok s')) :
    s'.pool.recovery.visits.length = s.pool.recovery.visits.length + 1 ∧
      s'.pool.recovery.indexVersion = s.pool.recovery.indexVersion ∧ s'.pool.lease = s.pool.lease := by
  have hlt := (nextVisit_counted h).1
  rcases phase_cases hlt with hd | hsp
  · rw [nextVisit_deposit hd] at h
    obtain ⟨e, _, hv⟩ := Option.map_eq_some_iff.1 h
    obtain ⟨t, ht, rfl⟩ := counted_ok hv
    have hpool := (depositVisit_visited hd ht).pool
    refine ⟨?_, ?_, ?_⟩ <;> simp only [ScanState.count] <;> rw [hpool]
    exact List.length_append
  · rw [nextVisit_spend hsp] at h
    obtain ⟨e, he, hv⟩ := Option.map_eq_some_iff.1 h
    obtain ⟨t, ht, rfl⟩ := counted_ok hv
    have hkey := (StableMap.mem_entriesAfter.1 (List.mem_of_head? he)).1
    have hpool := (spendVisit_visited hsp hkey ht).pool
    refine ⟨?_, ?_, ?_⟩ <;> simp only [ScanState.count] <;> rw [hpool]
    exact List.length_append

theorem ScanSteps.cells {n : Nat} {s s' : ScanState} (h : ScanSteps n s s') :
    s'.pool.recovery.visits.length = s.pool.recovery.visits.length + n ∧
      s'.pool.recovery.indexVersion = s.pool.recovery.indexVersion := by
  induction h with
  | refl s => exact ⟨rfl, rfl⟩
  | next _ _ _ ih => exact ih
  | visit hv _ ih =>
    obtain ⟨hn, hversion, _⟩ := nextVisit_cells hv
    exact ⟨by omega, ih.2.trans hversion⟩

/-- A scan that ends has made its visits and no others. -/
theorem ScanSteps.visits_eq {p : Pool} {n : Nat} {c : ScanState} (h : ScanSteps n (startScan p) c)
    (hc : c.cur.isComplete = true) : n = recordVisits p := by
  obtain ⟨t₀, t₁, t₂, t₃, t₄, t₅, hwhole, rfl⟩ := h.whole rfl hc
  have hlength := h.cells.1
  rw [nextPhase_pool, (hwhole.visits rfl).1, List.length_append, length_scanPasses] at hlength
  show n = recordVisits (startScan p).pool
  omega

/-! ### The scans that end -/

theorem depositWalk_lease {phase : Nat} {h : depositPhase phase} {s s' : ScanState}
    {e : Bytes32 × PendingDeposit} (hv : (depositWalk phase h).visit s e = .ok s') :
    s'.pool.lease = s.pool.lease := by
  obtain ⟨t, ht, rfl⟩ := depositWalk_visit hv
  show t.pool.lease = _
  rw [(depositVisit_visited h ht).pool]

theorem spendRecoveryRequired_of_normalized {status : SpendStatus} {hasIndex : Bool}
    (h : spendRecoveryRequired (normalizedSpendStatus status hasIndex) = true) :
    spendRecoveryRequired status = true := by
  cases status <;> cases hasIndex <;> exact h

/-- The spends phase 5 meets are the ones phase 2 kept. -/
theorem spendWalk2_origin {s t : ScanState} (hd : PhaseDone spendWalk2 s t)
    (hs : s.cur.lastSpend = none) {id : SpendId} {spend' : PendingSpend}
    (h : t.pool.spends.pending[id]? = some spend') :
    ∃ spend hasIndex, s.pool.spends.pending[id]? = some spend ∧ removedByRecovery spend = false ∧
      spend' = {spend with status := normalizedSpendStatus spend.status hasIndex} := by
  cases hget : s.pool.spends.pending[id]? with
  | none =>
    have hnone := KeyWalk.walk_none hd.walked hget
    cases hnone.symm.trans h
  | some spend =>
    have hown := spendWalk2_own hd hs hget
    split at hown
    · cases hown.symm.trans h
    · rename_i hkept
      obtain ⟨hasIndex, hown⟩ := hown
      exact ⟨spend, hasIndex, rfl, (Bool.not_eq_true _).mp hkept, Option.some.inj (h.symm.trans hown)⟩

/-- A scan that ended found nothing to trap at. -/
theorem WholeScan.clean {p : Pool} {t₀ t₁ t₂ t₃ t₄ t₅ : ScanState}
    (h : WholeScan (startScan p) t₀ t₁ t₂ t₃ t₄ t₅) : ScanClean p where
  deposits key dep hdep := by
    refine KeyWalk.walk_each (W := depositWalk0) (I := fun s => s.pool.lease = p.lease)
      (P := fun key dep => depositLeaseCheck (settledLeaseOwner p) true key dep = .ok ())
      ?_ h.phase₀.walked rfl (key, dep) (StableMap.mem_toList.2 hdep)
    intro s s' key dep hlease _ hv
    refine ⟨(depositWalk_lease hv).trans hlease, ?_⟩
    obtain ⟨t, ht, rfl⟩ := depositWalk_visit hv
    have hc := (visitDepositLease_ok ht).1
    rwa [settledLeaseOwner, hlease] at hc
  spends id spend hspend := by
    have hlease : t₀.pool.lease = p.lease :=
      h.phase₀.same (g := fun s => s.pool.lease) fun _ hv => depositWalk_lease hv
    have hspends : t₀.pool.spends = p.spends := depositWalk_spends h.phase₀
    refine KeyWalk.walk_each (W := spendWalk1) (I := fun s => s.pool.lease = p.lease)
      (P := fun id spend => spendLeaseCheck (settledLeaseOwner p) true id spend = .ok ())
      ?_ h.phase₁.walked hlease (id, spend) ?_
    · intro s s' id spend hlease hk hv
      obtain ⟨t, ht, rfl⟩ := spendWalk_visit hv
      obtain ⟨hc, rfl⟩ := visitSpendLease_ok ht
      rw [settledLeaseOwner, hlease] at hc
      exact ⟨hlease, hc⟩
    · show (id, spend) ∈ t₀.pool.spends.pending.toList
      rw [hspends]
      exact StableMap.mem_toList.2 hspend
  submitters id spend hspend hreq hkept := by
    have s₁ : t₁.pool.spends = p.spends :=
      (spendWalk1_spends h.phase₁).trans (depositWalk_spends h.phase₀)
    have s₃ := depositWalk_spends h.phase₃
    have s₄ := depositWalk_spends h.phase₄
    rw [nextPhase_pool] at s₃ s₄
    have hspend₁ : (nextPhase t₁).pool.spends.pending[id]? = some spend := by
      rw [nextPhase_pool, s₁, hspend]
    have hown := spendWalk2_own h.phase₂ rfl hspend₁
    rw [if_neg (by rw [hkept]; exact Bool.false_ne_true)] at hown
    obtain ⟨hasIndex, hown⟩ := hown
    rw [← s₃, ← s₄] at hown
    have heach := KeyWalk.walk_each (W := spendWalk5) (I := fun _ => True)
      (P := fun _ spend => spendRecoveryRequired spend.status = true → spend.submitter.isSome = true)
      ?_ h.phase₅.walked trivial
    · exact heach _ (StableMap.mem_toList.2 hown) (spendRecoveryRequired_normalized hasIndex hreq)
    intro s s' id spend _ _ hv
    refine ⟨trivial, fun hreq => ?_⟩
    obtain ⟨t, ht, rfl⟩ := spendWalk_visit hv
    simp only [spendVisit, visitSpendIndex, if_pos hreq] at ht
    cases hs : spend.submitter with
    | none => rw [hs] at ht; cases ht
    | some owner => rfl

section
variable {κ ν : Type} [Ord κ] [Std.TransOrd κ] [Std.LawfulEqOrd κ]
  {W : KeyWalk ScanState RecoveryTrap κ ν} {phase : Nat}

/-- A walk that succeeds takes the scan through its phase. -/
theorem RunsPhase.through (R : RunsPhase W phase) (hph : phase < 6) {s t : ScanState}
    (hs : s.cur.phase = phase) (hw : W.walk s = .ok t) :
    PhaseDone W s t ∧ (nextPhase t).cur.phase = phase + 1 ∧ ∃ n, ScanSteps n s (nextPhase t) := by
  obtain ⟨hsteps, hend, ht⟩ := R.steps hs (List.append_nil (W.ahead s)).symm hw
  have hnone : nextVisit t = none := by
    rw [R.next ht, hend]
    rfl
  have hnext : ScanSteps 0 t (nextPhase t) :=
    .next (not_isComplete_iff.2 (ht ▸ hph)) hnone (.refl _)
  exact ⟨⟨hw, ht.trans hs.symm⟩, congrArg (· + 1) ht, _, hsteps.trans hnext⟩

end

theorem depositWalk0_progress {p : Pool} (hclean : ScanClean p) :
    ∃ t, depositWalk0.walk (startScan p) = .ok t := by
  refine KeyWalk.walk_progress (W := depositWalk0) (I := fun s => s.pool.lease = p.lease)
    (P := fun key dep => depositLeaseCheck (settledLeaseOwner p) true key dep = .ok ()) ?_ rfl ?_
  · intro s key dep hlease hc
    rw [settledLeaseOwner, ← hlease] at hc
    exact ⟨(sawDeposit s 0 key).count 1,
      congrArg (Except.map (ScanState.count 1)) (bind_of_ok hc rfl), hlease⟩
  · rintro ⟨key, dep⟩ hmem
    exact hclean.deposits key dep (StableMap.mem_toList.1 hmem)

theorem spendWalk1_progress {p : Pool} (hclean : ScanClean p) {s : ScanState}
    (hlease : s.pool.lease = p.lease) (hspends : s.pool.spends = p.spends) :
    ∃ t, spendWalk1.walk (nextPhase s) = .ok t := by
  refine KeyWalk.walk_progress (W := spendWalk1) (I := fun s => s.pool.lease = p.lease)
    (P := fun id spend => spendLeaseCheck (settledLeaseOwner p) true id spend = .ok ()) ?_ hlease ?_
  · intro s id spend hlease hc
    rw [settledLeaseOwner, ← hlease] at hc
    exact ⟨(sawSpend s 1 id).count 1,
      congrArg (Except.map (ScanState.count 1)) (bind_of_ok hc rfl), hlease⟩
  · rintro ⟨id, spend⟩ hmem
    have hmem : (id, spend) ∈ s.pool.spends.pending.toList := hmem
    rw [hspends] at hmem
    exact hclean.spends id spend (StableMap.mem_toList.1 hmem)

/-- Past its lease check an append in flight has its index. -/
theorem normalizeDeposit_of_check {owner : Option AppendLeaseOwner} {d : Bool} {key : Bytes32}
    {dep : PendingDeposit} (p : Pool) (h : depositLeaseCheck owner d key dep = .ok ()) :
    ∃ p', normalizeDepositRecordForUpgrade p key dep = .ok p' := by
  unfold normalizeDepositRecordForUpgrade
  cases hc : classifyDepositStatusForUpgrade dep.status with
  | preserve => exact ⟨_, rfl⟩
  | normalizeReconcileToAppendUnknown => exact ⟨_, rfl⟩
  | resolveAppendInFlightByIndex =>
    have hstatus : dep.status = .commitmentAppendInFlight := by
      cases hs : dep.status <;> rw [hs] at hc <;> first | rfl | cases hc
    cases hi : dep.expectedLeafIndex with
    | some i => exact ⟨_, rfl⟩
    | none =>
      rw [depositLeaseCheck, if_pos ⟨hstatus, hi⟩] at h
      cases h

theorem depositWalk3_progress {p : Pool} (hclean : ScanClean p) {s : ScanState}
    (hdeposits : s.pool.deposits = p.deposits) : ∃ t, depositWalk3.walk (nextPhase s) = .ok t := by
  refine KeyWalk.walk_progress (W := depositWalk3) (I := fun _ => True)
    (P := fun key dep => depositLeaseCheck (settledLeaseOwner p) true key dep = .ok ()) ?_ trivial ?_
  · intro s key dep _ hc
    obtain ⟨pool, hn⟩ := normalizeDeposit_of_check s.pool hc
    refine ⟨(sawDeposit {s with pool} 3 key).count 1, ?_, trivial⟩
    show (visitDepositNormalize s (key, dep)).map (ScanState.count 1) = _
    simp only [visitDepositNormalize, hn]
    rfl
  · rintro ⟨key, dep⟩ hmem
    have hmem : (key, dep) ∈ s.pool.deposits.pending.toList := hmem
    rw [hdeposits] at hmem
    exact hclean.deposits key dep (StableMap.mem_toList.1 hmem)

theorem spendWalk5_progress {p : Pool} (hclean : ScanClean p) {s t r : ScanState}
    (hs : s.pool.spends = p.spends) (h₂ : PhaseDone spendWalk2 (nextPhase s) t)
    (hr : r.pool.spends = t.pool.spends) : ∃ u, spendWalk5.walk (nextPhase r) = .ok u := by
  refine KeyWalk.walk_progress (W := spendWalk5) (I := fun _ => True)
    (P := fun _ spend => spendRecoveryRequired spend.status = true → spend.submitter.isSome = true)
    ?_ trivial ?_
  · intro s id spend _ hsub
    by_cases hreq : spendRecoveryRequired spend.status = true
    · obtain ⟨owner, howner⟩ := Option.isSome_iff_exists.1 (hsub hreq)
      refine ⟨(sawSpend ⟨{s.cur with expectedSpends := satAdd64 s.cur.expectedSpends 1},
        insertActiveSpendIndex s.pool owner id⟩ 5 id).count 1, ?_, trivial⟩
      show (visitSpendIndex s (id, spend)).map (ScanState.count 1) = _
      simp only [visitSpendIndex, if_pos hreq, howner]
      rfl
    · refine ⟨(sawSpend s 5 id).count 1, ?_, trivial⟩
      show (visitSpendIndex s (id, spend)).map (ScanState.count 1) = _
      simp only [visitSpendIndex, if_neg hreq]
      rfl
  · rintro ⟨id, spend'⟩ hmem hreq
    have hmem : (id, spend') ∈ r.pool.spends.pending.toList := hmem
    rw [hr] at hmem
    obtain ⟨spend, hasIndex, hspend, hkept, rfl⟩ := spendWalk2_origin h₂ rfl (StableMap.mem_toList.1 hmem)
    have hspend : s.pool.spends.pending[id]? = some spend := hspend
    rw [hs] at hspend
    exact hclean.submitters id spend hspend (spendRecoveryRequired_of_normalized hreq) hkept

/-- A scan ends exactly when no record makes it trap. -/
theorem scan_ends_iff (p : Pool) :
    (∃ n c, ScanSteps n (startScan p) c ∧ c.cur.isComplete = true) ↔ ScanClean p := by
  constructor
  · rintro ⟨n, c, h, hc⟩
    obtain ⟨t₀, t₁, t₂, t₃, t₄, t₅, hwhole, _⟩ := h.whole rfl hc
    exact hwhole.clean
  · intro hclean
    obtain ⟨t₀, h₀⟩ := depositWalk0_progress hclean
    obtain ⟨d₀, p₀, n₀, r₀⟩ := (depositWalk_runs (.inl rfl)).through (by decide) rfl h₀
    have hlease : t₀.pool.lease = p.lease :=
      d₀.same (g := fun s => s.pool.lease) fun _ hv => depositWalk_lease hv
    have s₀ : t₀.pool.spends = p.spends := depositWalk_spends d₀
    have e₀ : t₀.pool.deposits = p.deposits := depositWalk0_deposits d₀
    obtain ⟨t₁, h₁⟩ := spendWalk1_progress hclean hlease s₀
    obtain ⟨d₁, p₁, n₁, r₁⟩ := (spendWalk_runs (.inl rfl)).through (by decide) p₀ h₁
    have s₁ : t₁.pool.spends = p.spends := (spendWalk1_spends d₁).trans s₀
    have e₁ : t₁.pool.deposits = p.deposits := (spendWalk_deposits d₁).trans e₀
    obtain ⟨t₂, h₂⟩ : ∃ t, spendWalk2.walk (nextPhase t₁) = .ok t :=
      KeyWalk.walk_progress (I := fun _ => True) (P := fun _ _ => True)
        (fun _ _ => ⟨_, rfl, trivial⟩) trivial fun _ _ => trivial
    obtain ⟨d₂, p₂, n₂, r₂⟩ := (spendWalk_runs (.inr (.inl rfl))).through (by decide) p₁ h₂
    have e₂ : t₂.pool.deposits = p.deposits := (spendWalk_deposits d₂).trans e₁
    obtain ⟨t₃, h₃⟩ := depositWalk3_progress hclean e₂
    obtain ⟨d₃, p₃, n₃, r₃⟩ := (depositWalk_runs (.inr (.inl rfl))).through (by decide) p₂ h₃
    obtain ⟨t₄, h₄⟩ : ∃ t, depositWalk4.walk (nextPhase t₃) = .ok t :=
      KeyWalk.walk_progress (I := fun _ => True) (P := fun _ _ => True)
        (fun _ _ => ⟨_, rfl, trivial⟩) trivial fun _ _ => trivial
    obtain ⟨d₄, p₄, n₄, r₄⟩ := (depositWalk_runs (.inr (.inr rfl))).through (by decide) p₃ h₄
    have s₃ := depositWalk_spends d₃
    have s₄ := depositWalk_spends d₄
    rw [nextPhase_pool] at s₃ s₄
    obtain ⟨t₅, h₅⟩ := spendWalk5_progress hclean s₁ d₂ (s₄.trans s₃)
    obtain ⟨d₅, p₅, n₅, r₅⟩ := (spendWalk_runs (.inr (.inr rfl))).through (by decide) p₄ h₅
    exact ⟨_, nextPhase t₅, ((((r₀.trans r₁).trans r₂).trans r₃).trans r₄).trans r₅,
      isComplete_iff.2 (Nat.le_of_eq p₅.symm)⟩

end StshProtocol.ShieldedPool.Recovery
