import StshProtocol.Vetkeys.Moves

/-! How long a refusal says to wait.

The windows of attempts, the fleet's window, a principal's share of it and the meter each wait for
their oldest entry to leave. An admission waits for the first slot that it takes to free, over what
is committed and what is reserved. A reservation whose call is out frees none by itself: the pass
that finds it as old as the window turns it into a committed time after it has dropped the expired
ones, so that only the next pass drops it. The hint counts on a pass at the very instant. -/
namespace StshProtocol.Vetkeys
open Foundation ShieldedPool Vesting Window

variable {now : Nat}

/-! ### Windows of attempts -/

/-- A principal without a row has an empty window. -/
def rowOf (rows : StableMap PrincipalKey RegistrationWindow) (owner : PrincipalKey) :
    RegistrationWindow :=
  rows[owner]?.getD .default

/-- No window holds more than it may. -/
def Held (quota : Nat) (rows : StableMap PrincipalKey RegistrationWindow) : Prop :=
  ∀ owner, (rowOf rows owner).attempts.length ≤ quota

section Rates
variable {quota windowNs r : Nat} {row : RegistrationWindow}

theorem RegistrationWindow.charge_error (h : (row.charge now quota windowNs).1 = .error r) :
    quota ≤ (live windowNs now row.attempts).length ∧
      r = satAdd64 ((live windowNs now row.attempts).min?.getD now) windowNs - now ∧
      (row.charge now quota windowNs).2 = ⟨live windowNs now row.attempts⟩ := by
  unfold RegistrationWindow.charge at h ⊢
  by_cases hfull : quota ≤ (live windowNs now row.attempts).length
  · rw [live] at hfull
    simp only [if_pos hfull] at h ⊢
    exact ⟨hfull, (Except.error.inj h).symm, rfl⟩
  · rw [live] at hfull
    simp only [if_neg hfull] at h
    cases h

theorem RegistrationWindow.charge_ok :
    (row.charge now quota windowNs).1 = .ok () ↔ (live windowNs now row.attempts).length < quota := by
  unfold RegistrationWindow.charge
  by_cases hfull : quota ≤ (live windowNs now row.attempts).length
  · rw [live] at hfull ⊢
    simp only [if_pos hfull]
    exact ⟨(by simp), fun h => absurd hfull (Nat.not_le.2 h)⟩
  · rw [live] at hfull ⊢
    simp only [if_neg hfull]
    exact ⟨fun _ => Nat.lt_of_not_le hfull, fun _ => trivial⟩

theorem RegistrationWindow.charge_held (h : row.attempts.length ≤ quota) :
    (row.charge now quota windowNs).2.attempts.length ≤ quota := by
  unfold RegistrationWindow.charge
  simp only
  split
  · exact Nat.le_trans (List.length_filter_le _ _) h
  · next hroom =>
    rw [List.length_append, List.length_singleton]
    omega

/-- The hint of a window is exact if and only if an attempt leaves it before the clock stops. -/
theorem RegistrationWindow.charge_exact (hquota : 0 < quota) (hspan : 0 < windowNs)
    (hheld : row.attempts.length ≤ quota) (h : (row.charge now quota windowNs).1 = .error r) :
    ExactWait (fun x => ((row.charge now quota windowNs).2.charge x quota windowNs).1 = .ok ()) now r ↔
      ∃ t ∈ live windowNs now row.attempts, t + windowNs ≤ u64Max := by
  obtain ⟨hfull, hr, hleft⟩ := charge_error h
  obtain ⟨hlength, oldest, holdest⟩ := live_full hquota hheld hfull
  rw [holdest, Option.getD_some] at hr
  rw [← exactWait_iff hspan holdest hlength, hr]
  refine ExactWait.congr fun x hx => ?_
  rw [hleft, charge_ok, live_live hx]

end Rates

/-! ### The fleet's window -/

namespace GlobalDeriveWindow
variable {win : GlobalDeriveWindow} {who : PrincipalKey} {p : DispatchRecord → Bool}

/-- The retained records of a kind are the live times of those of the kind. -/
theorem retained_live (p : DispatchRecord → Bool) (now : Nat) (win : GlobalDeriveWindow) :
    ((win.retained now).filter p).map (·.atNs) =
      live globalDeriveWindowNs now ((win.dispatched.filter p).map (·.atNs)) := by
  rw [live, retained, List.filter_map, List.filter_filter, List.filter_filter]
  refine congrArg _ (List.filter_congr fun r _ => ?_)
  simp [Expired, Bool.and_comm]

theorem own_live (now : Nat) (who : PrincipalKey) (win : GlobalDeriveWindow) :
    win.own now who = live globalDeriveWindowNs now
      ((win.dispatched.filter fun r => decide (r.who = some who)).map (·.atNs)) :=
  retained_live _ now win

theorem retained_map_live (now : Nat) (win : GlobalDeriveWindow) :
    (win.retained now).map (·.atNs) =
      live globalDeriveWindowNs now (win.dispatched.map (·.atNs)) := by
  have h := retained_live (fun _ => true) now win
  rwa [List.filter_true, List.filter_true] at h

theorem retainedCount_live (now : Nat) (win : GlobalDeriveWindow) :
    win.retainedCount now =
      (live globalDeriveWindowNs now (win.dispatched.map (·.atNs))).length := by
  rw [← retained_map_live, List.length_map, retainedCount]

variable {id liquid liveCost r : Nat} {st : AdmissionState}

theorem fenceDecide_own :
    fenceDecide now id liquid liveCost st win who =
        .refuse (.principalHourlyDerivationCapExceeded r) ↔
      (st.StillPredispatch id ∧ cycleFloorAdmits liquid liveCost) ∧
        perPrincipalHourlyDeriveCap ≤ (win.own now who).length ∧
        r = satAdd64 ((win.own now who).min?.getD u64Max) globalDeriveWindowNs - now := by
  constructor
  · intro h
    unfold fenceDecide at h
    split_ifs at h with hstill hfloor hown hfleet
    all_goals cases h
    exact ⟨⟨hstill, hfloor⟩, hown, rfl⟩
  · rintro ⟨⟨hstill, hfloor⟩, hown, rfl⟩
    rw [fenceDecide, if_neg (not_not_intro hstill), if_neg (not_not_intro hfloor), if_pos hown]

theorem fenceDecide_fleet
    (h : fenceDecide now id liquid liveCost st win who = .refuse (.globalDerivationBudgetExceeded r)) :
    (st.StillPredispatch id ∧ cycleFloorAdmits liquid liveCost) ∧
      (win.own now who).length < perPrincipalHourlyDeriveCap ∧
      globalDeriveBudget ≤ win.retainedCount now ∧ r = win.globalRetryAfterNs now := by
  unfold fenceDecide at h
  split_ifs at h with hstill hfloor hown hfleet
  all_goals cases h
  exact ⟨⟨hstill, hfloor⟩, Nat.lt_of_not_le hown, hfleet, rfl⟩

theorem fenceDecide_room (hbefore : st.StillPredispatch id ∧ cycleFloorAdmits liquid liveCost)
    (hown : (win.own now who).length < perPrincipalHourlyDeriveCap) :
    fenceDecide now id liquid liveCost st win who = .commit ↔
      win.retainedCount now < globalDeriveBudget := by
  refine ⟨fun h => (fenceDecide_commit h).2.2, fun hroom => ?_⟩
  rw [fenceDecide, if_neg (not_not_intro hbefore.1), if_neg (not_not_intro hbefore.2),
    if_neg (Nat.not_le.2 hown), if_neg (Nat.not_le.2 hroom)]

/-- The hint of a principal's share is exact if and only if a record of its own leaves the window
before the clock stops. -/
theorem own_exact
    (hheld : (win.dispatched.filter fun r => decide (r.who = some who)).length ≤
      perPrincipalHourlyDeriveCap)
    (h : fenceDecide now id liquid liveCost st win who =
      .refuse (.principalHourlyDerivationCapExceeded r)) :
    ExactWait (fun x => ∀ r, fenceDecide x id liquid liveCost st win who ≠
        .refuse (.principalHourlyDerivationCapExceeded r)) now r ↔
      ∃ t ∈ win.own now who, t + globalDeriveWindowNs ≤ u64Max := by
  obtain ⟨hbefore, hfull, hr⟩ := fenceDecide_own.1 h
  rw [own_live] at hfull hr ⊢
  obtain ⟨hlength, oldest, holdest⟩ :=
    live_full (by decide) (Nat.le_trans (Nat.le_of_eq (List.length_map _)) hheld) hfull
  rw [holdest, Option.getD_some] at hr
  rw [← exactWait_iff (by decide) holdest hlength, hr]
  refine ExactWait.congr fun x _ => ⟨fun hnot => ?_, fun hroom r hcap => ?_⟩
  · by_contra hstill
    refine hnot _ (fenceDecide_own.2 ⟨hbefore, ?_, rfl⟩)
    rw [own_live]
    exact Nat.le_of_not_lt hstill
  · have := (fenceDecide_own.1 hcap).2.1
    rw [own_live] at this
    exact absurd hroom (Nat.not_lt.2 this)

/-- The hint of the fleet is exact if and only if a record leaves the window before the clock stops. -/
theorem fleet_exact (hheld : win.dispatched.length ≤ globalDeriveBudget)
    (h : fenceDecide now id liquid liveCost st win who =
      .refuse (.globalDerivationBudgetExceeded r)) :
    ExactWait (fun x => fenceDecide x id liquid liveCost st win who = .commit) now r ↔
      ∃ t ∈ (win.retained now).map (·.atNs), t + globalDeriveWindowNs ≤ u64Max := by
  obtain ⟨hbefore, hown, hfull, hr⟩ := fenceDecide_fleet h
  rw [globalRetryAfterNs, if_neg (Nat.not_lt.2 hfull)] at hr
  rw [retained_map_live] at hr ⊢
  rw [retainedCount_live] at hfull
  obtain ⟨hlength, oldest, holdest⟩ :=
    live_full (by decide) (Nat.le_trans (Nat.le_of_eq (List.length_map _)) hheld) hfull
  rw [holdest, Option.getD_some] at hr
  rw [← exactWait_iff (by decide) holdest hlength, hr]
  refine ExactWait.congr fun x hx => ?_
  have hown' : (win.own x who).length < perPrincipalHourlyDeriveCap := by
    rw [own_live] at hown ⊢
    rw [← live_live hx]
    exact Nat.lt_of_le_of_lt (List.length_filter_le _ _) hown
  rw [fenceDecide_room hbefore hown', retainedCount_live]

end GlobalDeriveWindow

/-! ### The meter -/

theorem meterAdmit_over {caller : PrincipalBytes} {m : MeterState} {r : Nat}
    (h : (meterAdmit now caller m).1 = .error (.overBudget r)) :
    ∃ e, m.entries[principalKey caller]? = some e ∧
      maxDerivationsPerWindow ≤ (e.rolled now).count ∧
      r = meterWindowNs - (now - (e.rolled now).windowStartNs) ∧
      (meterAdmit now caller m).2 = m.put caller (e.rolled now) := by
  unfold meterAdmit at h ⊢
  cases he : m.entries[principalKey caller]? with
  | none =>
    rw [he] at h
    simp only at h
    split at h
    · exact nomatch h
    · exact nomatch h
  | some e =>
    rw [he] at h
    simp only at h ⊢
    by_cases hfull : maxDerivationsPerWindow ≤ (e.rolled now).count
    · rw [if_pos hfull] at h ⊢
      cases h
      exact ⟨e, rfl, hfull, rfl, rfl⟩
    · rw [if_neg hfull] at h
      exact nomatch h

theorem meterAdmit_put {caller : PrincipalBytes} {m : MeterState} {e : MeterEntry} :
    (meterAdmit now caller (m.put caller e)).1 = .ok () ↔
      (e.rolled now).count < maxDerivationsPerWindow := by
  unfold meterAdmit MeterState.put
  rw [StableMap.get_insert, if_pos rfl]
  simp only
  by_cases hfull : maxDerivationsPerWindow ≤ (e.rolled now).count
  · rw [if_pos hfull]
    exact ⟨nofun, fun h => absurd hfull (Nat.not_le.2 h)⟩
  · rw [if_neg hfull]
    exact ⟨fun _ => Nat.lt_of_not_le hfull, fun _ => rfl⟩

/-- The entries' windows began in the past. -/
def MeterPast (now : Nat) (m : MeterState) : Prop :=
  ∀ (k : Bytes) (e : MeterEntry), m.entries[k]? = some e → e.windowStartNs ≤ now

theorem MeterEntry.rolled_past {e : MeterEntry} (h : e.windowStartNs ≤ now) :
    (e.rolled now).windowStartNs ≤ now := by
  unfold MeterEntry.rolled
  split
  · exact Nat.le_refl now
  · exact h

/-- The hint of the meter is exact. -/
theorem meterAdmit_exact {caller : PrincipalBytes} {m : MeterState} {r : Nat} (hpast : MeterPast now m)
    (h : (meterAdmit now caller m).1 = .error (.overBudget r)) :
    ExactWait (fun x => (meterAdmit x caller (meterAdmit now caller m).2).1 = .ok ()) now r := by
  obtain ⟨e, he, hfull, hr, hleft⟩ := meterAdmit_over h
  have hstart := MeterEntry.rolled_past (hpast _ e he)
  rw [hleft]
  generalize e.rolled now = rolled at hfull hr hstart ⊢
  -- the window that is full has not ended, or it would have begun anew
  constructor
  · rw [meterAdmit_put, MeterEntry.rolled, if_pos (by omega)]
    exact Nat.zero_lt_succ 4
  · intro x hx hbefore hok
    rw [meterAdmit_put, MeterEntry.rolled, if_neg (by omega)] at hok
    exact absurd hfull (Nat.not_le.2 hok)

/-! ### The quota -/

namespace AdmissionState
variable {st : AdmissionState} {r : Nat}

/-- When the slots free that free by themselves. -/
def frees (st : AdmissionState) : List Nat :=
  st.committed.map (· + deriveWindowNs) ++
    (st.reservations.filter fun r => decide (r.phase = .preDispatch)).map
      (·.createdAtNs + stalePredispatchTtlNs)

/-- What an admission frees is what is no longer committed or in time. -/
theorem used_swept (x : Nat) (st : AdmissionState) :
    (st.swept x).used = (st.committed.filter fun t => decide (x - t < deriveWindowNs)).length +
      (st.reservations.filter fun r => decide (InTime x r)).length := by
  have hstale := List.length_eq_length_filter_add
    (l := (st.pruneCommitted x).pruneStalePredispatch x |>.reservations)
    fun r => decide (StaleDispatched x r)
  simp only [swept, used, staleChargeDispatched, staleDispatched, List.length_append, List.length_map]
  simp only [pruneCommitted, pruneStalePredispatch, decide_not] at hstale ⊢
  omega

theorem used_swept_le (x : Nat) (st : AdmissionState) : (st.swept x).used ≤ st.used := by
  rw [used_swept]
  exact Nat.add_le_add (List.length_filter_le _ _) (List.length_filter_le _ _)

theorem mem_frees {f : Nat} : f ∈ st.frees ↔ (∃ t ∈ st.committed, t + deriveWindowNs = f) ∨
    ∃ r ∈ st.reservations, r.phase = .preDispatch ∧ r.createdAtNs + stalePredispatchTtlNs = f := by
  rw [frees, List.mem_append, List.mem_map, List.mem_map]
  simp only [List.mem_filter, decide_eq_true_eq, and_assoc]

/-- A pass frees a slot if and only if one has freed by itself. -/
theorem used_swept_lt {x : Nat} : (st.swept x).used < st.used ↔ ∃ f ∈ st.frees, f ≤ x := by
  have hcommitted := List.length_filter_le (fun t => decide (x - t < deriveWindowNs)) st.committed
  have hreserved := List.length_filter_le (fun r => decide (InTime x r)) st.reservations
  have hday : 0 < deriveWindowNs := by decide
  have httl : 0 < stalePredispatchTtlNs := by decide
  have hsome : (st.swept x).used < st.used ↔
      (st.committed.filter fun t => decide (x - t < deriveWindowNs)).length < st.committed.length ∨
        (st.reservations.filter fun r => decide (InTime x r)).length < st.reservations.length := by
    rw [used_swept, used]
    omega
  rw [hsome, List.length_filter_lt_length_iff_exists, List.length_filter_lt_length_iff_exists]
  simp only [mem_frees, decide_eq_true_eq]
  constructor
  · rintro (⟨t, ht, hleft⟩ | ⟨r, hr, hlate⟩)
    · exact ⟨_, .inl ⟨t, ht, rfl⟩, by omega⟩
    · rw [InTime, not_or, not_not] at hlate
      exact ⟨_, .inr ⟨r, hr, hlate.1, rfl⟩, by omega⟩
  · rintro ⟨f, ⟨t, ht, rfl⟩ | ⟨r, hr, hphase, rfl⟩, hle⟩
    · exact .inl ⟨t, ht, by omega⟩
    · refine .inr ⟨r, hr, fun hin => hin.elim (absurd hphase) fun hearly => ?_⟩
      omega

theorem tryAdmit_ok : (∃ a, (st.tryAdmit now).1 = .ok a) ↔ (st.swept now).used < deriveQuota := by
  unfold tryAdmit
  simp only
  by_cases hfull : deriveQuota ≤ (st.swept now).used
  · rw [if_pos hfull]
    exact ⟨nofun, fun h => absurd hfull (Nat.not_le.2 h)⟩
  · rw [if_neg hfull]
    exact ⟨fun _ => Nat.lt_of_not_le hfull, fun _ => ⟨_, rfl⟩⟩

theorem tryAdmit_error (h : (st.tryAdmit now).1 = .error r) :
    deriveQuota ≤ (st.swept now).used ∧ (st.tryAdmit now).2 = st.swept now ∧
      r = ((st.swept now).nextFreeNs.map (· - now)).getD 0 := by
  unfold tryAdmit at h ⊢
  simp only at h ⊢
  by_cases hfull : deriveQuota ≤ (st.swept now).used
  · rw [if_pos hfull] at h ⊢
    exact ⟨hfull, rfl, (Except.error.inj h).symm⟩
  · rw [if_neg hfull] at h
    exact nomatch h

/-- The next admission would be granted. -/
def Admits (st : AdmissionState) (x : Nat) : Prop := ∃ a, (st.tryAdmit x).1 = .ok a

/-- Of a full state, one has freed. -/
theorem admits_iff {x : Nat} (hfull : st.used = deriveQuota) : st.Admits x ↔ ∃ f ∈ st.frees, f ≤ x := by
  rw [Admits, tryAdmit_ok, ← hfull, used_swept_lt]

theorem freeAt_preDispatch {q : Reservation} (h : q.phase = .preDispatch) :
    freeAt q = min (q.createdAtNs + stalePredispatchTtlNs) u64Max := by
  rw [freeAt, h, satAdd64]

theorem freeAt_dispatched {q : Reservation} (h : q.phase = .dispatched) :
    freeAt q = min (q.createdAtNs + staleDispatchedChargeNs + 1) u64Max := by
  rw [freeAt, h]
  simp only [satAdd64]
  omega

/-- The hint is no later than any slot frees or any charge is dropped, -/
theorem nextFreeNs_le {free : Nat} (h : st.nextFreeNs = some free) :
    (∀ f ∈ st.frees, free ≤ min f u64Max) ∧
      ∀ q ∈ st.reservations, q.phase = .dispatched →
        free ≤ min (q.createdAtNs + staleDispatchedChargeNs + 1) u64Max := by
  obtain ⟨-, hleast⟩ := List.min?_eq_some_iff.1 h
  have hreserved : ∀ q ∈ st.reservations, free ≤ freeAt q := fun q hq =>
    hleast _ (List.mem_append_right _ (List.mem_map_of_mem hq))
  constructor
  · intro f hf
    rcases mem_frees.1 hf with ⟨t, ht, rfl⟩ | ⟨q, hq, hphase, rfl⟩
    · exact hleast _ (List.mem_append_left _ (List.mem_map_of_mem ht))
    · exact freeAt_preDispatch hphase ▸ hreserved q hq
  · intro q hq hphase
    exact freeAt_dispatched hphase ▸ hreserved q hq

/-- and it is one of these. -/
theorem nextFreeNs_eq {free : Nat} (h : st.nextFreeNs = some free) :
    (∃ f ∈ st.frees, free = min f u64Max) ∨
      ∃ q ∈ st.reservations, q.phase = .dispatched ∧
        free = min (q.createdAtNs + staleDispatchedChargeNs + 1) u64Max := by
  obtain ⟨hmem, -⟩ := List.min?_eq_some_iff.1 h
  rcases List.mem_append.1 hmem with hin | hin
  · obtain ⟨t, ht, rfl⟩ := List.mem_map.1 hin
    exact .inl ⟨_, mem_frees.2 (.inl ⟨t, ht, rfl⟩), rfl⟩
  · obtain ⟨q, hq, rfl⟩ := List.mem_map.1 hin
    cases hphase : q.phase with
    | preDispatch =>
      exact .inl ⟨_, mem_frees.2 (.inr ⟨q, hq, hphase, rfl⟩), freeAt_preDispatch hphase⟩
    | dispatched => exact .inr ⟨q, hq, hphase, freeAt_dispatched hphase⟩

/-- The hint of an admission, left as it is and with a pass at an instant a reservation is charged:
this pass refuses too, and from the next instant on the wait is the same. -/
structure HintExact (st : AdmissionState) (now r : Nat) : Prop where
  alone : ExactWait st.Admits now r
  passed : ∀ q ∈ st.reservations, q.phase = .dispatched →
    q.createdAtNs + staleDispatchedChargeNs < now + r →
      ExactWait (st.tryAdmit (q.createdAtNs + staleDispatchedChargeNs)).2.Admits
        (q.createdAtNs + staleDispatchedChargeNs + 1)
        (now + r - (q.createdAtNs + staleDispatchedChargeNs + 1))

/-- No call is out that is as old as the window. -/
theorem swept_young {q : Reservation} (hq : q ∈ (st.swept now).reservations)
    (hphase : q.phase = .dispatched) : now < q.createdAtNs + staleDispatchedChargeNs := by
  have hkept := of_decide_eq_true (List.mem_filter.1 hq).2
  rw [StaleDispatched, not_and] at hkept
  have := hkept hphase
  omega

/-- What is free after a pass was free after the pass before, and what has not freed is kept. -/
theorem frees_swept {x f : Nat} (hf : f ∈ st.frees) (hlater : x < f) : f ∈ (st.swept x).frees := by
  rcases mem_frees.1 hf with ⟨t, ht, rfl⟩ | ⟨q, hq, hphase, rfl⟩
  · refine mem_frees.2 (.inl ⟨t, List.mem_append_left _ (List.mem_filter.2 ⟨ht, ?_⟩), rfl⟩)
    have hday : 0 < deriveWindowNs := by decide
    exact decide_eq_true (by omega)
  · have httl : 0 < stalePredispatchTtlNs := by decide
    have hin : InTime x q := .inr (by omega)
    have hnot : ¬StaleDispatched x q := fun hstale => absurd (hstale.1.symm.trans hphase) nofun
    exact mem_frees.2 (.inr ⟨q, List.mem_filter.2
      ⟨List.mem_filter.2 ⟨hq, decide_eq_true hin⟩, decide_eq_true hnot⟩, hphase, rfl⟩)

theorem tryAdmit_refused (h : ¬st.Admits now) :
    deriveQuota ≤ (st.swept now).used ∧ (st.tryAdmit now).2 = st.swept now := by
  cases hadmit : (st.tryAdmit now).1 with
  | ok a => exact absurd ⟨a, hadmit⟩ h
  | error r => exact ⟨(tryAdmit_error hadmit).1, (tryAdmit_error hadmit).2.1⟩

/-- A slot frees by itself before the clock stops, and no later than right after a reservation whose
call is out is charged. -/
def FreesFirst (st : AdmissionState) : Prop :=
  ∃ f ∈ st.frees, f ≤ u64Max ∧
    ∀ q ∈ st.reservations, q.phase = .dispatched → f ≤ q.createdAtNs + staleDispatchedChargeNs + 1

/-- Then a slot has freed when the hint says. -/
theorem FreesFirst.by_hint (h : st.FreesFirst) {free : Nat} (hfree : st.nextFreeNs = some free) :
    ∃ f ∈ st.frees, f ≤ free := by
  obtain ⟨f, hf, hlast, hfirst⟩ := h
  have hle := (nextFreeNs_le hfree).1 f hf
  rcases nextFreeNs_eq hfree with ⟨g, hg, heq⟩ | ⟨q, hq, hphase, heq⟩
  · rcases Nat.le_total g u64Max with hin | hout
    · exact ⟨g, hg, by omega⟩
    · exact ⟨f, hf, by omega⟩
  · have := hfirst q hq hphase
    exact ⟨f, hf, by omega⟩

/-- A full state's hint is exact if and only if a slot frees by itself first. -/
theorem hintExact_iff {free : Nat} (hlast : now ≤ u64Max) (hfull : st.used = deriveQuota)
    (hyoung : ∀ q ∈ st.reservations, q.phase = .dispatched →
      now < q.createdAtNs + staleDispatchedChargeNs)
    (hfree : st.nextFreeNs = some free) : st.HintExact now (free - now) ↔ st.FreesFirst := by
  have hle := nextFreeNs_le hfree
  constructor
  · intro hexact
    obtain ⟨f, hf, hby⟩ := (admits_iff hfull).1 hexact.alone.ends
    have := hle.1 f hf
    refine ⟨f, hf, by omega, fun q hq hphase => ?_⟩
    have := hle.2 q hq hphase
    have := hyoung q hq hphase
    omega
  · intro hfirst
    obtain ⟨f, hf, hby⟩ := hfirst.by_hint hfree
    have halone : ExactWait st.Admits now (free - now) := by
      refine ⟨(admits_iff hfull).2 ⟨f, hf, by omega⟩, fun x hx hbefore hadmits => ?_⟩
      obtain ⟨g, hg, hgx⟩ := (admits_iff hfull).1 hadmits
      have := hle.1 g hg
      omega
    refine ⟨halone, fun q hq hphase hbefore => ?_⟩
    have hnow := hyoung q hq hphase
    have hcharge := hle.2 q hq hphase
    have hffree := hle.1 f hf
    generalize q.createdAtNs + staleDispatchedChargeNs = x at hbefore hnow hcharge ⊢
    -- the slot frees at the next instant, and the pass keeps it until then
    obtain ⟨hstill, hpass⟩ := tryAdmit_refused (halone.needed x (Nat.le_of_lt hnow) hbefore)
    have hfull' : (st.swept x).used = deriveQuota :=
      Nat.le_antisymm (hfull ▸ used_swept_le x st) hstill
    rw [hpass]
    refine ⟨(admits_iff hfull').2 ⟨f, frees_swept hf (by omega), by omega⟩, fun y hy hb => ?_⟩
    omega

/-! What the sweep leaves, in terms of what it finds. -/

/-- A slot that is taken frees by itself at this time: it is committed and leaves the window, its
call is not out in time, or its call has been out for as long as the window. -/
inductive FreesAt (now : Nat) (st : AdmissionState) : Nat → Prop
  | committed {t : Nat} (ht : t ∈ st.committed) (hlive : now < t + deriveWindowNs) :
      FreesAt now st (t + deriveWindowNs)
  | waiting {q : Reservation} (hq : q ∈ st.reservations) (hphase : q.phase = .preDispatch)
      (hlive : now < q.createdAtNs + stalePredispatchTtlNs) :
      FreesAt now st (q.createdAtNs + stalePredispatchTtlNs)
  | charged {q : Reservation} (hq : q ∈ st.reservations) (hphase : q.phase = .dispatched)
      (hstale : q.createdAtNs + staleDispatchedChargeNs ≤ now) :
      FreesAt now st (q.createdAtNs + deriveWindowNs)

theorem mem_committed_swept {t : Nat} : t ∈ (st.swept now).committed ↔
    (t ∈ st.committed ∧ now < t + deriveWindowNs) ∨
      ∃ q ∈ st.reservations, StaleDispatched now q ∧ q.createdAtNs = t := by
  have hday : 0 < deriveWindowNs := by decide
  have hlive : ∀ t, now - t < deriveWindowNs ↔ now < t + deriveWindowNs := by omega
  have hkept : ∀ q, StaleDispatched now q → InTime now q := fun q h =>
    .inl fun hphase => absurd (h.1.symm.trans hphase) nofun
  simp only [swept, staleChargeDispatched, staleDispatched, pruneStalePredispatch, pruneCommitted,
    List.mem_append, List.mem_map, List.mem_filter, decide_eq_true_eq, hlive]
  refine or_congr_right ⟨?_, ?_⟩
  · rintro ⟨q, ⟨⟨hq, -⟩, hstale⟩, ht⟩
    exact ⟨q, hq, hstale, ht⟩
  · rintro ⟨q, hq, hstale, ht⟩
    exact ⟨q, ⟨⟨hq, hkept q hstale⟩, hstale⟩, ht⟩

theorem mem_reservations_swept {q : Reservation} : q ∈ (st.swept now).reservations ↔
    q ∈ st.reservations ∧ InTime now q ∧ ¬StaleDispatched now q := by
  simp only [swept, staleChargeDispatched, pruneStalePredispatch, pruneCommitted, List.mem_filter,
    decide_eq_true_eq, and_assoc]

theorem frees_swept_iff {f : Nat} : f ∈ (st.swept now).frees ↔ FreesAt now st f := by
  have httl : 0 < stalePredispatchTtlNs := by decide
  have hlate : ∀ t, staleDispatchedChargeNs ≤ now - t ↔ t + staleDispatchedChargeNs ≤ now := by
    have hday : 0 < staleDispatchedChargeNs := by decide
    omega
  rw [mem_frees]
  constructor
  · rintro (⟨t, ht, rfl⟩ | ⟨q, hq, hphase, rfl⟩)
    · rcases mem_committed_swept.1 ht with ⟨ht, hlive⟩ | ⟨q, hq, hstale, rfl⟩
      · exact .committed ht hlive
      · exact .charged hq hstale.1 ((hlate _).1 hstale.2)
    · obtain ⟨hq, hin, -⟩ := mem_reservations_swept.1 hq
      refine .waiting hq hphase ?_
      have := hin.resolve_left (not_not_intro hphase)
      omega
  · intro h
    cases h with
    | committed ht hlive => exact .inl ⟨_, mem_committed_swept.2 (.inl ⟨ht, hlive⟩), rfl⟩
    | waiting hq hphase hlive =>
      refine .inr ⟨_, mem_reservations_swept.2 ⟨hq, .inr (by omega), fun hstale => ?_⟩, hphase, rfl⟩
      exact absurd (hstale.1.symm.trans hphase) nofun
    | charged hq hphase hstale =>
      exact .inl ⟨_, mem_committed_swept.2 (.inr ⟨_, hq, ⟨hphase, (hlate _).2 hstale⟩, rfl⟩), rfl⟩

/-- A slot frees by itself before the clock stops, and no later than right after a reservation whose
call is out is charged. -/
def SelfFreesFirst (now : Nat) (st : AdmissionState) : Prop :=
  ∃ f, FreesAt now st f ∧ f ≤ u64Max ∧ ∀ q ∈ st.reservations, q.phase = .dispatched →
    now < q.createdAtNs + staleDispatchedChargeNs → f ≤ q.createdAtNs + staleDispatchedChargeNs + 1

theorem freesFirst_swept : (st.swept now).FreesFirst ↔ SelfFreesFirst now st := by
  simp only [FreesFirst, SelfFreesFirst, frees_swept_iff]
  refine exists_congr fun f => and_congr_right fun _ => and_congr_right fun _ => ⟨?_, ?_⟩
  · intro h q hq hphase hyoung
    have hday : 0 < staleDispatchedChargeNs := by decide
    have hnot : ¬StaleDispatched now q := fun hstale => by
      have := hstale.2
      omega
    refine h q (mem_reservations_swept.2 ⟨hq, .inl fun hwaits => ?_, hnot⟩) hphase
    exact absurd (hphase.symm.trans hwaits) nofun
  · exact fun h q hq hphase => h q (mem_reservations_swept.1 hq).1 hphase (swept_young hq hphase)

/-- The hint of an admission that refuses. -/
theorem hint_exact (hlast : now ≤ u64Max) (hheld : st.used ≤ deriveQuota)
    (h : (st.tryAdmit now).1 = .error r) :
    (st.tryAdmit now).2.HintExact now r ↔ SelfFreesFirst now st := by
  obtain ⟨hfull, hleft, hr⟩ := tryAdmit_error h
  have hused : (st.swept now).used = deriveQuota :=
    Nat.le_antisymm (Nat.le_trans (used_swept_le now st) hheld) hfull
  rw [hleft, ← freesFirst_swept]
  cases hfree : (st.swept now).nextFreeNs with
  | none =>
    have hnone := List.min?_eq_none_iff.1 hfree
    rw [List.append_eq_nil_iff, List.map_eq_nil_iff, List.map_eq_nil_iff] at hnone
    rw [used, hnone.1, hnone.2] at hused
    exact absurd hused (by decide)
  | some free =>
    rw [hfree] at hr
    rw [show r = free - now from hr]
    exact hintExact_iff hlast hused (fun q hq => swept_young hq) hfree

end AdmissionState

/-! ### What no run exceeds -/

namespace AdmissionState
variable {st : AdmissionState}

theorem used_tryAdmit (h : st.used ≤ deriveQuota) : (st.tryAdmit now).2.used ≤ deriveQuota := by
  by_cases hadmits : st.Admits now
  · have hroom := tryAdmit_ok.1 hadmits
    unfold tryAdmit
    rw [if_neg (Nat.not_le.2 hroom)]
    simp only [used, reserve, List.length_append, List.length_singleton] at hroom ⊢
    omega
  · rw [(tryAdmit_refused hadmits).2]
    exact Nat.le_trans (used_swept_le now st) h

theorem length_flip (id : Nat) (rs : List Reservation) : (flip id rs).length = rs.length := by
  have h := congrArg List.length (Account.ids_flip id rs)
  rwa [List.length_map, List.length_map] at h

theorem used_revalidate {st' : AdmissionState} {id : Nat} (h : st.revalidateForDispatch id = some st') :
    st'.used = st.used := by
  unfold revalidateForDispatch at h
  by_cases hstill : st.StillPredispatch id
  · rw [if_pos hstill] at h
    cases h
    rw [used, used, length_flip]
  · rw [if_neg hstill] at h
    cases h

theorem used_finalize (now id : Nat) : (st.finalize now id).2.used ≤ st.used := by
  have hle := List.length_filter_le (fun q : Reservation => decide (q.id ≠ id)) st.reservations
  unfold finalize
  simp only
  split
  · exact Nat.add_le_add_left hle _
  · simp only [used, List.length_append, List.length_singleton]
    omega

theorem used_release (id : Nat) : (st.release id).2.used ≤ st.used :=
  Nat.add_le_add_left (List.length_filter_le _ _) _

end AdmissionState

/-- No principal has taken more slots than there are. -/
def Rationed (rows : StableMap PrincipalKey AdmissionState) : Prop :=
  ∀ who : PrincipalKey, (rows[who]?.getD AdmissionState.default).used ≤ deriveQuota

theorem Rationed.insert {rows : StableMap PrincipalKey AdmissionState} {st : AdmissionState}
    (h : Rationed rows) (who : PrincipalKey) (hst : st.used ≤ deriveQuota) :
    Rationed (rows.insert who st) := by
  intro p
  rw [StableMap.get_insert]
  split
  · exact hst
  · exact h p

theorem held_empty (quota : Nat) : Held quota ∅ := by
  intro owner
  rw [rowOf, Std.ExtTreeMap.getElem?_empty]
  exact Nat.zero_le quota

theorem Held.charged {quota windowNs : Nat} {rows : StableMap PrincipalKey RegistrationWindow}
    (h : Held quota rows) (owner : PrincipalKey) :
    Held quota (charged (·.charge now quota windowNs) owner rows) := by
  intro p
  rw [rowOf, Vetkeys.charged, StableMap.get_insert]
  split
  · exact RegistrationWindow.charge_held (h owner)
  · exact h p

theorem meterPast_default (now : Nat) : MeterPast now .default := by
  intro k e he
  rw [MeterState.default, Std.ExtTreeMap.getElem?_empty] at he
  exact nomatch he

theorem MeterPast.put {m : MeterState} {e : MeterEntry} (h : MeterPast now m) (caller : PrincipalBytes)
    (he : e.windowStartNs ≤ now) : MeterPast now (m.put caller e) := by
  intro k e' hk
  rw [MeterState.put, StableMap.get_insert] at hk
  split at hk
  · cases hk
    exact he
  · exact h k e' hk

theorem MeterPast.sweep {m : MeterState} (h : MeterPast now m) : MeterPast now (m.sweep now) := by
  unfold MeterState.sweep
  split
  · exact h
  · split
    · intro k e hk
      rw [Std.ExtTreeMap.getElem?_filter', Option.filter_eq_some_iff] at hk
      exact h k e hk.1
    · exact h

theorem MeterPast.admit {m : MeterState} (h : MeterPast now m) (caller : PrincipalBytes) :
    MeterPast now (meterAdmit now caller m).2 := by
  unfold meterAdmit
  cases he : m.entries[principalKey caller]? with
  | none =>
    simp only
    split
    · exact h.sweep
    · exact h.sweep.put caller (Nat.le_refl now)
  | some e =>
    have hrolled := MeterEntry.rolled_past (h _ e he)
    simp only
    split
    · exact h.put caller hrolled
    · exact h.put caller hrolled

/-- No more records are in the fleet's window than the fleet and a principal may have there. -/
structure GlobalDeriveWindow.Capped (win : GlobalDeriveWindow) : Prop where
  fleet : win.dispatched.length ≤ globalDeriveBudget
  own : ∀ who, (win.dispatched.filter fun r => decide (r.who = some who)).length ≤
    perPrincipalHourlyDeriveCap

/-- What bounds the limits in every run. -/
structure Capped (now : Nat) (v : LimitView) : Prop where
  rationed : Rationed v.admission
  window : v.globalDeriveBudgetWindow.Capped
  meter : MeterPast now v.meter
  registrations : Held registrationQuota v.registrations
  replacements : Held replaceQuota v.replacements
  revocations : Held revokeQuota v.revocationRate

namespace Capped
variable {s t : VetkeysState} {v : LimitView} {now' : Nat}

theorem fresh (now : Nat) : Capped now VetkeysState.fresh.limitView where
  rationed who := by
    rw [VetkeysState.limitView, VetkeysState.fresh, Std.ExtTreeMap.getElem?_empty]
    exact Nat.zero_le _
  window := ⟨Nat.zero_le _, fun _ => Nat.zero_le _⟩
  meter := meterPast_default now
  registrations := held_empty _
  replacements := held_empty _
  revocations := held_empty _

theorem later (h : Capped now v) (hle : now ≤ now') : Capped now' v :=
  {h with meter := fun k e he => Nat.le_trans (h.meter k e he) hle}

theorem upgrade (h : Capped now v) : Capped now {v with meter := .default} :=
  {h with meter := meterPast_default now}

/-- What a fence lets through was under both bounds. -/
theorem commitDispatch {win : GlobalDeriveWindow} {who : PrincipalKey} (h : win.Capped)
    (hown : (win.own now who).length < perPrincipalHourlyDeriveCap)
    (hfleet : win.retainedCount now < globalDeriveBudget) (firstDerive : Bool) :
    ((win.pruneWindow now).recordDispatch now who firstDerive).Capped := by
  constructor
  · rw [GlobalDeriveWindow.recordDispatch, List.length_append]
    exact hfleet
  · intro p
    rw [GlobalDeriveWindow.recordDispatch, List.filter_append, List.length_append]
    have hold : ((win.retained now).filter fun r => decide (r.who = some p)).length ≤
        (win.dispatched.filter fun r => decide (r.who = some p)).length :=
      (List.filter_sublist.filter _).length_le
    have hroom := h.own p
    by_cases hp : p = who
    · subst hp
      rw [GlobalDeriveWindow.own, List.length_map] at hown
      rw [List.filter_cons, if_pos (decide_eq_true rfl)]
      exact hown
    · rw [List.filter_cons, if_neg (by simpa [eq_comm] using hp)]
      exact Nat.le_trans hold hroom

theorem fence (h : Capped now s.limitView) (who : PrincipalKey) (id : Nat) (firstDerive : Bool)
    (live : Live) : Capped now (s.dispatchFence now who id firstDerive live).2.limitView := by
  have hsame : Rationed (s.admission.insert who (s.admissionOf who)) :=
    h.rationed.insert who (h.rationed who)
  unfold VetkeysState.dispatchFence
  cases resolveLiveCost live.liquid live.cost with
  | error e => exact h
  | ok liveCost =>
    simp only
    cases hfence : fenceDecide now id live.liquid liveCost (s.admissionOf who)
        s.globalDeriveBudgetWindow who with
    | refuse e => exact {h with rationed := hsame}
    | commit =>
      simp only
      cases hst : (s.admissionOf who).revalidateForDispatch id with
      | none => exact {h with rationed := hsame}
      | some st' =>
        obtain ⟨-, hown, hfleet⟩ := fenceDecide_commit hfence
        have hused := AdmissionState.used_revalidate hst
        have hrationed := h.rationed.insert who (hused ▸ h.rationed who)
        exact {h with rationed := hrationed, window := commitDispatch h.window hown hfleet firstDerive}

theorem preflight (h : Capped now s.limitView) (caller : PrincipalBytes) :
    Capped now (s.preflightCall now caller).2.limitView := by
  have hrow : (s.admissionOf (PrincipalKey.new caller)).used ≤ deriveQuota := h.rationed _
  have hmeter : MeterPast now (meterAdmit now caller s.meter).2 := h.meter.admit caller
  unfold VetkeysState.preflightCall Vetkeys.preflight
  simp only
  generalize meterAdmit now caller s.meter = metered at hmeter ⊢
  obtain ⟨r, m⟩ := metered
  cases r with
  | error e => exact {h with rationed := h.rationed.insert _ hrow, meter := hmeter}
  | ok _ =>
    have hadmitted : ((s.admissionOf (PrincipalKey.new caller)).tryAdmit now).2.used ≤ deriveQuota :=
      AdmissionState.used_tryAdmit hrow
    simp only
    generalize (s.admissionOf (PrincipalKey.new caller)).tryAdmit now = admitted at hadmitted ⊢
    obtain ⟨r, st⟩ := admitted
    cases r with
    | error e => exact {h with rationed := h.rationed.insert _ hadmitted, meter := hmeter}
    | ok a => exact {h with rationed := h.rationed.insert _ hadmitted, meter := hmeter}

theorem move (hmove : LimitMove now s t) (h : Capped now s.limitView) : Capped now t.limitView := by
  cases hmove with
  | frame heq => exact heq ▸ h
  | preflight caller => exact h.preflight caller
  | release who id =>
    have hrow := Nat.le_trans (AdmissionState.used_release id) (h.rationed who)
    exact {h with rationed := h.rationed.insert who hrow}
  | finalize who id =>
    have hrow := Nat.le_trans (AdmissionState.used_finalize now id) (h.rationed who)
    exact {h with rationed := h.rationed.insert who hrow}
  | fence who id firstDerive live => exact h.fence who id firstDerive live
  | register owner => exact {h with registrations := h.registrations.charged owner}
  | replace owner => exact {h with replacements := h.replacements.charged owner}
  | revoke owner => exact {h with revocations := h.revocations.charged owner}

end Capped

theorem run_capped {D : Deployment} {w : VetkeysWorld} (run : (system D).Reachable w) :
    Capped w.now w.state.limitView :=
  Moves.run Capped.fresh Capped.move Capped.upgrade (fun hle h => h.later hle) run

/-! ### Exact hints -/

/-- A refused attempt of a window is told the exact wait just if one in the window leaves it before
the clock stops. -/
def RateHints (charge : Nat → RegistrationWindow → Except Nat Unit × RegistrationWindow)
    (windowNs now : Nat) (row : RegistrationWindow) : Prop :=
  ∀ r, (charge now row).1 = .error r →
    (ExactWait (fun x => (charge x (charge now row).2).1 = .ok ()) now r ↔
      ∃ t ∈ row.attempts, now < t + windowNs ∧ t + windowNs ≤ u64Max)

theorem Held.hints {quota windowNs : Nat} {rows : StableMap PrincipalKey RegistrationWindow}
    (h : Held quota rows) (hquota : 0 < quota) (hspan : 0 < windowNs) (owner : PrincipalKey) :
    RateHints (fun now row => row.charge now quota windowNs) windowNs now (rowOf rows owner) := by
  intro r hr
  rw [RegistrationWindow.charge_exact hquota hspan (h owner) hr]
  simp only [live, List.mem_filter, decide_eq_true_eq, and_assoc]
  refine exists_congr fun t => and_congr_right fun _ => and_congr_left fun _ => ?_
  omega

/-- What the refusals of a state at a time tell, and when it is exact. -/
structure HintsExact (s : VetkeysState) (now : Nat) : Prop where
  admission : ∀ who r, ((s.admissionOf who).tryAdmit now).1 = .error r →
    (((s.admissionOf who).tryAdmit now).2.HintExact now r ↔ (s.admissionOf who).SelfFreesFirst now)
  fleet : ∀ who id liquid liveCost r, fenceDecide now id liquid liveCost (s.admissionOf who)
      s.globalDeriveBudgetWindow who = .refuse (.globalDerivationBudgetExceeded r) →
    (ExactWait (fun x => fenceDecide x id liquid liveCost (s.admissionOf who)
        s.globalDeriveBudgetWindow who = .commit) now r ↔
      ∃ t ∈ (s.globalDeriveBudgetWindow.retained now).map (·.atNs),
        t + globalDeriveWindowNs ≤ u64Max)
  share : ∀ who id liquid liveCost r, fenceDecide now id liquid liveCost (s.admissionOf who)
      s.globalDeriveBudgetWindow who = .refuse (.principalHourlyDerivationCapExceeded r) →
    (ExactWait (fun x => ∀ r, fenceDecide x id liquid liveCost (s.admissionOf who)
        s.globalDeriveBudgetWindow who ≠ .refuse (.principalHourlyDerivationCapExceeded r)) now r ↔
      ∃ t ∈ s.globalDeriveBudgetWindow.own now who, t + globalDeriveWindowNs ≤ u64Max)
  registration : ∀ owner, RateHints chargeRegistration registrationWindowNs now
    (rowOf s.registrations owner)
  replacement : ∀ owner, RateHints chargeReplacement replaceWindowNs now (rowOf s.replacements owner)
  revocation : ∀ owner, RateHints chargeRevocation revokeWindowNs now (rowOf s.revocationRate owner)
  meter : ∀ caller r, (meterAdmit now caller s.meter).1 = .error (.overBudget r) →
    ExactWait (fun x => (meterAdmit x caller (meterAdmit now caller s.meter).2).1 = .ok ()) now r

/-- In every state of every run the hints are exact just then, and the meter's always. -/
theorem hints_exact_iff {D : Deployment} {w : VetkeysWorld} (run : (system D).Reachable w)
    (hnow : w.now ≤ now) (hlast : now ≤ u64Max) : HintsExact w.state now :=
  have hcapped := (run_capped run).later hnow
  {admission := fun who _ h => AdmissionState.hint_exact hlast (hcapped.rationed who) h
   fleet := fun _ _ _ _ _ h => GlobalDeriveWindow.fleet_exact hcapped.window.fleet h
   share := fun who _ _ _ _ h => GlobalDeriveWindow.own_exact (hcapped.window.own who) h
   registration := hcapped.registrations.hints (by decide) (by decide)
   replacement := hcapped.replacements.hints (by decide) (by decide)
   revocation := hcapped.revocations.hints (by decide) (by decide)
   meter := fun _ _ h => meterAdmit_exact hcapped.meter h}

/-! ### A played run -/

/-- Five calls of a principal are dispatched within two hours, and none is answered. -/
def outMoves : List (Move Input Reply Unit) :=
  [ask, funded 0, .wait hourNs, ask, ask, funded 1, funded 2, .wait (2 * hourNs), ask, ask, funded 5,
    funded 6, .wait (3 * hourNs), ask, funded 9]

/-- How long a refused admission is told to wait. -/
def hinted (st : AdmissionState) (now : Nat) : Option Nat :=
  match (st.tryAdmit now).1 with
  | .error r => some r
  | .ok _ => none

theorem hinted_eq {st : AdmissionState} {r : Nat} :
    hinted st now = some r ↔ (st.tryAdmit now).1 = .error r := by
  unfold hinted
  cases (st.tryAdmit now).1 with
  | error e => exact ⟨fun h => congrArg _ (Option.some.inj h), fun h => congrArg _ (Except.error.inj h)⟩
  | ok a => exact ⟨nofun, nofun⟩

/-- The state such a run comes to: its principal is refused, and, when the wait is over, once more. -/
theorem outMoves_played : ∃ w : VetkeysWorld, (system sampleDeployment).Reachable w ∧
    w.now = 3 * hourNs ∧
    ((w.state.admissionOf (PrincipalKey.new sampleCaller)).tryAdmit w.now).1 =
      .error (22 * hourNs + 1) ∧
    (((w.state.admissionOf (PrincipalKey.new sampleCaller)).tryAdmit w.now).2.tryAdmit
      (w.now + (22 * hourNs + 1))).1 = .error 0 := by
  have hplayed : ((anyPlayer.run (canister sampleDeployment) (fun _ _ => true) sampleWorld
      outMoves).map fun w =>
        (w.now, hinted (w.state.admissionOf (PrincipalKey.new sampleCaller)) w.now,
          hinted ((w.state.admissionOf (PrincipalKey.new sampleCaller)).tryAdmit w.now).2
            (w.now + (22 * hourNs + 1)))) = some (3 * hourNs, some (22 * hourNs + 1), some 0) := by
    decide +kernel
  obtain ⟨w, hw, hreport⟩ := Option.map_eq_some_iff.1 hplayed
  rw [Prod.mk.injEq, Prod.mk.injEq, hinted_eq, hinted_eq] at hreport
  exact ⟨w, Player.run_runIf (fun _ _ _ => trivial) (.start sampleWorld_installed) hw, hreport⟩

theorem hints_exact_iff_sample : ∃ w : VetkeysWorld, w.now = 3 * hourNs ∧ HintsExact w.state (3 * hourNs) := by
  obtain ⟨w, run, hnow, -, -⟩ := outMoves_played
  exact ⟨w, hnow, hints_exact_iff run (Nat.le_of_eq hnow) (by decide)⟩

/-- With no pass at the instant its calls are charged, a principal that waits as long as it is told
is refused again. -/
theorem charge_unnoticed : ¬∀ (D : Deployment) (w : VetkeysWorld), (system D).Reachable w →
    ∀ now, w.now ≤ now → now ≤ u64Max → ∀ who r,
      ((w.state.admissionOf who).tryAdmit now).1 = .error r →
        ((w.state.admissionOf who).tryAdmit now).2.HintExact now r := by
  intro hclaim
  obtain ⟨w, run, hnow, hrefused, hagain⟩ := outMoves_played
  have hlast : w.now ≤ u64Max := hnow ▸ by decide
  obtain ⟨a, ha⟩ :=
    (hclaim sampleDeployment w run w.now (Nat.le_refl _) hlast _ _ hrefused).alone.ends
  rw [hagain] at ha
  exact nomatch ha

end StshProtocol.Vetkeys
