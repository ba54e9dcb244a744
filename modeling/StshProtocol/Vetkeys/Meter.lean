import StshProtocol.Vetkeys.Fence
import StshProtocol.Vesting.Accounts

/-! The hourly meter, over any calls.

The table is bounded, so it forgets: a full table is swept, at most once in a while, of the entries
whose window is over. Forgetting such an entry gives its principal nothing, since its window would
begin anew at its next call anyway (`Metered`). What a principal is answered is what it would be
answered with the table to itself, except where it finds the table full (`answer_own`). -/
namespace StshProtocol.Vetkeys
open Foundation ShieldedPool Vesting

/-! ### Calls -/

structure MeterCall where
  now : Nat
  caller : PrincipalBytes
  deriving DecidableEq

/-- The table after some calls. Of a list of calls the first is the latest. -/
def tableAfter : List MeterCall → MeterState
  | [] => .default
  | c :: earlier => (meterAdmit c.now c.caller (tableAfter earlier)).2

/-- The clock does not go back. -/
def Clocked (calls : List MeterCall) : Prop := calls.Pairwise fun later earlier => earlier.now ≤ later.now

/-- The entry of a principal. -/
def entryAfter (calls : List MeterCall) (p : PrincipalBytes) : Option MeterEntry :=
  (tableAfter calls).entries[principalKey p]?

namespace MeterCall

def answer (c : MeterCall) (earlier : List MeterCall) : Except MeterRejection Unit :=
  (meterAdmit c.now c.caller (tableAfter earlier)).1

/-- The caller's window begins with this call, if it is admitted. -/
def begins (c : MeterCall) (earlier : List MeterCall) : Bool :=
  match entryAfter earlier c.caller with
  | some e => decide (meterWindowNs ≤ c.now - e.windowStartNs)
  | none => true

/-- The call sweeps the table. -/
def sweeps (c : MeterCall) (earlier : List MeterCall) : Bool :=
  (entryAfter earlier c.caller).isNone &&
    decide (maxTrackedPrincipals ≤ (tableAfter earlier).entries.size) &&
    (tableAfter earlier).lastSweepNs.all fun last => decide (sweepMinIntervalNs ≤ c.now - last)

end MeterCall

/-- When the windows of a principal began. -/
def starts (p : PrincipalBytes) : List MeterCall → List Nat
  | [] => []
  | c :: earlier =>
    if c.caller = p ∧ c.answer earlier = .ok () ∧ c.begins earlier then c.now :: starts p earlier
    else starts p earlier

/-- How many calls of a principal were admitted since its last window began, that one included. -/
def sinceStart (p : PrincipalBytes) : List MeterCall → Nat
  | [] => 0
  | c :: earlier =>
    if c.caller = p ∧ c.answer earlier = .ok () then
      if c.begins earlier then 1 else sinceStart p earlier + 1
    else sinceStart p earlier

/-- When the table was swept. -/
def sweepTimes : List MeterCall → List Nat
  | [] => []
  | c :: earlier => if c.sweeps earlier then c.now :: sweepTimes earlier else sweepTimes earlier

/-- The calls of a principal that did not find the table full. -/
def ownCalls (p : PrincipalBytes) : List MeterCall → List MeterCall
  | [] => []
  | c :: earlier =>
    if c.caller = p ∧ c.answer earlier ≠ .error .tableSaturated then c :: ownCalls p earlier
    else ownCalls p earlier

/-! ### One call -/

section Step
variable {m : MeterState} {now : Nat} {p : PrincipalBytes} {k : Bytes} {e : MeterEntry}

theorem meterWindowNs_pos : 0 < meterWindowNs := by decide

theorem over_iff : meterWindowNs ≤ now - e.windowStartNs ↔ e.windowStartNs + meterWindowNs ≤ now := by
  have h := meterWindowNs_pos
  omega

/-- What a sweep forgets is over. -/
theorem sweep_get (now : Nat) (m : MeterState) (k : Bytes) :
    (m.sweep now).entries[k]? = m.entries[k]? ∨
      (m.sweep now).entries[k]? = none ∧
        ∃ e, m.entries[k]? = some e ∧ e.windowStartNs + meterWindowNs ≤ now := by
  unfold MeterState.sweep
  by_cases hroom : m.entries.size < maxTrackedPrincipals
  · rw [if_pos hroom]
    exact .inl rfl
  rw [if_neg hroom]
  by_cases hdue : (m.lastSweepNs.all fun last => decide (sweepMinIntervalNs ≤ now - last)) = true
  · rw [if_pos hdue]
    show (m.entries.filter _)[k]? = _ ∨ (m.entries.filter _)[k]? = none ∧ _
    rw [Std.ExtTreeMap.getElem?_filter']
    cases hk : m.entries[k]? with
    | none => exact .inl rfl
    | some e =>
      by_cases hlive : now - e.windowStartNs < meterWindowNs
      · exact .inl (by rw [Option.filter_some, decide_eq_true hlive, if_pos rfl])
      · refine .inr ⟨?_, e, rfl, over_iff.1 (Nat.not_lt.1 hlive)⟩
        rw [Option.filter_some, decide_eq_false hlive]
        rfl
  · rw [if_neg hdue]
    exact .inl rfl

theorem sweep_size_le (now : Nat) (m : MeterState) : (m.sweep now).entries.size ≤ m.entries.size := by
  unfold MeterState.sweep
  by_cases hroom : m.entries.size < maxTrackedPrincipals
  · refine Nat.le_of_eq ?_
    rw [if_pos hroom]
  rw [if_neg hroom]
  by_cases hdue : (m.lastSweepNs.all fun last => decide (sweepMinIntervalNs ≤ now - last)) = true
  · rw [if_pos hdue]
    exact Std.ExtTreeMap.size_filter_le_size
  · refine Nat.le_of_eq ?_
    rw [if_neg hdue]

/-- A tracked principal is answered from its own entry. -/
theorem meterAdmit_tracked (h : m.entries[principalKey p]? = some e) :
    meterAdmit now p m =
      if maxDerivationsPerWindow ≤ (e.rolled now).count then
        (.error (.overBudget (meterWindowNs - (now - (e.rolled now).windowStartNs))),
          m.put p (e.rolled now))
      else (.ok (), m.put p {e.rolled now with count := (e.rolled now).count + 1}) := by
  rw [meterAdmit, h]

/-- Another is admitted unless the table is full after a sweep that is due. -/
theorem meterAdmit_untracked (h : m.entries[principalKey p]? = none) :
    meterAdmit now p m =
      if maxTrackedPrincipals ≤ (m.sweep now).entries.size then (.error .tableSaturated, m.sweep now)
      else (.ok (), (m.sweep now).put p ⟨now, 1⟩) := by
  rw [meterAdmit, h]

theorem rolled_over (h : e.windowStartNs + meterWindowNs ≤ now) : e.rolled now = ⟨now, 0⟩ :=
  if_pos (over_iff.2 h)

theorem rolled_live (h : ¬e.windowStartNs + meterWindowNs ≤ now) : e.rolled now = e :=
  if_neg fun hover => h (over_iff.1 hover)

/-- A call in a window that is over begins one. -/
theorem meterAdmit_blocked (h : m.entries[principalKey p]? = some e)
    (hover : e.windowStartNs + meterWindowNs ≤ now) :
    meterAdmit now p m = (.ok (), m.put p ⟨now, 1⟩) := by
  have hfresh : ¬maxDerivationsPerWindow ≤ 0 := by decide
  rw [meterAdmit_tracked h, rolled_over hover, if_neg hfresh]

/-- One in a window that is not over is admitted while there is budget. -/
theorem meterAdmit_live (h : m.entries[principalKey p]? = some e)
    (hlive : ¬e.windowStartNs + meterWindowNs ≤ now) :
    meterAdmit now p m =
      if maxDerivationsPerWindow ≤ e.count then
        (.error (.overBudget (meterWindowNs - (now - e.windowStartNs))), m.put p e)
      else (.ok (), m.put p {e with count := e.count + 1}) := by
  rw [meterAdmit_tracked h, rolled_live hlive]

theorem put_get (m : MeterState) (p : PrincipalBytes) (e : MeterEntry) (k : Bytes) :
    (m.put p e).entries[k]? = if k = principalKey p then some e else m.entries[k]? :=
  StableMap.get_insert_at m.entries _ k e

/-- A call leaves the other entries, but for those that are over. -/
theorem meterAdmit_get (now : Nat) (p : PrincipalBytes) (m : MeterState) (hk : k ≠ principalKey p) :
    (meterAdmit now p m).2.entries[k]? = m.entries[k]? ∨
      (meterAdmit now p m).2.entries[k]? = none ∧
        ∃ e, m.entries[k]? = some e ∧ e.windowStartNs + meterWindowNs ≤ now := by
  cases h : m.entries[principalKey p]? with
  | some e =>
    left
    rw [meterAdmit_tracked h]
    by_cases hfull : maxDerivationsPerWindow ≤ (e.rolled now).count
    · rw [if_pos hfull]
      exact (put_get _ _ _ _).trans (if_neg hk)
    · rw [if_neg hfull]
      exact (put_get _ _ _ _).trans (if_neg hk)
  | none =>
    rw [meterAdmit_untracked h]
    by_cases hfull : maxTrackedPrincipals ≤ (m.sweep now).entries.size
    · rw [if_pos hfull]
      exact sweep_get now m k
    · rw [if_neg hfull]
      show ((m.sweep now).put p _).entries[k]? = _ ∨ ((m.sweep now).put p _).entries[k]? = none ∧ _
      rw [put_get, if_neg hk]
      exact sweep_get now m k

theorem put_size_of_get {e' : MeterEntry} (h : m.entries[principalKey p]? = some e) :
    (m.put p e').entries.size = m.entries.size := StableMap.size_insert_of_get e' h

theorem put_size_le (m : MeterState) (p : PrincipalBytes) (e : MeterEntry) :
    (m.put p e).entries.size ≤ m.entries.size + 1 := Std.ExtTreeMap.size_insert_le

/-- The table stays within its bound. -/
theorem meterAdmit_size (now : Nat) (p : PrincipalBytes)
    (h : m.entries.size ≤ maxTrackedPrincipals) :
    (meterAdmit now p m).2.entries.size ≤ maxTrackedPrincipals := by
  cases hp : m.entries[principalKey p]? with
  | some e =>
    rw [meterAdmit_tracked hp]
    by_cases hfull : maxDerivationsPerWindow ≤ (e.rolled now).count
    · rw [if_pos hfull]
      exact Nat.le_trans (Nat.le_of_eq (put_size_of_get hp)) h
    · rw [if_neg hfull]
      exact Nat.le_trans (Nat.le_of_eq (put_size_of_get hp)) h
  | none =>
    rw [meterAdmit_untracked hp]
    by_cases hfull : maxTrackedPrincipals ≤ (m.sweep now).entries.size
    · rw [if_pos hfull]
      exact Nat.le_trans (sweep_size_le now m) h
    · rw [if_neg hfull]
      exact Nat.le_trans (put_size_le _ p _) (Nat.not_le.1 hfull)

end Step

/-! ### What the table says of a principal -/

section Runs
variable {p : PrincipalBytes} {c : MeterCall} {earlier calls : List MeterCall} {now : Nat}
  {e : MeterEntry}

/-- By now, the entry of a principal is of its last window; without an entry that window is over. -/
structure Metered (p : PrincipalBytes) (calls : List MeterCall) (now : Nat) : Prop where
  tracked : ∀ e, entryAfter calls p = some e → (starts p calls).head? = some e.windowStartNs ∧
    sinceStart p calls = e.count
  untracked : entryAfter calls p = none → ∀ start ∈ (starts p calls).head?,
    start + meterWindowNs ≤ now
  spaced : (starts p calls).Pairwise fun later earlier => earlier + meterWindowNs ≤ later
  budget : sinceStart p calls ≤ maxDerivationsPerWindow

theorem Metered.wait {later : Nat} (h : Metered p calls now) (hle : now ≤ later) :
    Metered p calls later where
  tracked := h.tracked
  untracked hnone start hstart := Nat.le_trans (h.untracked hnone start hstart) hle
  spaced := h.spaced
  budget := h.budget

/-- A call of the principal that begins a window and is admitted. -/
theorem Metered.begin (h : Metered c.caller earlier c.now) (hbegins : c.begins earlier = true)
    (hok : c.answer earlier = .ok ())
    (hentry : entryAfter (c :: earlier) c.caller = some ⟨c.now, 1⟩)
    (hover : ∀ start ∈ (starts c.caller earlier).head?, start + meterWindowNs ≤ c.now) :
    Metered c.caller (c :: earlier) c.now := by
  have hstarts : starts c.caller (c :: earlier) = c.now :: starts c.caller earlier :=
    if_pos ⟨rfl, hok, hbegins⟩
  have hsince : sinceStart c.caller (c :: earlier) = 1 := by
    rw [sinceStart, if_pos ⟨rfl, hok⟩, if_pos hbegins]
  refine ⟨fun e he => ?_, fun hnone => ?_, ?_, ?_⟩
  · rw [hentry, Option.some.injEq] at he
    rw [← he, hstarts, hsince]
    exact ⟨rfl, rfl⟩
  · rw [hentry] at hnone
    exact nomatch hnone
  · rw [hstarts]
    refine List.pairwise_cons.2 ⟨fun start hstart => ?_, h.spaced⟩
    -- Every window before is over, as the last one is and they are spaced.
    cases hlist : starts c.caller earlier with
    | nil =>
      rw [hlist] at hstart
      exact absurd hstart List.not_mem_nil
    | cons last rest =>
      have hlast := hover last (by rw [hlist]; rfl)
      rw [hlist] at hstart
      rcases List.mem_cons.1 hstart with rfl | hstart
      · exact hlast
      · have hspaced := h.spaced
        rw [hlist] at hspaced
        have := (List.pairwise_cons.1 hspaced).1 start hstart
        omega
  · rw [hsince]
    decide

/-- The principal's own call. -/
theorem Metered.own (h : Metered c.caller earlier c.now) : Metered c.caller (c :: earlier) c.now := by
  cases hentry : entryAfter earlier c.caller with
  | some e =>
    by_cases hover : e.windowStartNs + meterWindowNs ≤ c.now
    · have hcall := meterAdmit_blocked (m := tableAfter earlier) hentry hover
      refine h.begin ?_ (congrArg Prod.fst hcall) ?_ fun start hstart => ?_
      · rw [MeterCall.begins, hentry]
        exact decide_eq_true (over_iff.2 hover)
      · show (tableAfter (c :: earlier)).entries[principalKey c.caller]? = _
        rw [tableAfter, hcall]
        exact (put_get _ _ _ _).trans (if_pos rfl)
      · rw [(h.tracked e hentry).1, Option.mem_some_iff] at hstart
        rw [← hstart]
        exact hover
    · have hbegins : c.begins earlier = false := by
        rw [MeterCall.begins, hentry]
        exact decide_eq_false fun hle => hover (over_iff.1 hle)
      have hstarts : starts c.caller (c :: earlier) = starts c.caller earlier := by
        refine if_neg ?_
        rintro ⟨-, -, hb⟩
        rw [hbegins] at hb
        exact nomatch hb
      obtain ⟨hhead, hcount⟩ := h.tracked e hentry
      have hcall := meterAdmit_live (m := tableAfter earlier) hentry hover
      -- Both ways the entry keeps its window, and its count is what was admitted.
      have hgoes : ∀ e', entryAfter (c :: earlier) c.caller = some e' →
          e'.windowStartNs = e.windowStartNs → sinceStart c.caller (c :: earlier) = e'.count →
          e'.count ≤ maxDerivationsPerWindow → Metered c.caller (c :: earlier) c.now := by
        intro e' he' hwindow hsince hle
        refine ⟨fun e'' he'' => ?_, fun hnone => ?_, ?_, hsince ▸ hle⟩
        · rw [he', Option.some.injEq] at he''
          rw [← he'', hstarts, hwindow]
          exact ⟨hhead, hsince⟩
        · rw [he'] at hnone
          exact nomatch hnone
        · rw [hstarts]
          exact h.spaced
      by_cases hfull : maxDerivationsPerWindow ≤ e.count
      · rw [if_pos hfull] at hcall
        refine hgoes e ?_ rfl ?_ (hcount ▸ h.budget)
        · show (tableAfter (c :: earlier)).entries[principalKey c.caller]? = _
          rw [tableAfter, hcall]
          exact (put_get _ _ _ _).trans (if_pos rfl)
        · have hrefused : ¬(c.caller = c.caller ∧ c.answer earlier = .ok ()) := by
            rintro ⟨-, hok⟩
            rw [MeterCall.answer, hcall] at hok
            exact nomatch hok
          rw [sinceStart, if_neg hrefused, hcount]
      · rw [if_neg hfull] at hcall
        refine hgoes {e with count := e.count + 1} ?_ rfl ?_ (Nat.not_le.1 hfull)
        · show (tableAfter (c :: earlier)).entries[principalKey c.caller]? = _
          rw [tableAfter, hcall]
          exact (put_get _ _ _ _).trans (if_pos rfl)
        · have hok : c.answer earlier = .ok () := congrArg Prod.fst hcall
          rw [sinceStart, if_pos ⟨rfl, hok⟩, hbegins, hcount]
          rfl
  | none =>
    have hcall := @meterAdmit_untracked (tableAfter earlier) c.now _ hentry
    have hbegins : c.begins earlier = true := by
      rw [MeterCall.begins, hentry]
    by_cases hfull : maxTrackedPrincipals ≤ ((tableAfter earlier).sweep c.now).entries.size
    · rw [if_pos hfull] at hcall
      have hrefused : ¬c.answer earlier = .ok () := by
        intro hok
        rw [MeterCall.answer, hcall] at hok
        exact nomatch hok
      have hstarts : starts c.caller (c :: earlier) = starts c.caller earlier :=
        if_neg fun hand => hrefused hand.2.1
      have hsince : sinceStart c.caller (c :: earlier) = sinceStart c.caller earlier :=
        if_neg fun hand => hrefused hand.2
      have hstill : entryAfter (c :: earlier) c.caller = none := by
        show (tableAfter (c :: earlier)).entries[principalKey c.caller]? = _
        rw [tableAfter, hcall]
        rcases sweep_get c.now (tableAfter earlier) (principalKey c.caller) with hsame | ⟨hnone, -⟩
        · exact hsame.trans hentry
        · exact hnone
      refine ⟨fun e he => ?_, fun _ => ?_, ?_, ?_⟩
      · rw [hstill] at he
        exact nomatch he
      · rw [hstarts]
        exact h.untracked hentry
      · rw [hstarts]
        exact h.spaced
      · rw [hsince]
        exact h.budget
    · rw [if_neg hfull] at hcall
      refine h.begin hbegins (congrArg Prod.fst hcall) ?_ (h.untracked hentry)
      show (tableAfter (c :: earlier)).entries[principalKey c.caller]? = _
      rw [tableAfter, hcall]
      exact (put_get _ _ _ _).trans (if_pos rfl)

/-- The call of another. -/
theorem Metered.other (h : Metered p earlier c.now) (hp : c.caller ≠ p) :
    Metered p (c :: earlier) c.now := by
  have hstarts : starts p (c :: earlier) = starts p earlier := if_neg fun hand => hp hand.1
  have hsince : sinceStart p (c :: earlier) = sinceStart p earlier := if_neg fun hand => hp hand.1
  have hkey : principalKey p ≠ principalKey c.caller := fun heq => hp (principalKey_inj heq).symm
  refine ⟨fun e he => ?_, fun hnone start hstart => ?_, hstarts ▸ h.spaced, hsince ▸ h.budget⟩
  · rw [hstarts, hsince]
    rcases meterAdmit_get c.now c.caller (tableAfter earlier) hkey with hsame | ⟨hnone, -⟩
    · exact h.tracked e (hsame.symm.trans he)
    · exact nomatch hnone.symm.trans he
  · rw [hstarts] at hstart
    rcases meterAdmit_get c.now c.caller (tableAfter earlier) hkey with hsame | ⟨-, e, he, hover⟩
    · exact h.untracked (hsame.symm.trans hnone) start hstart
    · rw [(h.tracked e he).1, Option.mem_some_iff] at hstart
      rw [← hstart]
      exact hover

theorem metered (p : PrincipalBytes) (hclock : Clocked calls) (hnow : ∀ c ∈ calls, c.now ≤ now) :
    Metered p calls now := by
  induction calls generalizing now with
  | nil => exact ⟨nofun, nofun, List.Pairwise.nil, Nat.zero_le _⟩
  | cons c earlier ih =>
    obtain ⟨hlate, hclock⟩ := List.pairwise_cons.1 hclock
    have h := ih hclock hlate
    refine Metered.wait ?_ (hnow c List.mem_cons_self)
    by_cases hp : c.caller = p
    · subst hp
      exact h.own
    · exact h.other hp

theorem tableAfter_size (calls : List MeterCall) :
    (tableAfter calls).entries.size ≤ maxTrackedPrincipals := by
  induction calls with
  | nil => exact Nat.zero_le _
  | cons c earlier ih => exact meterAdmit_size c.now c.caller ih

/-! ### Sweeps -/

/-- A call sweeps, or it leaves the table of sweeps alone. -/
theorem sweep_or (c : MeterCall) (earlier : List MeterCall) :
    (c.sweeps earlier = true ∧
      (tableAfter (c :: earlier)).lastSweepNs = some c.now ∧
      (tableAfter (c :: earlier)).sweeps = (tableAfter earlier).sweeps + 1 ∧
      ∀ (k : Bytes) (e : MeterEntry), (tableAfter (c :: earlier)).entries[k]? = some e →
        c.now < e.windowStartNs + meterWindowNs) ∨
    (c.sweeps earlier = false ∧
      (tableAfter (c :: earlier)).lastSweepNs = (tableAfter earlier).lastSweepNs ∧
      (tableAfter (c :: earlier)).sweeps = (tableAfter earlier).sweeps) := by
  cases hentry : entryAfter earlier c.caller with
  | some e =>
    refine .inr ⟨by rw [MeterCall.sweeps, hentry]; rfl, ?_⟩
    have hcall := @meterAdmit_tracked (tableAfter earlier) c.now _ _ hentry
    rw [tableAfter, hcall]
    by_cases hfull : maxDerivationsPerWindow ≤ (e.rolled c.now).count
    · rw [if_pos hfull]
      exact ⟨rfl, rfl⟩
    · rw [if_neg hfull]
      exact ⟨rfl, rfl⟩
  | none =>
    have hcall := @meterAdmit_untracked (tableAfter earlier) c.now _ hentry
    -- Inserting the caller leaves the sweep's traces, and the caller's window is not over.
    have hsame : (tableAfter (c :: earlier)).lastSweepNs = ((tableAfter earlier).sweep c.now).lastSweepNs ∧
        (tableAfter (c :: earlier)).sweeps = ((tableAfter earlier).sweep c.now).sweeps ∧
        ∀ (k : Bytes) (e : MeterEntry), (tableAfter (c :: earlier)).entries[k]? = some e →
          ((tableAfter earlier).sweep c.now).entries[k]? = some e ∨ e = ⟨c.now, 1⟩ := by
      rw [tableAfter, hcall]
      by_cases hfull : maxTrackedPrincipals ≤ ((tableAfter earlier).sweep c.now).entries.size
      · rw [if_pos hfull]
        exact ⟨rfl, rfl, fun k e he => .inl he⟩
      · rw [if_neg hfull]
        refine ⟨rfl, rfl, fun k e he => ?_⟩
        have he : (((tableAfter earlier).sweep c.now).put c.caller ⟨c.now, 1⟩).entries[k]? = some e := he
        rw [put_get] at he
        by_cases hk : k = principalKey c.caller
        · rw [if_pos hk] at he
          exact .inr (Option.some.inj he).symm
        · rw [if_neg hk] at he
          exact .inl he
    obtain ⟨hlast, hsweeps, hentries⟩ := hsame
    rw [hlast, hsweeps]
    by_cases hroom : (tableAfter earlier).entries.size < maxTrackedPrincipals
    · refine .inr ⟨?_, ?_⟩
      · rw [MeterCall.sweeps, decide_eq_false (Nat.not_le.2 hroom), Bool.and_false, Bool.false_and]
      · rw [MeterState.sweep, if_pos hroom]
        exact ⟨rfl, rfl⟩
    have hfull := decide_eq_true (Nat.not_lt.1 hroom)
    by_cases hdue : ((tableAfter earlier).lastSweepNs.all fun last =>
        decide (sweepMinIntervalNs ≤ c.now - last)) = true
    · left
      have hswept : (tableAfter earlier).sweep c.now =
          ⟨(tableAfter earlier).entries.filter fun _ e => decide (c.now - e.windowStartNs < meterWindowNs),
            some c.now, (tableAfter earlier).sweeps + 1,
            satAdd64 (tableAfter earlier).entriesExamined (tableAfter earlier).entries.size⟩ := by
        rw [MeterState.sweep, if_neg hroom, if_pos hdue]
      rw [hswept] at hentries ⊢
      refine ⟨?_, rfl, rfl, fun k e he => ?_⟩
      · rw [MeterCall.sweeps, hentry, hfull, hdue]
        rfl
      · rcases hentries k e he with hkept | rfl
        · rw [Std.ExtTreeMap.getElem?_filter', Option.filter_eq_some_iff] at hkept
          have hlive := of_decide_eq_true hkept.2
          have := meterWindowNs_pos
          omega
        · exact Nat.lt_add_of_pos_right meterWindowNs_pos
    · refine .inr ⟨?_, ?_⟩
      · rw [MeterCall.sweeps, Bool.eq_false_iff.2 hdue, Bool.and_false]
      · rw [MeterState.sweep, if_neg hroom, if_neg hdue]
        exact ⟨rfl, rfl⟩

/-- The table knows when it was swept last, and how often. -/
theorem sweepTimes_spec (calls : List MeterCall) :
    (tableAfter calls).lastSweepNs = (sweepTimes calls).head? ∧
      (tableAfter calls).sweeps = (sweepTimes calls).length := by
  induction calls with
  | nil => exact ⟨rfl, rfl⟩
  | cons c earlier ih =>
    rcases sweep_or c earlier with ⟨hswept, hlast, hcount, -⟩ | ⟨hnot, hlast, hcount⟩
    · rw [sweepTimes, if_pos hswept, hlast, hcount, ih.2]
      exact ⟨rfl, rfl⟩
    · rw [sweepTimes, hnot, hlast, hcount]
      exact ih

/-- The sweeps are spaced. -/
theorem sweepTimes_spaced (calls : List MeterCall) :
    (sweepTimes calls).Pairwise fun later earlier => earlier + sweepMinIntervalNs ≤ later := by
  induction calls with
  | nil => exact List.Pairwise.nil
  | cons c earlier ih =>
    rw [sweepTimes]
    by_cases hsweeps : c.sweeps earlier = true
    · rw [if_pos hsweeps]
      refine List.pairwise_cons.2 ⟨fun t ht => ?_, ih⟩
      have hdue := (Bool.and_eq_true _ _ ▸ hsweeps : _ ∧ _).2
      rw [(sweepTimes_spec earlier).1] at hdue
      have hpos : 0 < sweepMinIntervalNs := by decide
      cases hlist : sweepTimes earlier with
      | nil =>
        rw [hlist] at ht
        exact absurd ht List.not_mem_nil
      | cons last rest =>
        rw [hlist] at hdue ht ih
        have hlast := of_decide_eq_true hdue
        rcases List.mem_cons.1 ht with rfl | ht
        · omega
        · have := (List.pairwise_cons.1 ih).1 t ht
          omega
    · rw [if_neg hsweeps]
      exact ih

/-- One call of the list that swept, and what it left: no window that was over by then. -/
def SweptAt (calls : List MeterCall) (t : Nat) : Prop :=
  ∃ c earlier, (c :: earlier) <:+ calls ∧ c.now = t ∧ c.sweeps earlier = true ∧
    ∀ (k : Bytes) (e : MeterEntry), (tableAfter (c :: earlier)).entries[k]? = some e →
      t < e.windowStartNs + meterWindowNs

theorem sweptAt (calls : List MeterCall) : ∀ t ∈ sweepTimes calls, SweptAt calls t := by
  induction calls with
  | nil => exact fun t ht => absurd ht List.not_mem_nil
  | cons c earlier ih =>
    intro t ht
    have hbefore : t ∈ sweepTimes earlier → SweptAt (c :: earlier) t := by
      intro ht
      obtain ⟨c', earlier', hsuffix, h⟩ := ih t ht
      exact ⟨c', earlier', hsuffix.trans (List.suffix_cons c earlier), h⟩
    rcases sweep_or c earlier with ⟨hswept, -, -, hlive⟩ | ⟨hnot, -⟩
    · rw [sweepTimes, if_pos hswept] at ht
      rcases List.mem_cons.1 ht with rfl | ht
      · exact ⟨c, earlier, List.suffix_refl _, rfl, hswept, hlive⟩
      · exact hbefore ht
    · rw [sweepTimes, hnot] at ht
      exact hbefore ht

/-- Where the table is found full, it was swept a short while ago at the longest. -/
theorem saturated_swept (h : c.answer earlier = .error .tableSaturated) :
    entryAfter earlier c.caller = none ∧
      (tableAfter (c :: earlier)).entries.size = maxTrackedPrincipals ∧
      ∃ t, SweptAt (c :: earlier) t ∧ c.now < t + sweepMinIntervalNs := by
  cases hentry : entryAfter earlier c.caller with
  | some e =>
    rw [MeterCall.answer, meterAdmit_tracked (m := tableAfter earlier) hentry] at h
    by_cases hfull : maxDerivationsPerWindow ≤ (e.rolled c.now).count
    · rw [if_pos hfull] at h
      exact nomatch h
    · rw [if_neg hfull] at h
      exact nomatch h
  | none =>
    have hcall := @meterAdmit_untracked (tableAfter earlier) c.now _ hentry
    rw [MeterCall.answer, hcall] at h
    by_cases hfull : maxTrackedPrincipals ≤ ((tableAfter earlier).sweep c.now).entries.size
    swap
    · rw [if_neg hfull] at h
      exact nomatch h
    rw [if_pos hfull] at hcall
    have htable : tableAfter (c :: earlier) = (tableAfter earlier).sweep c.now := by
      rw [tableAfter, hcall]
    refine ⟨rfl, Nat.le_antisymm (tableAfter_size (c :: earlier)) (htable ▸ hfull), ?_⟩
    have hbig := Nat.le_trans hfull (sweep_size_le c.now (tableAfter earlier))
    by_cases hsweeps : c.sweeps earlier = true
    · refine ⟨c.now, sweptAt _ _ ?_, Nat.lt_add_of_pos_right (by decide)⟩
      rw [sweepTimes, if_pos hsweeps]
      exact List.mem_cons_self
    · have hnotdue : ¬((tableAfter earlier).lastSweepNs.all fun last =>
          decide (sweepMinIntervalNs ≤ c.now - last)) = true := by
        intro hdue
        refine hsweeps ?_
        rw [MeterCall.sweeps, hentry, decide_eq_true hbig, hdue]
        rfl
      rw [(sweepTimes_spec earlier).1] at hnotdue
      cases hlist : sweepTimes earlier with
      | nil =>
        rw [hlist] at hnotdue
        exact absurd rfl hnotdue
      | cons last rest =>
        rw [hlist] at hnotdue
        refine ⟨last, sweptAt _ _ ?_, ?_⟩
        · rw [sweepTimes, if_neg hsweeps, hlist]
          exact List.mem_cons_self
        · have hrecent : ¬sweepMinIntervalNs ≤ c.now - last := fun hle => hnotdue (decide_eq_true hle)
          omega

/-! ### The table to oneself -/

/-- Calls of one principal fill no table. -/
theorem alone_size (h : ∀ c ∈ calls, c.caller = p) :
    (tableAfter calls).entries.size < maxTrackedPrincipals := by
  have honly : ∀ k e, (tableAfter calls).entries[k]? = some e → k = principalKey p := by
    induction calls with
    | nil => exact nofun
    | cons c earlier ih =>
      intro k e he
      have hc := h c List.mem_cons_self
      by_cases hk : k = principalKey p
      · exact hk
      · rcases meterAdmit_get c.now c.caller (tableAfter earlier) (hc ▸ hk) with hsame | ⟨hnone, -⟩
        · exact ih (fun c' hc' => h c' (List.mem_cons_of_mem _ hc')) k e (hsame.symm.trans he)
        · exact nomatch hnone.symm.trans he
  have hkeys : (tableAfter calls).entries.keys ⊆ [principalKey p] := by
    intro k hk
    obtain ⟨e, he⟩ := StableMap.mem_keys.1 hk
    exact List.mem_singleton.2 (honly k e he)
  have hlen := List.Nodup.length_le_of_subset (StableMap.keys_nodup _) hkeys
  rw [Std.ExtTreeMap.length_keys] at hlen
  exact Nat.lt_of_le_of_lt hlen (by decide : 1 < maxTrackedPrincipals)

theorem ownCalls_caller (p : PrincipalBytes) (calls : List MeterCall) :
    ∀ c ∈ ownCalls p calls, c.caller = p := by
  induction calls with
  | nil => exact nofun
  | cons c earlier ih =>
    rw [ownCalls]
    by_cases hown : c.caller = p ∧ c.answer earlier ≠ .error .tableSaturated
    · rw [if_pos hown]
      intro c' hc'
      rcases List.mem_cons.1 hc' with rfl | hc'
      · exact hown.1
      · exact ih c' hc'
    · rw [if_neg hown]
      exact ih

/-- What the shared table holds of a principal is what its own table would, unless it is over by
now. -/
def Agrees (p : PrincipalBytes) (calls : List MeterCall) (now : Nat) : Prop :=
  entryAfter calls p = entryAfter (ownCalls p calls) p ∨
    entryAfter calls p = none ∧
      ∀ e, entryAfter (ownCalls p calls) p = some e → e.windowStartNs + meterWindowNs ≤ now

/-- Where both agree, a call that does not find the table full has the same answer, and leaves the
same entry. -/
theorem Agrees.call (h : Agrees c.caller earlier c.now)
    (hroom : c.answer earlier ≠ .error .tableSaturated) :
    c.answer earlier = c.answer (ownCalls c.caller earlier) ∧
      entryAfter (c :: earlier) c.caller = entryAfter (c :: ownCalls c.caller earlier) c.caller := by
  have hsize := alone_size (ownCalls_caller c.caller earlier)
  -- The entry after a call that puts one.
  have hput : ∀ (m m' : MeterState) (e : MeterEntry) (r : Except MeterRejection Unit)
      (calls : List MeterCall), meterAdmit c.now c.caller (tableAfter calls) = (r, m.put c.caller e) →
      entryAfter (c :: calls) c.caller = some e := by
    intro m m' e r calls hcall
    show (tableAfter (c :: calls)).entries[principalKey c.caller]? = _
    rw [tableAfter, hcall]
    exact (put_get _ _ _ _).trans (if_pos rfl)
  -- A call that begins a window, of a principal that is tracked or not.
  have hfresh : ∀ calls : List MeterCall, (tableAfter calls).entries.size < maxTrackedPrincipals →
      (∀ e, entryAfter calls c.caller = some e → e.windowStartNs + meterWindowNs ≤ c.now) →
      c.answer calls = .ok () ∧ entryAfter (c :: calls) c.caller = some ⟨c.now, 1⟩ := by
    intro calls hsmall hover
    cases hentry : entryAfter calls c.caller with
    | some e =>
      have hcall := meterAdmit_blocked (m := tableAfter calls) hentry (hover e hentry)
      exact ⟨congrArg Prod.fst hcall, hput _ .default _ _ _ hcall⟩
    | none =>
      have hcall := @meterAdmit_untracked (tableAfter calls) c.now _ hentry
      have hfew := Nat.lt_of_le_of_lt (sweep_size_le c.now (tableAfter calls)) hsmall
      rw [if_neg (Nat.not_le.2 hfew)] at hcall
      exact ⟨congrArg Prod.fst hcall, hput _ .default _ _ _ hcall⟩
  cases hentry : entryAfter earlier c.caller with
  | some e =>
    have hown : entryAfter (ownCalls c.caller earlier) c.caller = some e := by
      rcases h with hsame | ⟨hnone, -⟩
      · rw [← hsame, hentry]
      · rw [hentry] at hnone
        exact nomatch hnone
    have hcall := @meterAdmit_tracked (tableAfter earlier) c.now _ _ hentry
    have hcall' := @meterAdmit_tracked (tableAfter (ownCalls c.caller earlier)) c.now _ _ hown
    by_cases hfull : maxDerivationsPerWindow ≤ (e.rolled c.now).count
    · rw [if_pos hfull] at hcall hcall'
      exact ⟨(congrArg Prod.fst hcall).trans (congrArg Prod.fst hcall').symm,
        (hput _ .default _ _ _ hcall).trans (hput _ .default _ _ _ hcall').symm⟩
    · rw [if_neg hfull] at hcall hcall'
      exact ⟨(congrArg Prod.fst hcall).trans (congrArg Prod.fst hcall').symm,
        (hput _ .default _ _ _ hcall).trans (hput _ .default _ _ _ hcall').symm⟩
  | none =>
    have hover : ∀ e, entryAfter (ownCalls c.caller earlier) c.caller = some e →
        e.windowStartNs + meterWindowNs ≤ c.now := by
      intro e he
      rcases h with hsame | ⟨-, hover⟩
      · exact nomatch hentry.symm.trans (hsame.trans he)
      · exact hover e he
    obtain ⟨hok, hleft⟩ := hfresh _ hsize hover
    have hcall := @meterAdmit_untracked (tableAfter earlier) c.now _ hentry
    by_cases hfull : maxTrackedPrincipals ≤ ((tableAfter earlier).sweep c.now).entries.size
    · rw [if_pos hfull] at hcall
      exact absurd (congrArg Prod.fst hcall) hroom
    · rw [if_neg hfull] at hcall
      exact ⟨(congrArg Prod.fst hcall).trans hok.symm, (hput _ .default _ _ _ hcall).trans hleft.symm⟩

theorem Agrees.wait {later : Nat} (h : Agrees p calls now) (hle : now ≤ later) : Agrees p calls later :=
  h.imp_right fun ⟨hnone, hover⟩ => ⟨hnone, fun e he => Nat.le_trans (hover e he) hle⟩

/-- A call that does not count leaves the entry, or forgets it once it is over. -/
theorem Agrees.skip (h : Agrees p earlier c.now) (hown : ownCalls p (c :: earlier) = ownCalls p earlier)
    (hleft : entryAfter (c :: earlier) p = entryAfter earlier p ∨ entryAfter (c :: earlier) p = none ∧
      ∃ e, entryAfter earlier p = some e ∧ e.windowStartNs + meterWindowNs ≤ c.now) :
    Agrees p (c :: earlier) c.now := by
  unfold Agrees
  rw [hown]
  rcases hleft with hsame | ⟨hnone, e, he, hover⟩
  · rw [hsame]
    exact h
  · refine .inr ⟨hnone, fun e' he' => ?_⟩
    rcases h with hsame | ⟨hgone, -⟩
    · obtain rfl := Option.some.inj (he.symm.trans (hsame.trans he'))
      exact hover
    · exact nomatch he.symm.trans hgone

theorem agrees (p : PrincipalBytes) (hclock : Clocked calls) (hnow : ∀ c ∈ calls, c.now ≤ now) :
    Agrees p calls now := by
  induction calls generalizing now with
  | nil => exact .inl rfl
  | cons c earlier ih =>
    obtain ⟨hlate, hclock⟩ := List.pairwise_cons.1 hclock
    have h := ih hclock hlate
    refine Agrees.wait ?_ (hnow c List.mem_cons_self)
    by_cases hp : c.caller = p
    · subst hp
      by_cases hroom : c.answer earlier = .error .tableSaturated
      · refine h.skip (if_neg fun hand => hand.2 hroom) ?_
        obtain ⟨hnone, -⟩ := saturated_swept hroom
        left
        have hcall := @meterAdmit_untracked (tableAfter earlier) c.now _ hnone
        by_cases hfull : maxTrackedPrincipals ≤ ((tableAfter earlier).sweep c.now).entries.size
        · rw [if_pos hfull] at hcall
          show (tableAfter (c :: earlier)).entries[principalKey c.caller]? = _
          rw [tableAfter, hcall, hnone]
          rcases sweep_get c.now (tableAfter earlier) (principalKey c.caller) with hsame | ⟨hgone, -⟩
          · exact hsame.trans hnone
          · exact hgone
        · rw [if_neg hfull] at hcall
          rw [MeterCall.answer, hcall] at hroom
          exact nomatch hroom
      · left
        rw [ownCalls, if_pos ⟨rfl, hroom⟩]
        exact (h.call hroom).2
    · have hkey : principalKey p ≠ principalKey c.caller := fun heq => hp (principalKey_inj heq).symm
      exact h.skip (if_neg fun hand => hp hand.1) (meterAdmit_get c.now c.caller (tableAfter earlier) hkey)

/-- A principal that does not find the table full is answered as if it had the table to itself. -/
theorem answer_own (hclock : Clocked (c :: earlier)) (hroom : c.answer earlier ≠ .error .tableSaturated) :
    c.answer earlier = c.answer (ownCalls c.caller earlier) := by
  obtain ⟨hlate, hclock⟩ := List.pairwise_cons.1 hclock
  exact ((agrees c.caller hclock hlate).call hroom).1

/-- A tracked principal is refused only if its window has had its budget and is not over. -/
theorem tracked_refused {r : MeterRejection} (hclock : Clocked (c :: earlier))
    (hentry : entryAfter earlier c.caller = some e) (h : c.answer earlier = .error r) :
    sinceStart c.caller earlier = maxDerivationsPerWindow ∧ c.begins earlier = false := by
  obtain ⟨hlate, hclock⟩ := List.pairwise_cons.1 hclock
  have hmetered := metered c.caller hclock hlate
  obtain ⟨-, hcount⟩ := hmetered.tracked e hentry
  by_cases hover : e.windowStartNs + meterWindowNs ≤ c.now
  · rw [MeterCall.answer, meterAdmit_blocked (m := tableAfter earlier) hentry hover] at h
    exact nomatch h
  · rw [MeterCall.answer, meterAdmit_live (m := tableAfter earlier) hentry hover] at h
    by_cases hfull : maxDerivationsPerWindow ≤ e.count
    · refine ⟨Nat.le_antisymm hmetered.budget (hcount ▸ hfull), ?_⟩
      rw [MeterCall.begins, hentry]
      exact decide_eq_false fun hle => hover (over_iff.1 hle)
    · rw [if_neg hfull] at h
      exact nomatch h

/-- The table is bounded, and the meter is fair: no principal is admitted more often in a window of
its own than the budget allows, and its windows are spaced, however often it was forgotten. One that
is tracked is refused only for its own calls, another only while the table is full and was swept a
short while ago. A principal that does not find the table full is answered as if it were alone; and
the sweeps are spaced. -/
theorem meter_fair {c : MeterCall} {earlier : List MeterCall} (hclock : Clocked (c :: earlier)) :
    (tableAfter (c :: earlier)).entries.size ≤ maxTrackedPrincipals ∧
    (∀ p, (starts p (c :: earlier)).Pairwise fun later before => before + meterWindowNs ≤ later) ∧
    (∀ p, sinceStart p (c :: earlier) ≤ maxDerivationsPerWindow) ∧
    (∀ e r, entryAfter earlier c.caller = some e → c.answer earlier = .error r →
      sinceStart c.caller earlier = maxDerivationsPerWindow ∧ c.begins earlier = false) ∧
    (c.answer earlier = c.answer (ownCalls c.caller earlier) ∨
      c.answer earlier = .error .tableSaturated) ∧
    (∀ r, entryAfter earlier c.caller = none → c.answer earlier = .error r →
      r = .tableSaturated ∧ (tableAfter (c :: earlier)).entries.size = maxTrackedPrincipals ∧
        ∃ t, SweptAt (c :: earlier) t ∧ c.now < t + sweepMinIntervalNs) ∧
    (c.answer earlier = .error .tableSaturated → entryAfter earlier c.caller = none) ∧
    (tableAfter (c :: earlier)).sweeps = (sweepTimes (c :: earlier)).length ∧
    (sweepTimes (c :: earlier)).Pairwise fun later before => before + sweepMinIntervalNs ≤ later := by
  have hnow : ∀ c' ∈ c :: earlier, c'.now ≤ c.now := by
    intro c' hc'
    rcases List.mem_cons.1 hc' with rfl | hc'
    · exact Nat.le_refl _
    · exact (List.pairwise_cons.1 hclock).1 c' hc'
  refine ⟨tableAfter_size _, fun p => (metered p hclock hnow).spaced,
    fun p => (metered p hclock hnow).budget, fun e r he hr => tracked_refused hclock he hr, ?_,
    fun r hnone hr => ?_, fun hfull => (saturated_swept hfull).1, (sweepTimes_spec _).2,
    sweepTimes_spaced _⟩
  · by_cases hroom : c.answer earlier = .error .tableSaturated
    · exact .inr hroom
    · exact .inl (answer_own hclock hroom)
  · have hcall := @meterAdmit_untracked (tableAfter earlier) c.now _ hnone
    by_cases hfull : maxTrackedPrincipals ≤ ((tableAfter earlier).sweep c.now).entries.size
    · rw [if_pos hfull] at hcall
      have hanswer : c.answer earlier = .error .tableSaturated := congrArg Prod.fst hcall
      rw [hanswer, Except.error.injEq] at hr
      exact ⟨hr.symm, (saturated_swept hanswer).2⟩
    · rw [if_neg hfull] at hcall
      rw [MeterCall.answer, hcall] at hr
      exact nomatch hr

end Runs

/-- Six calls of one principal. -/
def sixCalls : List MeterCall :=
  [6, 5, 4, 3, 2, 1].map fun now => ⟨now, PrincipalBytes.anonymous⟩

/-- The sixth call in a window is refused, for the five before it. -/
theorem meter_fair_sixth :
    (⟨6, PrincipalBytes.anonymous⟩ : MeterCall).answer sixCalls.tail =
        .error (.overBudget (meterWindowNs - 5)) ∧
      sinceStart PrincipalBytes.anonymous sixCalls.tail = maxDerivationsPerWindow := by
  have hclock : Clocked (⟨6, PrincipalBytes.anonymous⟩ :: sixCalls.tail) := by
    show sixCalls.Pairwise fun later earlier => earlier.now ≤ later.now
    decide
  have hentry : entryAfter sixCalls.tail PrincipalBytes.anonymous = some ⟨1, 5⟩ := by decide +kernel
  have hanswer : (⟨6, PrincipalBytes.anonymous⟩ : MeterCall).answer sixCalls.tail =
      .error (.overBudget (meterWindowNs - 5)) := by
    rw [MeterCall.answer, meterAdmit_tracked (m := tableAfter sixCalls.tail) hentry]
    rfl
  exact ⟨hanswer, ((meter_fair hclock).2.2.2.1 _ _ hentry hanswer).1⟩

end StshProtocol.Vetkeys
