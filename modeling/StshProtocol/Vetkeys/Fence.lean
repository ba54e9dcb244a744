import StshProtocol.Vetkeys.State

/-! Admission of a derive: the hourly meter, then the daily quota.

A call first takes one of its principal's hourly admissions from the meter, which is a bounded
table on the heap. Then it takes a reservation: what is committed and what is reserved of a
principal are together never more than the quota. A reservation that does not come to its
dispatch in time may be pruned; one whose call is out may not, but is charged once it is old. -/
namespace StshProtocol.Vetkeys
open Foundation ShieldedPool Vesting

/-! ### The meter -/

def maxDerivationsPerWindow : Nat := 5

def meterWindowNs : Nat := 3_600_000_000_000

def maxTrackedPrincipals : Nat := 100_000

def sweepMinIntervalNs : Nat := 60_000_000_000

inductive MeterRejection where
  | overBudget (retryAfterNs : Nat)
  | tableSaturated
  deriving DecidableEq, Repr

def MeterRejection.message : MeterRejection → String
  | .overBudget retryAfterNs =>
    s!"rate limit: at most {maxDerivationsPerWindow} vetKey derivations per principal per " ++
      s!"{meterWindowNs / 1_000_000_000} s; retry in " ++
      s!"{(retryAfterNs + 999_999_999) / 1_000_000_000} s"
  | .tableSaturated =>
    s!"rate-limit table saturated ({maxTrackedPrincipals} tracked principals): the canister is " ++
      "refusing NEW derivations to protect its cycle balance. This is fail-closed and " ++
      "self-healing; retry shortly."

/-- The entry of a tracked principal, its window begun anew if it is over. -/
def MeterEntry.rolled (nowNs : Nat) (e : MeterEntry) : MeterEntry :=
  if meterWindowNs ≤ nowNs - e.windowStartNs then ⟨nowNs, 0⟩ else e

/-- The sweep of a full table, unless the last one is too recent. -/
def MeterState.sweep (nowNs : Nat) (m : MeterState) : MeterState :=
  if m.entries.size < maxTrackedPrincipals then m
  else if m.lastSweepNs.all fun last => decide (sweepMinIntervalNs ≤ nowNs - last) then
    {entries := m.entries.filter fun _ e => decide (nowNs - e.windowStartNs < meterWindowNs)
     lastSweepNs := some nowNs
     sweeps := m.sweeps + 1
     entriesExamined := satAdd64 m.entriesExamined m.entries.size}
  else m

def MeterState.put (m : MeterState) (caller : PrincipalBytes) (e : MeterEntry) : MeterState :=
  {m with entries := m.entries.insert (principalKey caller) e}

/-- The meter's answer, and the table it leaves, which a refusal may have changed too. -/
def meterAdmit (nowNs : Nat) (caller : PrincipalBytes) (m : MeterState) :
    Except MeterRejection Unit × MeterState :=
  match m.entries[principalKey caller]? with
  | some entry =>
    let rolled := entry.rolled nowNs
    if maxDerivationsPerWindow ≤ rolled.count then
      (.error (.overBudget (meterWindowNs - (nowNs - rolled.windowStartNs))), m.put caller rolled)
    else (.ok (), m.put caller {rolled with count := rolled.count + 1})
  | none =>
    let swept := m.sweep nowNs
    if maxTrackedPrincipals ≤ swept.entries.size then (.error .tableSaturated, swept)
    else (.ok (), swept.put caller ⟨nowNs, 1⟩)

/-! ### The quota -/

structure Admitted where
  reservationId : Nat
  remaining : Nat
  deriving DecidableEq, Repr

namespace AdmissionState

/-- Timestamps that have left the window are dropped. -/
def pruneCommitted (nowNs : Nat) (st : AdmissionState) : AdmissionState :=
  {st with committed := st.committed.filter fun t => decide (nowNs - t < deriveWindowNs)}

/-- The reservation's call is out, or the reservation is still in time for it. -/
def InTime (nowNs : Nat) (r : Reservation) : Prop :=
  r.phase ≠ .preDispatch ∨ nowNs - r.createdAtNs < stalePredispatchTtlNs

instance (nowNs : Nat) (r : Reservation) : Decidable (InTime nowNs r) :=
  inferInstanceAs (Decidable (_ ∨ _))

/-- Reservations that were not dispatched in time are dropped, and no others. -/
def pruneStalePredispatch (nowNs : Nat) (st : AdmissionState) : AdmissionState :=
  {st with reservations := st.reservations.filter fun r => decide (InTime nowNs r)}

/-- A call is out for the reservation, and has been reserved for as long as the window. -/
def StaleDispatched (nowNs : Nat) (r : Reservation) : Prop :=
  r.phase = .dispatched ∧ staleDispatchedChargeNs ≤ nowNs - r.createdAtNs

instance (nowNs : Nat) (r : Reservation) : Decidable (StaleDispatched nowNs r) :=
  inferInstanceAs (Decidable (_ ∧ _))

def staleDispatched (nowNs : Nat) (st : AdmissionState) : List Reservation :=
  st.reservations.filter fun r => decide (StaleDispatched nowNs r)

/-- Such reservations become timestamps at their own creation. -/
def staleChargeDispatched (nowNs : Nat) (st : AdmissionState) : AdmissionState :=
  {st with
    reservations := st.reservations.filter fun r => decide ¬StaleDispatched nowNs r
    committed := st.committed ++ (st.staleDispatched nowNs).map (·.createdAtNs)}

/-- When the reservation's slot frees. -/
def freeAt (r : Reservation) : Nat :=
  match r.phase with
  | .preDispatch => satAdd64 r.createdAtNs stalePredispatchTtlNs
  | .dispatched => satAdd64 (satAdd64 r.createdAtNs staleDispatchedChargeNs) 1

def nextFreeNs (st : AdmissionState) : Option Nat :=
  (st.committed.map (satAdd64 · deriveWindowNs) ++ st.reservations.map freeAt).min?

/-- What an admission first makes of the state. -/
def swept (nowNs : Nat) (st : AdmissionState) : AdmissionState :=
  ((st.pruneCommitted nowNs).pruneStalePredispatch nowNs).staleChargeDispatched nowNs

/-- The slots taken. -/
def used (st : AdmissionState) : Nat := st.committed.length + st.reservations.length

/-- The state with a reservation more. -/
def reserve (nowNs : Nat) (st : AdmissionState) : AdmissionState :=
  {st with
    reservations := st.reservations ++ [⟨st.nextReservationId, nowNs, .preDispatch⟩]
    nextReservationId := satAdd64 st.nextReservationId 1}

/-- The answer of an admission, a refusal telling how long to wait, and the state it leaves. -/
def tryAdmit (nowNs : Nat) (st : AdmissionState) : Except Nat Admitted × AdmissionState :=
  let st := st.swept nowNs
  if deriveQuota ≤ st.used then
    (.error ((st.nextFreeNs.map (· - nowNs)).getD 0), st)
  else
    (.ok ⟨st.nextReservationId, deriveQuota - (st.reserve nowNs).used⟩, st.reserve nowNs)

/-- The reservation is there, and its call is not out. -/
def StillPredispatch (st : AdmissionState) (id : Nat) : Prop :=
  ∃ r ∈ st.reservations, r.id = id ∧ r.phase = .preDispatch

instance (st : AdmissionState) (id : Nat) : Decidable (st.StillPredispatch id) :=
  inferInstanceAs (Decidable (∃ r ∈ st.reservations, _))

/-- The first reservation of this id whose call is not out goes over to the other phase. -/
def flip (id : Nat) : List Reservation → List Reservation
  | [] => []
  | r :: rest =>
    if r.id = id ∧ r.phase = .preDispatch then {r with phase := .dispatched} :: rest
    else r :: flip id rest

/-- `None` is a lapsed admission. -/
def revalidateForDispatch (st : AdmissionState) (id : Nat) : Option AdmissionState :=
  if st.StillPredispatch id then some {st with reservations := flip id st.reservations} else none

/-- Whether there was a reservation to finalize, and the state with it committed now. -/
def finalize (nowNs : Nat) (st : AdmissionState) (id : Nat) : Bool × AdmissionState :=
  let kept := st.reservations.filter fun r => decide (r.id ≠ id)
  if kept.length = st.reservations.length then (false, {st with reservations := kept})
  else (true, {st with reservations := kept, committed := st.committed ++ [nowNs]})

/-- Whether there was a reservation to release, and the state without it. -/
def release (st : AdmissionState) (id : Nat) : Bool × AdmissionState :=
  let kept := st.reservations.filter fun r => decide ¬(r.id = id ∧ r.phase = .preDispatch)
  (decide (kept.length ≠ st.reservations.length), {st with reservations := kept})

end AdmissionState

inductive PreflightRejection where
  | meter (rejection : MeterRejection)
  | quota (retryAfterNs : Nat)
  deriving DecidableEq, Repr

/-- The meter, then the quota. -/
def preflight (nowNs : Nat) (caller : PrincipalBytes) (meter : MeterState) (st : AdmissionState) :
    Except PreflightRejection Admitted × MeterState × AdmissionState :=
  match meterAdmit nowNs caller meter with
  | (.error rejection, meter') => (.error (.meter rejection), meter', st)
  | (.ok (), meter') =>
    match st.tryAdmit nowNs with
    | (.error retryAfterNs, st') => (.error (.quota retryAfterNs), meter', st')
    | (.ok admitted, st') => (.ok admitted, meter', st')

end StshProtocol.Vetkeys

/-! The fence before a dispatch.

In the message that makes the management call, and right before it, the reservation must still
be there, the canister must keep its floor of cycles after the call, the principal must be under
its hourly cap and the fleet under its hourly budget. A refusal changes nothing; otherwise the
reservation changes its phase and the call is recorded, both at once. -/
namespace StshProtocol.Vetkeys
open Foundation ShieldedPool Vesting

def cycleFloorAdmits (liquid liveCost : Nat) : Bool :=
  decide (satAdd128 liveCost deriveCycleFloorCycles ≤ liquid)

/-- A price that cannot be told refuses, with the floor alone as what is required. -/
def resolveLiveCost (liquid : Nat) (cost : Except String Nat) : Except VetkeysError Nat :=
  match cost with
  | .ok liveCost => .ok liveCost
  | .error _ => .error (.cycleFloorReached liquid deriveCycleFloorCycles)

namespace GlobalDeriveWindow

def Expired (nowNs ts : Nat) : Prop := globalDeriveWindowNs ≤ nowNs - ts

instance (nowNs ts : Nat) : Decidable (Expired nowNs ts) := inferInstanceAs (Decidable (_ ≤ _))

/-- The dispatches of the last hour. -/
def retained (nowNs : Nat) (win : GlobalDeriveWindow) : List DispatchRecord :=
  win.dispatched.filter fun r => decide ¬Expired nowNs r.atNs

def pruneWindow (nowNs : Nat) (win : GlobalDeriveWindow) : GlobalDeriveWindow :=
  ⟨win.retained nowNs⟩

def retainedCount (nowNs : Nat) (win : GlobalDeriveWindow) : Nat := (win.retained nowNs).length

def globalRetryAfterNs (nowNs : Nat) (win : GlobalDeriveWindow) : Nat :=
  if win.retainedCount nowNs < globalDeriveBudget then 0
  else
    let oldestRetained := ((win.retained nowNs).map (·.atNs)).min?.getD nowNs
    satAdd64 oldestRetained globalDeriveWindowNs - nowNs

def recordDispatch (nowNs : Nat) (who : PrincipalKey) (firstDerive : Bool)
    (win : GlobalDeriveWindow) : GlobalDeriveWindow :=
  ⟨win.dispatched ++ [⟨nowNs, some who, firstDerive⟩]⟩

/-- The principal's own dispatches of the last hour. -/
def own (nowNs : Nat) (who : PrincipalKey) (win : GlobalDeriveWindow) : List Nat :=
  ((win.retained nowNs).filter fun r => decide (r.who = some who)).map (·.atNs)

end GlobalDeriveWindow

inductive FenceDecision where
  | refuse (error : VetkeysError)
  | commit
  deriving DecidableEq, Repr

def fenceDecide (nowNs reservationId liquid liveCost : Nat) (st : AdmissionState)
    (win : GlobalDeriveWindow) (who : PrincipalKey) : FenceDecision :=
  if ¬st.StillPredispatch reservationId then .refuse .admissionLapsed
  else if ¬cycleFloorAdmits liquid liveCost then
    .refuse (.cycleFloorReached liquid (satAdd128 liveCost deriveCycleFloorCycles))
  else if perPrincipalHourlyDeriveCap ≤ (win.own nowNs who).length then
    .refuse (.principalHourlyDerivationCapExceeded
      (satAdd64 ((win.own nowNs who).min?.getD u64Max) globalDeriveWindowNs - nowNs))
  else if globalDeriveBudget ≤ win.retainedCount nowNs then
    .refuse (.globalDerivationBudgetExceeded (win.globalRetryAfterNs nowNs))
  else .commit

/-- A fence that commits has found the reservation waiting, and room in both windows. -/
theorem fenceDecide_commit {nowNs id liquid liveCost : Nat} {st : AdmissionState}
    {win : GlobalDeriveWindow} {who : PrincipalKey}
    (h : fenceDecide nowNs id liquid liveCost st win who = .commit) :
    st.StillPredispatch id ∧ (win.own nowNs who).length < perPrincipalHourlyDeriveCap ∧
      win.retainedCount nowNs < globalDeriveBudget := by
  unfold fenceDecide at h
  by_cases hstill : st.StillPredispatch id
  · rw [if_neg (not_not_intro hstill)] at h
    by_cases hfloor : cycleFloorAdmits liquid liveCost
    · rw [if_neg (not_not_intro hfloor)] at h
      by_cases hown : perPrincipalHourlyDeriveCap ≤ (win.own nowNs who).length
      · rw [if_pos hown] at h
        exact nomatch h
      · rw [if_neg hown] at h
        by_cases hfleet : globalDeriveBudget ≤ win.retainedCount nowNs
        · rw [if_pos hfleet] at h
          exact nomatch h
        · exact ⟨hstill, Nat.lt_of_not_le hown, Nat.lt_of_not_le hfleet⟩
    · rw [if_pos hfloor] at h
      exact nomatch h
  · rw [if_pos hstill] at h
    exact nomatch h

end StshProtocol.Vetkeys
