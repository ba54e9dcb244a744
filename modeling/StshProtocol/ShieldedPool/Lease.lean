import StshProtocol.Foundation.Transition
import StshProtocol.ShieldedPool.Recovery.Refinement

/-! The append lease over whole runs, and what an upgrade does with it.

An upgrade checks the lease against the record of its owner, and traps or leaves the two as the next
upgrade finds them (`LeaseSettled`). Continuations call the lease with what they were granted, however
late and in any order. Of all grants only the last is ever honoured, and only until it is released, and
no upgrade changes that (`honoured_last`). -/
namespace StshProtocol.ShieldedPool
open Foundation

/-- What a continuation holds of the lease: the owner and the generation. -/
abbrev LeaseGrant : Type := AppendLeaseOwner × Nat

def AppendLease.grant (l : AppendLease) : LeaseGrant := (l.owner, l.generation)

/-! ### The check of an upgrade -/

/-- The record of an owner. -/
def Pool.recordOf (p : Pool) : AppendLeaseOwner → Option (PendingDeposit ⊕ PendingSpend)
  | .deposit c => (p.deposits.pending[c]?).map .inl
  | .spend id => (p.spends.pending[id]?).map .inr

def Pool.updateRecord (p : Pool) (f : PendingDeposit → PendingDeposit) (g : PendingSpend → PendingSpend) :
    AppendLeaseOwner → Pool
  | .deposit c => {p with deposits.pending := p.deposits.pending.modify c f}
  | .spend id => {p with spends.pending := p.spends.pending.modify id g}

def leaseTupleAction (phase : LeasePhase) : PendingDeposit ⊕ PendingSpend → LeaseUpgradeAction
  | .inl d => depositLeaseTupleAction phase d.status
  | .inr s => spendLeaseTupleAction phase s.status

def depositUnknown (d : PendingDeposit) : PendingDeposit := {d with status := .commitmentAppendUnknown}

def spendUnknown (s : PendingSpend) : PendingSpend :=
  {s with status := .activeAppendUnknown ("restored by post_upgrade (P-ROOT): active append was in flight " ++
    "when the canister upgraded — reconcile_pending_spend resolves")}

inductive LeaseTrap where
  | noSuchRecord (owner : AppendLeaseOwner)
  | illegalTuple (phase : LeasePhase) (owner : AppendLeaseOwner)
  deriving DecidableEq, Repr

/-- The answers of the two calls are not looked at. -/
def AppendLeaseCellState.toUnknown (cell : AppendLeaseCellState) (l : AppendLease) (now : Nat) :
    AppendLeaseCellState :=
  (leaseTransition cell l.owner l.generation l.phase .appendUnknown now).getD cell

def AppendLeaseCellState.freed (cell : AppendLeaseCellState) (l : AppendLease) : AppendLeaseCellState :=
  (leaseRelease cell l.owner l.generation).getD cell

/-- The lease verification of `post_upgrade`: the pool, and who holds the lease. It is one for both
kinds of owner but for their tables, and for the record of a spend that was being reconciled, which
says already that the append is unknown. -/
def verifyLease (p : Pool) (now : Nat) : Except LeaseTrap (Pool × Option AppendLeaseOwner) :=
  match p.lease.lease with
  | none => .ok (p, none)
  | some l =>
    match p.recordOf l.owner with
    | none => .error (.noSuchRecord l.owner)
    | some record =>
      match leaseTupleAction l.phase record with
      | .releaseRetryable => .ok ({p with lease := p.lease.freed l}, none)
      | .normalizeToAppendUnknown =>
        .ok ({p.updateRecord depositUnknown spendUnknown l.owner with lease := p.lease.toUnknown l now},
          some l.owner)
      | .normalizeReconcileToAppendUnknown =>
        .ok ({p.updateRecord depositUnknown id l.owner with lease := p.lease.toUnknown l now}, some l.owner)
      | .retainForReconciliation | .retainContinueFinalization => .ok (p, some l.owner)
      | .trap => .error (.illegalTuple l.phase l.owner)

/-- What the check leaves: the lease free, or held under the grant it was held under; all other records
as they were; and nothing for the next upgrade to do or to refuse. -/
structure LeaseSettled (p p' : Pool) (owner : Option AppendLeaseOwner) : Prop where
  holder : p'.lease.lease.map AppendLease.owner = owner
  counter : p'.lease.nextGeneration = p.lease.nextGeneration
  kept : ∀ l, p'.lease.lease = some l → ∃ before, p.lease.lease = some before ∧ l.grant = before.grant
  others : ∀ o, owner ≠ some o → p'.recordOf o = p.recordOf o
  again : ∀ later, verifyLease p' later = .ok (p', owner)

section Upgrade
variable {p p' : Pool} {now : Nat} {owner : Option AppendLeaseOwner} {l : AppendLease}
  {f : PendingDeposit → PendingDeposit} {g : PendingSpend → PendingSpend}

theorem toUnknown_eq (h : p.lease.lease = some l) : p.lease.toUnknown l now =
    {p.lease with lease := some {l with phase := .appendUnknown, phaseStartedAtNs := now}} := by
  simp [AppendLeaseCellState.toUnknown, leaseTransition, h, AppendLease.heldBy]

theorem freed_eq (h : p.lease.lease = some l) : p.lease.freed l = {p.lease with lease := none} := by
  simp [AppendLeaseCellState.freed, leaseRelease, h, AppendLease.heldBy]

theorem recordOf_updateRecord (o o' : AppendLeaseOwner) : (p.updateRecord f g o).recordOf o' =
    if o = o' then (p.recordOf o').map (Sum.map f g) else p.recordOf o' := by
  cases o with
  | deposit c =>
    cases o' with
    | spend id => rfl
    | deposit c' =>
      by_cases hc : c = c' <;>
        simp [Pool.updateRecord, Pool.recordOf, Std.ExtTreeMap.getElem?_modify, hc, Function.comp_def]
  | spend id =>
    cases o' with
    | deposit c => rfl
    | spend id' =>
      by_cases hid : id = id' <;>
        simp [Pool.updateRecord, Pool.recordOf, Std.ExtTreeMap.getElem?_modify, hid, Function.comp_def]

/-- What was in flight is retained once it is unknown. -/
theorem normalized_retained {record : PendingDeposit ⊕ PendingSpend} :
    leaseTupleAction .appendUnknown (Sum.map depositUnknown spendUnknown record) =
      .retainForReconciliation := by
  cases record with
  | inl d => rfl
  | inr s => rfl

theorem reconcile_retained {phase : LeasePhase} {record : PendingDeposit ⊕ PendingSpend}
    (h : leaseTupleAction phase record = .normalizeReconcileToAppendUnknown) :
    leaseTupleAction .appendUnknown (Sum.map depositUnknown id record) = .retainForReconciliation := by
  cases record with
  | inl d => rfl
  | inr s => cases phase <;> cases hs : s.status <;> simp_all [leaseTupleAction, spendLeaseTupleAction]

theorem settled_held {before : AppendLease} {record : PendingDeposit ⊕ PendingSpend}
    (hl : p'.lease.lease = some l) (hcounter : p'.lease.nextGeneration = p.lease.nextGeneration)
    (hbefore : p.lease.lease = some before) (hgrant : l.grant = before.grant)
    (hrecord : p'.recordOf l.owner = some record)
    (haction : leaseTupleAction l.phase record = .retainForReconciliation ∨
      leaseTupleAction l.phase record = .retainContinueFinalization)
    (hothers : ∀ o, l.owner ≠ o → p'.recordOf o = p.recordOf o) : LeaseSettled p p' (some l.owner) where
  holder := by rw [hl]; rfl
  counter := hcounter
  kept l' hl' := by
    obtain rfl := Option.some.inj (hl.symm.trans hl')
    exact ⟨before, hbefore, hgrant⟩
  others o ho := hothers o fun heq => ho (congrArg some heq)
  again _ := by
    rcases haction with haction | haction <;> simp only [verifyLease, hl, hrecord, haction]

theorem settled_moved {record : PendingDeposit ⊕ PendingSpend} (hl : p.lease.lease = some l)
    (hrecord : p.recordOf l.owner = some record)
    (haction : leaseTupleAction .appendUnknown (Sum.map f g record) = .retainForReconciliation) :
    LeaseSettled p {p.updateRecord f g l.owner with
      lease := {p.lease with lease := some {l with phase := .appendUnknown, phaseStartedAtNs := now}}}
        (some l.owner) := by
  have hmoved : (p.updateRecord f g l.owner).recordOf l.owner = some (Sum.map f g record) := by
    rw [recordOf_updateRecord, if_pos rfl, hrecord]
    rfl
  refine settled_held (l := {l with phase := .appendUnknown, phaseStartedAtNs := now}) rfl rfl hl rfl hmoved
    (.inl haction) fun o ho => ?_
  exact (recordOf_updateRecord l.owner o).trans (if_neg ho)

theorem verifyLease_settled (h : verifyLease p now = .ok (p', owner)) : LeaseSettled p p' owner := by
  rw [verifyLease] at h
  cases hl : p.lease.lease with
  | none =>
    simp only [hl] at h
    cases h
    refine ⟨by rw [hl]; rfl, rfl, fun l hl' => ?_, fun _ _ => rfl, fun _ => by simp only [verifyLease, hl]⟩
    cases hl.symm.trans hl'
  | some l =>
    simp only [hl] at h
    cases hrecord : p.recordOf l.owner with
    | none => simp only [hrecord, reduceCtorEq] at h
    | some record =>
      simp only [hrecord] at h
      cases haction : leaseTupleAction l.phase record with
      | trap => simp only [haction, reduceCtorEq] at h
      | releaseRetryable =>
        simp only [haction, freed_eq hl] at h
        cases h
        exact ⟨rfl, rfl, fun _ hl' => (by cases hl'), fun _ _ => rfl, fun _ => rfl⟩
      | retainForReconciliation =>
        simp only [haction] at h
        cases h
        exact settled_held hl rfl hl rfl hrecord (.inl haction) fun _ _ => rfl
      | retainContinueFinalization =>
        simp only [haction] at h
        cases h
        exact settled_held hl rfl hl rfl hrecord (.inr haction) fun _ _ => rfl
      | normalizeToAppendUnknown =>
        simp only [haction, toUnknown_eq hl] at h
        cases h
        exact settled_moved hl hrecord normalized_retained
      | normalizeReconcileToAppendUnknown =>
        simp only [haction, toUnknown_eq hl] at h
        cases h
        exact settled_moved hl hrecord (reconcile_retained haction)

/-- An upgrade that the lease lets through leaves it so that the next one goes through and changes
nothing. -/
theorem upgrade_settles (h : verifyLease p now = .ok (p', owner)) :
    (∀ later, verifyLease p' later = .ok (p', owner)) ∧
    ∀ o, owner ≠ some o → p'.recordOf o = p.recordOf o :=
  ⟨(verifyLease_settled h).again, (verifyLease_settled h).others⟩

/-- A spend whose append is in flight under the lease when the canister is upgraded. -/
def sampleInFlight : Pool :=
  {Recovery.samplePool.toPool with
    spends.pending := (∅ : StableMap _ _).insert 3 {Recovery.sampleSpend with status := .activeAppendInFlight}
    lease := ⟨1, some ⟨.spend 3, 0, .appendInFlight, 5, 5⟩⟩}

theorem upgrade_settles_spend : ∃ p', verifyLease sampleInFlight 7 = .ok (p', some (.spend 3)) ∧
    ∀ later, verifyLease p' later = .ok (p', some (.spend 3)) := by
  have hrecord : sampleInFlight.recordOf (.spend 3) =
      some (.inr {Recovery.sampleSpend with status := .activeAppendInFlight}) := by
    simp [sampleInFlight, Pool.recordOf]
  have hverify : ∃ p', verifyLease sampleInFlight 7 = .ok (p', some (.spend 3)) := by
    rw [verifyLease]
    simp only [show sampleInFlight.lease.lease = some _ from rfl, hrecord]
    exact ⟨_, rfl⟩
  obtain ⟨p', h⟩ := hverify
  exact ⟨p', h, (upgrade_settles h).1⟩

end Upgrade

/-! ### Runs -/

/-- The cell, and beside it all grants, the latest first, and those released. -/
structure LeaseRun where
  cell : AppendLeaseCellState
  granted : List LeaseGrant
  released : List LeaseGrant

inductive LeaseCall where
  | acquire (owner : AppendLeaseOwner) (nowNs : Nat)
  | transition (grant : LeaseGrant) (source target : LeasePhase) (nowNs : Nat)
  | release (grant : LeaseGrant)
  /-- Whatever has become of the records. -/
  | upgrade (pool : Pool) (nowNs : Nat)

/-- A call that is honoured, or an upgrade that goes through; a counter that would overflow traps. -/
def LeaseRun.step (r : LeaseRun) : LeaseCall → Option LeaseRun
  | .acquire owner nowNs =>
    if r.cell.nextGeneration < u64Max then
      (leaseAcquire r.cell owner nowNs).map fun o =>
        {r with cell := o.1, granted := (owner, o.2) :: r.granted}
    else none
  | .transition grant source target nowNs =>
    (leaseTransition r.cell grant.1 grant.2 source target nowNs).map fun cell => {r with cell := cell}
  | .release grant =>
    (leaseRelease r.cell grant.1 grant.2).map fun cell =>
      {r with cell := cell, released := grant :: r.released}
  | .upgrade pool nowNs =>
    match verifyLease {pool with lease := r.cell} nowNs with
    | .error _ => none
    | .ok o => some {r with cell := o.1.lease}

/-- The lease from its first installation. -/
def leaseSystem : System LeaseRun LeaseCall where
  init r := r.cell.lease = none ∧ r.granted = [] ∧ r.released = []
  step r call r' := r.step call = some r'

/-- One of the calls goes through for who holds this. -/
def AppendLeaseCellState.Honours (cell : AppendLeaseCellState) (grant : LeaseGrant) : Prop :=
  (∃ phase, leaseExpect cell grant.1 grant.2 phase = true) ∨
  (∃ source target nowNs, (leaseTransition cell grant.1 grant.2 source target nowNs).isSome) ∨
  (leaseRelease cell grant.1 grant.2).isSome

/-- The lease that is held is the last grant, unreleased, and the generations run down from it. -/
structure LeaseInv (r : LeaseRun) : Prop where
  held : ∀ l, r.cell.lease = some l → r.granted.head? = some l.grant ∧ l.grant ∉ r.released
  below : ∀ g ∈ r.granted, g.2 < r.cell.nextGeneration
  falling : r.granted.Pairwise fun a b => b.2 < a.2
  released : ∀ g ∈ r.released, g ∈ r.granted

section Fence
variable {r r' : LeaseRun} {cell cell' : AppendLeaseCellState} {grant : LeaseGrant}

theorem heldBy_iff {l : AppendLease} : l.heldBy grant.1 grant.2 = true ↔ l.grant = grant := by
  rw [AppendLease.heldBy, Bool.and_eq_true, beq_iff_eq, beq_iff_eq, Prod.ext_iff]
  exact Iff.rfl

theorem leaseRelease_some (h : leaseRelease cell grant.1 grant.2 = some cell') :
    (∃ l, cell.lease = some l ∧ l.grant = grant) ∧ cell' = {cell with lease := none} := by
  rw [leaseRelease] at h
  split at h
  · next l hl =>
    split at h
    · next hheld => exact ⟨⟨l, hl, heldBy_iff.1 hheld⟩, (Option.some.inj h).symm⟩
    · cases h
  · cases h

theorem leaseTransition_some {source target : LeasePhase} {nowNs : Nat}
    (h : leaseTransition cell grant.1 grant.2 source target nowNs = some cell') :
    ∃ l, cell.lease = some l ∧ l.grant = grant ∧
      cell' = {cell with lease := some {l with phase := target, phaseStartedAtNs := nowNs}} := by
  rw [leaseTransition] at h
  split at h
  · next l hl =>
    split at h
    · next hheld => exact ⟨l, hl, heldBy_iff.1 (Bool.and_eq_true_iff.1 hheld).1, (Option.some.inj h).symm⟩
    · cases h
  · cases h

theorem honours_iff : cell.Honours grant ↔ ∃ l, cell.lease = some l ∧ l.grant = grant := by
  constructor
  · rintro (⟨phase, h⟩ | ⟨source, target, nowNs, h⟩ | h)
    · rw [leaseExpect] at h
      split at h
      · next l hl => exact ⟨l, hl, heldBy_iff.1 (Bool.and_eq_true_iff.1 h).1⟩
      · cases h
    · obtain ⟨cell', h⟩ := Option.isSome_iff_exists.1 h
      obtain ⟨l, hl, hgrant, -⟩ := leaseTransition_some h
      exact ⟨l, hl, hgrant⟩
    · obtain ⟨cell', h⟩ := Option.isSome_iff_exists.1 h
      exact (leaseRelease_some h).1
  · rintro ⟨l, hl, hgrant⟩
    refine .inr (.inr ?_)
    rw [leaseRelease, hl]
    simp only [heldBy_iff.2 hgrant, if_true, Option.isSome_some]

theorem leaseInv_step {call : LeaseCall} (h : LeaseInv r) (hstep : r.step call = some r') : LeaseInv r' := by
  cases call with
  | acquire owner nowNs =>
    rw [LeaseRun.step] at hstep
    split at hstep
    · rw [leaseAcquire] at hstep
      split at hstep
      · cases hstep
      · cases hstep
        refine ⟨?_, ?_, List.pairwise_cons.2 ⟨h.below, h.falling⟩,
          fun g hg => List.mem_cons_of_mem _ (h.released g hg)⟩
        · rintro l ⟨⟩
          exact ⟨rfl, fun hmem => Nat.lt_irrefl _ (h.below _ (h.released _ hmem))⟩
        · intro g hg
          rcases List.mem_cons.1 hg with rfl | hg
          · exact Nat.lt_succ_self _
          · exact Nat.lt_succ_of_lt (h.below g hg)
    · cases hstep
  | transition grant source target nowNs =>
    obtain ⟨cell, htransition, rfl⟩ := Option.map_eq_some_iff.1 hstep
    obtain ⟨l, hl, -, rfl⟩ := leaseTransition_some htransition
    refine ⟨?_, h.below, h.falling, h.released⟩
    rintro l' ⟨⟩
    exact h.held l hl
  | release grant =>
    obtain ⟨cell, hrelease, rfl⟩ := Option.map_eq_some_iff.1 hstep
    obtain ⟨⟨l, hl, hgrant⟩, rfl⟩ := leaseRelease_some hrelease
    refine ⟨fun _ hl' => (by cases hl'), h.below, h.falling, fun g hg => ?_⟩
    rcases List.mem_cons.1 hg with rfl | hg
    · rw [← hgrant]
      exact List.mem_of_head? (h.held l hl).1
    · exact h.released g hg
  | upgrade pool nowNs =>
    rw [LeaseRun.step] at hstep
    split at hstep
    · cases hstep
    · next o hverify =>
      cases hstep
      have hsettled := verifyLease_settled hverify
      refine ⟨fun l hl => ?_, fun g hg => ?_, h.falling, h.released⟩
      · obtain ⟨before, hbefore, hgrant⟩ := hsettled.kept l hl
        rw [hgrant]
        exact h.held before hbefore
      · exact Nat.lt_of_lt_of_eq (h.below g hg) hsettled.counter.symm

/-- No two grants are of one generation, and one that is honoured is the last and has not been
released. -/
theorem honoured_last (run : leaseSystem.Reachable r) :
    r.granted.Pairwise (fun a b => b.2 < a.2) ∧
    ∀ grant, r.cell.Honours grant → r.granted.head? = some grant ∧ grant ∉ r.released := by
  have hinv : LeaseInv r := by
    refine System.RunIf.invariant (I := LeaseInv) ?_ (fun _ _ _ _ h _ hstep => leaseInv_step h hstep) run
    rintro s ⟨hlease, hgranted, hreleased⟩
    refine ⟨?_, ?_, ?_, ?_⟩
    · simp [hlease]
    · simp [hgranted]
    · simp [hgranted]
    · simp [hreleased]
  refine ⟨hinv.falling, fun grant h => ?_⟩
  obtain ⟨l, hl, rfl⟩ := honours_iff.1 h
  exact hinv.held l hl

/-- A late continuation of the first holder finds the lease held by the second. -/
def sampleLeaseRun : LeaseRun :=
  ⟨⟨2, some ⟨.spend 2, 1, .snapshotting, 9, 9⟩⟩, [(.spend 2, 1), (.deposit 1, 0)], [(.deposit 1, 0)]⟩

theorem honoured_last_spend : sampleLeaseRun.cell.Honours (.spend 2, 1) ∧
    (AppendLeaseOwner.spend 2, 1) ∉ sampleLeaseRun.released := by
  have run : leaseSystem.Reachable sampleLeaseRun := by
    refine .step (s := ⟨⟨1, none⟩, [(.deposit 1, 0)], [(.deposit 1, 0)]⟩)
      (a := .acquire (.spend 2) 9) ?_ trivial (by rfl)
    refine .step (s := ⟨⟨1, some ⟨.deposit 1, 0, .snapshotting, 5, 5⟩⟩, [(.deposit 1, 0)], []⟩)
      (a := .release (.deposit 1, 0)) ?_ trivial (by rfl)
    exact .step (s := ⟨⟨0, none⟩, [], []⟩) (a := .acquire (.deposit 1) 5) (.start ⟨rfl, rfl, rfl⟩) trivial
      (by rfl)
  have hheld : sampleLeaseRun.cell.Honours (.spend 2, 1) := .inr (.inr rfl)
  exact ⟨hheld, ((honoured_last run).2 _ hheld).2⟩

end Fence

end StshProtocol.ShieldedPool
