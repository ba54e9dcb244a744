import StshProtocol.Custody.RecoveryEntry
import StshProtocol.Foundation.Transition

/-! The entry rates of the recovery plane.

A message that enters a proposal comes to one of three ends: it changes nothing, or it charges one
entry event and admits one proposal, or it charges one and puts one rejection on record
(`entry_ends`). Whatever else a message of the upgrader does, the ledger is not touched, and an
upgrade keeps it. -/
namespace StshProtocol.Custody.RecoveryPlane
open Foundation ShieldedPool
open Foundation.Handler

/-! ### What the checks leave -/

section Checks
variable {E : Env} {s t : State}

theorem readOnly_requireMember (caller : Principal) : (requireMember caller).ReadOnly :=
  (readOnly_read _).bind fun _ => readOnly_demand _ _

theorem readOnly_companionLoad : companionLoad.ReadOnly :=
  (readOnly_read _).bind fun _ => readOnly_expect _ _

theorem readOnly_companionValidate : (companionValidate E).ReadOnly :=
  readOnly_companionLoad.bind fun _ => (readOnly_assert _ _).bind fun _ =>
    (readOnly_read _).bind fun _ => readOnly_assert _ _

theorem readOnly_checkTrigger (action : RecoveryAction) : (checkTrigger E action).ReadOnly := by
  cases action with
  | triggerVaultUpgrade wasmHash argHash wasm arg =>
    have hintent : (nonterminalIntentInFlight E none).ReadOnly :=
      readOnly_companionValidate.bind fun _ => readOnly_read _
    have hstart : (startInFlight E none).ReadOnly :=
      readOnly_companionValidate.bind fun _ => readOnly_read _
    exact (readOnly_lift _).bind fun _ => hintent.bind fun _ => (readOnly_demand _ _).bind fun _ =>
      hstart.bind fun _ => readOnly_demand _ _
  | reconcileVaultUpgrade id evidence => exact readOnly_pure ()
  | startVault => exact readOnly_pure ()
  | reconcileVaultStart id evidence => exact readOnly_pure ()

theorem readOnly_checkNonterminalCaps (who : Principal) : (checkNonterminalCaps E who).ReadOnly :=
  readOnly_companionValidate.bind fun _ => (readOnly_read _).bind fun _ => readOnly_demand _ _

theorem readOnly_checkRecoveryRetainedBytes (who : Principal) (action : RecoveryAction) :
    (checkRecoveryRetainedBytes who action).ReadOnly := by
  unfold checkRecoveryRetainedBytes
  by_cases h : artifactBytes action = 0
  · rw [if_pos h]
    exact readOnly_pure ()
  · rw [if_neg h]
    exact (readOnly_read _).bind fun _ => (readOnly_demand _ _).bind fun _ => readOnly_demand _ _

theorem readOnly_nextProposalId : (nextProposalId E).ReadOnly :=
  readOnly_companionValidate.bind fun _ => readOnly_companionLoad.bind fun _ =>
    (readOnly_read _).bind fun _ => (readOnly_assert _ _).bind fun _ => readOnly_pure _

end Checks

/-! ### The charge -/

section Charge
variable {s t : State} {who : Principal} {now : Nat}

theorem chargeEntryEvent_eq : chargeEntryEvent who now = (do
    let ledger ← read State.entryRate
    let charged ← need (ledger.charge entryRate who now) .thresholdViolation
    write fun s => {s with entryRate := charged, charged := (who, now) :: s.charged}) := rfl

theorem chargeEntryEvent_ok_iff {u : Unit} :
    (chargeEntryEvent who now).exec s = .ok (.ok u, t) ↔
      ∃ l, s.entryRate.charge entryRate who now = some l ∧
        t = {s with entryRate := l, charged := (who, now) :: s.charged} := by
  simp only [chargeEntryEvent_eq, bind_ok_iff, read_ok_iff, need_ok_iff, write_ok_iff]
  constructor
  · rintro ⟨_, _, ⟨rfl, rfl⟩, l, _, ⟨hl, rfl⟩, rfl⟩
    exact ⟨l, hl, rfl⟩
  · rintro ⟨l, hl, rfl⟩
    exact ⟨_, _, ⟨rfl, rfl⟩, l, _, ⟨hl, rfl⟩, rfl⟩

/-- A refused charge stores nothing. -/
theorem chargeEntryEvent_atomic : (chargeEntryEvent who now).Atomic :=
  (readOnly_read _).bind_atomic fun _ => (readOnly_need _ _).bind_atomic fun _ =>
    (sure_write _).atomic

/-- The state after a charge. -/
def withCharge (s : State) (who : Principal) (now : Nat) (l : EntryRateLedger) : State :=
  {s with entryRate := l, charged := (who, now) :: s.charged}

/-- A charge at the head of a handler refuses with nothing stored, or is passed. -/
theorem chargeEntryEvent_bind {f : Unit → Plane Nat} {r : Except RecoveryError Nat}
    (h : (chargeEntryEvent who now >>= f).exec s = .ok (r, t)) :
    (t = s ∧ s.entryRate.charge entryRate who now = none ∧ r = .error .thresholdViolation) ∨
      ∃ l, s.entryRate.charge entryRate who now = some l ∧
        (f ()).exec (withCharge s who now l) = .ok (r, t) := by
  cases hl : s.entryRate.charge entryRate who now with
  | none =>
    have hfail : (chargeEntryEvent who now).exec s = .ok (.error .thresholdViolation, s) := by
      rw [chargeEntryEvent_eq, exec_bind_ok (exec_read _), hl]
      rfl
    rw [exec_bind_error hfail] at h
    cases h
    exact .inl ⟨rfl, rfl, rfl⟩
  | some l =>
    have hpass : (chargeEntryEvent who now).exec s = .ok (.ok (), withCharge s who now l) :=
      chargeEntryEvent_ok_iff.2 ⟨l, hl, rfl⟩
    rw [exec_bind_ok hpass] at h
    exact .inr ⟨l, rfl, h⟩

end Charge

/-! ### After the charge -/

section Tail
variable {E : Env} {s t : State} {id : Nat} {stored : StoredProposal}

theorem sure_companionLoad : companionLoad.Sure := (sure_read _).bind fun _ => sure_expect _ _

theorem sure_companionValidate : (companionValidate E).Sure :=
  sure_companionLoad.bind fun _ => (sure_assert _ _).bind fun _ => (sure_read _).bind fun _ =>
    sure_assert _ _

theorem sure_nextProposalId : (nextProposalId E).Sure :=
  sure_companionValidate.bind fun _ => sure_companionLoad.bind fun _ => (sure_read _).bind fun _ =>
    (sure_assert _ _).bind fun _ => sure_pure _

theorem sure_putStoredProposal : (putStoredProposal E id stored).Sure :=
  (sure_read _).bind fun _ => sure_companionLoad.bind fun _ => (sure_write _).bind fun _ =>
    sure_write _

theorem sure_putIntent (key : IntentKey) (intent : UpgradeIntent) : (putIntent E key intent).Sure :=
  (sure_write _).bind fun _ => sure_companionLoad.bind fun _ => sure_write _

theorem sure_commitProposalId : (commitProposalId E id).Sure :=
  sure_companionLoad.bind fun _ => (sure_assert _ _).bind fun _ => (sure_assert _ _).bind fun _ =>
    sure_write _

theorem sure_admitProposal : (admitProposal E id stored).Sure :=
  sure_putStoredProposal.bind fun _ => (sure_read _).bind fun _ => (sure_expect _ _).bind fun _ =>
    sure_putStoredProposal.bind fun _ => sure_commitProposalId

theorem sure_recordIntent (now : Nat) (action : RecoveryAction) :
    (recordIntent E id now action).Sure := by
  cases action with
  | triggerVaultUpgrade wasmHash argHash wasm arg =>
    exact (sure_putIntent _ _).bind fun _ => sure_write _
  | reconcileVaultUpgrade _ _ => exact sure_pure ()
  | startVault => exact sure_pure ()
  | reconcileVaultStart _ _ => exact sure_pure ()

/-- The events that are rejections. -/
def rejections (events : List UpgraderAuditEvent) : List UpgraderAuditEvent :=
  events.filter fun e => match e.kind with
    | .membershipRotationRejected .. => true
    | _ => false

/-- What admitting a proposal leaves as it was. -/
structure SameBooks (s t : State) : Prop where
  ledger : t.entryRate = s.entryRate
  charged : t.charged = s.charged
  rejections : rejections t.audit = rejections s.audit

theorem SameBooks.refl (s : State) : SameBooks s s := ⟨rfl, rfl, rfl⟩

theorem SameBooks.trans {u : State} (h : SameBooks s t) (h' : SameBooks t u) : SameBooks s u :=
  ⟨h'.ledger.trans h.ledger, h'.charged.trans h.charged, h'.rejections.trans h.rejections⟩

theorem companionLoad_ok {cs : CompanionState} (h : companionLoad.exec s = .ok (.ok cs, t)) :
    t = s ∧ s.companion = some cs := by
  simp only [companionLoad, bind_ok_iff, read_ok_iff, expect_ok_iff] at h
  obtain ⟨_, _, ⟨rfl, rfl⟩, hcs, rfl⟩ := h
  exact ⟨rfl, hcs⟩

theorem putStoredProposal_ok {u : Unit} (h : (putStoredProposal E id stored).exec s = .ok (.ok u, t)) :
    ∃ cs, s.companion = some cs ∧
      t = {reindexed E id s.proposals[id]? stored cs s with
            proposals := s.proposals.insert id stored} := by
  simp only [putStoredProposal, bind_ok_iff, read_ok_iff, write_ok_iff] at h
  obtain ⟨_, _, ⟨rfl, rfl⟩, cs, u, hload, _, _, rfl, rfl⟩ := h
  obtain ⟨rfl, hcs⟩ := companionLoad_ok hload
  exact ⟨cs, hcs, rfl⟩

theorem putStoredProposal_books {u : Unit}
    (h : (putStoredProposal E id stored).exec s = .ok (.ok u, t)) :
    SameBooks s t ∧ t.proposals = s.proposals.insert id stored := by
  obtain ⟨cs, -, rfl⟩ := putStoredProposal_ok h
  exact ⟨⟨rfl, rfl, rfl⟩, rfl⟩

theorem commitProposalId_books {u : Unit} (h : (commitProposalId E id).exec s = .ok (.ok u, t)) :
    SameBooks s t ∧ t.proposals = s.proposals := by
  simp only [commitProposalId, bind_ok_iff, assert_ok_iff, write_ok_iff] at h
  obtain ⟨cs, _, hload, _, _, ⟨-, rfl⟩, _, _, ⟨-, rfl⟩, rfl⟩ := h
  obtain ⟨rfl, -⟩ := companionLoad_ok hload
  exact ⟨⟨rfl, rfl, rfl⟩, rfl⟩

/-- One proposal more, and no rejection. -/
structure AdmitsOne (caller : Principal) (id : Nat) (s t : State) : Prop where
  fresh : s.proposals[id]? = none
  stored : ∃ p : StoredProposal, p.proposer = caller ∧ p.outcome = .pending ∧
    ∀ k, t.proposals[k]? = if k = id then some p else s.proposals[k]?
  rejections : rejections t.audit = rejections s.audit

theorem admitProposal_books {u : Unit} (h : (admitProposal E id stored).exec s = .ok (.ok u, t)) :
    SameBooks s t ∧ ∀ k, t.proposals[k]? =
      if k = id then some (stored.withCommitment (commitmentForStored E id stored))
      else s.proposals[k]? := by
  simp only [admitProposal, bind_ok_iff, read_ok_iff, expect_ok_iff] at h
  obtain ⟨_, v, hput, _, _, ⟨rfl, rfl⟩, created, _, ⟨hcreated, rfl⟩, _, w, hput', hcommit⟩ := h
  obtain ⟨hbooks, hproposals⟩ := putStoredProposal_books hput
  obtain ⟨hbooks', hproposals'⟩ := putStoredProposal_books hput'
  obtain ⟨hbooks'', hproposals''⟩ := commitProposalId_books hcommit
  refine ⟨hbooks.trans (hbooks'.trans hbooks''), fun k => ?_⟩
  rw [hproposals, StableMap.get_insert_at, if_pos rfl] at hcreated
  obtain rfl := Option.some.inj hcreated
  rw [hproposals'', hproposals', StableMap.get_insert_at, hproposals, StableMap.get_insert_at]
  by_cases hk : k = id
  · rw [if_pos hk, if_pos hk]
  · rw [if_neg hk, if_neg hk, if_neg hk]

theorem recordIntent_books {u : Unit} {now : Nat} {action : RecoveryAction}
    (h : (recordIntent E id now action).exec s = .ok (.ok u, t)) :
    SameBooks s t ∧ t.proposals = s.proposals := by
  cases action with
  | triggerVaultUpgrade wasmHash argHash wasm arg =>
    simp only [recordIntent, putIntent, appendAudit, bind_ok_iff, write_ok_iff] at h
    obtain ⟨_, _, ⟨_, _, rfl, cs, _, hload, rfl⟩, rfl⟩ := h
    obtain ⟨rfl, -⟩ := companionLoad_ok hload
    refine ⟨⟨rfl, rfl, ?_⟩, rfl⟩
    exact (List.filter_append _ _).trans (List.append_nil _)
  | reconcileVaultUpgrade _ _ => cases h; exact ⟨.refl s, rfl⟩
  | startVault => cases h; exact ⟨.refl s, rfl⟩
  | reconcileVaultStart _ _ => cases h; exact ⟨.refl s, rfl⟩

theorem nextProposalId_ok (h : (nextProposalId E).exec s = .ok (.ok id, t)) :
    t = s ∧ s.proposals[id]? = none := by
  obtain rfl := readOnly_nextProposalId _ _ _ h
  simp only [nextProposalId, bind_ok_iff, read_ok_iff, assert_ok_iff, pure_ok_iff] at h
  obtain ⟨_, u, hvalidate, cs, _, hload, _, _, ⟨rfl, rfl⟩, _, _, ⟨hfree, -⟩, rfl, rfl⟩ := h
  obtain rfl := readOnly_companionValidate _ _ _ hvalidate
  obtain ⟨rfl, -⟩ := companionLoad_ok hload
  exact ⟨rfl, StableMap.not_contains_iff.1 (by rw [hfree]; nofun)⟩

end Tail

/-! ### Messages -/

/-- A message that enters a proposal. -/
inductive Entry where
  | recovery (caller : Principal) (action : RecoveryAction) (requestedLifetimeNs : Option Nat)
  | rotation (caller : Principal) (newMembers : List Principal) (requestedLifetimeNs : Option Nat)

namespace Entry

def caller : Entry → Principal
  | recovery caller _ _ => caller
  | rotation caller _ _ => caller

def run (E : Env) (now : Nat) : Entry → Plane Nat
  | recovery caller action lifetime => proposeRecovery E caller action now lifetime
  | rotation caller members lifetime => proposeMembershipRotation E caller members now lifetime

end Entry

/-- The message made one charge. -/
structure ChargesOnce (caller : Principal) (now : Nat) (s t : State) : Prop where
  ledger : s.entryRate.charge entryRate caller now = some t.entryRate
  log : t.charged = (caller, now) :: s.charged

/-- How a message that enters a proposal ends: with nothing changed, or with one charge that goes
with one admitted proposal or with one rejection on record. -/
inductive EntryEnds (caller : Principal) (now : Nat) (s t : State) : Except RecoveryError Nat → Prop where
  | refused {e : RecoveryError} (same : t = s) : EntryEnds caller now s t (.error e)
  | admitted {id : Nat} (charge : ChargesOnce caller now s t)
      (admits : AdmitsOne caller id s t) : EntryEnds caller now s t (.ok id)
  | rejected {reason : InitValidationError} (charge : ChargesOnce caller now s t)
      (proposals : t.proposals = s.proposals)
      (record : t.audit = s.audit ++
        [⟨s.audit.length, now, .membershipRotationRejected caller reason⟩]) :
      EntryEnds caller now s t (.error .thresholdViolation)

section Ends
variable {E : Env} {caller : Principal} {now : Nat} {s t : State} {r : Except RecoveryError Nat}

/-- Where an admission starts from a charge, a proposal is admitted. -/
theorem admitted_of_tail {f : Plane Nat} {l : EntryRateLedger}
    (hl : s.entryRate.charge entryRate caller now = some l) (hsure : f.Sure)
    (hadmits : ∀ id, f.exec (withCharge s caller now l) = .ok (.ok id, t) →
      SameBooks (withCharge s caller now l) t ∧ AdmitsOne caller id (withCharge s caller now l) t)
    (h : f.exec (withCharge s caller now l) = .ok (r, t)) : EntryEnds caller now s t r := by
  cases r with
  | error e => exact absurd h (hsure _ _ _)
  | ok id =>
    obtain ⟨hbooks, hone⟩ := hadmits id h
    exact .admitted ⟨hl.trans (congrArg some hbooks.ledger.symm), hbooks.charged⟩
      ⟨hone.fresh, hone.stored, hone.rejections⟩

theorem proposeRecovery_ends {action : RecoveryAction} {lifetime : Option Nat}
    (h : (proposeRecovery E caller action now lifetime).exec s = .ok (r, t)) :
    EntryEnds caller now s t r := by
  unfold proposeRecovery at h
  rcases (readOnly_requireMember caller).bind_ends h with ⟨rfl, e, rfl⟩ | ⟨_, -, h⟩
  · exact .refused rfl
  rcases (readOnly_lift _).bind_ends h with ⟨rfl, e, rfl⟩ | ⟨expires, -, h⟩
  · exact .refused rfl
  rcases (readOnly_checkTrigger action).bind_ends h with ⟨rfl, e, rfl⟩ | ⟨_, -, h⟩
  · exact .refused rfl
  rcases (readOnly_checkNonterminalCaps caller).bind_ends h with ⟨rfl, e, rfl⟩ | ⟨_, -, h⟩
  · exact .refused rfl
  rcases (readOnly_checkRecoveryRetainedBytes caller action).bind_ends h with ⟨rfl, e, rfl⟩ | ⟨_, -, h⟩
  · exact .refused rfl
  rcases chargeEntryEvent_bind h with ⟨rfl, -, rfl⟩ | ⟨l, hl, h⟩
  · exact .refused rfl
  refine admitted_of_tail hl ?_ (fun id hid => ?_) h
  · exact sure_nextProposalId.bind fun _ => (sure_read _).bind fun _ =>
      (sure_recordIntent _ _).bind fun _ => (sure_read _).bind fun _ => sure_admitProposal.bind fun _ =>
        (sure_write _).bind fun _ => sure_pure _
  · simp only [bind_ok_iff, read_ok_iff, pure_ok_iff, appendAudit, write_ok_iff] at hid
    obtain ⟨_, u, hnext, _, _, ⟨rfl, rfl⟩, _, v, hintent, _, _, ⟨rfl, rfl⟩, _, w, hadmit, _, _, rfl,
      rfl, rfl⟩ := hid
    obtain ⟨rfl, hfresh⟩ := nextProposalId_ok hnext
    obtain ⟨hbooks, hproposals⟩ := recordIntent_books hintent
    obtain ⟨hbooks', hstored⟩ := admitProposal_books hadmit
    have hrejections : rejections (w.audit ++ [⟨w.audit.length, now,
        .recoveryProposalCreated id caller (actionTag action)⟩]) = rejections w.audit :=
      (List.filter_append _ _).trans (List.append_nil _)
    have hall := hbooks.trans hbooks'
    rw [hproposals] at hstored
    refine ⟨⟨hall.ledger, hall.charged, hrejections.trans hall.rejections⟩, hfresh,
      ⟨_, ?_, ?_, hstored⟩, hrejections.trans hall.rejections⟩
    · rfl
    · rfl

theorem rejectRotation_ends {reason : InitValidationError}
    (h : (rejectRotation caller now reason).exec s = .ok (r, t)) : EntryEnds caller now s t r := by
  unfold rejectRotation at h
  rcases chargeEntryEvent_bind h with ⟨rfl, -, rfl⟩ | ⟨l, hl, h⟩
  · exact .refused rfl
  · cases h
    exact .rejected ⟨hl, rfl⟩ rfl rfl

theorem proposeMembershipRotation_ends {members : List Principal} {lifetime : Option Nat}
    (h : (proposeMembershipRotation E caller members now lifetime).exec s = .ok (r, t)) :
    EntryEnds caller now s t r := by
  unfold proposeMembershipRotation at h
  rcases (readOnly_requireMember caller).bind_ends h with ⟨rfl, e, rfl⟩ | ⟨_, -, h⟩
  · exact .refused rfl
  rcases (readOnly_read _).bind_ends h with ⟨rfl, e, rfl⟩ | ⟨_, hread, h⟩
  · exact .refused rfl
  rcases (readOnly_need _ _).bind_ends h with ⟨rfl, e, rfl⟩ | ⟨vault, -, h⟩
  · exact .refused rfl
  cases hsize : checkRecoveryRosterSize members.length with
  | error e =>
    rw [hsize] at h
    exact rejectRotation_ends h
  | ok u =>
    rw [hsize] at h
    cases hquorum : validateBootstrapQuorum members initialThreshold vault with
    | error reason =>
      simp only [hquorum] at h
      exact rejectRotation_ends h
    | ok u =>
      simp only [hquorum] at h
      rcases (readOnly_lift _).bind_ends h with ⟨rfl, e, rfl⟩ | ⟨expires, -, h⟩
      · exact .refused rfl
      rcases (readOnly_checkNonterminalCaps caller).bind_ends h with ⟨rfl, e, rfl⟩ | ⟨_, -, h⟩
      · exact .refused rfl
      rcases chargeEntryEvent_bind h with ⟨rfl, -, rfl⟩ | ⟨l, hl, h⟩
      · exact .refused rfl
      refine admitted_of_tail hl ?_ (fun id hid => ?_) h
      · exact sure_nextProposalId.bind fun _ => (sure_read _).bind fun _ => (sure_read _).bind fun _ =>
          sure_admitProposal.bind fun _ => (sure_write _).bind fun _ => sure_pure _
      · simp only [bind_ok_iff, read_ok_iff, pure_ok_iff, appendAudit, write_ok_iff] at hid
        obtain ⟨_, u, hnext, _, _, ⟨rfl, rfl⟩, _, _, ⟨rfl, rfl⟩, _, w, hadmit, _, _, rfl, rfl, rfl⟩ := hid
        obtain ⟨rfl, hfresh⟩ := nextProposalId_ok hnext
        obtain ⟨hbooks, hstored⟩ := admitProposal_books hadmit
        have hrejections : rejections (w.audit ++ [⟨w.audit.length, now,
            .membershipRotationProposed id caller members.length⟩]) = rejections w.audit :=
          (List.filter_append _ _).trans (List.append_nil _)
        refine ⟨⟨hbooks.ledger, hbooks.charged, hrejections.trans hbooks.rejections⟩, hfresh,
          ⟨_, ?_, ?_, hstored⟩, hrejections.trans hbooks.rejections⟩
        · rfl
        · rfl

/-- A message that enters a proposal comes to one of the three ends. -/
theorem entry_ends {m : Entry} (h : (m.run E now).exec s = .ok (r, t)) :
    EntryEnds m.caller now s t r := by
  cases m with
  | recovery caller action lifetime => exact proposeRecovery_ends h
  | rotation caller members lifetime => exact proposeMembershipRotation_ends h

end Ends

/-! ### Runs -/

/-- The plane and the clock. -/
structure World where
  state : State
  now : Nat

inductive Event where
  | enter (m : Entry)
  | elsewhere
  | wait

/-- One step: a message enters a proposal and is not rolled back; any other message or an upgrade
does what it does, leaving the ledger; or time passes. -/
inductive Step (E : Env) : World → Event → World → Prop where
  | enter {w : World} {m : Entry} {r : Except RecoveryError Nat} {t : State}
      (h : (m.run E w.now).exec w.state = .ok (r, t)) : Step E w (.enter m) {w with state := t}
  | elsewhere {w : World} {t : State} (ledger : t.entryRate = w.state.entryRate)
      (charged : t.charged = w.state.charged) : Step E w .elsewhere {w with state := t}
  | wait {w : World} {n : Nat} (h : w.now ≤ n) : Step E w .wait {w with now := n}

/-- The plane from an installation at any time: no entry event was ever charged. -/
def plane (E : Env) : System World Event where
  init w := w.state.entryRate = .empty ∧ w.state.charged = []
  step := Step E

section Runs
variable {E : Env} {w : World}

/-- The ledger is in step with the log of all charges, which keeps to the rates. -/
theorem reachable_ledgered (hw : (plane E).Reachable w) :
    Ledgered entryRate w.now w.state.entryRate w.state.charged := by
  refine System.RunIf.invariant
    (I := fun w => Ledgered entryRate w.now w.state.entryRate w.state.charged) ?_ ?_ hw
  · rintro w ⟨hledger, hcharged⟩
    rw [hledger, hcharged]
    exact ledgered_empty
  · intro w e w' _ hI _ hstep
    cases hstep with
    | enter h =>
      cases entry_ends h with
      | refused same => rwa [same]
      | admitted charge _ =>
        rw [charge.log]
        exact hI.charge charge.ledger
      | rejected charge _ _ =>
        rw [charge.log]
        exact hI.charge charge.ledger
    | elsewhere ledger charged =>
      rw [ledger, charged]
      exact hI
    | wait h => exact hI.wait h

/-- A caller under both limits is charged. -/
theorem charge_passes (hw : (plane E).Reachable w) {who : Principal}
    (hall : windowCount entryRate w.now w.state.charged < entryRate.globalPerWindow)
    (hmine : windowCountOf entryRate who w.now w.state.charged < entryRate.perSignerPerWindow) :
    ∃ t, (chargeEntryEvent who w.now).exec w.state = .ok (.ok (), t) := by
  obtain ⟨l, hl⟩ := Option.isSome_iff_exists.1
    ((reachable_ledgered hw).charge_isSome_iff.2 ⟨hall, hmine⟩)
  exact ⟨_, chargeEntryEvent_ok_iff.2 ⟨l, hl, rfl⟩⟩

end Runs

end StshProtocol.Custody.RecoveryPlane
