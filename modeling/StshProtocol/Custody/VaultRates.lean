import StshProtocol.Custody.VaultWrites
import StshProtocol.Foundation.Transition

/-! The entry rates of the vault.

Only a proposal charges an entry event. A message that proposes either changes nothing, or charges one
event and stores one proposal (`proposeInner_ends`); every other message writes as `Write` says, and
an upgrade keeps what is stored. -/
namespace StshProtocol.Custody.VaultPlane
open Foundation ShieldedPool
open Foundation.Handler

variable {α ρ : Type} {E : Env α ρ} {s t : State α ρ} {caller who : Principal} {now : Nat}

/-! ### What the checks leave -/

theorem readOnly_companionLoad : (companionLoad : Plane α ρ _).ReadOnly :=
  (readOnly_read _).bind fun _ => readOnly_expect _ _

theorem readOnly_companionValidate : (companionValidate E).ReadOnly :=
  readOnly_companionLoad.bind fun _ => (readOnly_assert _ _).bind fun _ =>
    (readOnly_read _).bind fun _ => readOnly_assert _ _

theorem readOnly_requireSigner (caller : Principal) :
    (requireSigner caller : Plane α ρ _).ReadOnly :=
  (readOnly_demand _ _).bind fun _ => ((readOnly_read _).bind fun _ => readOnly_expect _ _).bind fun _ =>
    (readOnly_demand _ _).bind fun _ => readOnly_pure _

theorem readOnly_openMutatingIntent (target : Principal) (exclude : Option Nat) :
    (openMutatingIntent E target exclude).ReadOnly :=
  readOnly_companionValidate.bind fun _ => readOnly_read _

theorem readOnly_openCreationIntent (purpose : String) (exclude : Option Nat) :
    (openCreationIntent E purpose exclude).ReadOnly :=
  readOnly_companionValidate.bind fun _ => readOnly_read _

theorem readOnly_checkSingleFlight (counterpart : Principal) (action : VaultActionKind α ρ) :
    (checkSingleFlight E counterpart action).ReadOnly := by
  unfold checkSingleFlight
  cases action.creationPurpose with
  | none =>
    cases action.mutatingTarget E.selfId counterpart with
    | none => exact readOnly_pure ()
    | some target =>
      exact (readOnly_openMutatingIntent _ _).bind fun _ => (readOnly_demand _ _).bind fun _ => readOnly_pure ()
  | some purpose =>
    cases action.mutatingTarget E.selfId counterpart with
    | none => exact (readOnly_openCreationIntent _ _).bind fun _ => readOnly_demand _ _
    | some target =>
      refine (readOnly_openMutatingIntent _ _).bind fun _ => (readOnly_demand _ _).bind fun _ => ?_
      exact (readOnly_openCreationIntent _ _).bind fun _ => readOnly_demand _ _

theorem checkNonterminalCaps_eq : (checkNonterminalCaps who : Plane α ρ _) = (do
    let index ← read State.nonterminalProposals
    demand (index.size < vaultCaps.globalCap ∧ nonterminalOf index who < vaultCaps.perSigner)
      .illegalSourceState) := rfl

theorem readOnly_checkNonterminalCaps (who : Principal) :
    (checkNonterminalCaps who : Plane α ρ _).ReadOnly := by
  rw [checkNonterminalCaps_eq]
  exact (readOnly_read _).bind fun _ => readOnly_demand _ _

theorem readOnly_checkRetainedBytes (who : Principal) (action : VaultActionKind α ρ) :
    (checkRetainedBytes who action).ReadOnly :=
  readOnly_companionLoad.bind fun _ => (readOnly_lift _).bind fun _ => (readOnly_lift _).bind fun _ =>
    readOnly_pure _

/-! ### The charge -/

theorem chargeEntryEvent_eq : (chargeEntryEvent who now : Plane α ρ Unit) = (do
    let ledger ← read State.entryRate
    let charged ← need (ledger.charge entryRate who now) .illegalSourceState
    write fun s => {s with entryRate := charged, charged := (who, now) :: s.charged}) := rfl

theorem chargeEntryEvent_ok_iff {u : Unit} :
    (chargeEntryEvent who now).exec s = .ok (.ok u, t) ↔
      ∃ l, s.entryRate.charge entryRate who now = some l ∧
        t = {s with entryRate := l, charged := (who, now) :: s.charged} := by
  simp only [chargeEntryEvent_eq, bind_ok_iff, read_ok_iff, need_ok_iff, write_ok_iff]
  constructor
  · rintro ⟨_, _, ⟨rfl, rfl⟩, l, _, ⟨hl, rfl⟩, rfl⟩
    exact ⟨l, hl, rfl⟩
  · rintro ⟨l, hl, rfl⟩
    exact ⟨_, _, ⟨rfl, rfl⟩, l, _, ⟨hl, rfl⟩, rfl⟩

/-- A refused charge stores nothing. -/
theorem chargeEntryEvent_atomic : (chargeEntryEvent who now : Plane α ρ Unit).Atomic :=
  (readOnly_read _).bind_atomic fun _ => (readOnly_need _ _).bind_atomic fun _ =>
    (sure_write _).atomic

/-- The state after a charge. -/
def withCharge (s : State α ρ) (who : Principal) (now : Nat) (l : EntryRateLedger) : State α ρ :=
  {s with entryRate := l, charged := (who, now) :: s.charged}

/-! ### What a proposal leaves -/

/-- The checks before the charge, with what they found. -/
structure Admissible (E : Env α ρ) (caller : Principal) (action : VaultActionKind α ρ) (s : State α ρ)
    (g : GovernanceCellData) (cs : CompanionState) : Prop where
  gov : s.gov = some g
  signer : caller ∈ g.bootstrap.members
  companion : s.companion = some cs
  caps : s.nonterminalProposals.size < vaultCaps.globalCap ∧
    nonterminalOf s.nonterminalProposals caller < vaultCaps.perSigner
  bytes : satAdd64 (cs.retainedFor caller) action.logicalBytes ≤ perSignerByteQuota ∧
    satAdd64 cs.retainedBytesTotal action.logicalBytes ≤ globalLogicalByteQuota

theorem checkSize_ok_iff {encoded limit : Nat} {u : Unit} :
    checkSize encoded limit = .ok u ↔ encoded ≤ limit := by
  rw [checkSize]
  by_cases h : encoded > limit
  · rw [if_pos h]
    exact ⟨fun he => (error_ne_ok he).elim, fun hle => absurd h (Nat.not_lt.2 hle)⟩
  · rw [if_neg h]
    exact ⟨fun _ => Nat.not_lt.1 h, fun _ => rfl⟩

theorem requireSigner_ok {g : GovernanceCellData}
    (h : (requireSigner caller : Plane α ρ _).exec s = .ok (.ok g, t)) :
    t = s ∧ s.gov = some g ∧ caller ∈ g.bootstrap.members := by
  simp only [requireSigner, bind_ok_iff, demand_ok_iff, pure_ok_iff] at h
  obtain ⟨_, _, ⟨-, rfl⟩, g', _, hgov, _, _, ⟨hmem, rfl⟩, rfl, rfl⟩ := h
  obtain ⟨rfl, hg⟩ := govLoad_ok hgov
  exact ⟨rfl, hg, hmem⟩

theorem checkNonterminalCaps_ok_iff {u : Unit} :
    (checkNonterminalCaps who).exec s = .ok (.ok u, t) ↔
      (s.nonterminalProposals.size < vaultCaps.globalCap ∧
        nonterminalOf s.nonterminalProposals who < vaultCaps.perSigner) ∧ t = s := by
  simp only [checkNonterminalCaps_eq, bind_ok_iff, read_ok_iff, demand_ok_iff]
  constructor
  · rintro ⟨_, _, ⟨rfl, rfl⟩, hcaps, rfl⟩
    exact ⟨hcaps, rfl⟩
  · rintro ⟨hcaps, rfl⟩
    exact ⟨_, _, ⟨rfl, rfl⟩, hcaps, rfl⟩

theorem checkRetainedBytes_ok_iff {action : VaultActionKind α ρ} {delta : Nat} :
    (checkRetainedBytes who action).exec s = .ok (.ok delta, t) ↔
      (∃ cs, s.companion = some cs ∧
        satAdd64 (cs.retainedFor who) action.logicalBytes ≤ perSignerByteQuota ∧
        satAdd64 cs.retainedBytesTotal action.logicalBytes ≤ globalLogicalByteQuota) ∧
      delta = action.logicalBytes ∧ t = s := by
  simp only [checkRetainedBytes, companionLoad, bind_ok_iff, read_ok_iff, expect_ok_iff, lift_ok_iff,
    pure_ok_iff, checkSize_ok_iff]
  constructor
  · rintro ⟨cs, _, ⟨_, _, ⟨rfl, rfl⟩, hcs, rfl⟩, _, _, ⟨hmine, rfl⟩, _, _, ⟨hall, rfl⟩, rfl, rfl⟩
    exact ⟨⟨cs, hcs, hmine, hall⟩, rfl, rfl⟩
  · rintro ⟨⟨cs, hcs, hmine, hall⟩, rfl, rfl⟩
    exact ⟨cs, _, ⟨_, _, ⟨rfl, rfl⟩, hcs, rfl⟩, (), _, ⟨hmine, rfl⟩, (), _, ⟨hall, rfl⟩, rfl, rfl⟩

theorem sure_createProposal (action : VaultActionKind α ρ) (delta : Nat) (expires : Option Nat) :
    (createProposal E caller action delta now expires).Sure :=
  sure_nextProposalId.bind fun _ => sure_govLoad.bind fun _ => (sure_proposalPut _).bind fun _ =>
    (sure_read _).bind fun _ => (sure_expect _ _).bind fun _ => (sure_proposalPut _).bind fun _ =>
      (sure_retainedAdmit _ _).bind fun _ => (sure_commitId _ _).bind fun _ =>
        (sure_auditFull _ _ _ _ _ _).bind fun _ => sure_pure _

/-- The proposal as it is created. -/
def pendingRecord (E : Env α ρ) (id : Nat) (caller : Principal) (action : VaultActionKind α ρ)
    (now epoch : Nat) (expires : Option Nat) : ProposalRecord α ρ :=
  let rec_ : ProposalRecord α ρ := ⟨id, bindRequest id action, caller, now, epoch, .pending, none, none,
    none, none, expires, []⟩
  {rec_ with commitmentHash := commitmentHash E rec_}

/-- What storing a proposal does: it is written twice under the next id, its bytes are accounted for,
the id is committed, and the event appended. -/
structure Created (E : Env α ρ) (caller : Principal) (action : VaultActionKind α ρ) (delta now : Nat)
    (expires : Option Nat) (id : Nat) (s t : State α ρ) : Prop where
  fresh : s.proposals[id]? = none
  counter : ∃ cs, Accounted E s cs ∧ id = cs.nextProposalId
  steps : ∃ g u v x y, s.gov = some g ∧
    (proposalPut E {pendingRecord E id caller action now g.epoch expires with
      commitmentHash := []}).exec s = .ok (.ok (), u) ∧
    (proposalPut E (pendingRecord E id caller action now g.epoch expires)).exec u = .ok (.ok (), v) ∧
    (retainedAdmit E caller delta).exec v = .ok (.ok (), x) ∧
    (commitId E .proposal id).exec x = .ok (.ok (), y) ∧
    (audit E now .proposalCreated (some id) caller none).exec y = .ok (.ok (), t)

theorem createProposal_ok {action : VaultActionKind α ρ} {delta : Nat} {expires : Option Nat} {id : Nat}
    (h : (createProposal E caller action delta now expires).exec s = .ok (.ok id, t)) :
    Created E caller action delta now expires id s t := by
  simp only [createProposal, bind_ok_iff, read_ok_iff, expect_ok_iff, pure_ok_iff] at h
  obtain ⟨_, _, hnext, g, _, hgov, ⟨⟩, u, hput, _, _, ⟨rfl, rfl⟩, created, _, ⟨hcreated, rfl⟩, ⟨⟩, v,
    hput', ⟨⟩, x, hadmit, ⟨⟩, y, hcommit, ⟨⟩, _, haudit, rfl, rfl⟩ := h
  obtain ⟨rfl, hfresh, hcounter⟩ := nextProposalId_ok hnext
  obtain ⟨rfl, hg⟩ := govLoad_ok hgov
  obtain ⟨cs, g', -, -, hu⟩ := proposalPut_ok hput
  rw [hu, StableMap.get_insert_at, if_pos rfl] at hcreated
  obtain rfl := Option.some.inj hcreated
  exact ⟨hfresh, hcounter, g, _, v, x, y, hg, hput, hput', hadmit, hcommit, haudit⟩

/-! ### Messages -/

/-- The message made one charge. -/
structure ChargesOnce (caller : Principal) (now : Nat) (s t : State α ρ) : Prop where
  ledger : s.entryRate.charge entryRate caller now = some t.entryRate
  log : t.charged = (caller, now) :: s.charged

/-- How a message that proposes ends: with nothing changed, or with one charge and one proposal more. -/
inductive ProposeEnds (E : Env α ρ) (caller : Principal) (action : VaultActionKind α ρ) (now : Nat)
    (s t : State α ρ) : Except VaultError Nat → Prop where
  | refused {e : VaultError} (same : t = s) : ProposeEnds E caller action now s t (.error e)
  | admitted {id : Nat} {g : GovernanceCellData} {cs : CompanionState} {l : EntryRateLedger}
      {expires : Option Nat} (checked : Admissible E caller action s g cs)
      (charge : s.entryRate.charge entryRate caller now = some l)
      (created : Created E caller action action.logicalBytes now expires id
        (withCharge s caller now l) t) : ProposeEnds E caller action now s t (.ok id)

theorem proposeInner_ends {action : VaultActionKind α ρ} {lifetime : Option Nat}
    {r : Except VaultError Nat} (h : (proposeInner E caller action now lifetime).exec s = .ok (r, t)) :
    ProposeEnds E caller action now s t r := by
  unfold proposeInner at h
  rcases (readOnly_requireSigner caller).bind_ends h with ⟨rfl, e, rfl⟩ | ⟨g, hsigner, h⟩
  · exact .refused rfl
  obtain ⟨-, hgov, hmem⟩ := requireSigner_ok hsigner
  rcases (readOnly_read _).bind_ends h with ⟨rfl, e, rfl⟩ | ⟨proposals, -, h⟩
  · exact .refused rfl
  rcases (readOnly_lift _).bind_ends h with ⟨rfl, e, rfl⟩ | ⟨_, -, h⟩
  · exact .refused rfl
  rcases (readOnly_checkSingleFlight _ _).bind_ends h with ⟨rfl, e, rfl⟩ | ⟨_, -, h⟩
  · exact .refused rfl
  rcases (readOnly_lift _).bind_ends h with ⟨rfl, e, rfl⟩ | ⟨expires, -, h⟩
  · exact .refused rfl
  rcases (readOnly_checkNonterminalCaps caller).bind_ends h with ⟨rfl, e, rfl⟩ | ⟨_, hcaps, h⟩
  · exact .refused rfl
  obtain ⟨hcaps, -⟩ := checkNonterminalCaps_ok_iff.1 hcaps
  rcases (readOnly_checkRetainedBytes caller action).bind_ends h with ⟨rfl, e, rfl⟩ | ⟨delta, hbytes, h⟩
  · exact .refused rfl
  obtain ⟨⟨cs, hcs, hquota⟩, rfl, -⟩ := checkRetainedBytes_ok_iff.1 hbytes
  cases r with
  | error e =>
    rcases bind_error h with hcharge | ⟨_, u, -, hcreate⟩
    · exact .refused (chargeEntryEvent_atomic _ _ _ hcharge)
    · exact absurd hcreate (sure_createProposal _ _ _ _ _ _)
  | ok id =>
    obtain ⟨_, u, hcharge, hcreate⟩ := bind_ok_iff.1 h
    obtain ⟨l, hl, rfl⟩ := chargeEntryEvent_ok_iff.1 hcharge
    exact .admitted ⟨hgov, hmem, hcs, hcaps, hquota⟩ hl (createProposal_ok hcreate)

/-- Storing a proposal leaves the entry events. -/
theorem Created.ledger {action : VaultActionKind α ρ} {delta : Nat} {expires : Option Nat} {id : Nat}
    (h : Created E caller action delta now expires id s t) :
    t.entryRate = s.entryRate ∧ t.charged = s.charged := by
  obtain ⟨g, u, v, x, y, -, hput, hput', hadmit, hcommit, haudit⟩ := h.steps
  obtain ⟨_, _, -, -, rfl⟩ := proposalPut_ok hput
  obtain ⟨_, _, -, -, rfl⟩ := proposalPut_ok hput'
  obtain ⟨_, -, -, -, rfl⟩ := commitId_ok hcommit
  obtain ⟨_, -, -, -, rfl⟩ := auditFull_ok haudit
  rcases retainedAdmit_ok hadmit with ⟨-, rfl⟩ | ⟨_, -, rfl⟩
  · exact ⟨rfl, rfl⟩
  · exact ⟨rfl, rfl⟩

theorem ProposeEnds.charges {action : VaultActionKind α ρ} {id : Nat}
    (h : ProposeEnds E caller action now s t (.ok id)) : ChargesOnce caller now s t := by
  cases h with
  | admitted checked charge created =>
    obtain ⟨hledger, hlog⟩ := created.ledger
    exact ⟨charge.trans (congrArg some hledger.symm), hlog⟩

/-! ### Runs -/

/-- The vault and the clock. -/
structure World (α ρ : Type) where
  state : State α ρ
  now : Nat

inductive Event (α ρ : Type) where
  | propose (caller : Principal) (action : VaultActionKind α ρ) (lifetime : Option Nat)
  | writes
  | wait

/-- One step: a message proposes and is not rolled back; any other message, or an upgrade, writes; or
time passes. -/
inductive Step (E : Env α ρ) (ok : State α ρ → Write α ρ → Prop) :
    World α ρ → Event α ρ → World α ρ → Prop where
  | propose {w : World α ρ} {caller : Principal} {action : VaultActionKind α ρ} {lifetime : Option Nat}
      {r : Except VaultError Nat} {t : State α ρ}
      (h : (proposeInner E caller action w.now lifetime).exec w.state = .ok (r, t)) :
      Step E ok w (.propose caller action lifetime) {w with state := t}
  | writes {w : World α ρ} {t : State α ρ} (run : Write.Run E ok w.state t) :
      Step E ok w .writes {w with state := t}
  | wait {w : World α ρ} {n : Nat} (h : w.now ≤ n) : Step E ok w .wait {w with now := n}

/-- The vault from an installation at any time: no entry event was ever charged. -/
def plane (E : Env α ρ) : System (World α ρ) (Event α ρ) where
  init w := w.state.entryRate = .empty ∧ w.state.charged = []
  step := Step E fun _ _ => True

/-- The ledger is in step with the log of all charges, which keeps to the rates. -/
def Charged (w : World α ρ) : Prop := Ledgered entryRate w.now w.state.entryRate w.state.charged

/-- A step keeps the ledger in step, whatever its writes are. -/
theorem Step.charged {ok : State α ρ → Write α ρ → Prop} {w w' : World α ρ} {e : Event α ρ}
    (hstep : Step E ok w e w') (h : Charged w) : Charged w' := by
  cases hstep with
  | @propose caller action lifetime r t hexec =>
    cases r with
    | error err =>
      cases proposeInner_ends hexec with
      | refused same =>
        obtain rfl := same
        exact h
    | ok id =>
      have hcharge := (proposeInner_ends hexec).charges
      show Ledgered entryRate w.now t.entryRate t.charged
      rw [hcharge.log]
      exact h.charge hcharge.ledger
  | @writes t run =>
    exact run.keeps (I := fun s => Ledgered entryRate w.now s.entryRate s.charged)
      (fun _ hw hI => by
        obtain ⟨hledger, hlog⟩ := Write.run_ledger hw
        rwa [hledger, hlog]) h
  | wait hle => exact Ledgered.wait h hle

theorem reachable_charged {w : World α ρ} (hw : (plane E).Reachable w) : Charged w := by
  refine System.RunIf.invariant (I := Charged) ?_ ?_ hw
  · rintro w ⟨hledger, hlog⟩
    show Ledgered _ _ _ _
    rw [hledger, hlog]
    exact ledgered_empty
  · intro w e w' _ hI _ hstep
    have hstep : Step E (fun _ _ => True) w e w' := hstep
    exact hstep.charged hI

end StshProtocol.Custody.VaultPlane
