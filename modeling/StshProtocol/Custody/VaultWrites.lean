import StshProtocol.Custody.VaultEntry

/-! What the writes of the vault do.

Each write has one lemma that says what it found and what it left. A message is a sequence of writes,
and `Write` is the list of all there are: whatever a message does beside charging an entry event and
admitting the bytes of a new proposal, it does by these. -/
namespace StshProtocol.Custody.VaultPlane
open Foundation ShieldedPool
open Foundation.Handler

variable {α ρ : Type} {E : Env α ρ} {s t : State α ρ}

/-! ### Reading the cells -/

theorem companionLoad_ok {cs : CompanionState}
    (h : (companionLoad : Plane α ρ _).exec s = .ok (.ok cs, t)) :
    t = s ∧ s.companion = some cs := by
  simp only [companionLoad, bind_ok_iff, read_ok_iff, expect_ok_iff] at h
  obtain ⟨_, _, ⟨rfl, rfl⟩, hcs, rfl⟩ := h
  exact ⟨rfl, hcs⟩

theorem govLoad_ok {g : GovernanceCellData} (h : (govLoad : Plane α ρ _).exec s = .ok (.ok g, t)) :
    t = s ∧ s.gov = some g := by
  simp only [govLoad, bind_ok_iff, read_ok_iff, expect_ok_iff] at h
  obtain ⟨_, _, ⟨rfl, rfl⟩, hg, rfl⟩ := h
  exact ⟨rfl, hg⟩

/-- The companion record is sealed, and accounts for the indexes there are. -/
structure Accounted (E : Env α ρ) (s : State α ρ) (cs : CompanionState) : Prop where
  cell : s.companion = some cs
  sealed : (companionSeal E cs).commitment = cs.commitment
  agrees : companionRecompute E s cs = cs

theorem companionValidate_ok {u : Unit} (h : (companionValidate E).exec s = .ok (.ok u, t)) :
    t = s ∧ ∃ cs, Accounted E s cs := by
  simp only [companionValidate, bind_ok_iff, read_ok_iff, assert_ok_iff] at h
  obtain ⟨cs, _, hload, _, _, ⟨hsealed, rfl⟩, _, _, ⟨rfl, rfl⟩, hagrees, rfl⟩ := h
  obtain ⟨rfl, hcs⟩ := companionLoad_ok hload
  exact ⟨rfl, cs, hcs, hsealed, hagrees⟩

/-! ### The writes -/

theorem proposalPut_ok {rec : ProposalRecord α ρ} {u : Unit}
    (h : (proposalPut E rec).exec s = .ok (.ok u, t)) :
    ∃ cs g, s.companion = some cs ∧ s.gov = some g ∧
      t = {reindexed E g.bootstrap.counterpart s.proposals[rec.proposalId]? rec cs s with
            proposals := s.proposals.insert rec.proposalId rec} := by
  simp only [proposalPut, bind_ok_iff, read_ok_iff, write_ok_iff] at h
  obtain ⟨_, _, ⟨rfl, rfl⟩, cs, _, hload, g, _, hgov, _, _, rfl, rfl⟩ := h
  obtain ⟨rfl, hcs⟩ := companionLoad_ok hload
  obtain ⟨rfl, hg⟩ := govLoad_ok hgov
  exact ⟨cs, g, hcs, hg, rfl⟩

theorem peekId_ok {kind : IdKind} {id : Nat} (h : (peekId E kind).exec s = .ok (.ok id, t)) :
    t = s ∧ ∃ cs, Accounted E s cs ∧ id = cs.nextId kind := by
  simp only [peekId, bind_ok_iff, pure_ok_iff] at h
  obtain ⟨_, _, hvalidate, cs, _, hload, rfl, rfl⟩ := h
  obtain ⟨rfl, cs', hcs'⟩ := companionValidate_ok hvalidate
  obtain ⟨rfl, hcs⟩ := companionLoad_ok hload
  obtain rfl : cs' = cs := Option.some.inj (hcs'.cell.symm.trans hcs)
  exact ⟨rfl, cs', hcs', rfl⟩

theorem commitId_ok {kind : IdKind} {n : Nat} {u : Unit}
    (h : (commitId E kind n).exec s = .ok (.ok u, t)) :
    ∃ cs, s.companion = some cs ∧ cs.nextId kind = n ∧ n + 1 ≤ u64Max ∧
      t = {s with companion := some (companionSeal E (cs.withNextId (n + 1) kind))} := by
  simp only [commitId, bind_ok_iff, assert_ok_iff, write_ok_iff] at h
  obtain ⟨cs, _, hload, _, _, ⟨hn, rfl⟩, _, _, ⟨hmax, rfl⟩, rfl⟩ := h
  obtain ⟨rfl, hcs⟩ := companionLoad_ok hload
  exact ⟨cs, hcs, hn, hmax, rfl⟩

theorem nextProposalId_ok {id : Nat} (h : (nextProposalId E).exec s = .ok (.ok id, t)) :
    t = s ∧ s.proposals[id]? = none ∧ ∃ cs, Accounted E s cs ∧ id = cs.nextProposalId := by
  simp only [nextProposalId, bind_ok_iff, read_ok_iff, assert_ok_iff, pure_ok_iff] at h
  obtain ⟨_, _, hpeek, _, _, ⟨rfl, rfl⟩, _, _, ⟨hfree, rfl⟩, rfl, rfl⟩ := h
  obtain ⟨rfl, cs, hcs, rfl⟩ := peekId_ok hpeek
  exact ⟨rfl, StableMap.not_contains_iff.1 (Bool.eq_false_iff.1 hfree), cs, hcs, rfl⟩

/-- The event an audit appends. -/
def auditEventOf (s : State α ρ) (id now : Nat) (kind : AuditKind) (proposalId : Option Nat)
    (actor : Principal) (approvingSigners : Option (List Principal))
    (creationReceipt : Option CreationReceipt) : AuditEvent :=
  ⟨id, now, (s.gov.map (·.epoch)).getD 0, kind, proposalId, actor, approvingSigners, creationReceipt⟩

theorem auditFull_ok {now : Nat} {kind : AuditKind} {pid : Option Nat} {actor : Principal}
    {signers : Option (List Principal)} {receipt : Option CreationReceipt} {u : Unit}
    (h : (auditFull E now kind pid actor signers receipt).exec s = .ok (.ok u, t)) :
    ∃ cs, Accounted E s cs ∧ s.auditEvents[cs.nextAuditId]? = none ∧ cs.nextAuditId + 1 ≤ u64Max ∧
      t = {s with
            auditEvents := s.auditEvents.insert cs.nextAuditId
              (auditEventOf s cs.nextAuditId now kind pid actor signers receipt),
            companion := some (companionSeal E {cs with nextAuditId := cs.nextAuditId + 1})} := by
  simp only [auditFull, bind_ok_iff, read_ok_iff, assert_ok_iff, write_ok_iff] at h
  obtain ⟨_, _, hpeek, _, _, ⟨rfl, rfl⟩, _, _, ⟨rfl, rfl⟩, _, _, ⟨hfree, rfl⟩, _, _, rfl, hcommit⟩ := h
  obtain ⟨rfl, cs, hcs, rfl⟩ := peekId_ok hpeek
  obtain ⟨cs', hcs', hn, hmax, rfl⟩ := commitId_ok hcommit
  obtain rfl : cs = cs' := Option.some.inj (hcs.cell.symm.trans hcs')
  exact ⟨cs, hcs, StableMap.not_contains_iff.1 (Bool.eq_false_iff.1 hfree), hmax, rfl⟩

theorem retainedAdmit_ok {who : Principal} {delta : Nat} {u : Unit}
    (h : (retainedAdmit E who delta).exec s = .ok (.ok u, t)) :
    (delta = 0 ∧ t = s) ∨ ∃ cs, s.companion = some cs ∧
      t = {s with companion := some (companionSeal E
        {cs with retainedBytesTotal := satAdd64 cs.retainedBytesTotal delta,
                 retainedBySigner := addRetained who delta cs.retainedBySigner})} := by
  by_cases hdelta : delta = 0
  · rw [retainedAdmit, if_pos hdelta, pure_ok_iff] at h
    exact .inl ⟨hdelta, h.2⟩
  · rw [retainedAdmit, if_neg hdelta] at h
    simp only [bind_ok_iff, write_ok_iff] at h
    obtain ⟨cs, _, hload, rfl⟩ := h
    obtain ⟨rfl, hcs⟩ := companionLoad_ok hload
    exact .inr ⟨cs, hcs, rfl⟩

theorem retainedRelease_ok {who : Principal} {delta : Nat} {u : Unit}
    (h : (retainedRelease E who delta).exec s = .ok (.ok u, t)) :
    (delta = 0 ∧ t = s) ∨ ∃ cs, s.companion = some cs ∧
      t = {s with companion := some (companionSeal E
        {cs with retainedBytesTotal := cs.retainedBytesTotal - delta,
                 retainedBySigner := subRetained who delta cs.retainedBySigner})} := by
  by_cases hdelta : delta = 0
  · rw [retainedRelease, if_pos hdelta, pure_ok_iff] at h
    exact .inl ⟨hdelta, h.2⟩
  · rw [retainedRelease, if_neg hdelta] at h
    simp only [bind_ok_iff, write_ok_iff] at h
    obtain ⟨cs, _, hload, rfl⟩ := h
    obtain ⟨rfl, hcs⟩ := companionLoad_ok hload
    exact .inr ⟨cs, hcs, rfl⟩

theorem reservationInsert_ok {res : Reservation} {u : Unit}
    (h : (reservationInsert res : Plane α ρ Unit).exec s = .ok (.ok u, t)) :
    t = {s with reservations := s.reservations.insert res.proposalId res} := by
  simp only [reservationInsert, bind_ok_iff, read_ok_iff, assert_ok_iff, write_ok_iff] at h
  obtain ⟨_, _, ⟨rfl, rfl⟩, _, _, ⟨-, rfl⟩, rfl⟩ := h
  rfl

/-! ### The writes answer no error -/

theorem sure_companionLoad : (companionLoad : Plane α ρ _).Sure :=
  (sure_read _).bind fun _ => sure_expect _ _

theorem sure_govLoad : (govLoad : Plane α ρ _).Sure := (sure_read _).bind fun _ => sure_expect _ _

theorem sure_companionValidate : (companionValidate E).Sure :=
  sure_companionLoad.bind fun _ => (sure_assert _ _).bind fun _ => (sure_read _).bind fun _ =>
    sure_assert _ _

theorem sure_proposalPut (rec : ProposalRecord α ρ) : (proposalPut E rec).Sure :=
  (sure_read _).bind fun _ => sure_companionLoad.bind fun _ => sure_govLoad.bind fun _ =>
    (sure_write _).bind fun _ => sure_write _

theorem sure_peekId (kind : IdKind) : (peekId E kind).Sure :=
  sure_companionValidate.bind fun _ => sure_companionLoad.bind fun _ => sure_pure _

theorem sure_commitId (kind : IdKind) (n : Nat) : (commitId E kind n).Sure :=
  sure_companionLoad.bind fun _ => (sure_assert _ _).bind fun _ => (sure_assert _ _).bind fun _ =>
    sure_write _

theorem sure_nextProposalId : (nextProposalId E).Sure :=
  (sure_peekId _).bind fun _ => (sure_read _).bind fun _ => (sure_assert _ _).bind fun _ => sure_pure _

theorem sure_auditFull (now : Nat) (kind : AuditKind) (pid : Option Nat) (actor : Principal)
    (signers : Option (List Principal)) (receipt : Option CreationReceipt) :
    (auditFull E now kind pid actor signers receipt).Sure :=
  (sure_peekId _).bind fun _ => (sure_read _).bind fun _ => (sure_read _).bind fun _ =>
    (sure_assert _ _).bind fun _ => (sure_write _).bind fun _ => sure_commitId _ _

theorem sure_retainedAdmit (who : Principal) (delta : Nat) : (retainedAdmit E who delta).Sure := by
  unfold retainedAdmit
  by_cases hdelta : delta = 0
  · rw [if_pos hdelta]
    exact sure_pure ()
  · rw [if_neg hdelta]
    exact sure_companionLoad.bind fun _ => sure_write _

/-! ### All there is to write -/

/-- A write of a message. The roster is the part of the governance cell a transition sets: the
counterpart and what is governed stay. -/
inductive Write (α ρ : Type) where
  | proposal (rec : ProposalRecord α ρ)
  | event (now : Nat) (kind : AuditKind) (proposalId : Option Nat) (actor : Principal)
      (approvingSigners : Option (List Principal)) (creationReceipt : Option CreationReceipt)
  | approvals (id : Nat) (signers : List Principal)
  | reservation (res : Reservation)
  | release (who : Principal) (delta : Nat)
  | snapshot (id : Nat)
  | roster (members : List Principal) (threshold epoch : Nat)

namespace Write

def run (E : Env α ρ) : Write α ρ → Plane α ρ Unit
  | proposal rec => proposalPut E rec
  | event now kind pid actor signers receipt => auditFull E now kind pid actor signers receipt
  | approvals id signers => approvalsPut id signers
  | reservation res => reservationInsert res
  | release who delta => retainedRelease E who delta
  | snapshot id => commitId E .snapshot id
  | roster members threshold epoch => do
    let g ← govLoad
    govStore {g with bootstrap := {g.bootstrap with members := members, threshold := threshold},
                     epoch := epoch}

/-- One write after the other, each in the state it finds. -/
inductive Run (E : Env α ρ) (ok : State α ρ → Write α ρ → Prop) : State α ρ → State α ρ → Prop where
  | nil {s : State α ρ} : Run E ok s s
  | cons {s u t : State α ρ} {w : Write α ρ} (hok : ok s w) (h : (w.run E).exec s = .ok (.ok (), u))
      (rest : Run E ok u t) : Run E ok s t

variable {ok ok' : State α ρ → Write α ρ → Prop}

/-- What every admitted write keeps is kept by a sequence of them. -/
theorem Run.keeps {I : State α ρ → Prop} (run : Run E ok s t)
    (step : ∀ {s u w}, ok s w → (Write.run E w).exec s = .ok (.ok (), u) → I s → I u) (h : I s) :
    I t := by
  induction run with
  | nil => exact h
  | cons hok hw _ ih => exact ih (step hok hw h)

/-- What no write touches: the entry events. -/
theorem run_ledger {w : Write α ρ} (h : (w.run E).exec s = .ok (.ok (), t)) :
    t.entryRate = s.entryRate ∧ t.charged = s.charged := by
  cases w with
  | proposal rec =>
    obtain ⟨cs, g, -, -, rfl⟩ := proposalPut_ok h
    exact ⟨rfl, rfl⟩
  | event now kind pid actor signers receipt =>
    obtain ⟨cs, -, -, -, rfl⟩ := auditFull_ok h
    exact ⟨rfl, rfl⟩
  | approvals id signers =>
    cases h
    exact ⟨rfl, rfl⟩
  | reservation res =>
    obtain rfl := reservationInsert_ok h
    exact ⟨rfl, rfl⟩
  | release who delta =>
    rcases retainedRelease_ok h with ⟨-, rfl⟩ | ⟨cs, -, rfl⟩
    · exact ⟨rfl, rfl⟩
    · exact ⟨rfl, rfl⟩
  | snapshot id =>
    obtain ⟨cs, -, -, -, rfl⟩ := commitId_ok h
    exact ⟨rfl, rfl⟩
  | roster members threshold epoch =>
    simp only [run, govStore, bind_ok_iff, write_ok_iff] at h
    obtain ⟨g, _, hgov, rfl⟩ := h
    obtain ⟨rfl, -⟩ := govLoad_ok hgov
    exact ⟨rfl, rfl⟩

end Write

end StshProtocol.Custody.VaultPlane
