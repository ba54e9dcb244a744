import StshProtocol.Staking.Ballots
import StshProtocol.Staking.Agreement

/-! What was passed, and what was done for it.

In orderly runs the votes of a proposal are counted once each, an act is issued for it only
after it passed and once, and its end is final. Three things break this: a proposal that was
refused is passed again under other parameters, a refusal inside an answered call is taken for
a success, and an execution goes on after it was settled. -/
namespace StshProtocol.Staking
open Foundation ShieldedPool Handler

/-! ### Passage -/

theorem acts_nodup (ty : ProposalType) : ty.acts.Nodup := by
  cases ty with
  | emergencyPause target reason => cases target <;> simp [ProposalType.acts]
  | _ => simp [ProposalType.acts]

/-- What holds of a proposal in every state. -/
structure Passed (g : GovBook) (id : Nat) (p : Proposal) : Prop where
  counted : p.votesFor = votesWeight g id true ∧ p.votesAgainst = votesWeight g id false
  ballots : ∀ (k : SnapshotKey) (v : VoteRecord), g.votes[k]? = some v → k.proposalId = id → Ballot g k v
  within : ∃ total, p.snapshotTotalWeight = some total ∧ p.votesFor + p.votesAgainst ≤ total
  once : (g.journal.issued id).Nodup
  own : g.journal.issued id <+: p.proposalType.acts
  done : p.status = .executed → g.journal.succeeded id = p.proposalType.acts ∨ g.journal.asserted id = true

/-- The proposal has come to its end: the status stays, and nothing more is issued. -/
structure Ended (g : GovBook) (id : Nat) (status : ProposalStatus) (issued : List Act) : Prop where
  status : ∃ p, g.proposals[id]? = some p ∧ p.status = status
  issued : g.journal.issued id = issued

section Passage
variable {D : Deployment} {E : Token.Env} {own : Principal} {w w' : StakingWorld} {id : Nat} {p : Proposal}

theorem passed_of (hpolled : Polled w.state.gov) (hdocketed : Docketed w)
    (hp : w.state.gov.proposals[id]? = some p) : Passed w.state.gov id p := by
  have hcounted := hpolled.proposals id p hp
  obtain ⟨-, hstanding⟩ := (hdocketed.sound id).standing hp
  refine ⟨⟨hcounted.approving, hcounted.opposing⟩, fun k v hv _ => hpolled.votes k v hv,
    ⟨_, hcounted.total, ?_⟩, (acts_nodup _).sublist hstanding.issued.sublist, hstanding.issued,
    fun hexecuted => ?_⟩
  · rw [hcounted.approving, hcounted.opposing]
    exact votes_le hpolled.votes id
  · cases hstanding with
    | voting hst _ _ => rcases hst with hst | hst <;> cases hexecuted.symm.trans hst
    | executing hst _ _ _ _ => cases hexecuted.symm.trans hst
    | refused hst _ _ _ => cases hexecuted.symm.trans hst
    | rejected hst _ _ _ => cases hexecuted.symm.trans hst
    | executed _ _ _ _ hdone => exact hdone

/-- A turn does not change what has ended. -/
theorem CaseTurn.ended {a : Event Input Reply} {g' : GovBook} {status : ProposalStatus} {issued : List Act}
    (hturn : CaseTurn w a id (w.state.gov.case id) (g'.case id)) (hfinal : status.final)
    (h : Ended w.state.gov id status issued) : Ended g' id status issued := by
  obtain ⟨⟨p, hp, rfl⟩, rfl⟩ := h
  have hsame : ∀ {q : Proposal}, (w.state.gov.case id).proposal = some q → q = p := fun hq =>
    Option.some.inj (hq.symm.trans hp)
  cases hturn with
  | keeps hissued hstatus =>
    obtain ⟨p', hp', hst⟩ := hstatus p hp hfinal
    exact ⟨⟨p', hp', hst⟩, hissued⟩
  | begins _ hq _ _ _ hopen _ => exact absurd (hsame hq ▸ hfinal) hopen
  | goes _ hq _ _ hst _ =>
    rcases hfinal with hf | hf <;> cases hf.symm.trans (hsame hq ▸ hst)

/-- What has ended has ended for good. -/
theorem ended_run (hw : Funded w) (hdocketed : Docketed w) {status : ProposalStatus} {issued : List Act}
    (hfinal : status.final) (hended : Ended w.state.gov id status issued)
    (run : (onward D E own w).RunIf (fun w a => Truthful w a ∧ Orderly D w a) w') :
    Funded w' ∧ Docketed w' ∧ Ended w'.state.gov id status issued := by
  induction run with
  | start h =>
    obtain rfl := h
    exact ⟨hw, hdocketed, hended⟩
  | step _ hok hstep ih =>
    obtain ⟨hfunded, hdocketed, hended⟩ := ih
    have hadvanced := hdocketed.step hfunded hok.2 hstep
    exact ⟨Funded.step hfunded hok.1 hstep, hadvanced.docketed, (hadvanced.turn id).ended hfinal hended⟩

/-- In the orderly runs whose lock assertions are true, every proposal is counted and carried
out as it was passed; a step issues an act only for a proposal that passes now, or goes on with
one whose execution began so; and a proposal that was rejected or executed stays so. -/
theorem proposals_pass (D : Deployment) (E : Token.Env) (own : Principal) (w : StakingWorld)
    (run : (system D E own).RunIf (fun w a => Truthful w a ∧ Orderly D w a) w) :
    (∀ (id : Nat) (p : Proposal), w.state.gov.proposals[id]? = some p → Passed w.state.gov id p) ∧
    (∀ a w', Truthful w a → Orderly D w a → (system D E own).step w a w' →
      ∀ id, CaseTurn w a id (w.state.gov.case id) (w'.state.gov.case id)) ∧
    ∀ (id : Nat) (p : Proposal), w.state.gov.proposals[id]? = some p → p.status.final →
      ∀ w', (onward D E own w).RunIf (fun w a => Truthful w a ∧ Orderly D w a) w' →
        Ended w'.state.gov id p.status (w.state.gov.journal.issued id) := by
  have hfunded : Funded w := funded_run (run.mono fun _ _ h => h.1)
  have hdocketed := docketed_run run
  refine ⟨fun id p hp => passed_of (polled_run run) hdocketed hp,
    fun a w' _ horderly hstep id => (hdocketed.step hfunded horderly hstep).turn id,
    fun id p hp hfinal w' honward => ?_⟩
  exact (ended_run hfunded hdocketed hfinal ⟨⟨p, hp, rfl⟩, rfl⟩ honward).2.2

end Passage

/-! ### Two runs -/

/-- Enough for a step to be orderly. -/
def orderlyCheck (D : Deployment) (w : StakingWorld) : Event Input Reply → Bool
  | .call (.executeProposal id) => (w.state.gov.proposals[id]?).all fun p => decide (p.status ≠ .rejected)
  | .reply n r =>
    match w.tasks n with
    | some (.execute t) => (w.state.gov.proposals[t.proposalId]?).all fun p =>
      decide (p.status = .executing) && match D.decodeResult r with
        | .ok (.error _) => false
        | _ => true
    | _ => true
  | _ => true

theorem orderlyCheck_ok (D : Deployment) (w : StakingWorld) (a : Event Input Reply)
    (h : orderlyCheck D w a = true) : Orderly D w a := by
  cases a with
  | call i =>
    cases i with
    | executeProposal id =>
      intro p hp hrejected _ _
      rw [orderlyCheck, hp, Option.all_some] at h
      exact of_decide_eq_true h hrejected
    | _ => trivial
  | reply n r =>
    intro t ht p hp
    simp only [orderlyCheck, ht] at h
    rw [hp, Option.all_some, Bool.and_eq_true] at h
    obtain ⟨hexecuting, hinner⟩ := h
    refine ⟨fun _ _ e he => ?_, fun hne => absurd (of_decide_eq_true hexecuting) hne⟩
    rw [he] at hinner
    cases hinner
  | _ => trivial

section Sample

def sampleKeyUpgrade : VerifierKeyUpgradePayload where
  oldVerifyingKeyHash := 1
  newVerifyingKeyHash := 2
  circuitVersion := 2
  proofSystemId := "groth16"
  auditArtifactUrl := "audit"
  auditArtifactHash := 3
  circuitSourceCommit := "commit"
  verifierWasmHash := 4
  activationTimestampNs := 40 * dayNs
  emergencyDisableSupported := true

/-- The holder of a confirmed stake proposes a new verifier key and votes for it; after the
timelock the proposal is executed, and the pool answers. -/
def sampleVote (answer : Except String Unit) : List (Move Input Reply Ledger.Play) :=
  [.call (.stake (samplePrincipal 7) 100_000_000_000 365 [1]), .elsewhere (.take 0 0),
    .reply 0 (.result (.ok ())),
    .call (.createProposal (samplePrincipal 7) (.verifierKeyUpgrade sampleKeyUpgrade) "new key"),
    .wait dayNs, .call (.vote (samplePrincipal 7) 1 true), .wait (22 * dayNs), .call (.executeProposal 1),
    .reply 1 (.result answer)]

def sampleVoted (check : StakingWorld → Event Input Reply → Bool) (answer : Except String Unit) :
    Option StakingWorld :=
  (player Token.plainEnv (samplePrincipal 8)).run (canister sampleDeployment) check sampleWorld
    (sampleVote answer)

/-- The status of the proposal, its votes, and what was done for it. -/
def StakingWorld.report (w : StakingWorld) (id : Nat) :
    Option (ProposalStatus × Nat × Nat) × List Act × List Act × Bool :=
  ((w.state.gov.proposals[id]?).map fun p => (p.status, p.votesFor, p.votesAgainst),
    w.state.gov.journal.issued id, w.state.gov.journal.succeeded id, w.state.gov.journal.asserted id)

theorem report_some {w : StakingWorld} {id votesFor votesAgainst : Nat} {status : ProposalStatus}
    {issued succeeded : List Act} {asserted : Bool}
    (h : w.report id = (some (status, votesFor, votesAgainst), issued, succeeded, asserted)) :
    (∃ p, w.state.gov.proposals[id]? = some p ∧ p.status = status) ∧
      w.state.gov.journal.succeeded id = succeeded ∧ w.state.gov.journal.asserted id = asserted := by
  obtain ⟨hproposal, hrest⟩ := Prod.mk.inj h
  obtain ⟨-, hrest⟩ := Prod.mk.inj hrest
  obtain ⟨p, hp, hstatus⟩ := Option.map_eq_some_iff.1 hproposal
  exact ⟨⟨p, hp, (Prod.mk.inj hstatus).1⟩, Prod.mk.inj hrest⟩

theorem sampleVoted_done :
    ((sampleVoted (fun w a => truthfulCheck w a && orderlyCheck sampleDeployment w a) (.ok ())).map
      fun w => w.report 1) = some (some (.executed, 200_000_000_000, 0), [.scheduleVkActivation],
        [.scheduleVkActivation], false) := by
  decide +kernel

theorem proposals_pass_executed : ∃ (w : StakingWorld) (p : Proposal),
    w.state.gov.proposals[1]? = some p ∧ p.status = .executed ∧ Passed w.state.gov 1 p := by
  obtain ⟨w, hw, hx⟩ := Option.map_eq_some_iff.1 sampleVoted_done
  obtain ⟨⟨p, hp, hstatus⟩, -⟩ := report_some hx
  refine ⟨w, p, hp, hstatus,
    (proposals_pass sampleDeployment Token.plainEnv (samplePrincipal 8) w ?_).1 1 p hp⟩
  refine Player.run_runIf (fun w a h => ?_) (.start sampleWorld_installed) hw
  rw [Bool.and_eq_true] at h
  exact ⟨truthfulCheck_ok w a h.1, orderlyCheck_ok _ w a h.2⟩

theorem sampleVoted_refused :
    ((sampleVoted truthfulCheck (.error "no such key")).map fun w => w.report 1) =
      some (some (.executed, 200_000_000_000, 0), [.scheduleVkActivation], [], false) := by
  decide +kernel

/-- The pool refuses the new key inside its reply, and the proposal is executed. -/
theorem executed_refused : ∃ w p,
    (system sampleDeployment Token.plainEnv (samplePrincipal 8)).RunIf Truthful w ∧
      w.state.gov.proposals[1]? = some p ∧ p.status = .executed ∧
      w.state.gov.journal.succeeded 1 = [] ∧ w.state.gov.journal.asserted 1 = false ∧
      ¬Passed w.state.gov 1 p := by
  obtain ⟨w, hw, hx⟩ := Option.map_eq_some_iff.1 sampleVoted_refused
  obtain ⟨⟨p, hp, hstatus⟩, hsucceeded, hasserted⟩ := report_some hx
  have hacts : w.state.gov.journal.issued 1 = [.scheduleVkActivation] :=
    (Prod.mk.inj (Prod.mk.inj hx).2).1
  refine ⟨w, p, Player.run_runIf truthfulCheck_ok (.start sampleWorld_installed) hw, hp, hstatus, hsucceeded,
    hasserted, fun h => ?_⟩
  rcases h.done hstatus with hdone | hdone
  · have hissued := h.own
    rw [← hdone, hsucceeded, hacts] at hissued
    exact absurd (List.prefix_nil.1 hissued) (List.cons_ne_nil _ _)
  · cases hasserted.symm.trans hdone

end Sample

/-! ### Weights -/

/-- In the runs whose lock assertions are true, however late the replies, every position stands under its
own id, its weight follows its amount, which the supply covers if it counts, and the weights of all
positions fit in 128 bits. -/
theorem weights_backed {D : Deployment} {E : Token.Env} {own : Principal} {w : StakingWorld}
    (run : (system D E own).RunIf Truthful w) :
    (∀ p pos, w.state.book.positions[p]? = some pos → Sited w.state.book p pos ∧ Fair pos) ∧
    StableMap.sumBy StakePosition.votingWeight w.state.book.positions ≤ u128Max :=
  ⟨(funded_run run).book.position, (funded_run run).book.fits⟩

/-- A late reply confirms the stake a second time. -/
theorem weights_backed_twice : ∃ w : StakingWorld, w.state.book.totalVotingWeight = 2500 ∧
    StableMap.sumBy StakePosition.votingWeight w.state.book.positions ≤ u128Max := by
  obtain ⟨w, hw, hx⟩ := Option.map_eq_some_iff.1 sampleTwice_weight
  exact ⟨w, (Prod.mk.inj hx).1,
    (weights_backed (Player.run_runIf truthfulCheck_ok (.start sampleWorld_installed) hw)).2⟩

end StshProtocol.Staking
