import StshProtocol.Staking.Runs

/-! What each message of governance does to the proposals.

A message touches one proposal: its record, and what the journal has of it (`Case`). The
lemma for an endpoint says what becomes of that case, with the checks that let it through. -/
namespace StshProtocol.Staking
open Foundation ShieldedPool Handler

variable {D : Deployment} {now : Nat} {s t : StakingState} {g g' : GovBook} {id : Nat}

/-! ### Cases -/

/-- A proposal, and what was done for it. -/
structure Case where
  proposal : Option Proposal
  issued : List Act
  succeeded : List Act
  asserted : Bool

def GovBook.case (g : GovBook) (id : Nat) : Case where
  proposal := g.proposals[id]?
  issued := g.journal.issued id
  succeeded := g.journal.succeeded id
  asserted := g.journal.asserted id

/-- Nothing is written but this case and the parameters. -/
structure OnlyCase (id : Nat) (g g' : GovBook) : Prop where
  others : ∀ j, j ≠ id → g'.case j = g.case j
  snapshots : g'.snapshots = g.snapshots
  votes : g'.votes = g.votes
  next : g'.nextProposalId = g.nextProposalId
  cell : g'.nextProposalIdCell = g.nextProposalIdCell

theorem OnlyCase.trans {g'' : GovBook} (h : OnlyCase id g g') (h' : OnlyCase id g' g'') :
    OnlyCase id g g'' where
  others j hj := (h'.others j hj).trans (h.others j hj)
  snapshots := h'.snapshots.trans h.snapshots
  votes := h'.votes.trans h.votes
  next := h'.next.trans h.next
  cell := h'.cell.trans h.cell

/-- The record is replaced. -/
def GovBook.put (g : GovBook) (id : Nat) (p : Proposal) : GovBook :=
  {g with proposals := g.proposals.insert id p}

@[simp] theorem case_put (g : GovBook) (id : Nat) (p : Proposal) :
    (g.put id p).case id = {g.case id with proposal := some p} := by
  simp [GovBook.case, GovBook.put]

theorem onlyCase_put (g : GovBook) (id : Nat) (p : Proposal) : OnlyCase id g (g.put id p) where
  others j hj := by
    have hget : (g.proposals.insert id p)[j]? = g.proposals[j]? :=
      StableMap.get_insert_ne _ (Ne.symm hj)
    show (⟨(g.proposals.insert id p)[j]?, _, _, _⟩ : Case) = _
    rw [hget]
    rfl
  snapshots := rfl
  votes := rfl
  next := rfl
  cell := rfl

theorem writeProposal_ok_iff {ε : Type} {p : Proposal} {u : Unit} :
    (writeProposal id p : Endpoint ε Unit).exec s = .ok (.ok u, t) ↔ t = {s with gov := s.gov.put id p} :=
  write_ok_iff

theorem writeGov_ok_iff {ε : Type} {f : GovBook → GovBook} {u : Unit} :
    (writeGov f : Endpoint ε Unit).exec s = .ok (.ok u, t) ↔ t = {s with gov := f s.gov} :=
  write_ok_iff

/-- A note in the journal. -/
def GovBook.noted (g : GovBook) (f : GovJournal → GovJournal) : GovBook :=
  {g with journal := f g.journal}

section Notes
variable (g : GovBook) (id : Nat) (act : Act)

theorem onlyCase_noted {f : GovJournal → GovJournal}
    (hf : ∀ j, j ≠ id → (f g.journal).issued j = g.journal.issued j ∧
      (f g.journal).succeeded j = g.journal.succeeded j ∧ (f g.journal).asserted j = g.journal.asserted j) :
    OnlyCase id g (g.noted f) where
  others j hj := by
    obtain ⟨hissued, hsucceeded, hasserted⟩ := hf j hj
    simp only [GovBook.case, GovBook.noted, hissued, hsucceeded, hasserted]
  snapshots := rfl
  votes := rfl
  next := rfl
  cell := rfl

theorem onlyCase_issue : OnlyCase id g (g.noted (·.issue id act)) :=
  onlyCase_noted g id fun _ hj => ⟨Function.update_of_ne hj _ _, rfl, rfl⟩

theorem onlyCase_succeed : OnlyCase id g (g.noted (·.succeed id act)) :=
  onlyCase_noted g id fun _ hj => ⟨rfl, Function.update_of_ne hj _ _, rfl⟩

theorem onlyCase_assert : OnlyCase id g (g.noted (·.assert id)) :=
  onlyCase_noted g id fun _ hj => ⟨rfl, rfl, Function.update_of_ne hj _ _⟩

@[simp] theorem case_issue : (g.noted (·.issue id act)).case id =
    {g.case id with issued := g.journal.issued id ++ [act]} := by
  simp [GovBook.case, GovBook.noted, GovJournal.issue]

@[simp] theorem case_succeed : (g.noted (·.succeed id act)).case id =
    {g.case id with succeeded := g.journal.succeeded id ++ [act]} := by
  simp [GovBook.case, GovBook.noted, GovJournal.succeed]

@[simp] theorem case_assert : (g.noted (·.assert id)).case id = {g.case id with asserted := true} := by
  simp [GovBook.case, GovBook.noted, GovJournal.assert]

end Notes

/-! ### Creating and voting -/

/-- A proposal id is given out. -/
def GovBook.numbered (g : GovBook) : GovBook :=
  {g with nextProposalIdCell := some (g.nextProposalId + 1)
          nextProposalId := g.nextProposalId + 1}

theorem sure_allocProposalId {ε : Type} : (allocProposalId : Endpoint ε Nat).Sure :=
  (sure_read _).bind fun _ => (sure_assert _ _).bind fun _ => (sure_write _).bind fun _ => sure_pure _

/-- What `create_proposal` leaves: nothing new, a snapshot of no weight, or a proposal. -/
inductive Creates (now : Nat) (b : StakeBook) (g : GovBook) : GovBook → Prop where
  | nothing : Creates now b g g
  | unheard {closes : Nat} :
      Creates now b g (insertSnapshot g.nextProposalId (eligiblePositions b closes) g.numbered)
  | created {proposer : Principal} {proposalType : ProposalType} {description : String}
      {schedule : Schedule} (hdue : schedule.closes < schedule.executes) :
      Creates now b g
        ((insertSnapshot g.nextProposalId (eligiblePositions b schedule.closes) g.numbered).put
          g.nextProposalId (newProposal now g.nextProposalId proposer proposalType description schedule
            (snapshotSum (eligiblePositions b schedule.closes))))

/-- Valid parameters leave time between the end of voting and the execution. -/
theorem validate_timelock {params : GovernanceParams} (h : params.validate = .ok ()) (ty : ProposalType) :
    0 < ty.timelockNs params := by
  have hlocks : params.checkTimelocks = .ok () := by
    unfold GovernanceParams.validate at h
    obtain ⟨-, -, h⟩ := bind_ok h
    obtain ⟨⟨⟩, hlocks, -⟩ := bind_ok h
    exact hlocks
  unfold GovernanceParams.checkTimelocks at hlocks
  split at hlocks
  · cases hlocks
  · next hexec =>
    split at hlocks
    · cases hlocks
    · next hvk =>
      have hfloor : 0 < stakingExecutionTimelockNs := by decide
      have hvkFloor : 0 < vkUpgradeMinTimelockNs := by decide
      unfold ProposalType.timelockNs
      split <;> omega

theorem scheduleProposal_ok {params : GovernanceParams} {timelock : Nat} {sch : Schedule}
    (h : (scheduleProposal now params timelock).exec s = .ok (.ok sch, t)) :
    sch.executes = sch.closes + timelock ∧ t = s := by
  simp only [scheduleProposal, bind_ok_iff, need_ok_iff, pure_ok_iff, and_assoc, exists_and_left,
    exists_eq_left] at h
  obtain ⟨opens, -, closes, -, executes, hexec, rfl, rfl⟩ := h
  refine ⟨?_, rfl⟩
  unfold checkedAdd64 at hexec
  split at hexec
  · exact (Option.some.inj hexec).symm
  · cases hexec

theorem allocProposalId_ok_iff {ε : Type} {n : Nat} :
    (allocProposalId : Endpoint ε Nat).exec s = .ok (.ok n, t) ↔
      s.gov.nextProposalId + 1 ≤ u64Max ∧ n = s.gov.nextProposalId ∧
        t = {s with gov := s.gov.numbered} := by
  simp only [allocProposalId, GovBook.numbered, bind_ok_iff, read_ok_iff, assert_ok_iff, writeGov_ok_iff,
    pure_ok_iff, and_assoc, exists_and_left, exists_eq_left, exists_const]

theorem createProposal_ends {proposer : Principal} {ty : ProposalType} {description : String}
    {r : Except String Nat}
    (h : (createProposal now proposer ty description).exec s = .ok (r, t)) :
    Creates now s.book s.gov t.gov := by
  rw [createProposal, exec_bind_ok (exec_read _)] at h
  rcases (readOnly_validateAtCreation _).bind_ends h with ⟨rfl, -⟩ | ⟨-, -, h⟩
  · exact .nothing
  rcases (readOnly_lift _).bind_ends h with ⟨rfl, -⟩ | ⟨⟨⟩, hvalid, h⟩
  · exact .nothing
  rcases (readOnly_scheduleProposal _ _).bind_ends h with ⟨rfl, -⟩ | ⟨schedule, hschedule, h⟩
  · exact .nothing
  rw [exec_bind_ok (exec_read _)] at h
  dsimp only at h
  rcases (readOnly_assert _ _).bind_ends h with ⟨rfl, -⟩ | ⟨-, -, h⟩
  · exact .nothing
  rcases (readOnly_demand _ _).bind_ends h with ⟨rfl, -⟩ | ⟨-, -, h⟩
  · exact .nothing
  have hdue : schedule.closes < schedule.executes := by
    have htimelock := validate_timelock (lift_ok_iff.1 hvalid).1 ty
    have hexecutes := (scheduleProposal_ok hschedule).1
    omega
  cases r with
  | error e =>
    rcases bind_error h with hfail | ⟨id, u, halloc, h⟩
    · exact absurd hfail (sure_allocProposalId _ _ _)
    obtain ⟨-, rfl, rfl⟩ := allocProposalId_ok_iff.1 halloc
    rw [writeGov, exec_bind_ok (exec_write _)] at h
    rcases (readOnly_demand _ _).bind_ends h with ⟨rfl, -⟩ | ⟨-, -, h⟩
    · exact .unheard
    · cases h
  | ok id =>
    simp only [bind_ok_iff, allocProposalId_ok_iff, writeGov_ok_iff, demand_ok_iff, writeProposal_ok_iff,
      pure_ok_iff, and_assoc, exists_and_left, exists_eq_left, exists_const] at h
    obtain ⟨-, -, rfl, rfl⟩ := h
    exact .created hdue

/-- What a vote that is cast was checked for. -/
structure Casts (now : Nat) (g : GovBook) (id : Nat) (voter : Principal) (p : Proposal) : Prop where
  found : g.proposals[id]? = some p
  opened : p.votingOpensNs ≤ now
  before : now ≤ p.votingClosesNs

/-- The votes cast now: those of the voter's positions that did not vote yet. -/
def unvoted (g : GovBook) (id : Nat) (voter : Principal) : List (SnapshotKey × SnapshotEntry) :=
  (snapshotEntries g id voter).filter fun e => !g.votes.contains e.1

theorem vote_ends {voter : Principal} {approve : Bool} {r : Except String Unit}
    (h : (vote now voter id approve).exec s = .ok (r, t)) :
    t.gov = s.gov ∨ ∃ p, Casts now s.gov id voter p ∧
      t.gov = ({s.gov with
        votes := castVotes now voter approve (unvoted s.gov id voter) s.gov.votes} : GovBook).put id
          (tally approve (castWeight (unvoted s.gov id voter)) p) := by
  rw [vote, exec_bind_ok (exec_read _)] at h
  rcases (readOnly_need _ _).bind_ends h with ⟨rfl, -⟩ | ⟨p, hp, h⟩
  · exact .inl rfl
  rcases (readOnly_demand _ _).bind_ends h with ⟨rfl, -⟩ | ⟨⟨⟩, hopens, h⟩
  · exact .inl rfl
  rcases (readOnly_demand _ _).bind_ends h with ⟨rfl, -⟩ | ⟨⟨⟩, hcloses, h⟩
  · exact .inl rfl
  rw [exec_bind_ok (exec_read _)] at h
  rcases (readOnly_demand _ _).bind_ends h with ⟨rfl, -⟩ | ⟨-, -, h⟩
  · exact .inl rfl
  rw [exec_bind_ok (exec_read _)] at h
  dsimp only at h
  rcases (readOnly_demand _ _).bind_ends h with ⟨rfl, -⟩ | ⟨-, -, h⟩
  · exact .inl rfl
  rw [writeGov, exec_bind_ok (exec_write _)] at h
  cases h
  exact .inr ⟨p, ⟨(need_ok_iff.1 hp).1, (demand_ok_iff.1 hopens).1, (demand_ok_iff.1 hcloses).1⟩, rfl⟩

/-! ### Executing -/

/-- The proposal passed under these parameters. -/
def Passes (params : GovernanceParams) (p : Proposal) : Prop :=
  ∃ weight, snapshotWeight p = .ok weight ∧ quorumMet params weight p ∧ approvalMet params p

/-- What `execute_proposal` checks before it counts. -/
structure Tried (now : Nat) (g : GovBook) (id : Nat) (p : Proposal) : Prop where
  found : g.proposals[id]? = some p
  unexecuted : p.executedAtNs = none
  free : p.status ≠ .executing
  closed : p.votingClosesNs ≤ now
  due : p.executeAfterNs ≤ now

/-- The proposal as its execution starts. -/
def Proposal.begun (now : Nat) (p : Proposal) : Proposal :=
  {p with status := .executing
          executionStartedAtNs := some now}

/-- What `execute_proposal` does to its case. -/
inductive Executes (now : Nat) (id : Nat) (s t : StakingState) : Except String Executed → Prop where
  | nothing {r : Except String Executed} (h : t.gov = s.gov) (hr : ∀ a, r ≠ .ok a) : Executes now id s t r
  | rejects {p : Proposal} {result : Option String} {e : String} (htried : Tried now s.gov id p)
      (hfails : ¬Passes s.gov.govParams p) (honly : OnlyCase id s.gov t.gov)
      (hcase : t.gov.case id = {s.gov.case id with
        proposal := some {p with status := .rejected, executionResult := result}}) :
      Executes now id s t (.error e)
  | ends {p : Proposal} {result : Except String String} {acts : List Act} {r : Except String Executed}
      (htried : Tried now s.gov id p) (hpasses : Passes s.gov.govParams p) (honly : OnlyCase id s.gov t.gov)
      (hcase : t.gov.case id = ⟨some (concluded now result (p.begun now)), s.gov.journal.issued id ++ acts,
        s.gov.journal.succeeded id ++ acts, s.gov.journal.asserted id⟩)
      (hacts : (∃ done, result = .ok done ∧ acts = p.proposalType.acts) ∨
        ∃ e, result = .error e ∧ acts = []) (hr : ∀ task, r ≠ .ok (.calling task)) :
      Executes now id s t r
  | calls {p : Proposal} {act : Act} {pool : Principal} {rest : List Act} (htried : Tried now s.gov id p)
      (hpasses : Passes s.gov.govParams p) (honly : OnlyCase id s.gov t.gov)
      (hcase : t.gov.case id = ⟨some (p.begun now), s.gov.journal.issued id ++ [act],
        s.gov.journal.succeeded id, s.gov.journal.asserted id⟩)
      (hact : p.proposalType.acts = act :: rest) :
      Executes now id s t (.ok (.calling ⟨id, p.begun now, now, act, pool⟩))

/-- What the beginning of an action does. -/
inductive Opens (id : Nat) (ty : ProposalType) (s : StakingState) : Action → StakingState → Prop where
  | fails {e : String} : Opens id ty s (.ended (.error e)) s
  | applies {done : String} {t : StakingState} (honly : OnlyCase id s.gov t.gov)
      (hcase : t.gov.case id = {s.gov.case id with
        issued := s.gov.journal.issued id ++ ty.acts
        succeeded := s.gov.journal.succeeded id ++ ty.acts}) : Opens id ty s (.ended (.ok done)) t
  | calls {act : Act} {pool : Principal} {rest : List Act} (hact : ty.acts = act :: rest) :
      Opens id ty s (.awaits act pool) {s with gov := s.gov.noted (·.issue id act)}

section Opens
variable {ε : Type} {ty : ProposalType} {r : Except ε Action}

theorem callPool_opens {act : Act} {rest : List Act} {fits : Prop} [Decidable fits]
    (hact : ty.acts = act :: rest) (h : (callPool id act fits : Endpoint ε Action).exec s = .ok (r, t)) :
    ∃ action, r = .ok action ∧ Opens id ty s action t := by
  rw [callPool, exec_bind_ok (exec_read _)] at h
  split at h
  · cases h
    exact ⟨_, rfl, .fails⟩
  · rcases (readOnly_assert _ _).bind_ends h with ⟨-, e, rfl⟩ | ⟨-, -, h⟩
    · rcases bind_error h with hfail | ⟨-, u, -, hissue⟩
      · exact absurd hfail (sure_assert _ _ _ _ _)
      · cases hissue
    · cases h
      exact ⟨_, rfl, .calls hact⟩

/-- Other parameters do not change a case. -/
def GovBook.under (g : GovBook) (params : GovernanceParams) (cell : Option GovernanceParams) : GovBook :=
  {g with govParams := params
          govParamsCell := cell}

theorem onlyCase_under (g : GovBook) (params : GovernanceParams) (cell : Option GovernanceParams) :
    OnlyCase id g (g.under params cell) := ⟨fun _ _ => rfl, rfl, rfl, rfl, rfl⟩

theorem applyHere_opens {f : StakingState → StakingState} {done : String} (hact : ty.acts = [.applied])
    (hf : ∀ s, ∃ params cell, (f s).gov = s.gov.under params cell)
    (h : (applyHere id f done : Endpoint ε Action).exec s = .ok (r, t)) :
    ∃ action, r = .ok action ∧ Opens id ty s action t := by
  obtain ⟨params, cell, hgov⟩ := hf {s with gov := s.gov.noted (·.issue id .applied)}
  have hends : t.gov = ((s.gov.noted (·.issue id .applied)).under params cell).noted (·.succeed id .applied) ∧
      r = .ok (.ended (.ok done)) := by
    rw [← hgov]
    cases h
    exact ⟨rfl, rfl⟩
  obtain ⟨ht, rfl⟩ := hends
  refine ⟨_, rfl, .applies ?_ ?_⟩
  · rw [ht]
    exact ((onlyCase_issue s.gov id .applied).trans (onlyCase_under _ params cell)).trans
      (onlyCase_succeed _ id .applied)
  · rw [ht, case_succeed, hact]
    simp [GovBook.case, GovBook.under, GovBook.noted, GovJournal.issue]

theorem beginAction_opens (h : (beginAction id ty : Endpoint ε Action).exec s = .ok (r, t)) :
    ∃ action, r = .ok action ∧ Opens id ty s action t := by
  cases ty with
  | verifierKeyUpgrade payload =>
    rw [beginAction] at h
    split at h
    · cases h
      exact ⟨_, rfl, .fails⟩
    · exact callPool_opens rfl h
  | rewardScheduleUpdate n =>
    refine applyHere_opens rfl ?_ h
    exact fun s => ⟨s.gov.govParams, s.gov.govParamsCell, rfl⟩
  | governanceParamUpdate params =>
    rw [beginAction] at h
    split at h
    · cases h
      exact ⟨_, rfl, .fails⟩
    · exact applyHere_opens rfl (fun s => ⟨params, some params, rfl⟩) h
  | emergencyPause target reason => cases target <;> exact callPool_opens rfl h
  | parameterUpdate key value =>
    cases h
    exact ⟨_, rfl, .fails⟩
  | treasurySpend subaccount recipient amount reason =>
    cases h
    exact ⟨_, rfl, .fails⟩
  | feeUpdate shieldBps transferBps unshieldBps =>
    cases h
    exact ⟨_, rfl, .fails⟩
  | canisterUpgrade canisterId wasmHash description =>
    cases h
    exact ⟨_, rfl, .fails⟩

end Opens

theorem afterAction_ends {p : Proposal} {result : Except String String} {r : Except String Executed}
    (h : (afterAction now id p (.ended result)).exec s = .ok (r, t)) :
    t = {s with gov := s.gov.put id (concluded now result p)} ∧ ∀ task, r ≠ .ok (.calling task) := by
  have hwrite : (writeProposal id (concluded now result p) >>= fun _ =>
      lift result >>= fun _ => pure Executed.done : Endpoint String Executed).exec s = .ok (r, t) := h
  rw [writeProposal, writeGov, exec_bind_ok (exec_write _)] at hwrite
  cases result with
  | error e =>
    cases hwrite
    exact ⟨rfl, fun _ => error_ne_ok⟩
  | ok m =>
    cases hwrite
    exact ⟨rfl, fun _ hr => Executed.noConfusion (Except.ok.inj hr)⟩

theorem refuseUnless_ends {met : Prop} [Decidable met] {p : Proposal} {e : String}
    {f : Unit → Endpoint String Executed} {r : Except String Executed}
    (h : (refuseUnless met id p e >>= f).exec s = .ok (r, t)) :
    (¬met ∧ r = .error e ∧ t = {s with gov := s.gov.put id p}) ∨ met ∧ (f ()).exec s = .ok (r, t) := by
  unfold refuseUnless at h
  split at h
  · next hmet => exact .inr ⟨hmet, h⟩
  · next hmet =>
    cases h
    exact .inl ⟨hmet, rfl, rfl⟩

theorem checkPassed_ends {params : GovernanceParams} {p : Proposal} {f : Unit → Endpoint String Executed}
    {r : Except String Executed} (h : (checkPassed params id p >>= f).exec s = .ok (r, t)) :
    (t = s ∧ ∃ e, r = .error e) ∨
      (¬Passes params p ∧ ∃ e result, r = .error e ∧
        t = {s with gov := s.gov.put id {p with status := .rejected, executionResult := result}}) ∨
      Passes params p ∧ (f ()).exec s = .ok (r, t) := by
  unfold checkPassed at h
  rw [bind_assoc] at h
  rcases (readOnly_lift _).bind_ends h with hread | ⟨weight, hweight, h⟩
  · exact .inl hread
  have hsnapshot := (lift_ok_iff.1 hweight).1
  rw [bind_assoc] at h
  rcases (readOnly_assert _ _).bind_ends h with hread | ⟨-, -, h⟩
  · exact .inl hread
  rw [bind_assoc] at h
  rcases refuseUnless_ends h with ⟨hfails, rfl, rfl⟩ | ⟨hquorum, h⟩
  · refine .inr (.inl ⟨fun ⟨weight', hweight', hmet, _⟩ => hfails ?_, _, _, rfl, rfl⟩)
    obtain rfl := Except.ok.inj (hsnapshot.symm.trans hweight')
    exact hmet
  rcases refuseUnless_ends h with ⟨hfails, rfl, rfl⟩ | ⟨happroved, h⟩
  · exact .inr (.inl ⟨fun ⟨_, _, _, hmet⟩ => hfails hmet, _, p.executionResult, rfl, rfl⟩)
  · exact .inr (.inr ⟨⟨weight, hsnapshot, hquorum, happroved⟩, h⟩)

theorem executeProposal_ends {r : Except String Executed}
    (h : (executeProposal now id).exec s = .ok (r, t)) : Executes now id s t r := by
  have nothing : ∀ {t' : StakingState} {r' : Except String Executed}, t' = s ∧ (∃ e, r' = .error e) →
      Executes now id s t' r' := by
    rintro t' r' ⟨rfl, e, rfl⟩
    exact .nothing rfl fun _ => error_ne_ok
  rw [executeProposal, exec_bind_ok (exec_read _)] at h
  rcases (readOnly_need _ _).bind_ends h with hread | ⟨p, hp, h⟩
  · exact nothing hread
  rcases (readOnly_demand _ _).bind_ends h with hread | ⟨⟨⟩, hunexecuted, h⟩
  · exact nothing hread
  rcases (readOnly_demand _ _).bind_ends h with hread | ⟨⟨⟩, hfree, h⟩
  · exact nothing hread
  rcases (readOnly_demand _ _).bind_ends h with hread | ⟨⟨⟩, hclosed, h⟩
  · exact nothing hread
  rcases (readOnly_demand _ _).bind_ends h with hread | ⟨⟨⟩, hdue, h⟩
  · exact nothing hread
  have htried : Tried now s.gov id p := ⟨(need_ok_iff.1 hp).1, (demand_ok_iff.1 hunexecuted).1,
    (demand_ok_iff.1 hfree).1, (demand_ok_iff.1 hclosed).1, (demand_ok_iff.1 hdue).1⟩
  rw [exec_bind_ok (exec_read _)] at h
  rcases checkPassed_ends h with hread | ⟨hfails, e, result, rfl, rfl⟩ | ⟨hpasses, h⟩
  · exact nothing hread
  · exact .rejects htried hfails (onlyCase_put _ _ _) (case_put _ _ _)
  dsimp only at h
  rw [writeProposal, writeGov, exec_bind_ok (exec_write _)] at h
  have hput := onlyCase_put s.gov id (p.begun now)
  have hcase := case_put s.gov id (p.begun now)
  have hbegun : ∀ u : StakingState, u.gov = s.gov.put id (p.begun now) →
      (beginAction id p.proposalType >>= fun action => afterAction now id (p.begun now) action :
        Endpoint String Executed).exec u = .ok (r, t) → Executes now id s t r := by
    intro u hu h
    cases hbegin : (beginAction id p.proposalType : Endpoint String Action).exec u with
    | error _ =>
      rw [exec_bind_trap hbegin] at h
      cases h
    | ok o =>
      obtain ⟨r', v⟩ := o
      obtain ⟨action, rfl, hopens⟩ := beginAction_opens hbegin
      rw [exec_bind_ok hbegin] at h
      cases hopens with
      | @fails e =>
        obtain ⟨rfl, hr⟩ := afterAction_ends h
        refine .ends htried hpasses ((hu ▸ hput).trans (onlyCase_put _ _ _)) ?_ (.inr ⟨e, rfl, rfl⟩) hr
        rw [case_put, hu, hcase]
        simp [GovBook.case]
      | @applies done v honly happlied =>
        obtain ⟨rfl, hr⟩ := afterAction_ends h
        refine .ends htried hpasses (((hu ▸ hput).trans honly).trans (onlyCase_put _ _ _)) ?_
          (.inl ⟨done, rfl, rfl⟩) hr
        rw [case_put, happlied, hu, hcase]
        rfl
      | calls hact =>
        cases h
        refine .calls htried hpasses ((hu ▸ hput).trans (onlyCase_issue _ _ _)) ?_ hact
        rw [case_issue, hu, hcase]
        rfl
  exact hbegun _ rfl h

/-! ### Behind the pool's answer -/

/-- The status the answer to an act leads to; there is none when another act follows. -/
def Execution.verdict (D : Deployment) (task : Execution) (r : Reply) : Option ProposalStatus :=
  match task.proposal.proposalType, task.act with
  | .verifierKeyUpgrade _, _ => match D.decodeResult r with
    | .ok _ => some .executed
    | .error _ => some .rejected
  | .emergencyPause .both _, .pauseDeposits => match decodeUnit r with
    | .ok () => none
    | .error _ => some .rejected
  | _, .pauseDeposits => match decodeUnit r with
    | .ok () => some .executed
    | .error _ => some .rejected
  | _, _ => match D.decodeResult r with
    | .ok (.ok ()) => some .executed
    | _ => some .rejected

/-- The acts that the answer confirms. -/
def Execution.confirmed (D : Deployment) (task : Execution) (r : Reply) : List Act :=
  if task.act.succeeds D r = true then [task.act] else []

def GovJournal.confirm (id : Nat) (acts : List Act) (j : GovJournal) : GovJournal :=
  {j with succeeded := Function.update j.succeeded id (j.succeeded id ++ acts)}

/-- What the rest of an execution does to its case. -/
inductive Answered (D : Deployment) (task : Execution) (reply : Reply) (s t : StakingState) :
    Except String Executed → Prop where
  | ends {result : Except String String} {r : Except String Executed}
      (honly : OnlyCase task.proposalId s.gov t.gov)
      (hcase : t.gov.case task.proposalId = {s.gov.case task.proposalId with
        proposal := some (concluded task.now result task.proposal)
        succeeded := s.gov.journal.succeeded task.proposalId ++ task.confirmed D reply})
      (hverdict : task.verdict D reply = some (concluded task.now result task.proposal).status)
      (hr : ∀ next, r ≠ .ok (.calling next)) : Answered D task reply s t r
  | calls (honly : OnlyCase task.proposalId s.gov t.gov)
      (hcase : t.gov.case task.proposalId = {s.gov.case task.proposalId with
        issued := s.gov.journal.issued task.proposalId ++ [.pauseSpends]
        succeeded := s.gov.journal.succeeded task.proposalId ++ [.pauseDeposits]})
      (hverdict : task.verdict D reply = none) (hact : task.act = .pauseDeposits)
      (hacts : task.proposal.proposalType.acts = [.pauseDeposits, .pauseSpends]) :
      Answered D task reply s t
        (.ok (.calling ⟨task.proposalId, task.proposal, task.now, .pauseSpends, task.pool⟩))

section Answered
variable {task : Execution} {reply : Reply}

theorem concluded_status (result : Except String String) (p : Proposal) :
    (concluded now result p).status = match result with
      | .ok _ => .executed
      | .error _ => .rejected := rfl

/-- The rest of an action ends, or it was the first act of two. -/
theorem continueAction_ends {r : Except String Action}
    (h : (continueAction D task.proposalId task.proposal.proposalType task.act task.pool reply).exec s =
      .ok (r, t)) :
    (∃ result, r = .ok (.ended result) ∧ t = s ∧
      task.verdict D reply = some (concluded task.now result task.proposal).status) ∨
    r = .ok (.awaits .pauseSpends task.pool) ∧
      t = {s with gov := s.gov.noted (·.issue task.proposalId .pauseSpends)} ∧
      task.verdict D reply = none ∧ task.act = .pauseDeposits ∧
      task.proposal.proposalType.acts = [.pauseDeposits, .pauseSpends] := by
  obtain ⟨id, p, now, act, pool⟩ := task
  simp only [Execution.verdict, concluded_status] at h ⊢
  generalize p.proposalType = ty at h ⊢
  unfold continueAction at h
  split at h
  · cases h
    refine .inl ⟨_, rfl, rfl, ?_⟩
    unfold scheduleEnded
    cases D.decodeResult reply <;> rfl
  · cases hunit : decodeUnit reply with
    | error e =>
      rw [hunit] at h
      cases h
      exact .inl ⟨_, rfl, rfl, rfl⟩
    | ok u =>
      rw [hunit] at h
      cases h
      exact .inr ⟨rfl, rfl, rfl, rfl, rfl⟩
  · next hkey hboth =>
    cases hunit : decodeUnit reply with
    | error e =>
      rw [hunit] at h
      cases h
      exact .inl ⟨_, rfl, rfl, by split <;> simp_all⟩
    | ok u =>
      rw [hunit] at h
      cases h
      exact .inl ⟨_, rfl, rfl, by split <;> simp_all⟩
  · next hkey hdeposits _ =>
    cases h
    refine .inl ⟨_, rfl, rfl, ?_⟩
    -- Only the reply decides, whatever the kind of proposal.
    generalize D.decodeResult reply = answer
    have hanswer : answer = .ok (.ok ()) ∨ (∃ e, answer = .ok (.error e)) ∨ ∃ e, answer = .error e := by
      cases answer with
      | error e => exact .inr (.inr ⟨e, rfl⟩)
      | ok inner =>
        cases inner with
        | error e => exact .inr (.inl ⟨e, rfl⟩)
        | ok u => exact .inl rfl
    cases ty with
    | verifierKeyUpgrade payload => exact (hkey payload rfl).elim
    | emergencyPause target reason =>
      cases act with
      | pauseDeposits => exact (hdeposits rfl).elim
      | _ => cases target <;> rcases hanswer with rfl | ⟨e, rfl⟩ | ⟨e, rfl⟩ <;> rfl
    | _ =>
      cases act with
      | pauseDeposits => exact (hdeposits rfl).elim
      | _ => rcases hanswer with rfl | ⟨e, rfl⟩ | ⟨e, rfl⟩ <;> rfl

theorem noteSuccess_exec :
    (noteSuccess D task reply : Endpoint String Unit).exec s = .ok (.ok (), {s with
      gov := s.gov.noted (·.confirm task.proposalId (task.confirmed D reply))}) := by
  unfold noteSuccess Execution.confirmed
  split
  · rfl
  · have hsame : s.gov.noted (·.confirm task.proposalId []) = s.gov := by
      simp [GovBook.noted, GovJournal.confirm]
    rw [hsame]
    rfl

theorem onlyCase_confirm (g : GovBook) (id : Nat) (acts : List Act) :
    OnlyCase id g (g.noted (·.confirm id acts)) :=
  onlyCase_noted g id fun _ hj => ⟨rfl, Function.update_of_ne hj _ _, rfl⟩

theorem case_confirm (g : GovBook) (id : Nat) (acts : List Act) : (g.noted (·.confirm id acts)).case id =
    {g.case id with succeeded := g.journal.succeeded id ++ acts} := by
  simp [GovBook.case, GovBook.noted, GovJournal.confirm]

/-- A first pause that was answered has succeeded. -/
theorem confirmed_of_goes (hverdict : task.verdict D reply = none) (hact : task.act = .pauseDeposits) :
    task.confirmed D reply = [.pauseDeposits] := by
  unfold Execution.confirmed
  unfold Execution.verdict at hverdict
  rw [hact] at hverdict ⊢
  have hunit : decodeUnit reply = .ok () := by
    cases hunit : decodeUnit reply with
    | ok u => rfl
    | error e =>
      rw [hunit] at hverdict
      split at hverdict <;> simp_all
      all_goals (split at hverdict <;> cases hverdict)
  rw [if_pos]
  unfold Act.succeeds
  rw [hunit]

theorem executeAnswered_ends {r : Except String Executed}
    (h : (executeAnswered D task reply).exec s = .ok (r, t)) : Answered D task reply s t r := by
  rw [executeAnswered, exec_bind_ok noteSuccess_exec] at h
  have hconfirm := onlyCase_confirm s.gov task.proposalId (task.confirmed D reply)
  have hcase := case_confirm s.gov task.proposalId (task.confirmed D reply)
  match hcont : (continueAction D task.proposalId task.proposal.proposalType task.act task.pool reply :
      Endpoint String Action).exec {s with
        gov := s.gov.noted (·.confirm task.proposalId (task.confirmed D reply))} with
  | .error _ =>
    rw [exec_bind_trap hcont] at h
    cases h
  | .ok (r', v) =>
    rcases continueAction_ends hcont with ⟨result, rfl, rfl, hverdict⟩ | ⟨rfl, rfl, hverdict, hact, hacts⟩
    · rw [exec_bind_ok hcont] at h
      obtain ⟨rfl, hr⟩ := afterAction_ends h
      refine .ends (hconfirm.trans (onlyCase_put _ _ _)) ?_ hverdict hr
      rw [case_put, hcase]
    · rw [exec_bind_ok hcont] at h
      cases h
      refine .calls (hconfirm.trans (onlyCase_issue _ _ _)) ?_ hverdict hact hacts
      rw [case_issue, hcase, confirmed_of_goes hverdict hact]
      rfl

end Answered

/-! ### Settling -/

/-- What `reconcile_stuck_proposal` does to its case. -/
inductive Reconciles (now : Nat) (id : Nat) (s t : StakingState) : Prop where
  | nothing (h : t.gov = s.gov)
  | clock {p : Proposal} (hp : s.gov.proposals[id]? = some p) (hstatus : p.status = .executing)
      (hclock : p.executionStartedAtNs = none) (hgov : t.gov = s.gov.put id {p with
        executionStartedAtNs := some now})
  | commits {p : Proposal} (decision : ProposalReconcileDecision) (hp : s.gov.proposals[id]? = some p)
      (hstatus : p.status = .executing) (honly : OnlyCase id s.gov t.gov)
      (hcase : t.gov.case id = {s.gov.case id with
        proposal := some {p with status := decision.status
                                 executedAtNs := some now
                                 executionResult := some (reconciledResult decision)}
        asserted := s.gov.journal.asserted id || decide (decision = .executed)}) : Reconciles now id s t

theorem decideReconcile_clock {p : Proposal} {decision : ProposalReconcileDecision} {o : Nat}
    (h : decideReconcile p decision now = .initializeClock o) :
    p.status = .executing ∧ p.executionStartedAtNs = none ∧ o = now := by
  unfold decideReconcile at h
  split at h
  · cases h
  · cases h
  · next hstatus =>
    split at h
    · next hclock =>
      cases h
      exact ⟨hstatus, hclock, rfl⟩
    · split at h <;> cases h
  · cases h

theorem decideReconcile_commit {p : Proposal} {decision : ProposalReconcileDecision}
    {status : ProposalStatus} {executedAtNs : Nat} {result : String}
    (h : decideReconcile p decision now = .commit status executedAtNs result) :
    p.status = .executing ∧ status = decision.status ∧ executedAtNs = now ∧
      result = reconciledResult decision := by
  unfold decideReconcile at h
  split at h
  · cases h
  · cases h
  · next hstatus =>
    split at h
    · cases h
    · split at h
      · cases h
      · cases h
        exact ⟨hstatus, rfl, rfl, rfl⟩
  · cases h

theorem reconcileStuckProposal_ends {isController : Bool} {decision : ProposalReconcileDecision}
    {r : Except ProposalReconcileError ProposalReconcileResult}
    (h : (reconcileStuckProposal now isController id decision).exec s = .ok (r, t)) :
    Reconciles now id s t := by
  rw [reconcileStuckProposal] at h
  rcases (readOnly_demand _ _).bind_ends h with ⟨rfl, -⟩ | ⟨-, -, h⟩
  · exact .nothing rfl
  rw [exec_bind_ok (exec_read _)] at h
  rcases (readOnly_need _ _).bind_ends h with ⟨rfl, -⟩ | ⟨p, hp, h⟩
  · exact .nothing rfl
  have hfound := (need_ok_iff.1 hp).1
  match hdecide : decideReconcile p decision now with
  | .replay status executionResult =>
    rw [hdecide] at h
    cases h
    exact .nothing rfl
  | .refuse e =>
    rw [hdecide] at h
    cases h
    exact .nothing rfl
  | .initializeClock observedAtNs =>
    obtain ⟨hstatus, hclock, rfl⟩ := decideReconcile_clock hdecide
    rw [hdecide] at h
    cases h
    exact .clock hfound hstatus hclock rfl
  | .commit status executedAtNs executionResult =>
    obtain ⟨hstatus, rfl, rfl, rfl⟩ := decideReconcile_commit hdecide
    rw [hdecide] at h
    cases decision with
    | executed =>
      cases h
      refine .commits .executed hfound hstatus ((onlyCase_assert s.gov id).trans (onlyCase_put _ _ _)) ?_
      refine (case_put _ _ _).trans ?_
      simp [GovBook.case, GovJournal.assert]
    | notExecuted =>
      cases h
      refine .commits .notExecuted hfound hstatus (onlyCase_put _ _ _) ?_
      refine (case_put _ _ _).trans ?_
      simp [GovBook.case]

end StshProtocol.Staking
