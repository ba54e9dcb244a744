import StshProtocol.Staking.Dockets
import StshProtocol.Staking.Funding

/-! The execution of a proposal, among the other messages.

A case stands somewhere between voting and its end (`Standing`), and a suspended execution
still speaks of its own case (`Underway`). While no rejected proposal is passed again, no
inner refusal is taken for a success, and no late reply contradicts a settlement, every step
keeps this, and issues an act only for a proposal that has passed (`CaseTurn`). -/
namespace StshProtocol.Staking
open Foundation ShieldedPool Handler

variable {D : Deployment} {E : Token.Env} {own : Principal} {w w' : StakingWorld}

/-! ### Where a case stands -/

/-- Nothing was done for the proposal. -/
structure Case.Untouched (c : Case) : Prop where
  issued : c.issued = []
  succeeded : c.succeeded = []
  asserted : c.asserted = false

inductive Standing (now : Nat) (c : Case) (p : Proposal) : Prop where
  | voting (hstatus : p.status = .votingPending ∨ p.status = .votingOpen)
      (hunexecuted : p.executedAtNs = none) (huntouched : c.Untouched)
  | executing (hstatus : p.status = .executing) (hunexecuted : p.executedAtNs = none)
      (hclock : p.executionStartedAtNs ≠ none) (hdue : p.executeAfterNs ≤ now)
      (hissued : c.issued <+: p.proposalType.acts)
  | refused (hstatus : p.status = .rejected) (hunexecuted : p.executedAtNs = none)
      (hdue : p.executeAfterNs ≤ now) (huntouched : c.Untouched)
  | rejected (hstatus : p.status = .rejected) (hexecuted : p.executedAtNs ≠ none)
      (hdue : p.executeAfterNs ≤ now) (hissued : c.issued <+: p.proposalType.acts)
  | executed (hstatus : p.status = .executed) (hexecuted : p.executedAtNs ≠ none)
      (hdue : p.executeAfterNs ≤ now) (hissued : c.issued <+: p.proposalType.acts)
      (hdone : c.succeeded = p.proposalType.acts ∨ c.asserted = true)

def Case.Sound (now : Nat) (c : Case) : Prop :=
  match c.proposal with
  | none => c.Untouched
  | some p => p.votingClosesNs < p.executeAfterNs ∧ Standing now c p

/-- What became of a proposal since its execution was suspended. -/
inductive Follows (p : Proposal) : Proposal → Prop where
  | same : Follows p p
  | settled {status : ProposalStatus} {executedAtNs : Nat} {result : String}
      (hstatus : status = .executed ∨ status = .rejected) :
      Follows p {p with status := status
                        executedAtNs := some executedAtNs
                        executionResult := some result}

/-- A suspended execution, and its case. -/
structure Underway (now : Nat) (c : Case) (task : Execution) : Prop where
  executing : task.proposal.status = .executing
  unexecuted : task.proposal.executedAtNs = none
  due : task.proposal.executeAfterNs ≤ now
  found : ∃ p, c.proposal = some p ∧ Follows task.proposal p
  acts : ∃ before after, task.proposal.proposalType.acts = before ++ task.act :: after ∧
    c.issued = before ++ [task.act] ∧ c.succeeded = before

structure Docketed (w : StakingWorld) : Prop where
  cell : w.state.gov.nextProposalIdCell = some w.state.gov.nextProposalId
  old : ∀ (id : Nat) (p : Proposal), w.state.gov.proposals[id]? = some p → id < w.state.gov.nextProposalId
  sound : ∀ id, (w.state.gov.case id).Sound w.now
  tasks : ∀ n t, w.tasks n = some (.execute t) → Underway w.now (w.state.gov.case t.proposalId) t
  sole : ∀ n n' t t', w.tasks n = some (.execute t) → w.tasks n' = some (.execute t') →
    t'.proposalId = t.proposalId → n' = n

section Standing
variable {now soon : Nat} {c : Case} {p : Proposal} {task : Execution}

theorem Standing.later (h : Standing now c p) (hle : now ≤ soon) : Standing soon c p := by
  cases h with
  | voting hstatus hun huntouched => exact .voting hstatus hun huntouched
  | executing hstatus hun hclock hdue hissued =>
    exact .executing hstatus hun hclock (Nat.le_trans hdue hle) hissued
  | refused hstatus hun hdue huntouched => exact .refused hstatus hun (Nat.le_trans hdue hle) huntouched
  | rejected hstatus hex hdue hissued => exact .rejected hstatus hex (Nat.le_trans hdue hle) hissued
  | executed hstatus hex hdue hissued hdone =>
    exact .executed hstatus hex (Nat.le_trans hdue hle) hissued hdone

theorem Case.Sound.later (h : c.Sound now) (hle : now ≤ soon) : c.Sound soon := by
  unfold Case.Sound at *
  split at h
  · exact h
  · exact ⟨h.1, h.2.later hle⟩

theorem Case.Sound.standing (h : c.Sound now) (hp : c.proposal = some p) :
    p.votingClosesNs < p.executeAfterNs ∧ Standing now c p := by
  unfold Case.Sound at h
  rw [hp] at h
  exact h

theorem Case.sound_of (hp : c.proposal = some p) (hdates : p.votingClosesNs < p.executeAfterNs)
    (h : Standing now c p) : c.Sound now := by
  unfold Case.Sound
  rw [hp]
  exact ⟨hdates, h⟩

theorem Standing.issued (h : Standing now c p) : c.issued <+: p.proposalType.acts := by
  cases h with
  | voting _ _ huntouched => rw [huntouched.issued]; exact List.nil_prefix
  | executing _ _ _ _ hissued => exact hissued
  | refused _ _ _ huntouched => rw [huntouched.issued]; exact List.nil_prefix
  | rejected _ _ _ hissued => exact hissued
  | executed _ _ _ hissued _ => exact hissued

/-- Once the timelock has passed nothing is voted on. -/
theorem Standing.voting_of_before (h : Standing now c p) (hdates : p.votingClosesNs < p.executeAfterNs)
    (hbefore : now ≤ p.votingClosesNs) : (p.status = .votingPending ∨ p.status = .votingOpen) ∧
      p.executedAtNs = none ∧ c.Untouched := by
  cases h with
  | voting hstatus hun huntouched => exact ⟨hstatus, hun, huntouched⟩
  | executing _ _ _ hdue _ => omega
  | refused _ _ hdue _ => omega
  | rejected _ _ hdue _ => omega
  | executed _ _ hdue _ _ => omega

theorem Follows.proposalType {q : Proposal} (h : Follows p q) : q.proposalType = p.proposalType := by
  cases h <;> rfl

theorem Underway.later (h : Underway now c task) (hle : now ≤ soon) : Underway soon c task :=
  ⟨h.executing, h.unexecuted, Nat.le_trans h.due hle, h.found, h.acts⟩

/-- The proposal of a suspended execution is executing, or was settled. -/
theorem Underway.status (h : Underway now c task) (hp : c.proposal = some p) :
    p = task.proposal ∨ (p.executedAtNs ≠ none ∧ (p.status = .executed ∨ p.status = .rejected)) := by
  obtain ⟨q, hq, hfollows⟩ := h.found
  obtain rfl := Option.some.inj (hp.symm.trans hq)
  cases hfollows with
  | same => exact .inl rfl
  | settled hstatus => exact .inr ⟨nofun, hstatus⟩

end Standing

/-! ### What a step does to a case -/

/-- The condition on a step: no rejected proposal is passed again; no inner refusal is taken
for a success; no late reply contradicts a settlement or goes on after it. -/
def Orderly (D : Deployment) (w : StakingWorld) : Event Input Reply → Prop
  | .call (.executeProposal id) => ∀ p : Proposal, w.state.gov.proposals[id]? = some p →
    p.status = .rejected → p.executedAtNs = none → ¬Passes w.state.gov.govParams p
  | .reply n r => ∀ t, w.tasks n = some (.execute t) → ∀ p : Proposal,
    w.state.gov.proposals[t.proposalId]? = some p →
      (p.status = .executing → t.act = .scheduleVkActivation → ∀ e, D.decodeResult r ≠ .ok (.error e)) ∧
      (p.status ≠ .executing → t.verdict D r = some p.status)
  | _ => True

/-- The status a proposal keeps for good. -/
def ProposalStatus.final (st : ProposalStatus) : Prop := st = .rejected ∨ st = .executed

/-- What a step does to a case: no act is issued, and a final status stays; or the first act
is, the proposal having passed; or a further one, for an execution begun so. -/
inductive CaseTurn (w : StakingWorld) (a : Event Input Reply) (id : Nat) (c c' : Case) : Prop where
  | keeps (hissued : c'.issued = c.issued) (hstatus : ∀ p, c.proposal = some p → p.status.final →
      ∃ p', c'.proposal = some p' ∧ p'.status = p.status)
  | begins {p : Proposal} (ha : a = .call (.executeProposal id)) (hp : c.proposal = some p)
      (hclosed : p.votingClosesNs ≤ w.now) (hdue : p.executeAfterNs ≤ w.now)
      (hpasses : Passes w.state.gov.govParams p) (hopen : ¬p.status.final) (hfresh : c.issued = [])
  | goes {p : Proposal} {n : Nat} {r : Reply} (ha : a = .reply n r) (hp : c.proposal = some p)
      (hclosed : p.votingClosesNs ≤ w.now) (hdue : p.executeAfterNs ≤ w.now)
      (hstatus : p.status = .executing) (hbegun : c.issued ≠ [])

theorem CaseTurn.refl (w : StakingWorld) (a : Event Input Reply) (id : Nat) (c : Case) :
    CaseTurn w a id c c := .keeps rfl fun p hp _ => ⟨p, hp, rfl⟩

/-- Where a step leads. -/
structure Advanced (w : StakingWorld) (a : Event Input Reply) (w' : StakingWorld) : Prop where
  docketed : Docketed w'
  turn : ∀ id, CaseTurn w a id (w.state.gov.case id) (w'.state.gov.case id)

/-! ### Writing a case -/

theorem Docketed.finish (h : Docketed w) (n : Nat) : Docketed (w.finish n) := by
  have hold : ∀ m k, (w.finish n).tasks m = some k → w.tasks m = some k := fun m k hk => by
    by_cases hm : m = n
    · subst hm
      nomatch (Function.update_self _ _ _).symm.trans hk
    · exact (Function.update_of_ne hm _ _).symm.trans hk
  exact ⟨h.cell, h.old, h.sound, fun m t hk => h.tasks m t (hold m _ hk),
    fun m m' t t' hk hk' => h.sole m m' t t' (hold m _ hk) (hold m' _ hk')⟩

/-- A message ends after writing one case. -/
theorem Docketed.writes (h : Docketed w) {t : StakingState} {id : Nat} (honly : OnlyCase id w.state.gov t.gov)
    (hid : id < w.state.gov.nextProposalId) (hsound : (t.gov.case id).Sound w.now)
    (htasks : ∀ n task, w.tasks n = some (.execute task) → task.proposalId = id →
      Underway w.now (t.gov.case id) task) : Docketed {w with state := t} where
  cell := honly.cell.trans (h.cell.trans (congrArg some honly.next.symm))
  old j p hp := by
    show j < t.gov.nextProposalId
    rw [honly.next]
    by_cases hj : j = id
    · exact hj ▸ hid
    · exact h.old j p ((congrArg Case.proposal (honly.others j hj)).symm.trans hp)
  sound j := by
    by_cases hj : j = id
    · exact hj ▸ hsound
    · exact (honly.others j hj).symm ▸ h.sound j
  tasks n task hk := by
    by_cases hj : task.proposalId = id
    · exact hj ▸ htasks n task hk hj
    · exact (honly.others _ hj).symm ▸ h.tasks n task hk
  sole := h.sole

/-- A message ends without touching the proposals. -/
theorem Docketed.same (h : Docketed w) {t : StakingState} (hgov : t.gov = w.state.gov) :
    Docketed {w with state := t} := by
  refine ⟨?_, ?_, ?_, ?_, h.sole⟩
  · rw [hgov]; exact h.cell
  · rw [hgov]; exact h.old
  · rw [hgov]; exact h.sound
  · rw [hgov]; exact h.tasks

/-- An execution is suspended, the only one of its proposal. -/
theorem Docketed.suspend (h : Docketed w) {task : Execution} {e : Ledger}
    (htask : Underway w.now (w.state.gov.case task.proposalId) task)
    (hsole : ∀ n t, w.tasks n = some (.execute t) → t.proposalId ≠ task.proposalId) :
    Docketed (w.suspend w.state (.execute task) e) := by
  have hcases : ∀ n t, (w.suspend w.state (.execute task) e).tasks n = some (.execute t) →
      n = w.next ∧ t = task ∨ w.tasks n = some (.execute t) := fun n t hk => by
    have heq : (Function.update w.tasks w.next (some (.execute task))) n = some (.execute t) := hk
    by_cases hn : n = w.next
    · subst hn
      rw [Function.update_self] at heq
      exact .inl ⟨rfl, (Cont.execute.inj (Option.some.inj heq)).symm⟩
    · rw [Function.update_of_ne hn] at heq
      exact .inr heq
  refine ⟨h.cell, h.old, h.sound, fun n t hk => ?_, fun n n' t t' hk hk' heq => ?_⟩
  · rcases hcases n t hk with ⟨-, rfl⟩ | hold
    · exact htask
    · exact h.tasks n t hold
  · rcases hcases n t hk with ⟨rfl, rfl⟩ | hold
    · rcases hcases n' t' hk' with ⟨rfl, -⟩ | hold'
      · rfl
      · exact absurd heq (hsole n' t' hold')
    · rcases hcases n' t' hk' with ⟨-, rfl⟩ | hold'
      · exact absurd heq.symm (hsole n t hold)
      · exact h.sole n n' t t' hold hold' heq

/-- Another message is suspended. -/
theorem Docketed.passes (h : Docketed w) {k : Cont} {e : Ledger} (hk : ∀ t, k ≠ .execute t) :
    Docketed (w.suspend w.state k e) := by
  have hcases : ∀ n t, (w.suspend w.state k e).tasks n = some (.execute t) →
      w.tasks n = some (.execute t) := fun n t hkt => by
    have heq : (Function.update w.tasks w.next (some k)) n = some (.execute t) := hkt
    by_cases hn : n = w.next
    · subst hn
      rw [Function.update_self] at heq
      exact absurd (Option.some.inj heq) (hk t)
    · rwa [Function.update_of_ne hn] at heq
  exact ⟨h.cell, h.old, h.sound, fun n t hkt => h.tasks n t (hcases n t hkt),
    fun n n' t t' hkt hkt' => h.sole n n' t t' (hcases n t hkt) (hcases n' t' hkt')⟩

/-- The proposal of a suspended execution is there. -/
theorem Docketed.task_old (h : Docketed w) {n : Nat} {task : Execution}
    (hk : w.tasks n = some (.execute task)) : task.proposalId < w.state.gov.nextProposalId := by
  obtain ⟨p, hp, -⟩ := (h.tasks n task hk).found
  exact h.old _ p hp

/-- An id is given out, with a snapshot. -/
theorem Docketed.numbered (h : Docketed w) {t : StakingState} {eligible : List StakePosition}
    (hgov : t.gov = insertSnapshot w.state.gov.nextProposalId eligible w.state.gov.numbered) :
    Docketed {w with state := t} := by
  refine ⟨?_, fun id p hp => ?_, fun id => ?_, fun n task hk => ?_, h.sole⟩
  · rw [hgov]; rfl
  · rw [hgov] at hp ⊢
    exact Nat.lt_succ_of_lt (h.old id p hp)
  · rw [hgov]
    exact h.sound id
  · rw [hgov]
    exact h.tasks n task hk

theorem Docketed.untouched (h : Docketed w) {id : Nat} (hp : (w.state.gov.case id).proposal = none) :
    (w.state.gov.case id).Untouched := by
  have hsound := h.sound id
  unfold Case.Sound at hsound
  rwa [hp] at hsound

theorem Docketed.next_none (h : Docketed w) :
    (w.state.gov.case w.state.gov.nextProposalId).proposal = none := by
  cases hp : (w.state.gov.case w.state.gov.nextProposalId).proposal with
  | none => rfl
  | some p => exact absurd (h.old _ p hp) (Nat.lt_irrefl _)

theorem Docketed.creates (h : Docketed w) {t : StakingState} {a : Event Input Reply}
    (hc : Creates w.now w.state.book w.state.gov t.gov) : Advanced w a {w with state := t} := by
  generalize hg : t.gov = g at hc
  cases hc with
  | nothing =>
    refine ⟨h.same hg, fun id => ?_⟩
    show CaseTurn w a id _ (t.gov.case id)
    rw [hg]
    exact .refl _ _ _ _
  | unheard =>
    refine ⟨h.numbered hg, fun id => ?_⟩
    show CaseTurn w a id _ (t.gov.case id)
    rw [hg]
    exact .refl _ _ _ _
  | @created proposer ty description schedule hdue =>
    have huntouched := h.untouched h.next_none
    have hfirst := h.numbered (t := {t with
      gov := insertSnapshot w.state.gov.nextProposalId (eligiblePositions w.state.book schedule.closes)
        w.state.gov.numbered}) rfl
    have honly := onlyCase_put (insertSnapshot w.state.gov.nextProposalId
      (eligiblePositions w.state.book schedule.closes) w.state.gov.numbered) w.state.gov.nextProposalId
        (newProposal w.now w.state.gov.nextProposalId proposer ty description schedule
          (snapshotSum (eligiblePositions w.state.book schedule.closes)))
    rw [← hg] at honly
    have hcase : t.gov.case w.state.gov.nextProposalId = {w.state.gov.case w.state.gov.nextProposalId with
        proposal := some (newProposal w.now w.state.gov.nextProposalId proposer ty description schedule
          (snapshotSum (eligiblePositions w.state.book schedule.closes)))} := by
      rw [hg, case_put]
      rfl
    refine ⟨hfirst.writes honly (Nat.lt_succ_self _) ?_ fun n task hk hid => ?_, fun id => ?_⟩
    · rw [hcase]
      exact Case.sound_of rfl hdue (.voting (.inl rfl) rfl
        ⟨huntouched.issued, huntouched.succeeded, huntouched.asserted⟩)
    · exact absurd (h.task_old hk) (hid ▸ Nat.lt_irrefl _)
    · show CaseTurn w a id _ (t.gov.case id)
      by_cases hid : id = w.state.gov.nextProposalId
      · subst hid
        rw [hcase]
        exact .keeps rfl fun p hp => nomatch h.next_none.symm.trans hp
      · rw [honly.others id hid]
        exact .refl _ _ _ _

theorem Docketed.votes (h : Docketed w) {t : StakingState} {a : Event Input Reply} {id : Nat}
    {voter : Principal} {approve : Bool}
    (hv : t.gov = w.state.gov ∨ ∃ p, Casts w.now w.state.gov id voter p ∧
      t.gov = ({w.state.gov with
        votes := castVotes w.now voter approve (unvoted w.state.gov id voter) w.state.gov.votes} :
          GovBook).put id (tally approve (castWeight (unvoted w.state.gov id voter)) p)) :
    Advanced w a {w with state := t} := by
  rcases hv with hg | ⟨p, hcasts, hg⟩
  · refine ⟨h.same hg, fun id => ?_⟩
    show CaseTurn w a id _ (t.gov.case id)
    rw [hg]
    exact .refl _ _ _ _
  · obtain ⟨hdates, hstanding⟩ := (h.sound id).standing hcasts.found
    obtain ⟨hstatus, hun, huntouched⟩ := hstanding.voting_of_before hdates hcasts.before
    have htally : ∀ weight, (tally approve weight p).status = .votingOpen ∧
        (tally approve weight p).executedAtNs = none ∧
        (tally approve weight p).votingClosesNs < (tally approve weight p).executeAfterNs := by
      intro weight
      cases approve <;> exact ⟨rfl, hun, hdates⟩
    generalize castVotes w.now voter approve (unvoted w.state.gov id voter) w.state.gov.votes = votes at hg
    generalize castWeight (unvoted w.state.gov id voter) = weight at hg
    obtain ⟨hopen, hunexecuted, hdates'⟩ := htally weight
    have hfirst : Docketed {w with state := {t with gov := {w.state.gov with votes := votes}}} :=
      ⟨h.cell, h.old, h.sound, h.tasks, h.sole⟩
    have honly := onlyCase_put {w.state.gov with votes := votes} id (tally approve weight p)
    rw [← hg] at honly
    have hcase : t.gov.case id = {w.state.gov.case id with proposal := some (tally approve weight p)} := by
      rw [hg, case_put]
      rfl
    refine ⟨hfirst.writes honly (h.old id p hcasts.found) ?_ fun n task hk hid => ?_, fun j => ?_⟩
    · rw [hcase]
      exact Case.sound_of rfl hdates' (.voting (.inr hopen) hunexecuted
        ⟨huntouched.issued, huntouched.succeeded, huntouched.asserted⟩)
    · -- No execution of a proposal that is being voted on is suspended.
      subst hid
      have htask := h.tasks n task hk
      rcases htask.status hcasts.found with rfl | ⟨hexecuted, -⟩
      · rcases hstatus with hst | hst <;> cases hst.symm.trans htask.executing
      · exact absurd hun hexecuted
    · show CaseTurn w a j _ (t.gov.case j)
      by_cases hj : j = id
      · subst hj
        rw [hcase]
        refine .keeps rfl fun q hq hfinal => ?_
        obtain rfl := Option.some.inj (hcasts.found.symm.trans hq)
        rcases hfinal with hf | hf <;> rcases hstatus with hst | hst <;> cases hst.symm.trans hf
      · rw [honly.others j hj]
        exact .refl _ _ _ _

/-! ### Executing -/

section Tried
variable {id : Nat} {p : Proposal}

/-- A proposal whose execution is tried is being voted on, or was refused before. -/
theorem Docketed.tried (h : Docketed w) (htried : Tried w.now w.state.gov id p) :
    (w.state.gov.case id).Untouched ∧ p.votingClosesNs < p.executeAfterNs ∧
      (¬p.status.final ∨ p.status = .rejected) := by
  obtain ⟨hdates, hstanding⟩ := (h.sound id).standing htried.found
  cases hstanding with
  | voting hstatus _ huntouched =>
    refine ⟨huntouched, hdates, .inl fun hfinal => ?_⟩
    rcases hfinal with hf | hf <;> rcases hstatus with hst | hst <;> cases hst.symm.trans hf
  | executing hstatus _ _ _ _ => exact absurd hstatus htried.free
  | refused hstatus _ _ huntouched => exact ⟨huntouched, hdates, .inr hstatus⟩
  | rejected _ hexecuted _ _ => exact absurd htried.unexecuted hexecuted
  | executed _ hexecuted _ _ _ => exact absurd htried.unexecuted hexecuted

/-- Of such a proposal no execution is suspended. -/
theorem Docketed.tried_task (h : Docketed w) (htried : Tried w.now w.state.gov id p) {n : Nat}
    {task : Execution} (hk : w.tasks n = some (.execute task)) : task.proposalId ≠ id := by
  rintro rfl
  have htask := h.tasks n task hk
  rcases htask.status htried.found with rfl | ⟨hexecuted, -⟩
  · exact htried.free htask.executing
  · exact hexecuted htried.unexecuted

end Tried

theorem Docketed.executes (h : Docketed w) {t : StakingState} {id : Nat} {r : Except String Executed}
    (horderly : Orderly D w (.call (.executeProposal id))) (hx : Executes w.now id w.state t r) :
    Advanced w (.call (.executeProposal id)) {w with state := t} ∧
      ∀ task, r = .ok (.calling task) → Underway w.now (t.gov.case task.proposalId) task ∧
        ∀ n t', w.tasks n = some (.execute t') → t'.proposalId ≠ task.proposalId := by
  -- What is written of a proposal that was tried.
  have hwrites : ∀ {p : Proposal}, Tried w.now w.state.gov id p → OnlyCase id w.state.gov t.gov →
      (t.gov.case id).Sound w.now → Docketed {w with state := t} := fun htried honly hsound =>
    h.writes honly (h.old id _ htried.found) hsound fun n task hk hid =>
      absurd hid (h.tried_task htried hk)
  have hturns : ∀ {a}, OnlyCase id w.state.gov t.gov →
      CaseTurn w a id (w.state.gov.case id) (t.gov.case id) →
      ∀ j, CaseTurn w a j (w.state.gov.case j) (t.gov.case j) := fun {a} honly hid j => by
    by_cases hj : j = id
    · exact hj ▸ hid
    · rw [honly.others j hj]
      exact .refl _ _ _ _
  have hbegins : ∀ {p : Proposal} (c : Case), Tried w.now w.state.gov id p →
      Passes w.state.gov.govParams p →
      CaseTurn w (.call (.executeProposal id)) id (w.state.gov.case id) c := fun {p} c htried hpasses => by
    obtain ⟨huntouched, -, hstatus⟩ := h.tried htried
    have hopen : ¬p.status.final := hstatus.resolve_right fun hrej =>
      horderly p htried.found hrej htried.unexecuted hpasses
    exact .begins rfl htried.found htried.closed htried.due hpasses hopen huntouched.issued
  cases hx with
  | nothing hg hr =>
    refine ⟨⟨h.same hg, fun id => ?_⟩, fun task hcall => absurd hcall (hr _)⟩
    show CaseTurn w _ id _ (t.gov.case id)
    rw [hg]
    exact .refl _ _ _ _
  | @rejects p result e htried _ honly hcase =>
    obtain ⟨huntouched, hdates, hstatus⟩ := h.tried htried
    refine ⟨⟨hwrites htried honly ?_, hturns honly ?_⟩, fun task => error_ne_ok.elim⟩
    · rw [hcase]
      exact Case.sound_of rfl hdates (.refused rfl htried.unexecuted htried.due
        ⟨huntouched.issued, huntouched.succeeded, huntouched.asserted⟩)
    · rw [hcase]
      refine .keeps rfl fun q hq hfinal => ?_
      obtain rfl := Option.some.inj (htried.found.symm.trans hq)
      exact ⟨_, rfl, (hstatus.resolve_left (absurd hfinal)).symm⟩
  | @ends p result acts r htried hpasses honly hcase hacts hr =>
    obtain ⟨huntouched, hdates, -⟩ := h.tried htried
    have hissued : w.state.gov.journal.issued id = [] := huntouched.issued
    have hsucceeded : w.state.gov.journal.succeeded id = [] := huntouched.succeeded
    refine ⟨⟨hwrites htried honly ?_, hturns honly (hbegins _ htried hpasses)⟩,
      fun task hcall => absurd hcall (hr task)⟩
    rw [hcase, hissued, hsucceeded]
    refine Case.sound_of rfl hdates ?_
    rcases hacts with ⟨done, rfl, rfl⟩ | ⟨e, rfl, rfl⟩
    · exact .executed rfl nofun htried.due (List.prefix_refl _) (.inl rfl)
    · exact .rejected rfl nofun htried.due List.nil_prefix
  | @calls p act pool rest htried hpasses honly hcase hact =>
    obtain ⟨huntouched, hdates, -⟩ := h.tried htried
    have hissued : w.state.gov.journal.issued id = [] := huntouched.issued
    have hsucceeded : w.state.gov.journal.succeeded id = [] := huntouched.succeeded
    rw [hissued, hsucceeded] at hcase
    refine ⟨⟨hwrites htried honly ?_, hturns honly (hbegins _ htried hpasses)⟩, fun task hcall => ?_⟩
    · rw [hcase]
      refine Case.sound_of rfl hdates (.executing rfl htried.unexecuted nofun htried.due ?_)
      exact ⟨rest, hact.symm⟩
    · obtain rfl := Executed.calling.inj (Except.ok.inj hcall)
      refine ⟨?_, fun n t' hk => h.tried_task htried hk⟩
      rw [hcase]
      exact ⟨rfl, htried.unexecuted, htried.due, ⟨_, rfl, .same⟩, [], rest, hact, rfl, rfl⟩

/-! ### Behind the pool's answer -/

section Verdict
variable {task : Execution} {reply : Reply} {before after : List Act}

/-- The last act of a kind of proposal; with two acts the first pause is not. -/
theorem acts_split (hacts : task.proposal.proposalType.acts = before ++ task.act :: after) :
    (before = [] ∧ task.proposal.proposalType.acts = [task.act] ∧ after = []) ∨
    ((∃ reason, task.proposal.proposalType = .emergencyPause .both reason) ∧
      (before = [] ∧ task.act = .pauseDeposits ∧ after = [.pauseSpends] ∨
        before = [.pauseDeposits] ∧ task.act = .pauseSpends ∧ after = [])) := by
  have hsingle : ∀ {a : Act}, task.proposal.proposalType.acts = [a] →
      before = [] ∧ task.proposal.proposalType.acts = [task.act] ∧ after = [] := fun {a} ha => by
    rw [ha] at hacts
    cases before with
    | nil =>
      obtain ⟨rfl, rfl⟩ := List.cons.inj hacts
      exact ⟨rfl, ha, rfl⟩
    | cons b bs => simp at hacts
  have hpair : task.proposal.proposalType.acts = [.pauseDeposits, .pauseSpends] →
      before = [] ∧ task.act = .pauseDeposits ∧ after = [.pauseSpends] ∨
        before = [.pauseDeposits] ∧ task.act = .pauseSpends ∧ after = [] := fun ha => by
    rw [ha] at hacts
    cases before with
    | nil =>
      obtain ⟨hact, rfl⟩ := List.cons.inj hacts
      exact .inl ⟨rfl, hact.symm, rfl⟩
    | cons b bs =>
      obtain ⟨rfl, hrest⟩ := List.cons.inj hacts
      cases bs with
      | nil =>
        obtain ⟨hact, rfl⟩ := List.cons.inj hrest
        exact .inr ⟨rfl, hact.symm, rfl⟩
      | cons c cs => simp at hrest
  cases hty : task.proposal.proposalType with
  | verifierKeyUpgrade payload => exact .inl (hty ▸ hsingle (by rw [hty]; rfl))
  | rewardScheduleUpdate n => exact .inl (hty ▸ hsingle (by rw [hty]; rfl))
  | governanceParamUpdate params => exact .inl (hty ▸ hsingle (by rw [hty]; rfl))
  | emergencyPause target reason =>
    cases target with
    | poolDeposits => exact .inl (hty ▸ hsingle (by rw [hty]; rfl))
    | poolSpends => exact .inl (hty ▸ hsingle (by rw [hty]; rfl))
    | both => exact .inr ⟨⟨reason, rfl⟩, hpair (by rw [hty]; rfl)⟩
  | _ =>
    rw [hty] at hacts
    simp [ProposalType.acts] at hacts

/-- An answer that executes the proposal confirms its last act, unless it refuses inside. -/
theorem verdict_executed (hverdict : task.verdict D reply = some .executed)
    (hinner : task.act = .scheduleVkActivation → ∀ e, D.decodeResult reply ≠ .ok (.error e))
    (hacts : task.proposal.proposalType.acts = before ++ task.act :: after) :
    task.confirmed D reply = [task.act] ∧ after = [] := by
  have hconfirmed : task.act.succeeds D reply = true → task.confirmed D reply = [task.act] :=
    fun hsucceeds => if_pos hsucceeds
  unfold Execution.verdict at hverdict
  split at hverdict
  · next payload hty =>
    rw [hty] at hacts
    have hsingle : before = [] ∧ Act.scheduleVkActivation = task.act ∧ after = [] := by
      cases before with
      | nil =>
        obtain ⟨hact, hafter⟩ := List.cons.inj hacts
        exact ⟨rfl, hact, hafter.symm⟩
      | cons b bs => simp [ProposalType.acts] at hacts
    obtain ⟨-, hact, hafter⟩ := hsingle
    refine ⟨hconfirmed ?_, hafter⟩
    rw [← hact]
    unfold Act.succeeds
    cases hanswer : D.decodeResult reply with
    | error e =>
      rw [hanswer] at hverdict
      cases hverdict
    | ok inner =>
      cases inner with
      | ok u => rfl
      | error e => exact absurd hanswer (hinner hact.symm e)
  · cases hunit : decodeUnit reply <;> rw [hunit] at hverdict <;> cases hverdict
  · next hact _ hboth =>
    refine ⟨hconfirmed ?_, ?_⟩
    · rw [hact]
      unfold Act.succeeds
      cases hunit : decodeUnit reply with
      | ok u => rfl
      | error e =>
        rw [hunit] at hverdict
        cases hverdict
    · rcases acts_split hacts with ⟨-, -, hafter⟩ | ⟨⟨reason, hty⟩, -⟩
      · exact hafter
      · exact (hboth reason hty).elim
  · next hkey hact _ =>
    refine ⟨hconfirmed ?_, ?_⟩
    · have hanswer : D.decodeResult reply = .ok (.ok ()) := by
        cases hanswer : D.decodeResult reply with
        | error e =>
          rw [hanswer] at hverdict
          cases hverdict
        | ok inner =>
          cases inner with
          | ok u => rfl
          | error e =>
            rw [hanswer] at hverdict
            cases hverdict
      unfold Act.succeeds
      split
      · next hdeposits => exact absurd hdeposits hact
      · rw [hanswer]
    · rcases acts_split hacts with ⟨-, -, hafter⟩ | ⟨-, ⟨-, hdeposits, -⟩ | ⟨-, -, hafter⟩⟩
      · exact hafter
      · exact absurd hdeposits hact
      · exact hafter

end Verdict

theorem Docketed.answered (h : Docketed w) {n : Nat} {task : Execution} {reply : Reply}
    (hk : w.tasks n = some (.execute task)) (horderly : Orderly D w (.reply n reply)) {t : StakingState}
    {r : Except String Executed} (ha : Answered D task reply w.state t r) :
    Advanced w (.reply n reply) {w.finish n with state := t} ∧
      ∀ next, r = .ok (.calling next) → Underway w.now (t.gov.case next.proposalId) next ∧
        ∀ m t', (w.finish n).tasks m = some (.execute t') → t'.proposalId ≠ next.proposalId := by
  have htask := h.tasks n task hk
  obtain ⟨p, hp, hfollows⟩ := htask.found
  obtain ⟨before, after, hacts, hissued, hsucceeded⟩ := htask.acts
  obtain ⟨hdates, hstanding⟩ := (h.sound task.proposalId).standing hp
  obtain ⟨hinner, hlate⟩ := horderly task hk p hp
  have hown : task.proposal.votingClosesNs < task.proposal.executeAfterNs := by
    cases hfollows <;> exact hdates
  -- No other execution of this proposal is suspended.
  have hsole : ∀ m t', (w.finish n).tasks m = some (.execute t') → t'.proposalId ≠ task.proposalId :=
    fun m t' hk' heq => by
      by_cases hm : m = n
      · subst hm
        nomatch (Function.update_self _ _ _).symm.trans hk'
      · exact hm (h.sole n m task t' hk ((Function.update_of_ne hm _ _).symm.trans hk') heq)
  have hwrites : OnlyCase task.proposalId w.state.gov t.gov → (t.gov.case task.proposalId).Sound w.now →
      Docketed {w.finish n with state := t} := fun honly hsound =>
    (h.finish n).writes honly (h.task_old hk) hsound fun m t' hk' hid => absurd hid (hsole m t' hk')
  have hturns : OnlyCase task.proposalId w.state.gov t.gov →
      CaseTurn w (.reply n reply) task.proposalId (w.state.gov.case task.proposalId)
        (t.gov.case task.proposalId) →
      ∀ j, CaseTurn w (.reply n reply) j (w.state.gov.case j) (t.gov.case j) := fun honly hid j => by
    by_cases hj : j = task.proposalId
    · exact hj ▸ hid
    · rw [honly.others j hj]
      exact .refl _ _ _ _
  have hissued' : (w.state.gov.case task.proposalId).issued <+: task.proposal.proposalType.acts := by
    rw [← hfollows.proposalType]
    exact hstanding.issued
  cases ha with
  | @ends result r honly hcase hverdict hr =>
    refine ⟨⟨hwrites honly ?_, hturns honly ?_⟩, fun next hcall => absurd hcall (hr next)⟩
    · rw [hcase]
      refine Case.sound_of rfl hown ?_
      cases result with
      | error e => exact .rejected rfl nofun htask.due hissued'
      | ok m =>
        refine .executed rfl nofun htask.due hissued' ?_
        rcases htask.status hp with rfl | ⟨hexecuted, hended⟩
        · obtain ⟨hconfirmed, rfl⟩ := verdict_executed hverdict (hinner htask.executing) hacts
          refine .inl ?_
          show w.state.gov.journal.succeeded task.proposalId ++ task.confirmed D reply = _
          rw [hconfirmed]
          exact (congrArg (· ++ [task.act]) hsucceeded).trans hacts.symm
        · -- The settlement had asserted it: not all acts were confirmed then.
          have hne : p.status ≠ .executing := fun hexec => by
            rcases hended with hst | hst <;> cases hexec.symm.trans hst
          have hstatus : p.status = .executed := (Option.some.inj (hverdict.symm.trans (hlate hne))).symm
          cases hstanding with
          | executed _ _ _ _ hdone =>
            refine .inr (hdone.resolve_left fun hall => ?_)
            rw [hfollows.proposalType, hsucceeded, hacts] at hall
            have hlength := congrArg List.length hall
            simp at hlength
          | voting hst _ _ => rcases hst with hst | hst <;> cases hstatus.symm.trans hst
          | executing hst _ _ _ _ => exact absurd hst hne
          | refused hst _ _ _ => cases hstatus.symm.trans hst
          | rejected hst _ _ _ => cases hstatus.symm.trans hst
    · rw [hcase]
      refine .keeps rfl fun q hq hfinal => ?_
      obtain rfl := Option.some.inj (hp.symm.trans hq)
      have hne : p.status ≠ .executing := fun hexec => by
        rcases hfinal with hf | hf <;> cases hexec.symm.trans hf
      exact ⟨_, rfl, Option.some.inj (hverdict.symm.trans (hlate hne))⟩
  | calls honly hcase hverdict hact htype =>
    have hexecuting : p.status = .executing := by
      by_contra hne
      cases hverdict.symm.trans (hlate hne)
    have hsame : p = task.proposal := by
      refine (htask.status hp).resolve_right fun ⟨_, hended⟩ => ?_
      rcases hended with hst | hst <;> cases hexecuting.symm.trans hst
    have hbefore : before = [] := by
      rcases acts_split hacts with ⟨hnil, -⟩ | ⟨-, ⟨hnil, -⟩ | ⟨-, hspends, -⟩⟩
      · exact hnil
      · exact hnil
      · cases hact.symm.trans hspends
    rw [hbefore, hact] at hissued
    rw [hbefore] at hsucceeded
    have hcase' : t.gov.case task.proposalId = {w.state.gov.case task.proposalId with
        issued := [.pauseDeposits, .pauseSpends]
        succeeded := [.pauseDeposits]} := by
      rw [hcase]
      have hi : w.state.gov.journal.issued task.proposalId = [.pauseDeposits] := hissued
      have hs : w.state.gov.journal.succeeded task.proposalId = [] := hsucceeded
      rw [hi, hs]
      rfl
    refine ⟨⟨hwrites honly ?_, hturns honly ?_⟩, fun next hcall => ?_⟩
    · rw [hcase']
      refine Case.sound_of hp hdates ?_
      cases hstanding with
      | executing hst hun hclock hdue _ =>
        refine .executing hst hun hclock hdue ⟨[], ?_⟩
        rw [List.append_nil, hsame, htype]
      | voting hst _ _ => rcases hst with hst | hst <;> cases hexecuting.symm.trans hst
      | refused hst _ _ _ => cases hexecuting.symm.trans hst
      | rejected hst _ _ _ => cases hexecuting.symm.trans hst
      | executed hst _ _ _ _ => cases hexecuting.symm.trans hst
    · have hdue : p.executeAfterNs ≤ w.now := hsame ▸ htask.due
      exact .goes rfl hp (Nat.le_trans (Nat.le_of_lt hdates) hdue) hdue hexecuting (by rw [hissued]; nofun)
    · obtain rfl := Executed.calling.inj (Except.ok.inj hcall)
      refine ⟨?_, hsole⟩
      rw [hcase']
      exact ⟨htask.executing, htask.unexecuted, htask.due, ⟨p, hp, hfollows⟩, [.pauseDeposits], [], htype, rfl,
        rfl⟩

theorem Docketed.reconciles (h : Docketed w) {a : Event Input Reply} {t : StakingState} {id : Nat}
    (hr : Reconciles w.now id w.state t) : Advanced w a {w with state := t} := by
  cases hr with
  | nothing hg =>
    refine ⟨h.same hg, fun j => ?_⟩
    show CaseTurn w a j _ (t.gov.case j)
    rw [hg]
    exact .refl _ _ _ _
  | @clock p hp hstatus hclock _ =>
    -- An execution always has its clock.
    obtain ⟨-, hstanding⟩ := (h.sound id).standing hp
    cases hstanding with
    | executing _ _ hstarted _ _ => exact absurd hclock hstarted
    | voting hst _ _ => rcases hst with hst | hst <;> cases hstatus.symm.trans hst
    | refused hst _ _ _ => cases hstatus.symm.trans hst
    | rejected hst _ _ _ => cases hstatus.symm.trans hst
    | executed hst _ _ _ _ => cases hstatus.symm.trans hst
  | @commits p decision hp hstatus honly hcase =>
    obtain ⟨hdates, hstanding⟩ := (h.sound id).standing hp
    have hexecuting : p.executedAtNs = none ∧ p.executeAfterNs ≤ w.now ∧
        (w.state.gov.case id).issued <+: p.proposalType.acts := by
      cases hstanding with
      | executing _ hun _ hdue hissued => exact ⟨hun, hdue, hissued⟩
      | voting hst _ _ => rcases hst with hst | hst <;> cases hstatus.symm.trans hst
      | refused hst _ _ _ => cases hstatus.symm.trans hst
      | rejected hst _ _ _ => cases hstatus.symm.trans hst
      | executed hst _ _ _ _ => cases hstatus.symm.trans hst
    obtain ⟨hun, hdue, hissued⟩ := hexecuting
    refine ⟨h.writes honly (h.old id p hp) ?_ fun n task hk hid => ?_, fun j => ?_⟩
    · rw [hcase]
      refine Case.sound_of rfl hdates ?_
      cases decision with
      | executed => exact .executed rfl nofun hdue hissued (.inr (Bool.or_true _))
      | notExecuted => exact .rejected rfl nofun hdue hissued
    · subst hid
      have htask := h.tasks n task hk
      rcases htask.status hp with rfl | ⟨hexecuted, -⟩
      · rw [hcase]
        refine ⟨htask.executing, htask.unexecuted, htask.due, ⟨_, rfl, .settled ?_⟩, htask.acts⟩
        cases decision
        · exact .inl rfl
        · exact .inr rfl
      · exact absurd hun hexecuted
    · show CaseTurn w a j _ (t.gov.case j)
      by_cases hj : j = id
      · subst hj
        rw [hcase]
        refine .keeps rfl fun q hq hfinal => ?_
        obtain rfl := Option.some.inj (hp.symm.trans hq)
        rcases hfinal with hf | hf <;> cases hstatus.symm.trans hf
      · rw [honly.others j hj]
        exact .refl _ _ _ _

/-! ### Every step -/

theorem Docketed.unchanged (h : Docketed w) {a : Event Input Reply} : Advanced w a w :=
  ⟨h, fun _ => .refl _ _ _ _⟩

theorem Docketed.sameGov (h : Docketed w) {a : Event Input Reply} {t : StakingState}
    (hg : t.gov = w.state.gov) : Advanced w a {w with state := t} := by
  refine ⟨h.same hg, fun j => ?_⟩
  show CaseTurn w a j _ (t.gov.case j)
  rw [hg]
  exact .refl _ _ _ _

/-- A message that does not write the proposals. -/
theorem Docketed.keepsGov {ε α : Type} {next : α → Next} {x : Endpoint ε α} {a : Event Input Reply}
    (h : Docketed w) (hx : ∀ r t, x.exec w.state = .ok (r, t) → t.gov = w.state.gov)
    (hc : Concluded E own next x w w') (hnext : ∀ b k q, next b = .awaits k q → ∀ t, k ≠ .execute t) :
    Advanced w a w' := by
  cases hc with
  | failed hexec hw => exact hw ▸ h.sameGov (hx _ _ hexec)
  | ended hexec _ hw => exact hw ▸ h.sameGov (hx _ _ hexec)
  | @awaits b t k q hexec hn hw =>
    have hadv : Advanced w a {w with state := t} := h.sameGov (hx _ _ hexec)
    have hpasses := Docketed.passes (e := w.env.accept w.next q) hadv.docketed (hnext b k q hn)
    rw [hw]
    exact ⟨hpasses, hadv.turn⟩

theorem stake_gov {now : Nat} {holder : Principal} {amount lockDays : Nat} {key : Bytes}
    {s t : StakingState} {r : Except String Staked}
    (h : (stake now holder amount lockDays key).exec s = .ok (r, t)) : t.gov = s.gov := by
  cases stake_ends h <;> rfl

theorem unstake_gov {now : Nat} {holder : Principal} {positionId : Nat} {s t : StakingState}
    {r : Except String (Principal × UnlockTask)}
    (h : (unstake now holder positionId).exec s = .ok (r, t)) : t.gov = s.gov := by
  cases r with
  | error e => rw [atomic_unstake _ _ _ _ _ h]
  | ok r =>
    obtain ⟨-, -, -, rfl⟩ := unstake_ok h
    rfl

theorem reconcileLock_gov {isController : Bool} {opId : Nat} {decision : LockDecision}
    {s t : StakingState} {r : Except String Unit}
    (h : (reconcileLock isController opId decision).exec s = .ok (r, t)) : t.gov = s.gov := by
  cases r with
  | error e => rw [atomic_reconcileLock _ _ _ _ _ _ h]
  | ok r =>
    obtain ⟨-, -, rfl⟩ := reconcileLock_ok h
    rfl

theorem reconcileUnlock_gov {isController : Bool} {opId : Nat} {decision : LockDecision}
    {s t : StakingState} {r : Except String Unit}
    (h : (reconcileUnlock isController opId decision).exec s = .ok (r, t)) : t.gov = s.gov := by
  cases r with
  | error e => rw [atomic_reconcileUnlock _ _ _ _ _ _ h]
  | ok r =>
    obtain ⟨-, -, rfl⟩ := reconcileUnlock_ok h
    rfl

theorem receiveFeeRevenue_gov {caller : Principal} {amount : Nat} {s t : StakingState}
    {r : Except Empty Unit} (h : (receiveFeeRevenue caller amount).exec s = .ok (r, t)) :
    t.gov = s.gov := by
  have hquiet : Quiet StakingState.gov (fun _ => True) (receiveFeeRevenue caller amount) :=
    Quiet.bind (quiet_read _) fun _ => Quiet.bind (quiet_expect _ _) fun _ =>
      Quiet.bind (quiet_assert _ _) fun _ => quiet_write fun _ => rfl
  exact (hquiet s r t h).1

/-- A message of governance that never awaits. -/
theorem Docketed.ends {ε α : Type} {failed : ε → Answer} {answer : α → Answer} {x : Endpoint ε α}
    {a : Event Input Reply} (hx : ∀ r t, x.exec w.state = .ok (r, t) → Advanced w a {w with state := t})
    (hl : Lands (callees E own) w (conclude failed (fun b => .ends (answer b)) x w.state) w') :
    Advanced w a w' := by
  obtain ⟨r, t, hexec, rfl⟩ := conclude_ends hl
  exact hx r t hexec

theorem Docketed.executed (h : Docketed w) {id : Nat}
    (horderly : Orderly D w (.call (.executeProposal id)))
    (hc : Concluded E own Executed.next (executeProposal w.now id) w w') :
    Advanced w (.call (.executeProposal id)) w' := by
  cases hc with
  | failed hexec hw => exact hw ▸ (h.executes horderly (executeProposal_ends hexec)).1
  | ended hexec _ hw => exact hw ▸ (h.executes horderly (executeProposal_ends hexec)).1
  | @awaits b t k q hexec hn hw =>
    obtain ⟨hadv, htask⟩ := h.executes horderly (executeProposal_ends hexec)
    cases b with
    | done => cases hn
    | calling task =>
      cases hn
      obtain ⟨hunderway, hsole⟩ := htask task rfl
      rw [hw]
      exact ⟨hadv.docketed.suspend hunderway hsole, hadv.turn⟩

theorem Docketed.resumed (h : Docketed w) {n : Nat} {task : Execution} {reply : Reply}
    (hk : w.tasks n = some (.execute task)) (horderly : Orderly D w (.reply n reply))
    (hc : Concluded E own Executed.next (executeAnswered D task reply) (w.finish n) w') :
    Advanced w (.reply n reply) w' := by
  cases hc with
  | failed hexec hw => exact hw ▸ (h.answered hk horderly (executeAnswered_ends hexec)).1
  | ended hexec _ hw => exact hw ▸ (h.answered hk horderly (executeAnswered_ends hexec)).1
  | @awaits b t k q hexec hn hw =>
    obtain ⟨hadv, htask⟩ := h.answered hk horderly (executeAnswered_ends hexec)
    cases b with
    | done => cases hn
    | calling task =>
      cases hn
      obtain ⟨hunderway, hsole⟩ := htask task rfl
      rw [hw]
      exact ⟨hadv.docketed.suspend hunderway hsole, hadv.turn⟩

theorem Docketed.call (h : Docketed w) {i : Input} (horderly : Orderly D w (.call i))
    (hl : Lands (callees E own) w (start w.now i w.state) w') : Advanced w (.call i) w' := by
  cases i with
  | stake caller amount lockDays key =>
    have hc : Concluded E own Staked.next (Staking.stake w.now caller amount lockDays key) w w' :=
      conclude_lands hl
    refine h.keepsGov (fun _ _ => stake_gov) hc fun b k q hn t => ?_
    cases b with
    | earlier positionId => cases hn
    | locking token task =>
      cases hn
      nofun
  | unstake caller positionId =>
    have hc : Concluded E own unstaked (Staking.unstake w.now caller positionId) w w' := conclude_lands hl
    refine h.keepsGov (fun _ _ => unstake_gov) hc fun b k q hn t => ?_
    cases hn
    nofun
  | reconcileLock isController opId decision =>
    exact Docketed.ends (fun r t hexec => h.sameGov (reconcileLock_gov hexec)) hl
  | reconcileUnlock isController opId decision =>
    exact Docketed.ends (fun r t hexec => h.sameGov (reconcileUnlock_gov hexec)) hl
  | claimRewards caller positionId =>
    refine Docketed.ends (fun r t hexec => h.sameGov ?_) hl
    rw [readOnly_claimRewards _ _ _ _ _ hexec]
  | receiveFeeRevenue caller amount =>
    exact Docketed.ends (fun r t hexec => h.sameGov (receiveFeeRevenue_gov hexec)) hl
  | createProposal caller proposalType description =>
    exact Docketed.ends (fun r t hexec => h.creates (createProposal_ends hexec)) hl
  | vote caller proposalId approve =>
    exact Docketed.ends (fun r t hexec => h.votes (vote_ends hexec)) hl
  | executeProposal proposalId => exact h.executed horderly (conclude_lands hl)
  | reconcileStuckProposal isController proposalId decision =>
    exact Docketed.ends (fun r t hexec => h.reconciles (reconcileStuckProposal_ends hexec)) hl

theorem Docketed.reply (h : Docketed w) {n : Nat} {k : Cont} {r : Reply} (hk : w.tasks n = some k)
    (horderly : Orderly D w (.reply n r))
    (hl : Lands (callees E own) (w.finish n) (resume D k r w.state) w') : Advanced w (.reply n r) w' := by
  have hfinish := h.finish n
  cases k with
  | lock t =>
    obtain ⟨b, s, hexec, rfl⟩ := conclude_ends hl
    obtain rfl := lockAnswered_ends hexec
    exact ⟨hfinish.same rfl, fun _ => .refl _ _ _ _⟩
  | unlock t =>
    obtain ⟨b, s, hexec, rfl⟩ := conclude_ends hl
    obtain rfl := unlockAnswered_ends hexec
    exact ⟨hfinish.same rfl, fun _ => .refl _ _ _ _⟩
  | execute t => exact h.resumed hk horderly (conclude_lands hl)

theorem Docketed.step (h : Docketed w) (hfunded : Funded w) {a : Event Input Reply}
    (horderly : Orderly D w a) (hstep : (canister D).Step (callees E own) w a w') : Advanced w a w' := by
  cases hstep with
  | call hl => exact h.call horderly hl
  | callTrap _ => exact h.unchanged
  | reply hk hr hl => exact h.reply hk horderly hl
  | @replyTrap t k r hk hr _ => exact ⟨h.finish t, fun _ => .refl _ _ _ _⟩
  | @upgrade s hs =>
    obtain ⟨m, params, hcell, -, hgov⟩ := (upgrade_ok hs hfunded.book.initialized).gov
    obtain rfl := Option.some.inj (h.cell.symm.trans hcell)
    have hforgot : ∀ n k, (fun _ => none : Nat → Option Cont) n = some k → False := fun _ _ hk => nomatch hk
    refine ⟨⟨?_, ?_, ?_, fun n t hk => (hforgot n _ hk).elim, fun n n' t t' hk => (hforgot n _ hk).elim⟩,
      fun j => ?_⟩
    · rw [hgov]; exact h.cell
    · rw [hgov]; exact h.old
    · rw [hgov]; exact h.sound
    · show CaseTurn w _ j _ (s.gov.case j)
      rw [hgov]
      exact .refl _ _ _ _
  | wait hle =>
    refine ⟨⟨h.cell, h.old, fun j => (h.sound j).later hle, fun n t hk => (h.tasks n t hk).later hle, h.sole⟩,
      fun _ => .refl _ _ _ _⟩
  | elsewhere _ => exact ⟨⟨h.cell, h.old, h.sound, h.tasks, h.sole⟩, fun _ => .refl _ _ _ _⟩
  | others hs =>
    obtain rfl := hs
    exact h.unchanged

theorem Installed.docketed (h : Installed E own w) : Docketed w := by
  obtain ⟨args, hinit⟩ := h.state
  obtain ⟨-, params, -, hgov⟩ := init_ok hinit
  have hnone : ∀ n t, w.tasks n ≠ some (.execute t) := fun n t hk => by
    rw [h.tasks] at hk
    cases hk
  refine ⟨?_, fun id p hp => ?_, fun id => ?_, fun n t hk => absurd hk (hnone n t),
    fun n n' t t' hk => absurd hk (hnone n t)⟩
  · rw [hgov]; rfl
  · rw [hgov] at hp
    simp [GovBook.fresh] at hp
  · rw [hgov]
    simp only [Case.Sound, GovBook.case, GovBook.fresh, Std.ExtTreeMap.getElem?_empty]
    exact ⟨rfl, rfl, rfl⟩

/-- In the orderly runs whose lock assertions are true, every case is sound. -/
theorem docketed_run (run : (system D E own).RunIf (fun w a => Truthful w a ∧ Orderly D w a) w) :
    Docketed w := by
  refine run.invariant (I := Docketed) (fun _ h => Installed.docketed h) fun v a v' hrun h hok hstep => ?_
  have hfunded : Funded v := funded_run (hrun.mono fun _ _ h => h.1)
  exact (Docketed.step h hfunded hok.2 hstep).docketed

end StshProtocol.Staking
