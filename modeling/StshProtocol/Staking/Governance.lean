import StshProtocol.Staking.Positions

/-! Governance: proposals, votes, and the execution of what was passed.

Who may vote on a proposal, and with what weight, is fixed when it is created. Executing
one calls the pool for two kinds of action, and awaits; a proposal whose execution does
not return is settled by a controller. What is issued for a proposal is noted in the
journal where it is issued. -/
namespace StshProtocol.Staking
open Foundation ShieldedPool Handler

variable {ε : Type}

/-! ### Creating a proposal -/

/-- `validate_at`. -/
def validateActivation (now : Nat) (p : VerifierKeyUpgradePayload) : Endpoint String Unit := do
  lift p.validateStructural
  assert (now + vkUpgradeMinTimelockNs ≤ u64Max) .arithmeticOverflow
  demand (now + vkUpgradeMinTimelockNs ≤ p.activationTimestampNs)
    "activation_timestamp_ns must be at least 14 days in the future"

def validateAtCreation (now : Nat) : ProposalType → Endpoint String Unit
  | .verifierKeyUpgrade payload => validateActivation now payload
  | _ => pure ()

def snapshotEligible (b : StakeBook) (votingClosesNs : Nat) (pos : StakePosition) : Bool :=
  isActivePosition b pos && decide (0 < pos.votingWeight) && decide (minLockDays ≤ pos.lockDays) &&
    decide (votingClosesNs ≤ pos.lockEndNs)

/-- The positions that may vote, in the order of their ids. -/
def eligiblePositions (b : StakeBook) (votingClosesNs : Nat) : List StakePosition :=
  (b.positions.toList.map Prod.snd).filter (snapshotEligible b votingClosesNs)

def proposerEligibleStake (b : StakeBook) (votingClosesNs : Nat) (proposer : Principal) : Nat :=
  (((eligiblePositions b votingClosesNs).filter fun pos => pos.holder = proposer).map
    StakePosition.amount).sum

def allocProposalId : Endpoint ε Nat := do
  let id ← read fun s => s.gov.nextProposalId
  assert (id + 1 ≤ u64Max) .proposalIdsExhausted
  writeGov fun g => {g with nextProposalIdCell := some (id + 1)
                            nextProposalId := id + 1}
  pure id

/-- One entry for each position that may vote. -/
def insertSnapshot (proposalId : Nat) (eligible : List StakePosition) (g : GovBook) : GovBook :=
  {g with
    snapshots := eligible.foldl
      (fun m pos => m.insert ⟨proposalId, pos.positionId⟩ ⟨pos.holder, pos.votingWeight⟩) g.snapshots}

/-- The weights, added up with saturation. -/
def snapshotSum (eligible : List StakePosition) : Nat :=
  eligible.foldl (fun total pos => satAdd128 total pos.votingWeight) 0

/-- When a proposal opens, closes, and may be executed. -/
structure Schedule where
  opens : Nat
  closes : Nat
  executes : Nat

def scheduleProposal (now : Nat) (params : GovernanceParams) (timelock : Nat) :
    Endpoint String Schedule := do
  let opens ← need (checkedAdd64 now params.votingDelayNs)
    "proposal timestamp overflow: voting_opens_ns"
  let closes ← need (checkedAdd64 opens params.votingPeriodNs)
    "proposal timestamp overflow: voting_closes_ns"
  let executes ← need (checkedAdd64 closes timelock)
    "proposal timestamp overflow: execute_after_ns"
  pure ⟨opens, closes, executes⟩

def newProposal (now id : Nat) (proposer : Principal) (proposalType : ProposalType)
    (description : String) (schedule : Schedule) (snapshotTotalWeight : Nat) : Proposal where
  id := id
  proposer := proposer
  proposalType := proposalType
  description := description
  status := .votingPending
  createdAtNs := now
  votingOpensNs := schedule.opens
  votingClosesNs := schedule.closes
  executeAfterNs := schedule.executes
  votesFor := 0
  votesAgainst := 0
  snapshotTotalWeight := some snapshotTotalWeight
  executedAtNs := none
  executionResult := none
  executionStartedAtNs := none

def writeProposal (id : Nat) (proposal : Proposal) : Endpoint ε Unit :=
  writeGov fun g => {g with proposals := g.proposals.insert id proposal}

def createProposal (now : Nat) (proposer : Principal) (proposalType : ProposalType)
    (description : String) : Endpoint String Nat := do
  let params ← read fun s => s.gov.govParams
  validateAtCreation now proposalType
  lift params.validate
  let schedule ← scheduleProposal now params (proposalType.timelockNs params)
  let b ← read fun s => s.book
  let stake := proposerEligibleStake b schedule.closes proposer
  assert (stake ≤ u128Max) .arithmeticOverflow
  demand (params.minProposalDeposit ≤ stake)
    (s!"Proposer must have >= {params.minProposalDeposit} STSH in SNAPSHOT-ELIGIBLE stake (locked " ++
      s!"through the close of voting and meeting the {minLockDays}-day minimum). Currently " ++
      s!"eligible: {stake}")
  let id ← allocProposalId
  let eligible := eligiblePositions b schedule.closes
  writeGov (insertSnapshot id eligible)
  demand (snapshotSum eligible ≠ 0)
    ("No eligible voting weight exists for this proposal — refusing to create a proposal that " ++
      "could pass with no votes. Positions must meet the minimum lock and remain locked through " ++
      "the close of voting.")
  writeProposal id (newProposal now id proposer proposalType description schedule (snapshotSum eligible))
  pure id

/-! ### Voting -/

/-- The positions a voter held when the proposal was created. -/
def snapshotEntries (g : GovBook) (proposalId : Nat) (voter : Principal) :
    List (SnapshotKey × SnapshotEntry) :=
  g.snapshots.toList.filter fun e => e.1.proposalId = proposalId ∧ e.2.holder = voter

def castVotes (now : Nat) (voter : Principal) (approve : Bool)
    (unvoted : List (SnapshotKey × SnapshotEntry)) (votes : StableMap SnapshotKey VoteRecord) :
    StableMap SnapshotKey VoteRecord :=
  unvoted.foldl (fun m e =>
    m.insert e.1 ⟨e.1.proposalId, some e.1.positionId, voter, approve, e.2.weight, now⟩) votes

def castWeight (unvoted : List (SnapshotKey × SnapshotEntry)) : Nat :=
  unvoted.foldl (fun total e => satAdd128 total e.2.weight) 0

/-- The proposal after these votes. -/
def tally (approve : Bool) (weight : Nat) (proposal : Proposal) : Proposal :=
  if approve then
    {proposal with votesFor := satAdd128 proposal.votesFor weight
                   status := .votingOpen}
  else
    {proposal with votesAgainst := satAdd128 proposal.votesAgainst weight
                   status := .votingOpen}

def vote (now : Nat) (voter : Principal) (proposalId : Nat) (approve : Bool) :
    Endpoint String Unit := do
  let found ← read fun s => s.gov.proposals[proposalId]?
  let proposal ← need found "Proposal not found"
  demand (proposal.votingOpensNs ≤ now) "Voting has not opened yet"
  demand (now ≤ proposal.votingClosesNs) "Voting has closed"
  let entries ← read fun s => snapshotEntries s.gov proposalId voter
  demand (entries ≠ [])
    ("No eligible snapshotted positions for this proposal — a position must have existed at " ++
      "proposal creation, be locked through the close of voting, and meet the 30-day minimum lock " ++
      "(relock a legacy shorter position to become eligible)")
  let votes ← read fun s => s.gov.votes
  let unvoted := entries.filter fun e => !votes.contains e.1
  demand (unvoted ≠ []) "Already voted on this proposal"
  writeGov fun g => {g with votes := castVotes now voter approve unvoted g.votes}
  writeProposal proposalId (tally approve (castWeight unvoted) proposal)

/-! ### The action of a proposal -/

/-- An action has ended, or awaits the answer to one of its acts. -/
inductive Action where
  | ended (result : Except String String)
  | awaits (act : Act) (pool : Principal)
  deriving DecidableEq

/-- The call that an act is. -/
def callOf (pool : Principal) : ProposalType → Act → Request
  | .verifierKeyUpgrade p, .scheduleVkActivation =>
    .scheduleVkActivation pool p.circuitVersion p.newVerifyingKeyHash p.activationTimestampNs
      (p.activationTimestampNs + vkOldKeyGraceNs)
  | _, .pauseSpends => .emergencyPauseSpends pool
  | _, _ => .emergencyPauseDeposits pool

/-- The act is noted as issued for this proposal. -/
def GovJournal.issue (id : Nat) (act : Act) (j : GovJournal) : GovJournal :=
  {j with issued := Function.update j.issued id (j.issued id ++ [act])}

def GovJournal.succeed (id : Nat) (act : Act) (j : GovJournal) : GovJournal :=
  {j with succeeded := Function.update j.succeeded id (j.succeeded id ++ [act])}

def GovJournal.assert (id : Nat) (j : GovJournal) : GovJournal :=
  {j with asserted := Function.update j.asserted id true}

def note (f : GovJournal → GovJournal) : Endpoint ε Unit :=
  writeGov fun g => {g with journal := f g.journal}

/-- The pool is called. -/
def issueCall (id : Nat) (act : Act) (pool : Principal) : Endpoint ε Action := do
  note (·.issue id act)
  pure (.awaits act pool)

/-- The pool is called, if there is one and the arguments can be computed. -/
def callPool (id : Nat) (act : Act) (fits : Prop) [Decidable fits] : Endpoint ε Action := do
  let pool ← read fun s => s.poolCanister
  match pool with
  | none => pure (.ended (.error "Pool canister not set"))
  | some pool => do
    assert fits .arithmeticOverflow
    issueCall id act pool

/-- The canister's own state is changed. -/
def applyHere (id : Nat) (f : StakingState → StakingState) (done : String) : Endpoint ε Action := do
  note (·.issue id .applied)
  write f
  note (·.succeed id .applied)
  pure (.ended (.ok done))

def checkNewParams (params : GovernanceParams) : Except String Unit :=
  if params.vkUpgradeTimelockNs < vkUpgradeMinTimelockNs then
    .error "VK upgrade timelock cannot be less than 14 days"
  else
    params.validate

def unsupported (kind : String) : Action :=
  .ended (.error s!"Unsupported: {kind} proposal actions are not yet active (DEF-084)")

/-- `execute_proposal_action`, up to its first await. -/
def beginAction (id : Nat) : ProposalType → Endpoint ε Action
  | .verifierKeyUpgrade payload =>
    match payload.validateStructural with
    | .error e => pure (.ended (.error e))
    | .ok () =>
      callPool id .scheduleVkActivation (payload.activationTimestampNs + vkOldKeyGraceNs ≤ u64Max)
  | .rewardScheduleUpdate newEmissionRatePerDay =>
    applyHere id (fun s => setRewardState
      {s.rewardState with emissionRatePerDay := newEmissionRatePerDay} s) "Emission rate updated"
  | .governanceParamUpdate params =>
    match checkNewParams params with
    | .error e => pure (.ended (.error e))
    | .ok () => applyHere id (fun s => {s with gov := setGovParams params s.gov})
        "Governance parameters updated"
  | .emergencyPause .poolSpends _ => callPool id .pauseSpends True
  | .emergencyPause .poolDeposits _ | .emergencyPause .both _ => callPool id .pauseDeposits True
  | .parameterUpdate _ _ => pure (unsupported "ParameterUpdate")
  | .treasurySpend _ _ _ _ => pure (unsupported "TreasurySpend")
  | .feeUpdate _ _ _ => pure (unsupported "FeeUpdate")
  | .canisterUpgrade _ _ _ => pure (unsupported "CanisterUpgrade")

/-- Whether a reply reports the success of an act. -/
def Act.succeeds (D : Deployment) (act : Act) (r : Reply) : Bool :=
  match act with
  | .pauseDeposits => match decodeUnit r with
    | .ok () => true
    | .error _ => false
  | _ => match D.decodeResult r with
    | .ok (.ok ()) => true
    | _ => false

/-- The text of an action that went well. -/
def ProposalType.done : ProposalType → String
  | .verifierKeyUpgrade p => s!"VK upgrade scheduled for activation at {p.activationTimestampNs}"
  | .emergencyPause _ reason => s!"Emergency pause applied: {reason}"
  | _ => ""

/-- `pause_result?`. -/
def pauseEnded (done : String) : Except String (Except String Unit) → Except String String
  | .ok (.ok ()) => .ok done
  | .ok (.error e) | .error e => .error e

/-- What the scheduled activation answers inside the reply is not looked at. -/
def scheduleEnded (done : String) : Except String (Except String Unit) → Except String String
  | .ok _ => .ok done
  | .error e => .error e

/-- `execute_proposal_action`, behind the answer to an act. -/
def continueAction (D : Deployment) (id : Nat) (t : ProposalType) (act : Act) (pool : Principal)
    (r : Reply) : Endpoint ε Action :=
  match t, act with
  | .verifierKeyUpgrade _, _ => pure (.ended (scheduleEnded t.done (D.decodeResult r)))
  | .emergencyPause .both _, .pauseDeposits =>
    match decodeUnit r with
    | .error e => pure (.ended (.error e))
    | .ok () => issueCall id .pauseSpends pool
  | _, .pauseDeposits =>
    match decodeUnit r with
    | .error e => pure (.ended (.error e))
    | .ok () => pure (.ended (.ok t.done))
  | _, _ => pure (.ended (pauseEnded t.done (D.decodeResult r)))

/-! ### Executing a proposal -/

/-- What a suspended `execute_proposal` holds. -/
structure Execution where
  proposalId : Nat
  proposal : Proposal
  now : Nat
  act : Act
  pool : Principal
  deriving DecidableEq, Repr

inductive Executed where
  | done
  | calling (task : Execution)

/-- The proposal after its action. -/
def concluded (now : Nat) (result : Except String String) (proposal : Proposal) : Proposal :=
  {proposal with
    executedAtNs := some now
    status := match result with
      | .ok _ => .executed
      | .error _ => .rejected
    executionResult := some (match result with
      | .ok m => m
      | .error e => e)}

/-- The end of `execute_proposal`, or its next await. -/
def afterAction (now proposalId : Nat) (proposal : Proposal) (action : Action) :
    Endpoint String Executed :=
  match action with
  | .awaits act pool => pure (.calling ⟨proposalId, proposal, now, act, pool⟩)
  | .ended result => do
    writeProposal proposalId (concluded now result proposal)
    let _ ← lift result
    pure .done

/-- The denominator of the quorum. -/
def snapshotWeight (proposal : Proposal) : Except String Nat :=
  match proposal.snapshotTotalWeight with
  | none => .error ("Proposal has no eligibility snapshot (created before P-STK) — cannot be " ++
      "executed")
  | some w =>
    if w = 0 then
      .error ("Proposal snapshot has zero eligible voting weight — cannot be executed " ++
        "(a zero quorum denominator would pass on no votes)")
    else
      .ok w

def quorumMet (params : GovernanceParams) (weight : Nat) (proposal : Proposal) : Prop :=
  weight * proposal.proposalType.quorumBps params ≤ (proposal.votesFor + proposal.votesAgainst) * 10000

instance (params : GovernanceParams) (weight : Nat) (proposal : Proposal) :
    Decidable (quorumMet params weight proposal) := inferInstanceAs (Decidable (_ ≤ _))

def approvalMet (params : GovernanceParams) (proposal : Proposal) : Prop :=
  (proposal.votesFor + proposal.votesAgainst) * params.approvalThresholdBps ≤ proposal.votesFor * 10000

instance (params : GovernanceParams) (proposal : Proposal) :
    Decidable (approvalMet params proposal) := inferInstanceAs (Decidable (_ ≤ _))

/-- A proposal that did not pass is rejected; the rejection is committed. -/
def refuseUnless (met : Prop) [Decidable met] (proposalId : Nat) (rejected : Proposal) (e : String) :
    Endpoint String Unit :=
  if met then
    pure ()
  else do
    writeProposal proposalId rejected
    fail e

/-- The products the two checks compute. -/
def talliesFit (params : GovernanceParams) (weight : Nat) (proposal : Proposal) : Prop :=
  (proposal.votesFor + proposal.votesAgainst) * 10000 ≤ u128Max ∧
    weight * proposal.proposalType.quorumBps params ≤ u128Max ∧
    (proposal.votesFor + proposal.votesAgainst) * params.approvalThresholdBps ≤ u128Max

instance (params : GovernanceParams) (weight : Nat) (proposal : Proposal) :
    Decidable (talliesFit params weight proposal) := inferInstanceAs (Decidable (_ ∧ _))

def checkPassed (params : GovernanceParams) (proposalId : Nat) (proposal : Proposal) :
    Endpoint String Unit := do
  let weight ← lift (snapshotWeight proposal)
  assert (talliesFit params weight proposal) .arithmeticOverflow
  refuseUnless (quorumMet params weight proposal) proposalId
    {proposal with status := .rejected
                   executionResult := some "Quorum not met"} "Quorum not met"
  refuseUnless (approvalMet params proposal) proposalId {proposal with status := .rejected}
    "Approval threshold not met"

def executeProposal (now : Nat) (proposalId : Nat) : Endpoint String Executed := do
  let found ← read fun s => s.gov.proposals[proposalId]?
  let proposal ← need found "Proposal not found"
  demand (proposal.executedAtNs = none) "Already executed"
  demand (proposal.status ≠ .executing)
    "Proposal is already executing — concurrent execute_proposal rejected"
  demand (proposal.votingClosesNs ≤ now) "Voting still open"
  demand (proposal.executeAfterNs ≤ now)
    s!"Timelock active — {(proposal.executeAfterNs - now) / 1_000_000_000} seconds remaining"
  let params ← read fun s => s.gov.govParams
  checkPassed params proposalId proposal
  let executing := {proposal with status := .executing
                                  executionStartedAtNs := some now}
  writeProposal proposalId executing
  let action ← beginAction proposalId proposal.proposalType
  afterAction now proposalId executing action

def noteSuccess (D : Deployment) (t : Execution) (r : Reply) : Endpoint ε Unit :=
  if t.act.succeeds D r = true then note (·.succeed t.proposalId t.act) else pure ()

/-- The rest of `execute_proposal`, behind the pool's answer. -/
def executeAnswered (D : Deployment) (t : Execution) (r : Reply) : Endpoint String Executed := do
  noteSuccess D t r
  let action ← continueAction D t.proposalId t.proposal.proposalType t.act t.pool r
  afterAction t.now t.proposalId t.proposal action

/-! ### Settling a proposal that is stuck -/

inductive ProposalReconcileDecision where
  | executed
  | notExecuted
  deriving DecidableEq, Repr

inductive ProposalReconcileResult where
  | reconciled (status : ProposalStatus) (executedAtNs : Nat)
  | terminalReplay (status : ProposalStatus) (executionResult : Option String)
  deriving DecidableEq, Repr

inductive ProposalReconcileError where
  | notController
  | proposalNotFound
  | notStuck (status : ProposalStatus)
  | tooYoung (ageNs thresholdNs : Nat)
  | legacyClockInitialized (observedAtNs thresholdNs : Nat)
  deriving DecidableEq, Repr

inductive ReconcileOutcome where
  | replay (status : ProposalStatus) (executionResult : Option String)
  | refuse (e : ProposalReconcileError)
  | initializeClock (observedAtNs : Nat)
  | commit (status : ProposalStatus) (executedAtNs : Nat) (executionResult : String)
  deriving DecidableEq, Repr

def ProposalReconcileDecision.status : ProposalReconcileDecision → ProposalStatus
  | .executed => .executed
  | .notExecuted => .rejected

def ProposalReconcileDecision.verdict : ProposalReconcileDecision → String
  | .executed => "Executed"
  | .notExecuted => "NotExecuted"

def reconciledResult (decision : ProposalReconcileDecision) : String :=
  s!"RECONCILED:{decision.verdict} — operator reconciliation of a stuck Executing proposal; " ++
    "the action was NOT re-issued"

/-- `decide_reconcile`. -/
def decideReconcile (proposal : Proposal) (decision : ProposalReconcileDecision) (now : Nat) :
    ReconcileOutcome :=
  match proposal.status with
  | .executed | .rejected => .replay proposal.status proposal.executionResult
  | .executing =>
    match proposal.executionStartedAtNs with
    | none => .initializeClock now
    | some startedAt =>
      if now - startedAt < stuckProposalReconcileThresholdNs then
        .refuse (.tooYoung (now - startedAt) stuckProposalReconcileThresholdNs)
      else
        .commit decision.status now (reconciledResult decision)
  | other => .refuse (.notStuck other)

/-- The operator's word that the action was executed. -/
def noteAsserted (id : Nat) : ProposalReconcileDecision → Endpoint ε Unit
  | .executed => note (·.assert id)
  | .notExecuted => pure ()

def reconcileStuckProposal (now : Nat) (isController : Bool) (proposalId : Nat)
    (decision : ProposalReconcileDecision) :
    Endpoint ProposalReconcileError ProposalReconcileResult := do
  demand (isController = true) .notController
  let found ← read fun s => s.gov.proposals[proposalId]?
  let proposal ← need found .proposalNotFound
  match decideReconcile proposal decision now with
  | .replay status executionResult => pure (.terminalReplay status executionResult)
  | .refuse e => fail e
  | .initializeClock observedAtNs => do
    writeProposal proposalId {proposal with executionStartedAtNs := some observedAtNs}
    fail (.legacyClockInitialized observedAtNs stuckProposalReconcileThresholdNs)
  | .commit status executedAtNs executionResult => do
    noteAsserted proposalId decision
    writeProposal proposalId
      {proposal with
        status := status
        executedAtNs := some executedAtNs
        executionResult := some executionResult}
    pure (.reconciled status executedAtNs)

end StshProtocol.Staking
