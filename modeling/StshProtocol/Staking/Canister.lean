import StshProtocol.Staking.Governance
import StshProtocol.Token.Supply
import StshProtocol.Foundation.Canister

/-! The staking canister among its callees.

The token is the ledger itself: it takes a call up at any time, once, or never, and what is
answered to a call is what the token did with it, or that nothing is known. The pool may
answer anything. -/
namespace StshProtocol.Staking
open Foundation ShieldedPool Handler

/-! ### The canister -/

inductive Input where
  | stake (caller : Principal) (amount lockDays : Nat) (dedupKey : Bytes)
  | unstake (caller : Principal) (positionId : Nat)
  | reconcileLock (isController : Bool) (opId : Nat) (decision : LockDecision)
  | reconcileUnlock (isController : Bool) (opId : Nat) (decision : LockDecision)
  | claimRewards (caller : Principal) (positionId : Nat)
  | receiveFeeRevenue (caller : Principal) (amount : Nat)
  | createProposal (caller : Principal) (proposalType : ProposalType) (description : String)
  | vote (caller : Principal) (proposalId : Nat) (approve : Bool)
  | executeProposal (proposalId : Nat)
  | reconcileStuckProposal (isController : Bool) (proposalId : Nat)
      (decision : ProposalReconcileDecision)

inductive Answer where
  | number (result : Except String Nat)
  | done (result : Except String Unit)
  | reconciled (result : Except ProposalReconcileError ProposalReconcileResult)

inductive Cont where
  | lock (task : LockTask)
  | unlock (task : UnlockTask)
  | execute (task : Execution)
  deriving DecidableEq, Repr

abbrev StakingOutcome : Type := Outcome StakingState Cont Request Answer

/-- A message that goes on under a continuation, or ends. -/
inductive Next where
  | ends (answer : Answer)
  | awaits (cont : Cont) (request : Request)

/-- A segment of a message: what it wrote is committed, unless it trapped. -/
def conclude {ε α : Type} (failed : ε → Answer) (next : α → Next) (x : Endpoint ε α)
    (s : StakingState) : StakingOutcome :=
  match x.exec s with
  | .error _ => .trap
  | .ok (.error e, t) => .reply t (failed e)
  | .ok (.ok a, t) =>
    match next a with
    | .ends answer => .reply t answer
    | .awaits k q => .call t k q

def Staked.next : Staked → Next
  | .earlier positionId => .ends (.number (.ok positionId))
  | .locking token t =>
    .awaits (.lock t) (.lockForStaking token t.opId t.active.holder t.active.amount)

def unstaked (p : Principal × UnlockTask) : Next :=
  .awaits (.unlock p.2) (.unlockFromStaking p.1 p.2.opId p.2.snapshot.holder p.2.snapshot.amount)

def Executed.next : Executed → Next
  | .done => .ends (.done (.ok ()))
  | .calling t => .awaits (.execute t) (callOf t.pool t.proposal.proposalType t.act)

def number (e : String) : Answer := .number (.error e)

def done (e : String) : Answer := .done (.error e)

def start (now : Nat) : Input → StakingState → StakingOutcome
  | .stake caller amount lockDays key =>
    conclude number Staked.next (stake now caller amount lockDays key)
  | .unstake caller positionId => conclude done unstaked (unstake now caller positionId)
  | .reconcileLock isController opId decision =>
    conclude done (fun _ => .ends (.done (.ok ()))) (reconcileLock isController opId decision)
  | .reconcileUnlock isController opId decision =>
    conclude done (fun _ => .ends (.done (.ok ()))) (reconcileUnlock isController opId decision)
  | .claimRewards caller positionId =>
    conclude number (fun n => .ends (.number (.ok n))) (claimRewards now caller positionId)
  | .receiveFeeRevenue caller amount =>
    conclude Empty.elim (fun _ => .ends (.done (.ok ()))) (receiveFeeRevenue caller amount)
  | .createProposal caller proposalType description =>
    conclude number (fun n => .ends (.number (.ok n)))
      (createProposal now caller proposalType description)
  | .vote caller proposalId approve =>
    conclude done (fun _ => .ends (.done (.ok ()))) (vote now caller proposalId approve)
  | .executeProposal proposalId => conclude done Executed.next (executeProposal now proposalId)
  | .reconcileStuckProposal isController proposalId decision =>
    conclude (fun e => .reconciled (.error e)) (fun r => .ends (.reconciled (.ok r)))
      (reconcileStuckProposal now isController proposalId decision)

def resume (D : Deployment) : Cont → Reply → StakingState → StakingOutcome
  | .lock t, r => conclude number (fun n => .ends (.number (.ok n))) (lockAnswered D t r)
  | .unlock t, r => conclude done (fun _ => .ends (.done (.ok ()))) (unlockAnswered D t r)
  | .execute t, r => conclude done Executed.next (executeAnswered D t r)

/-- Nothing else writes the state, and no suspended message holds a guard. -/
def canister (D : Deployment) : Canister StakingState Input Cont Request Reply Answer where
  start := start
  resume _ := resume D
  cleanup _ s := s
  upgrade _ := upgrade
  others s s' := s' = s

/-! ### The callees -/

inductive CallOutcome where
  | sent
  | executed
  | refused (e : String)
  | dropped
  deriving DecidableEq, Repr

/-- A call to the token, and what became of it. -/
structure TokenCall where
  opType : LockOpType
  opId : Nat
  holder : Principal
  amount : Nat
  outcome : CallOutcome
  deriving DecidableEq, Repr

/-- The message the token is sent. -/
def TokenCall.call (c : TokenCall) : Token.Call :=
  match c.opType with
  | .lock => .lockForStaking c.holder c.amount
  | .unlock => .unlockFromStaking c.holder c.amount

/-- The token, the calls to it by call number, and the last call for each operation. -/
structure Ledger where
  token : Token.TokenState
  calls : Nat → Option TokenCall
  latest : Nat → Option Nat

namespace Ledger

def send (e : Ledger) (n : Nat) (c : TokenCall) : Ledger :=
  {e with calls := Function.update e.calls n (some c)
          latest := Function.update e.latest c.opId (some n)}

/-- What is kept of a request. -/
def accept (n : Nat) (q : Request) (e : Ledger) : Ledger :=
  match q with
  | .lockForStaking _ opId holder amount => e.send n ⟨.lock, opId, holder, amount, .sent⟩
  | .unlockFromStaking _ opId holder amount => e.send n ⟨.unlock, opId, holder, amount, .sent⟩
  | _ => e

/-- What became of a call, by the token's answer. -/
def outcomeOf : Token.Answer → CallOutcome
  | .staking (.ok ()) => .executed
  | .staking (.error e) => .refused e
  | _ => .dropped

/-- The token takes the call up. -/
def take (E : Token.Env) (own : Principal) (now n : Nat) (c : TokenCall) (e : Ledger) : Ledger :=
  {e with
    token := (Token.step E ⟨now, own, c.call⟩ e.token).2
    calls := Function.update e.calls n
      (some {c with outcome := outcomeOf (Token.step E ⟨now, own, c.call⟩ e.token).1})}

/-- The call never reaches the token. -/
def drop (n : Nat) (c : TokenCall) (e : Ledger) : Ledger :=
  {e with calls := Function.update e.calls n (some {c with outcome := .dropped})}

inductive Moves (E : Token.Env) (own : Principal) (e : Ledger) : Ledger → Prop where
  | take {n now : Nat} {c : TokenCall} (hc : e.calls n = some c) (hsent : c.outcome = .sent) :
      Moves E own e (e.take E own now n c)
  | drop {n : Nat} {c : TokenCall} (hc : e.calls n = some c) (hsent : c.outcome = .sent) :
      Moves E own e (e.drop n c)
  /-- A message of somebody else to the token. -/
  | other {m : Token.Message} (h : m.caller ≠ own) :
      Moves E own e {e with token := (Token.step E m e.token).2}

/-- What may be answered to a call: what the token did, or that nothing is known. -/
def Answers (n : Nat) (r : Reply) (e : Ledger) : Prop :=
  ∀ c, e.calls n = some c →
    (∃ m, r = .rejected m) ∨ (c.outcome = .executed ∧ r = .result (.ok ())) ∨
      ∃ m, c.outcome = .refused m ∧ r = .result (.error m)

end Ledger

def callees (E : Token.Env) (own : Principal) : Service Ledger Request Reply where
  accept n q e e' := e' = e.accept n q
  answer := Ledger.Answers
  move := Ledger.Moves E own

abbrev StakingWorld : Type := World StakingState Ledger Cont

/-- The canister was just installed, beside a token of some history that names it as the
staking canister and has no locks yet. -/
structure Installed (E : Token.Env) (own : Principal) (w : StakingWorld) : Prop where
  state : ∃ args, (init w.now args).exec .fresh = .ok (.ok (), w.state)
  token : ∃ fee args log, Token.History E fee args log w.env.token
  staking : w.env.token.stakingCanister = some own
  locks : ∀ key, w.env.token.vault.locks.get key = 0
  calls : w.env.calls = fun _ => none
  latest : w.env.latest = fun _ => none
  tasks : w.tasks = fun _ => none

def system (D : Deployment) (E : Token.Env) (own : Principal) :
    System StakingWorld (Event Input Reply) :=
  (canister D).system (callees E own) (Installed E own)

end StshProtocol.Staking
