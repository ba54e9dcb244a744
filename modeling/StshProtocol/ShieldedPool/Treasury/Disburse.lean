import StshProtocol.Foundation.Bytes
import StshProtocol.ShieldedPool.Accounting
import StshProtocol.ShieldedPool.Ledger

/-! Treasury disbursements: a proposal id is claimed, its amount validated against the
ledger, the reserve debited, and the transfer sent; `treasury_disburse` awaits three
times on the way. Whatever the controller asserts about a transfer whose outcome the
pool does not know goes through `reconcile_treasury_disburse`, which leaves a
tombstone that is never rewritten.

The record of a disbursement is keyed by its proposal id alone. The `journal` is
ghost: it counts what was done under an id, and numbers the claims, so that the
claim a suspended call made can be told from a later one on the same id. -/
namespace StshProtocol.ShieldedPool.Treasury
open Foundation

/-- A `proposal_id`: any `u64`. -/
abbrev ProposalId : Type := BitVec 64

inductive TreasuryReserveBucket where
  | operations
  | insurance
  | stakingRewards
  deriving DecidableEq, Repr

/-- The bucket as `{:?}` prints it. -/
def TreasuryReserveBucket.debug : TreasuryReserveBucket → String
  | .operations => "Operations"
  | .insurance => "Insurance"
  | .stakingRewards => "StakingRewards"

/-- The accounting word a bucket is kept in. -/
def TreasuryReserveBucket.word : TreasuryReserveBucket → AcctWord
  | .operations => .operationsReserve
  | .insurance => .insuranceReserve
  | .stakingRewards => .governanceRewardsReserve

structure TreasuryDisburseArgs where
  proposalId : ProposalId
  bucket : TreasuryReserveBucket
  recipient : Principal
  recipientSubaccount : Option Bytes32
  amount : Nat
  expectedLedgerFee : Nat
  deriving DecidableEq, Repr

inductive TreasuryDisburseResult where
  | executed (blockIndex : Nat)
  | alreadyExecuted (blockIndex : Nat)
  deriving DecidableEq, Repr

inductive TreasuryDisbursementStatus where
  | pending
  | pendingValidation
  | pendingTransfer
  | executed (blockIndex : Nat)
  | transportUnknown
  deriving DecidableEq, Repr

structure TreasuryDisbursement where
  proposalId : ProposalId
  bucket : TreasuryReserveBucket
  recipient : Principal
  recipientSubaccount : Option Bytes32
  amount : Nat
  expectedLedgerFee : Nat
  status : TreasuryDisbursementStatus
  createdAtNs : Nat
  ledgerCreatedAtTimeNs : Option Nat
  deriving DecidableEq, Repr

inductive ReconciliationDecision where
  | executed
  | notExecuted
  deriving DecidableEq, Repr

structure TreasuryReconciliationTombstone where
  proposalId : ProposalId
  bucket : TreasuryReserveBucket
  recipient : Principal
  recipientSubaccount : Option Bytes32
  amount : Nat
  expectedLedgerFee : Nat
  memo : Bytes
  ledgerCreatedAtTimeNs : Option Nat
  preReconcileStatus : TreasuryDisbursementStatus
  decision : ReconciliationDecision
  assertedBlockIndex : Option Nat
  reconciler : Principal
  reconciledAtNs : Nat
  deriving DecidableEq, Repr

inductive DisburseOutcome where
  | executed (blockIndex : Nat)
  | notExecuted
  deriving DecidableEq, Repr

inductive ReconcileDisburseResult where
  | recorded (blockIndex : Nat)
  | reverted
  | alreadyExecuted (blockIndex : Nat)
  deriving DecidableEq, Repr

/-- One more under this id. -/
def bump (count : ProposalId → Nat) (id : ProposalId) : ProposalId → Nat :=
  Function.update count id (count id + 1)

/-- What was done under each proposal id. -/
structure Journal where
  claims : ProposalId → Nat
  debits : ProposalId → Nat
  credits : ProposalId → Nat

/-- The part of the pool the treasury endpoints read and write. -/
structure TreasuryBook where
  treasury : Option Principal
  token : Option Principal
  controller : Option Principal
  accounting : Accounting
  disbursements : StableMap ProposalId TreasuryDisbursement
  tombstones : StableMap ProposalId TreasuryReconciliationTombstone
  journal : Journal

/-- What the treasury code takes from outside: the pool's own principal, and how a
settlement answer prints under `{:?}`. -/
structure Deployment where
  self : Principal
  debugSettlement : Except IcrcTransferError Nat → String

/-- `treasury_disburse_memo`. -/
def treasuryDisburseMemo (proposalId : ProposalId) : Bytes :=
  Bytes.toBe 8 proposalId.toNat

theorem treasuryDisburseMemo_injective {i j : ProposalId}
    (h : treasuryDisburseMemo i = treasuryDisburseMemo j) : i = j := by
  have hi : i.toNat < 256 ^ 8 := i.isLt
  have hj : j.toNat < 256 ^ 8 := j.isLt
  have hread := congrArg Bytes.ofBe h
  simp only [treasuryDisburseMemo, Bytes.ofBe_toBe hi, Bytes.ofBe_toBe hj] at hread
  exact BitVec.eq_of_toNat_eq hread

/-- `treasury_disbursement_matches`. -/
def treasuryDisbursementMatches (existing : TreasuryDisbursement) (args : TreasuryDisburseArgs) :
    Bool :=
  existing.bucket == args.bucket && existing.recipient == args.recipient
    && existing.recipientSubaccount == args.recipientSubaccount
    && existing.amount == args.amount && existing.expectedLedgerFee == args.expectedLedgerFee

/-! ### The reserve buckets -/

/-- `reserve_bucket_balance`. -/
def reserveBucketBalance (a : Accounting) (bucket : TreasuryReserveBucket) : Nat :=
  a.heap bucket.word

/-- `debit_reserve_bucket`; the inner `none` is a trap. -/
def debitReserveBucket (a : Accounting) (bucket : TreasuryReserveBucket) (amount : Nat) :
    Except PoolError (Option Accounting) :=
  let available := reserveBucketBalance a bucket
  if available < amount then
    match bucket with
    | .operations => .error (.insufficientOperationsReserve amount available)
    | _ => .error (.transferFailed
        s!"insufficient {bucket.debug} reserve: needed {amount}, available {available}")
  else .ok (a.sub bucket.word amount)

/-- `credit_reserve_bucket`; `none` is a trap. -/
def creditReserveBucket (a : Accounting) (bucket : TreasuryReserveBucket) (amount : Nat) :
    Option Accounting :=
  a.add bucket.word amount

namespace TreasuryBook

/-! ### The records -/

def record (s : TreasuryBook) (id : ProposalId) : Option TreasuryDisbursement :=
  s.disbursements[id]?

def tombstone (s : TreasuryBook) (id : ProposalId) : Option TreasuryReconciliationTombstone :=
  s.tombstones[id]?

def noteClaim (s : TreasuryBook) (id : ProposalId) : TreasuryBook :=
  {s with journal := {s.journal with claims := bump s.journal.claims id}}

def noteDebit (s : TreasuryBook) (id : ProposalId) : TreasuryBook :=
  {s with journal := {s.journal with debits := bump s.journal.debits id}}

def noteCredit (s : TreasuryBook) (id : ProposalId) : TreasuryBook :=
  {s with journal := {s.journal with credits := bump s.journal.credits id}}

def put (s : TreasuryBook) (id : ProposalId) (r : TreasuryDisbursement) : TreasuryBook :=
  {s with disbursements := s.disbursements.insert id r}

/-- `remove_treasury_disbursement`. -/
def removeTreasuryDisbursement (s : TreasuryBook) (id : ProposalId) : TreasuryBook :=
  {s with disbursements := s.disbursements.erase id}

/-- `set_treasury_disbursement_status`. -/
def setTreasuryDisbursementStatus (s : TreasuryBook) (id : ProposalId)
    (status : TreasuryDisbursementStatus) : TreasuryBook :=
  match s.record id with
  | some r => s.put id {r with status := status}
  | none => s

/-- A debit of the bucket under this id; the inner `none` is a trap. -/
def debit (s : TreasuryBook) (id : ProposalId) (bucket : TreasuryReserveBucket) (amount : Nat) :
    Except PoolError (Option TreasuryBook) :=
  (debitReserveBucket s.accounting bucket amount).map fun a? =>
    a?.map fun a => {s with accounting := a}.noteDebit id

/-- A credit of the bucket under this id; `none` is a trap. -/
def credit (s : TreasuryBook) (id : ProposalId) (bucket : TreasuryReserveBucket) (amount : Nat) :
    Option TreasuryBook :=
  (creditReserveBucket s.accounting bucket amount).map fun a =>
    {s with accounting := a}.noteCredit id

/-- `abort_treasury_disbursement`. -/
def abortTreasuryDisbursement (s : TreasuryBook) (args : TreasuryDisburseArgs)
    (totalDebit : Nat) : Option TreasuryBook :=
  (s.credit args.proposalId args.bucket totalDebit).map
    (·.removeTreasuryDisbursement args.proposalId)

end TreasuryBook

/-! ### `treasury_disburse` -/

inductive DisburseClaim where
  | claimed
  | alreadyExecuted (blockIndex : Nat)
  deriving DecidableEq, Repr

/-- The record a claim writes. -/
def claimedRecord (now : Nat) (args : TreasuryDisburseArgs) : TreasuryDisbursement :=
  {proposalId := args.proposalId, bucket := args.bucket, recipient := args.recipient,
   recipientSubaccount := args.recipientSubaccount, amount := args.amount,
   expectedLedgerFee := args.expectedLedgerFee, status := .pendingValidation,
   createdAtNs := now, ledgerCreatedAtTimeNs := none}

/-- What a claim finds under a record that is already there. -/
def existingClaim (existing : TreasuryDisbursement) (args : TreasuryDisburseArgs) :
    Except PoolError Nat :=
  if treasuryDisbursementMatches existing args then
    match existing.status with
    | .executed b => .ok b
    | .pending => .error (.transferFailed (s!"treasury disbursement {args.proposalId.toNat} is a " ++
        "stuck legacy ambiguous Pending record (pre-DEF-097): manual ledger (memo = proposal_id) " ++
        "+ accounting inspection required"))
    | .pendingValidation => .error (.transferFailed
        s!"treasury disbursement {args.proposalId.toNat} already in progress (validation)")
    | .pendingTransfer => .error (.transferFailed
        (s!"treasury disbursement {args.proposalId.toNat} already in progress (transfer in-flight; " ++
          "if stuck, resolve via reconcile_treasury_disburse)"))
    | .transportUnknown => .error (.transferFailed
        s!"treasury disbursement {args.proposalId.toNat} outcome unknown; reconcile required")
  else .error .idempotencyKeyConflict

/-- `claim_treasury_disbursement`: the tombstone gate first, then the record. -/
def claimTreasuryDisbursement (now : Nat) (s : TreasuryBook) (args : TreasuryDisburseArgs) :
    Except PoolError (DisburseClaim × TreasuryBook) :=
  match s.tombstone args.proposalId with
  | some t =>
      match t.decision, t.assertedBlockIndex with
      | .executed, some b => .ok (.alreadyExecuted b, s)
      | _, _ => .error .disbursementProposalIdRetired
  | none =>
      match s.record args.proposalId with
      | some existing => (existingClaim existing args).map fun b => (.alreadyExecuted b, s)
      | none => .ok (.claimed,
          (s.put args.proposalId (claimedRecord now args)).noteClaim args.proposalId)

/-- The locals a suspended `treasury_disburse` holds. `claim` is ghost: the number of
the claim it made. -/
structure DisburseFrame where
  args : TreasuryDisburseArgs
  totalDebit : Nat
  token : Principal
  claim : Nat
  deriving DecidableEq, Repr

/-- Where a `treasury_disburse` is suspended. -/
inductive DisburseCont where
  | ledgerFee (frame : DisburseFrame)
  | poolBalance (frame : DisburseFrame)
  | transfer (frame : DisburseFrame)
  deriving DecidableEq, Repr

inductive TreasuryAnswer where
  | disburse (result : Except PoolError TreasuryDisburseResult)
  | reconcile (result : Except PoolError ReconcileDisburseResult)

abbrev TreasuryOutcome : Type := Outcome TreasuryBook DisburseCont LedgerCall TreasuryAnswer

/-- The call ends with an error. -/
def fail (s : TreasuryBook) (e : PoolError) : TreasuryOutcome := .reply s (.disburse (.error e))

/-- The claim is given up before any debit. -/
def giveUp (s : TreasuryBook) (f : DisburseFrame) (e : PoolError) : TreasuryOutcome :=
  fail (s.removeTreasuryDisbursement f.args.proposalId) e

/-- The rejection text of a call whose answer is not the method's; what the decoder
says of an answer of another type is left empty. -/
def LedgerReply.rejection : LedgerReply → String
  | .rejected message => message
  | _ => ""

/-- `query_ledger_fee`, on its reply. -/
def queryLedgerFee : LedgerReply → Except PoolError Nat
  | .fee n => if n ≤ u128Max then .ok n else .error (.transferFailed "icrc1_fee does not fit u128")
  | r => .error (.transferFailed s!"icrc1_fee query failed: {LedgerReply.rejection r}")

/-- `query_pool_ledger_balance`, on its reply. -/
def queryPoolLedgerBalance : LedgerReply → Except PoolError Nat
  | .balance n =>
      if n ≤ u128Max then .ok n else .error (.transferFailed "icrc1_balance_of does not fit u128")
  | r => .error (.transferFailed s!"icrc1_balance_of failed: {LedgerReply.rejection r}")

/-- From the claim to the fee query. -/
def beginValidation (s : TreasuryBook) (args : TreasuryDisburseArgs) : TreasuryOutcome :=
  match checkedAdd128 args.amount args.expectedLedgerFee with
  | none => fail (s.removeTreasuryDisbursement args.proposalId) .sumOverflow
  | some totalDebit =>
      match s.token with
      | none => fail (s.removeTreasuryDisbursement args.proposalId) .notInitialised
      | some token =>
          .call s (.ledgerFee ⟨args, totalDebit, token, s.journal.claims args.proposalId⟩) .icrc1Fee

/-- `treasury_disburse`, up to its first await. -/
def treasuryDisburse (now : Nat) (caller : Principal) (args : TreasuryDisburseArgs)
    (s : TreasuryBook) : TreasuryOutcome :=
  match s.treasury with
  | none => fail s .notInitialised
  | some treasury =>
      if caller = treasury then
        match claimTreasuryDisbursement now s args with
        | .error e => fail s e
        | .ok (.alreadyExecuted b, s') => .reply s' (.disburse (.ok (.alreadyExecuted b)))
        | .ok (.claimed, s') => beginValidation s' args
      else fail s (.transferFailed
        "treasury_disburse caller is not the configured treasury canister")

/-- The transfer's arguments: its identity is the proposal's memo and the frozen time. -/
def transferArgs (args : TreasuryDisburseArgs) (ledgerCreatedAt : Nat) : IcrcTransferArgs :=
  {fromSubaccount := none, dest := ⟨args.recipient, args.recipientSubaccount⟩,
   amount := args.amount, fee := some args.expectedLedgerFee,
   memo := some (treasuryDisburseMemo args.proposalId), createdAtTime := some ledgerCreatedAt}

/-- From the debit to the transfer: the status, then the frozen identity, then the call. -/
def sendTransfer (now : Nat) (s : TreasuryBook) (f : DisburseFrame) : TreasuryOutcome :=
  let s := s.setTreasuryDisbursementStatus f.args.proposalId .pendingTransfer
  match s.record f.args.proposalId with
  | none => .trap
  | some r =>
      let t := r.ledgerCreatedAtTimeNs.getD now
      .call (s.put f.args.proposalId {r with ledgerCreatedAtTimeNs := some t}) (.transfer f)
        (.icrc1Transfer (transferArgs f.args t))

/-- From the balance to the transfer. -/
def debitAndSend (now : Nat) (s : TreasuryBook) (f : DisburseFrame) : TreasuryOutcome :=
  match s.debit f.args.proposalId f.args.bucket f.totalDebit with
  | .error e => giveUp s f e
  | .ok none => .trap
  | .ok (some s') => sendTransfer now s' f

/-- What the settlement of the transfer does. -/
def settleTransfer (d : Deployment) (s : TreasuryBook) (f : DisburseFrame)
    (inner : Except IcrcTransferError Nat) : TreasuryOutcome :=
  let id := f.args.proposalId
  match classifyLedgerSettlement inner with
  | .confirmed =>
      match settledBlock inner with
      | some b => .reply (s.setTreasuryDisbursementStatus id (.executed b))
          (.disburse (.ok (.executed b)))
      | none => .trap
  | .dedupWindowExhausted =>
      fail (s.setTreasuryDisbursementStatus id .transportUnknown) (.transferFailed
        (s!"treasury_disburse dedup window exhausted (ambiguous) for proposal {id.toNat}; " ++
          s!"reconcile required: {d.debugSettlement inner}"))
  | .definiteError =>
      match s.abortTreasuryDisbursement f.args f.totalDebit with
      | some s' => fail s' (.transferFailed s!"treasury_disburse rejected: {d.debugSettlement inner}")
      | none => .trap

/-- A suspended `treasury_disburse` resumes. -/
def resumeDisburse (d : Deployment) (now : Nat) (k : DisburseCont) (r : LedgerReply)
    (s : TreasuryBook) : TreasuryOutcome :=
  match k with
  | .ledgerFee f =>
      match queryLedgerFee r with
      | .error e => giveUp s f e
      | .ok fee =>
          if fee = f.args.expectedLedgerFee then
            .call s (.poolBalance f) (.icrc1BalanceOf ⟨d.self, none⟩)
          else giveUp s f (.transferFailed
            s!"ledger fee mismatch: expected {f.args.expectedLedgerFee}, current {fee}")
  | .poolBalance f =>
      match queryPoolLedgerBalance r with
      | .error e => giveUp s f e
      | .ok available =>
          if available < f.totalDebit then giveUp s f (.escrowUnderfunded f.totalDebit available)
          else debitAndSend now s f
  | .transfer f =>
      match r with
      | .transfer inner => settleTransfer d s f inner
      | r =>
          fail (s.setTreasuryDisbursementStatus f.args.proposalId .transportUnknown)
            (.transferFailed (s!"treasury_disburse transport outcome unknown for proposal " ++
              s!"{f.args.proposalId.toNat}: {LedgerReply.rejection r}"))

/-! ### `reconcile_treasury_disburse` -/

/-- The tombstone of a record, as this reconciliation would write it. -/
def tombstoneOf (now : Nat) (caller : Principal) (r : TreasuryDisbursement)
    (decision : ReconciliationDecision) (assertedBlockIndex : Option Nat) :
    TreasuryReconciliationTombstone :=
  {proposalId := r.proposalId, bucket := r.bucket, recipient := r.recipient,
   recipientSubaccount := r.recipientSubaccount, amount := r.amount,
   expectedLedgerFee := r.expectedLedgerFee, memo := treasuryDisburseMemo r.proposalId,
   ledgerCreatedAtTimeNs := r.ledgerCreatedAtTimeNs, preReconcileStatus := r.status,
   decision := decision, assertedBlockIndex := assertedBlockIndex,
   reconciler := caller, reconciledAtNs := now}

/-- `write_reconciliation_tombstone`: insert-once. -/
def writeReconciliationTombstone (s : TreasuryBook) (t : TreasuryReconciliationTombstone) :
    TreasuryBook :=
  match s.tombstone t.proposalId with
  | some _ => s
  | none => {s with tombstones := s.tombstones.insert t.proposalId t}

/-- What is done with a debited record whose outcome the controller asserts. -/
def reconcileDebited (now : Nat) (caller : Principal) (id : ProposalId)
    (r : TreasuryDisbursement) (outcome : DisburseOutcome) (s : TreasuryBook) : TreasuryOutcome :=
  match outcome with
  | .executed b =>
      let s := writeReconciliationTombstone s (tombstoneOf now caller r .executed (some b))
      .reply (s.setTreasuryDisbursementStatus id (.executed b)) (.reconcile (.ok (.recorded b)))
  | .notExecuted =>
      let s := writeReconciliationTombstone s (tombstoneOf now caller r .notExecuted none)
      match s.credit id r.bucket (satAdd128 r.amount r.expectedLedgerFee) with
      | some s => .reply (s.removeTreasuryDisbursement id) (.reconcile (.ok .reverted))
      | none => .trap

/-- `reconcile_treasury_disburse`. -/
def reconcileTreasuryDisburse (now : Nat) (caller : Principal) (id : ProposalId)
    (outcome : DisburseOutcome) (s : TreasuryBook) : TreasuryOutcome :=
  if s.controller = some caller then
    match s.record id with
    | none => .reply s (.reconcile (.error .disbursementNotFound))
    | some r =>
        match r.status, outcome with
        | .executed b, _ => .reply s (.reconcile (.ok (.alreadyExecuted b)))
        | .pendingValidation, .executed _ =>
            .reply s (.reconcile (.error .disbursementNotReconcilable))
        | .pendingValidation, .notExecuted =>
            .reply (s.removeTreasuryDisbursement id) (.reconcile (.ok .reverted))
        | .pending, _ => .reply s (.reconcile (.error .disbursementNotReconcilable))
        | .transportUnknown, outcome => reconcileDebited now caller id r outcome s
        | .pendingTransfer, outcome => reconcileDebited now caller id r outcome s
  else .trap

/-! ### The canister -/

inductive TreasuryInput where
  | disburse (caller : Principal) (args : TreasuryDisburseArgs)
  | reconcile (caller : Principal) (id : ProposalId) (outcome : DisburseOutcome)
  deriving DecidableEq, Repr

def maxUpgradeScan : Nat := 1000

/-- `classify_treasury_status_for_upgrade`: is the record removed? -/
def classifyTreasuryStatusForUpgrade : TreasuryDisbursementStatus → Bool
  | .pendingValidation => true
  | .pending | .pendingTransfer | .executed _ | .transportUnknown => false

/-- The treasury part of `post_upgrade`. -/
def postUpgrade (s : TreasuryBook) : Option TreasuryBook :=
  if maxUpgradeScan < s.disbursements.size then none
  else some
    {s with
      accounting := s.accounting.reload
      disbursements := s.disbursements.filter fun _ r => !classifyTreasuryStatusForUpgrade r.status}

/-- Everything else in the pool leaves the treasury's maps alone. -/
def LeavesTreasury (s s' : TreasuryBook) : Prop :=
  s'.disbursements = s.disbursements ∧ s'.tombstones = s.tombstones ∧ s'.journal = s.journal

/-- The treasury endpoints as a canister. Nothing they hold is dropped on a trap. -/
def canister (d : Deployment) :
    Canister TreasuryBook TreasuryInput DisburseCont LedgerCall LedgerReply TreasuryAnswer where
  start now
    | .disburse caller args => treasuryDisburse now caller args
    | .reconcile caller id outcome => reconcileTreasuryDisburse now caller id outcome
  resume := resumeDisburse d
  cleanup _ s := s
  upgrade _ := postUpgrade
  others := LeavesTreasury

/-- A ledger that carries out any transfer it accepts; nothing here relies on its
deduplication. -/
def ledgerService : Service Ledger LedgerCall LedgerReply := Ledger.service fun _ _ => True

abbrev TreasuryWorld : Type := World TreasuryBook Ledger DisburseCont

/-- A newly installed pool: nothing claimed, nothing in flight. -/
def Installed (w : TreasuryWorld) : Prop :=
  w.state.disbursements = ∅ ∧ w.state.tombstones = ∅ ∧
    w.state.journal = ⟨fun _ => 0, fun _ => 0, fun _ => 0⟩ ∧
    (∃ n, w.env = Ledger.idle (List.replicate n .foreign)) ∧ w.tasks = fun _ => none

def system (d : Deployment) : System TreasuryWorld (Event TreasuryInput LedgerReply) :=
  (canister d).system ledgerService Installed

end StshProtocol.ShieldedPool.Treasury
