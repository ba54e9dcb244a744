import StshProtocol.ShieldedPool.Treasury.Disburse

/-! What one message of the treasury endpoints can do.

A message concerns one proposal id. What the book holds under an id is an `Account`,
and each message either leaves all accounts as they are or rewrites the account of
its own id in one of the ways listed here. Everything said about runs is derived
from these lists. -/
namespace StshProtocol.ShieldedPool.Treasury
open Foundation

/-- What the book holds under one proposal id. -/
@[ext] structure Account where
  record : Option TreasuryDisbursement
  tombstone : Option TreasuryReconciliationTombstone
  claims : Nat
  debits : Nat
  credits : Nat

/-- The status of the record, if there is one, is overwritten. -/
def Account.mark (a : Account) (status : TreasuryDisbursementStatus) : Account :=
  {a with record := a.record.map fun r => {r with status := status}}

/-- The record, if there is one, is removed. -/
def Account.clear (a : Account) : Account := {a with record := none}

/-- A tombstone is written unless there is one. -/
def Account.bury (a : Account) (t : TreasuryReconciliationTombstone) : Account :=
  {a with tombstone := some (a.tombstone.getD t)}

namespace TreasuryBook

def account (s : TreasuryBook) (id : ProposalId) : Account :=
  {record := s.record id, tombstone := s.tombstone id, claims := s.journal.claims id,
   debits := s.journal.debits id, credits := s.journal.credits id}

variable (s : TreasuryBook) (id : ProposalId)

theorem account_record : (s.account id).record = s.record id := rfl

/-- Nothing but the accounts of the maps and the journal is in an account. -/
theorem account_congr {s s' : TreasuryBook} (h : LeavesTreasury s s') : s'.account = s.account := by
  funext j
  simp only [account, record, tombstone, h.1, h.2.1, h.2.2]

theorem account_put (r : TreasuryDisbursement) :
    (s.put id r).account = Function.update s.account id {s.account id with record := some r} := by
  funext j
  by_cases hj : j = id
  · subst hj
    simp [put, account, record, tombstone]
  · simp [put, account, record, tombstone, hj, Ne.symm hj]

theorem account_remove :
    (s.removeTreasuryDisbursement id).account =
      Function.update s.account id (s.account id).clear := by
  funext j
  by_cases hj : j = id
  · subst hj
    simp [removeTreasuryDisbursement, account, record, tombstone, Account.clear]
  · simp [removeTreasuryDisbursement, account, record, tombstone, hj, Ne.symm hj]

theorem account_noteClaim :
    (s.noteClaim id).account =
      Function.update s.account id {s.account id with claims := (s.account id).claims + 1} := by
  funext j
  by_cases hj : j = id
  · subst hj
    simp [noteClaim, bump, account, record, tombstone]
  · simp [noteClaim, bump, account, record, tombstone, hj]

theorem account_noteDebit :
    (s.noteDebit id).account =
      Function.update s.account id {s.account id with debits := (s.account id).debits + 1} := by
  funext j
  by_cases hj : j = id
  · subst hj
    simp [noteDebit, bump, account, record, tombstone]
  · simp [noteDebit, bump, account, record, tombstone, hj]

theorem account_noteCredit :
    (s.noteCredit id).account =
      Function.update s.account id {s.account id with credits := (s.account id).credits + 1} := by
  funext j
  by_cases hj : j = id
  · subst hj
    simp [noteCredit, bump, account, record, tombstone]
  · simp [noteCredit, bump, account, record, tombstone, hj]

theorem account_setStatus (status : TreasuryDisbursementStatus) :
    (s.setTreasuryDisbursementStatus id status).account =
      Function.update s.account id ((s.account id).mark status) := by
  unfold setTreasuryDisbursementStatus
  split
  · next r hr =>
    rw [account_put]
    simp [Account.mark, account_record, hr]
  · next hr => simp [Account.mark, hr, account]

theorem account_write (t : TreasuryReconciliationTombstone) :
    (writeReconciliationTombstone s t).account =
      Function.update s.account t.proposalId ((s.account t.proposalId).bury t) := by
  unfold writeReconciliationTombstone
  split
  · next x hx => simp [Account.bury, hx, account]
  · next hx =>
    funext j
    by_cases hj : j = t.proposalId
    · subst hj
      simp [account, Account.bury, hx]
      simp [record, tombstone]
    · simp [account, record, tombstone, hj, Ne.symm hj]

/-- A credit that does not trap adds one to the journal. -/
theorem account_credit {s s' : TreasuryBook} {id : ProposalId} {bucket : TreasuryReserveBucket}
    {amount : Nat} (h : s.credit id bucket amount = some s') :
    s'.account =
      Function.update s.account id {s.account id with credits := (s.account id).credits + 1} := by
  unfold credit at h
  obtain ⟨a, _, rfl⟩ := Option.map_eq_some_iff.1 h
  exact account_noteCredit _ _

/-- A debit that goes through adds one to the journal. -/
theorem account_debit {s s' : TreasuryBook} {id : ProposalId} {bucket : TreasuryReserveBucket}
    {amount : Nat} (h : s.debit id bucket amount = .ok (some s')) :
    s'.account =
      Function.update s.account id {s.account id with debits := (s.account id).debits + 1} := by
  unfold debit at h
  cases hd : debitReserveBucket s.accounting bucket amount with
  | error e => rw [hd] at h; cases h
  | ok a? =>
    rw [hd] at h
    have ha : (a?.map fun a => {s with accounting := a}.noteDebit id) = some s' :=
      Except.ok.inj h
    obtain ⟨a, _, rfl⟩ := Option.map_eq_some_iff.1 ha
    exact account_noteDebit _ _

end TreasuryBook

/-! ### A new disbursement -/

/-- What the first segment of `treasury_disburse` comes to: a refusal that writes
nothing, a claim given up at once, or a claim and the fee query. -/
inductive DisburseEffect (s : TreasuryBook) (args : TreasuryDisburseArgs) :
    TreasuryOutcome → Prop where
  | refused {a : TreasuryAnswer} : DisburseEffect s args (.reply s a)
  | abandoned {s' : TreasuryBook} {a : TreasuryAnswer} (hr : (s.account args.proposalId).record = none)
      (ht : (s.account args.proposalId).tombstone = none)
      (h : s'.account = Function.update s.account args.proposalId
        {s.account args.proposalId with claims := (s.account args.proposalId).claims + 1}) :
      DisburseEffect s args (.reply s' a)
  | claimed {s' : TreasuryBook} {f : DisburseFrame} {now : Nat}
      (hr : (s.account args.proposalId).record = none) (ht : (s.account args.proposalId).tombstone = none)
      (hf : f.args = args) (hc : f.claim = (s.account args.proposalId).claims + 1)
      (h : s'.account = Function.update s.account args.proposalId
        {s.account args.proposalId with
          record := some (claimedRecord now args)
          claims := (s.account args.proposalId).claims + 1}) :
      DisburseEffect s args (.call s' (.ledgerFee f) .icrc1Fee)

/-- A claim that does not fail writes nothing, or finds neither tombstone nor record. -/
theorem claim_ok {now : Nat} {s s' : TreasuryBook} {args : TreasuryDisburseArgs}
    {c : DisburseClaim} (h : claimTreasuryDisbursement now s args = .ok (c, s')) :
    (∃ b, c = .alreadyExecuted b ∧ s' = s) ∨
      (c = .claimed ∧ s.record args.proposalId = none ∧ s.tombstone args.proposalId = none ∧
        s' = (s.put args.proposalId (claimedRecord now args)).noteClaim args.proposalId) := by
  unfold claimTreasuryDisbursement at h
  cases ht : s.tombstone args.proposalId with
  | some t =>
    simp only [ht] at h
    split at h
    · cases h
      exact .inl ⟨_, rfl, rfl⟩
    · cases h
  | none =>
    simp only [ht] at h
    cases hr : s.record args.proposalId with
    | some r =>
      simp only [hr] at h
      cases he : existingClaim r args with
      | error e => rw [he] at h; cases h
      | ok b =>
        rw [he] at h
        cases h
        exact .inl ⟨b, rfl, rfl⟩
    | none =>
      simp only [hr] at h
      cases h
      exact .inr ⟨rfl, rfl, rfl, rfl⟩

theorem account_claimed (now : Nat) (s : TreasuryBook) (args : TreasuryDisburseArgs) :
    ((s.put args.proposalId (claimedRecord now args)).noteClaim args.proposalId).account =
      Function.update s.account args.proposalId
        {s.account args.proposalId with
          record := some (claimedRecord now args)
          claims := (s.account args.proposalId).claims + 1} := by
  rw [TreasuryBook.account_noteClaim, TreasuryBook.account_put]
  simp

theorem beginValidation_effect {now : Nat} {s s' : TreasuryBook} {args : TreasuryDisburseArgs}
    (hr : s.record args.proposalId = none) (ht : s.tombstone args.proposalId = none)
    (hs' : s'.account = Function.update s.account args.proposalId
      {s.account args.proposalId with
        record := some (claimedRecord now args)
        claims := (s.account args.proposalId).claims + 1}) :
    DisburseEffect s args (beginValidation s' args) := by
  have hgone : (s'.removeTreasuryDisbursement args.proposalId).account =
      Function.update s.account args.proposalId
        {s.account args.proposalId with claims := (s.account args.proposalId).claims + 1} := by
    rw [TreasuryBook.account_remove, hs']
    simp [Account.clear, TreasuryBook.account, hr]
  have hclaims : s'.journal.claims args.proposalId = (s.account args.proposalId).claims + 1 := by
    have h := congrArg Account.claims (congrFun hs' args.proposalId)
    simpa [TreasuryBook.account] using h
  unfold beginValidation
  split
  · exact .abandoned hr ht hgone
  · split
    · exact .abandoned hr ht hgone
    · exact .claimed hr ht rfl hclaims hs'

theorem treasuryDisburse_effect (now : Nat) (caller : Principal) (args : TreasuryDisburseArgs)
    (s : TreasuryBook) : DisburseEffect s args (treasuryDisburse now caller args s) := by
  unfold treasuryDisburse
  split
  · exact .refused
  split
  · cases hc : claimTreasuryDisbursement now s args with
    | error e => exact .refused
    | ok p =>
      obtain ⟨c, s'⟩ := p
      rcases claim_ok hc with ⟨b, rfl, rfl⟩ | ⟨rfl, hr, ht, rfl⟩
      · exact .refused
      · exact beginValidation_effect hr ht (account_claimed now s args)
  · exact .refused

/-! ### A resumed disbursement -/

def DisburseCont.frame : DisburseCont → DisburseFrame
  | .ledgerFee f => f
  | .poolBalance f => f
  | .transfer f => f

/-- The proposal a suspended call is about. -/
def DisburseCont.id (k : DisburseCont) : ProposalId := k.frame.args.proposalId

/-- With this reply validation is over, for better or worse: the claim is given up or
the reserve debited. -/
def EndsValidation (f : DisburseFrame) (k : DisburseCont) (r : LedgerReply) : Prop :=
  (k = .ledgerFee f ∧ queryLedgerFee r ≠ .ok f.args.expectedLedgerFee) ∨ k = .poolBalance f

/-- A reply to the transfer that leaves its outcome open. -/
def Ambiguous : LedgerReply → Prop
  | .transfer inner => classifyLedgerSettlement inner = .dedupWindowExhausted
  | _ => True

/-- What a resumed `treasury_disburse` comes to. -/
inductive ResumeEffect (s : TreasuryBook) :
    DisburseCont → LedgerReply → TreasuryOutcome → Prop where
  | queried {f : DisburseFrame} {r : LedgerReply} {a : IcrcAccount} :
      ResumeEffect s (.ledgerFee f) r (.call s (.poolBalance f) (.icrc1BalanceOf a))
  | gaveUp {f : DisburseFrame} {k : DisburseCont} {r : LedgerReply} {s' : TreasuryBook}
      {a : TreasuryAnswer} (hk : EndsValidation f k r)
      (h : s'.account = Function.update s.account f.args.proposalId
        (s.account f.args.proposalId).clear) :
      ResumeEffect s k r (.reply s' a)
  | sent {f : DisburseFrame} {r : LedgerReply} {s' : TreasuryBook} {t : Nat}
      {d : TreasuryDisbursement} (hd : (s.account f.args.proposalId).record = some d)
      (h : s'.account = Function.update s.account f.args.proposalId
        {s.account f.args.proposalId with
          record := some {d with status := .pendingTransfer, ledgerCreatedAtTimeNs := some t}
          debits := (s.account f.args.proposalId).debits + 1}) :
      ResumeEffect s (.poolBalance f) r
        (.call s' (.transfer f) (.icrc1Transfer (transferArgs f.args t)))
  | confirmed {f : DisburseFrame} {inner : Except IcrcTransferError Nat} {b : Nat}
      {s' : TreasuryBook} {a : TreasuryAnswer} (hb : settledBlock inner = some b)
      (h : s'.account = Function.update s.account f.args.proposalId
        ((s.account f.args.proposalId).mark (.executed b))) :
      ResumeEffect s (.transfer f) (.transfer inner) (.reply s' a)
  | unknown {f : DisburseFrame} {r : LedgerReply} {s' : TreasuryBook} {a : TreasuryAnswer}
      (hr : Ambiguous r)
      (h : s'.account = Function.update s.account f.args.proposalId
        ((s.account f.args.proposalId).mark .transportUnknown)) :
      ResumeEffect s (.transfer f) r (.reply s' a)
  | aborted {f : DisburseFrame} {inner : Except IcrcTransferError Nat} {s' : TreasuryBook}
      {a : TreasuryAnswer} (hd : classifyLedgerSettlement inner = .definiteError)
      (h : s'.account = Function.update s.account f.args.proposalId
        {(s.account f.args.proposalId).clear with
          credits := (s.account f.args.proposalId).credits + 1}) :
      ResumeEffect s (.transfer f) (.transfer inner) (.reply s' a)
  | trapped {k : DisburseCont} {r : LedgerReply} : ResumeEffect s k r .trap

theorem giveUp_effect {s : TreasuryBook} {f : DisburseFrame} {k : DisburseCont} {r : LedgerReply}
    (e : PoolError) (hk : EndsValidation f k r) : ResumeEffect s k r (giveUp s f e) :=
  .gaveUp hk (TreasuryBook.account_remove s _)

theorem debitAndSend_effect (now : Nat) (s : TreasuryBook) (f : DisburseFrame) (r : LedgerReply) :
    ResumeEffect s (.poolBalance f) r (debitAndSend now s f) := by
  unfold debitAndSend
  split
  · exact giveUp_effect _ (.inr rfl)
  · exact .trapped
  · next s' hs' =>
    have hdebit := TreasuryBook.account_debit hs'
    have hmark := TreasuryBook.account_setStatus s' f.args.proposalId .pendingTransfer
    unfold sendTransfer
    dsimp only
    split
    · exact .trapped
    · next d hd =>
      have hrec : (s.record f.args.proposalId).map
          (fun r => {r with status := TreasuryDisbursementStatus.pendingTransfer}) = some d := by
        have h := congrArg Account.record (congrFun hmark f.args.proposalId)
        rw [TreasuryBook.account_record, hd, hdebit] at h
        simpa [Account.mark, TreasuryBook.account_record] using h.symm
      obtain ⟨d₀, hd₀, rfl⟩ := Option.map_eq_some_iff.1 hrec
      refine .sent hd₀ ?_
      rw [TreasuryBook.account_put, hmark, hdebit]
      simp [Account.mark]

theorem settleTransfer_effect (d : Deployment) (s : TreasuryBook) (f : DisburseFrame)
    (inner : Except IcrcTransferError Nat) :
    ResumeEffect s (.transfer f) (.transfer inner) (settleTransfer d s f inner) := by
  unfold settleTransfer
  dsimp only
  split
  · split
    · next b hb => exact .confirmed hb (TreasuryBook.account_setStatus s _ _)
    · exact .trapped
  · next hc => exact .unknown hc (TreasuryBook.account_setStatus s _ _)
  · next hc =>
    split
    · next s' hs' =>
      obtain ⟨s₁, h₁, rfl⟩ := Option.map_eq_some_iff.1 hs'
      refine .aborted hc ?_
      rw [TreasuryBook.account_remove, TreasuryBook.account_credit h₁]
      simp [Account.clear]
    · exact .trapped

theorem resumeDisburse_effect (d : Deployment) (now : Nat) (k : DisburseCont) (r : LedgerReply)
    (s : TreasuryBook) : ResumeEffect s k r (resumeDisburse d now k r s) := by
  unfold resumeDisburse
  cases k with
  | ledgerFee f =>
    dsimp only
    split
    · next e he => exact giveUp_effect e (.inl ⟨rfl, by simp [he]⟩)
    · next fee hfee =>
      split
      · exact .queried
      · next hne => exact giveUp_effect _ (.inl ⟨rfl, by simpa [hfee] using hne⟩)
  | poolBalance f =>
    dsimp only
    split
    · next e he => exact giveUp_effect e (.inr rfl)
    · split
      · exact giveUp_effect _ (.inr rfl)
      · exact debitAndSend_effect now s f r
  | transfer f =>
    cases r with
    | transfer inner => exact settleTransfer_effect d s f inner
    | fee n => exact .unknown trivial (TreasuryBook.account_setStatus s _ _)
    | balance n => exact .unknown trivial (TreasuryBook.account_setStatus s _ _)
    | rejected m => exact .unknown trivial (TreasuryBook.account_setStatus s _ _)

/-! ### A reconciliation -/

/-- The reserve is debited and the outcome of the transfer open. -/
def TreasuryDisbursementStatus.Debited (status : TreasuryDisbursementStatus) : Prop :=
  status = .pendingTransfer ∨ status = .transportUnknown

/-- What a reconciliation comes to. -/
inductive ReconcileEffect (s : TreasuryBook) (id : ProposalId) :
    DisburseOutcome → TreasuryOutcome → Prop where
  | refused {o : DisburseOutcome} {a : TreasuryAnswer} : ReconcileEffect s id o (.reply s a)
  | trapped {o : DisburseOutcome} : ReconcileEffect s id o .trap
  | withdrawn {d : TreasuryDisbursement} {s' : TreasuryBook} {a : TreasuryAnswer}
      (hd : (s.account id).record = some d) (hs : d.status = .pendingValidation)
      (h : s'.account = Function.update s.account id (s.account id).clear) :
      ReconcileEffect s id .notExecuted (.reply s' a)
  | recorded {d : TreasuryDisbursement} {x : TreasuryReconciliationTombstone} {b : Nat}
      {s' : TreasuryBook} {a : TreasuryAnswer} (hd : (s.account id).record = some d)
      (hs : d.status.Debited) (hx : x.decision = .executed)
      (h : s'.account = Function.update s.account id (((s.account id).bury x).mark (.executed b))) :
      ReconcileEffect s id (.executed b) (.reply s' a)
  | reverted {d : TreasuryDisbursement} {x : TreasuryReconciliationTombstone}
      {s' : TreasuryBook} {a : TreasuryAnswer} (hd : (s.account id).record = some d)
      (hs : d.status.Debited) (hx : x.decision = .notExecuted)
      (h : s'.account = Function.update s.account id
        {((s.account id).bury x).clear with credits := (s.account id).credits + 1}) :
      ReconcileEffect s id .notExecuted (.reply s' a)

theorem reconcileDebited_effect (now : Nat) (caller : Principal) {id : ProposalId}
    {r : TreasuryDisbursement} (outcome : DisburseOutcome) {s : TreasuryBook}
    (hr : s.record id = some r) (hs : r.status.Debited) (hkey : r.proposalId = id) :
    ReconcileEffect s id outcome (reconcileDebited now caller id r outcome s) := by
  subst hkey
  cases outcome with
  | executed b =>
    refine .recorded hr hs (x := tombstoneOf now caller r .executed (some b)) rfl ?_
    rw [TreasuryBook.account_setStatus, TreasuryBook.account_write]
    simp [tombstoneOf]
  | notExecuted =>
    unfold reconcileDebited
    dsimp only
    split
    · next s' hs' =>
      refine .reverted hr hs (x := tombstoneOf now caller r .notExecuted none) rfl ?_
      rw [TreasuryBook.account_remove, TreasuryBook.account_credit hs', TreasuryBook.account_write]
      simp [tombstoneOf, Account.clear, Account.bury]
    · exact .trapped

/-- A reconciliation, where records lie under their own ids. -/
theorem reconcile_effect (now : Nat) (caller : Principal) (id : ProposalId)
    (outcome : DisburseOutcome) (s : TreasuryBook)
    (hkey : ∀ r, s.record id = some r → r.proposalId = id) :
    ReconcileEffect s id outcome (reconcileTreasuryDisburse now caller id outcome s) := by
  unfold reconcileTreasuryDisburse
  split
  · split
    · exact .refused
    · next r hr =>
      split
      · exact .refused
      · exact .refused
      · next hs => exact .withdrawn hr hs (TreasuryBook.account_remove s _)
      · exact .refused
      · next hs => exact reconcileDebited_effect now caller _ hr (.inr hs) (hkey r hr)
      · next hs => exact reconcileDebited_effect now caller _ hr (.inl hs) (hkey r hr)
  · exact .trapped

end StshProtocol.ShieldedPool.Treasury
