import StshProtocol.ShieldedPool.Treasury.Interleaving

/-! Every run of the treasury endpoints whose late replies are harmless is in balance.

Three kinds of late reply are not: one that ends the validation of a claim whose
record is by now another claim's; a definite rejection after the id was reconciled,
which credits the reserve a second time (`doubleCredit_unbalanced`); an open outcome
after the record was reconciled to `Executed`. And an assertion that a transfer was
not carried out stays true only if it is no longer under way. In the runs without
these steps (`Timely`) everything balances (`disbursements_balance`). -/
namespace StshProtocol.ShieldedPool.Treasury
open Foundation

/-! ### What is claimed -/

/-- The proposal is resolved as not executed: its claim is given up or reverted. -/
def ResolvedNotExecuted (a : Account) : Prop :=
  a.record = none ∨ ∃ x, a.tombstone = some x ∧ x.decision = .notExecuted

/-- Debits, credits and the ledger agree about a proposal. -/
structure Balanced (w : TreasuryWorld) (id : ProposalId) : Prop where
  once : executed w.env id ≤ 1
  paid : executed w.env id = 1 → (w.state.account id).debits = (w.state.account id).credits + 1
  unpaid : ResolvedNotExecuted (w.state.account id) →
    (w.state.account id).debits = (w.state.account id).credits ∧ executed w.env id = 0

/-- The record is the one this suspended call claimed, and was not reconciled since. -/
def OwnRecord (k : DisburseCont) (a : Account) : Prop :=
  a.record ≠ none ∧ a.claims = k.frame.claim ∧ a.tombstone = none

/-- A step keeps every tombstone and claims nothing under one; and a resumed call
changes the account of its own unreconciled record only. -/
structure Confined (w : TreasuryWorld) (e : Event TreasuryInput LedgerReply) (w' : TreasuryWorld) :
    Prop where
  retired : ∀ id x, (w.state.account id).tombstone = some x →
    (w'.state.account id).tombstone = some x ∧
      (w'.state.account id).claims = (w.state.account id).claims
  resumed : ∀ t r k, e = .reply t r → w.tasks t = some k → ∀ id,
    w'.state.account id = w.state.account id ∨ (id = k.id ∧ OwnRecord k (w.state.account id))

/-- Assertions are true of the ledger when they are made. -/
def Truthful (w : TreasuryWorld) : Event TreasuryInput LedgerReply → Prop
  | .call (.reconcile _ id (.executed b)) => PaidAt w.env id b
  | .call (.reconcile _ id .notExecuted) => executed w.env id = 0
  | _ => True

/-- A reply that finds the account as its call left it, as far as it acts on it. -/
structure TimelyReply (a : Account) (k : DisburseCont) (r : LedgerReply) : Prop where
  validation : ∀ f, EndsValidation f k r → a.record = none ∨ a.claims = f.claim
  rejection : ∀ f inner, k = .transfer f → r = .transfer inner →
    classifyLedgerSettlement inner = .definiteError → a.tombstone = none
  ambiguity : ∀ f d b, k = .transfer f → Ambiguous r → a.record = some d → d.status ≠ .executed b

/-- The steps in which no reply comes too late, and no transfer is written off while
the ledger may still carry it out. -/
def Timely (w : TreasuryWorld) : Event TreasuryInput LedgerReply → Prop
  | .reply t r => ∀ k, w.tasks t = some k → TimelyReply (w.state.account k.id) k r
  | .call (.reconcile _ id .notExecuted) =>
      ∀ d, (w.state.account id).record = some d → d.status.Debited → ∀ t, ¬ Owes w.env t id
  | _ => True

/-! ### One message -/

section Message
variable {w : TreasuryWorld}

/-- A call taken off the list. -/
theorem WorldSound.finish (h : WorldSound w) (t : Nat) : WorldSound (w.finish t) := by
  have hsame : w.state.account = Function.update w.state.account 0 (w.state.account 0) :=
    (Function.update_eq_self _ _).symm
  refine h.rebook hsame (fun u k hu => ?_) (h.accounts 0) fun u k hu hk => ?_
  all_goals
    have hne : u ≠ t := by
      rintro rfl
      simp at hu
    rw [Function.update_of_ne hne] at hu
  · exact hu
  · exact hk ▸ h.tasks u k hu

theorem finish_tasks {t u : Nat} {k : DisburseCont} (h : (w.finish t).tasks u = some k) :
    u ≠ t ∧ w.tasks u = some k := by
  have hne : u ≠ t := by
    rintro rfl
    simp [World.finish] at h
  exact ⟨hne, by simpa [World.finish, hne] using h⟩

theorem ValidationSound.of_absent {a a' : Account} {f : DisburseFrame} (h : ValidationSound a f)
    (hr : a'.record = none) (hc : a.claims ≤ a'.claims) : ValidationSound a' f :=
  ⟨Nat.le_trans h.claim hc, fun _ r hr' => by rw [hr] at hr'; cases hr'⟩

/-- The first segment of `treasury_disburse`. -/
theorem disburse_sound (h : WorldSound w) {args : TreasuryDisburseArgs} {o : TreasuryOutcome}
    {w' : TreasuryWorld} (he : DisburseEffect w.state args o)
    (hl : Lands ledgerService w o w') : WorldSound w' := by
  cases he with
  | refused => cases hl; exact h
  | abandoned hr ht hs =>
    cases hl
    obtain ⟨hb, hx, ho⟩ := (h.accounts _).of_absent hr
    refine h.rebook hs (fun t k hk => hk) (.absent hr hb hx ho (by simp [ht])) fun t k hk hid => ?_
    have hold := h.tasks t k hk
    rw [hid] at hold
    cases k with
    | ledgerFee f => exact hold.of_absent hr (Nat.le_succ _)
    | poolBalance f => exact hold.of_absent hr (Nat.le_succ _)
    | transfer f => exact absurd hk (h.no_transfer ht (by simp [hr]) hid)
  | @claimed s' f now hr ht hf hc hs =>
    obtain ⟨hb, hx, ho⟩ := (h.accounts _).of_absent hr
    have hbooked : WorldSound {w with state := s'} := h.rebook hs (fun t k hk => hk)
      (.validating (claimedRecord now args) rfl rfl rfl hb hx ho ht) fun t k hk hid => ?_
    · cases hl with
      | call hq =>
        cases hq
        refine hbooked.suspend (k := .ledgerFee f) ?_ (fun t k hk hid => ?_) (fun id ha => ?_)
        · show ValidationSound (s'.account f.args.proposalId) f
          rw [hs, hf, Function.update_self]
          exact ⟨Nat.le_of_eq hc, fun _ r hr' => by cases hr'; rfl⟩
        · have hle := (h.tasks t k hk).claim_le
          have hk' : k.id = args.proposalId := hid.trans (congrArg _ hf)
          rw [hk'] at hle
          show k.frame.claim ≠ f.claim
          omega
        · obtain ⟨a, hq, _⟩ := ha
          cases hq
    · have hold := h.tasks t k hk
      have hle := hold.claim_le
      rw [hid] at hold hle
      cases k with
      | ledgerFee f' =>
        refine ⟨Nat.le_succ_of_le hold.claim, fun hcl => ?_⟩
        have : f'.claim = (w.state.account args.proposalId).claims + 1 := hcl
        have : f'.claim ≤ (w.state.account args.proposalId).claims := hle
        omega
      | poolBalance f' =>
        refine ⟨Nat.le_succ_of_le hold.claim, fun hcl => ?_⟩
        have : f'.claim = (w.state.account args.proposalId).claims + 1 := hcl
        have : f'.claim ≤ (w.state.account args.proposalId).claims := hle
        omega
      | transfer f' => exact absurd hk (h.no_transfer ht (by simp [hr]) hid)

/-- The first tombstone of an id is the one that is written. -/
theorem bury_decision {a : Account} {x y : TreasuryReconciliationTombstone}
    (ht : a.tombstone = none) (hy : (a.bury x).tombstone = some y) : y = x := by
  simpa [Account.bury, ht] using hy.symm

/-- A reconciliation whose assertion is true and stays so. -/
theorem reconcile_sound (h : WorldSound w) {caller : Principal} {id : ProposalId}
    {outcome : DisburseOutcome} {o : TreasuryOutcome} {w' : TreasuryWorld}
    (htrue : Truthful w (.call (.reconcile caller id outcome)))
    (htimely : Timely w (.call (.reconcile caller id outcome)))
    (he : ReconcileEffect w.state id outcome o) (hl : Lands ledgerService w o w') :
    WorldSound w' := by
  cases he with
  | refused => cases hl; exact h
  | trapped => cases hl
  | withdrawn hd hs hacc =>
    cases hl
    obtain ⟨hb, hx, ho, ht⟩ := (h.accounts id).of_validating hd hs
    refine h.rebook hacc (fun t k hk => hk)
      (.absent rfl hb hx ho (fun x hx => nomatch ht.symm.trans hx)) fun t k hk hid => ?_
    have hold := h.tasks t k hk
    rw [hid] at hold
    cases k with
    | ledgerFee f => exact hold.of_absent rfl Nat.le.refl
    | poolBalance f => exact hold.of_absent rfl Nat.le.refl
    | transfer f =>
      refine absurd hk (h.no_transfer ht (fun r hr hs' => ?_) hid)
      rw [hd] at hr
      cases hr
      rw [hs] at hs'
      cases hs'
  | @recorded d x b s' a hd hs hx hacc =>
    cases hl
    obtain ⟨hb, ho, ht⟩ := (h.accounts id).of_debited hd hs
    have hpaid : PaidAt w.env id b := htrue
    have hkey : d.proposalId = id := (h.accounts id).key hd
    have hone : executed w.env id = 1 := by
      have := hpaid.executed_pos
      have := (h.accounts id).executed_le
      omega
    refine h.rebook hacc (fun t k hk => hk) (.done {d with status := .executed b} b ?_ hkey
      rfl hb hone hpaid (fun t hot => ?_) ?_) fun t k hk hid => ?_
    · simp [Account.mark, Account.bury, hd]
    · have := (ho t hot).1
      omega
    · rintro y hy
      rw [bury_decision ht hy, hx]
    · have hold := h.tasks t k hk
      rw [hid] at hold
      have hnv : ∀ f : DisburseFrame, ValidationSound (w.state.account id) f →
          f.claim ≠ (w.state.account id).claims := by
        intro f hf hcl
        have hpv := hf.live hcl d hd
        rcases hs with hs | hs <;> rw [hs] at hpv <;> cases hpv
      cases k with
      | ledgerFee f => exact ⟨hold.claim, fun hcl => absurd hcl (hnv f hold)⟩
      | poolBalance f => exact ⟨hold.claim, fun hcl => absurd hcl (hnv f hold)⟩
      | transfer f =>
        refine ⟨hold.claim, fun hno => ?_, hold.asked, hold.settled, fun inner hno => ?_⟩
        · simp [Account.mark, Account.bury] at hno
        · simp [Account.mark, Account.bury] at hno
  | @reverted d x s' a hd hs hx hacc =>
    cases hl
    obtain ⟨hb, _, ht⟩ := (h.accounts id).of_debited hd hs
    have hzero : executed w.env id = 0 := htrue
    refine h.rebook hacc (fun t k hk => hk)
      (.absent rfl hb hzero (htimely d hd hs) ?_) fun t k hk hid => ?_
    · rintro y hy
      rw [bury_decision ht hy, hx]
    · have hold := h.tasks t k hk
      rw [hid] at hold
      cases k with
      | ledgerFee f => exact hold.of_absent rfl Nat.le.refl
      | poolBalance f => exact hold.of_absent rfl Nat.le.refl
      | transfer f =>
        refine ⟨hold.claim, fun hno => ?_, hold.asked, hold.settled, fun inner hno => ?_⟩
        · simp [Account.clear, Account.bury] at hno
        · simp [Account.clear, Account.bury] at hno

/-- What a timely reply makes of the account of its proposal: it is sound, its
tombstone and claims are as they were, the other suspended calls of the proposal fit
it, and it differs only if the record is the call's own. -/
structure ResumedAccount (w : TreasuryWorld) (t : Nat) (k : DisburseCont) (a : Account) : Prop where
  sound : Sound w.env k.id a
  tombstone : a.tombstone = (w.state.account k.id).tombstone
  claims : a.claims = (w.state.account k.id).claims
  tasks : ∀ u k', u ≠ t → w.tasks u = some k' → k'.id = k.id → TaskSound a w.env u k'
  confined : a = w.state.account k.id ∨ OwnRecord k (w.state.account k.id)

/-- An account left as it is. -/
theorem ResumedAccount.same (h : WorldSound w) (t : Nat) (k : DisburseCont) :
    ResumedAccount w t k (w.state.account k.id) :=
  ⟨h.accounts _, rfl, rfl, fun u k' _ hk hid => hid ▸ h.tasks u k' hk, .inl rfl⟩

/-- A claim in validation is given up. -/
theorem resumed_gaveUp (h : WorldSound w) {t : Nat} {k : DisburseCont} {f : DisburseFrame}
    (hk : w.tasks t = some k) (hf : k = .ledgerFee f ∨ k = .poolBalance f)
    (hown : (w.state.account k.id).record = none ∨ (w.state.account k.id).claims = f.claim) :
    ResumedAccount w t k (w.state.account k.id).clear := by
  have hframe : k.frame = f := by rcases hf with rfl | rfl <;> rfl
  have hval : ValidationSound (w.state.account k.id) f := by
    have := h.tasks t k hk
    rcases hf with rfl | rfl <;> exact this
  cases hr : (w.state.account k.id).record with
  | none =>
    have hsame : (w.state.account k.id).clear = w.state.account k.id := by
      simp [Account.clear, ← hr]
    rw [hsame]
    exact .same h t k
  | some d =>
    have hclaim : f.claim = (w.state.account k.id).claims := by
      rcases hown with hno | hc
      · rw [hr] at hno; cases hno
      · exact hc.symm
    have hs := hval.live hclaim d hr
    obtain ⟨hb, hx, ho, ht⟩ := (h.accounts k.id).of_validating hr hs
    refine ⟨.absent rfl hb hx ho (fun x hx => by cases ht.symm.trans hx), rfl, rfl,
      fun u k' _ hk' hid => ?_, .inr ⟨by simp [hr], by rw [hframe]; exact hclaim.symm, ht⟩⟩
    have hold := h.tasks u k' hk'
    rw [hid] at hold
    cases k' with
    | ledgerFee f => exact hold.of_absent rfl Nat.le.refl
    | poolBalance f => exact hold.of_absent rfl Nat.le.refl
    | transfer f =>
      refine absurd hk' (h.no_transfer ht (fun r hr' hs' => ?_) hid)
      rw [hr] at hr'
      cases hr'
      rw [hs] at hs'
      cases hs'

/-- The reserve is debited and the transfer about to be sent. -/
theorem resumed_sent (h : WorldSound w) {t : Nat} {f : DisburseFrame} (now : Nat)
    {d : TreasuryDisbursement} (hk : w.tasks t = some (.poolBalance f))
    (hd : (w.state.account f.args.proposalId).record = some d)
    (hown : (w.state.account f.args.proposalId).claims = f.claim) :
    ResumedAccount w t (.poolBalance f) {w.state.account f.args.proposalId with
      record := some {d with status := .pendingTransfer, ledgerCreatedAtTimeNs := some now}
      debits := (w.state.account f.args.proposalId).debits + 1} := by
  have hval : ValidationSound (w.state.account f.args.proposalId) f := h.tasks t _ hk
  have hs := hval.live hown.symm d hd
  have hkey : d.proposalId = f.args.proposalId := (h.accounts _).key hd
  obtain ⟨hb, hx, ho, ht⟩ := (h.accounts f.args.proposalId).of_validating hd hs
  refine ⟨.debited _ rfl hkey (.inl rfl) (congrArg (· + 1) hb) (by
      show executed w.env f.args.proposalId ≤ 1
      omega)
    (fun u hu => absurd hu (ho u)) ht, rfl, rfl, fun u k' hne hk' hid => ?_,
    .inr ⟨by rw [show (DisburseCont.poolBalance f).id = f.args.proposalId from rfl, hd]; simp,
      hown, ht⟩⟩
  have hold := h.tasks u k' hk'
  rw [hid] at hold
  exact hold.of_other (fun hc => hne (h.unique u t k' _ hk' hk hid (hc.trans hown))) rfl

/-- A settlement that is recorded. -/
theorem resumed_confirmed (h : WorldSound w) {t : Nat} {f : DisburseFrame}
    {inner : Except IcrcTransferError Nat} {b : Nat} (hk : w.tasks t = some (.transfer f))
    (hr : w.env.replies t = some (.transfer inner)) (hb : settledBlock inner = some b) :
    ResumedAccount w t (.transfer f) ((w.state.account f.args.proposalId).mark (.executed b)) := by
  have htask : TransferSound (w.state.account f.args.proposalId) w.env t f := h.tasks t _ hk
  have hpaid := htask.settled inner b hr hb
  have hsound := h.accounts f.args.proposalId
  have hone : executed w.env f.args.proposalId = 1 := by
    have := hpaid.executed_pos
    have := hsound.executed_le
    omega
  by_cases ht : (w.state.account f.args.proposalId).tombstone = none
  · obtain ⟨d, hd, hs⟩ := htask.live ht
    obtain ⟨hbal, ho, _⟩ := hsound.of_debited hd (.inl hs)
    have hkey : d.proposalId = f.args.proposalId := hsound.key hd
    refine ⟨.done {d with status := .executed b} b (by simp [Account.mark, hd]) hkey rfl hbal
      hone hpaid (fun u hu => ?_) (fun x hx => nomatch ht.symm.trans hx), rfl, rfl,
      fun u k' hne hk' hid => ?_,
      .inr ⟨?_, htask.claim.symm, ht⟩⟩
    · have := (ho u hu).1
      omega
    · have hold := h.tasks u k' hk'
      rw [hid] at hold
      exact hold.of_other (fun hc => hne (h.transfer_alone hk hk' hid hc)) rfl
    · rw [show (DisburseCont.transfer f).id = f.args.proposalId from rfl, hd]
      simp
  · have hsame : (w.state.account f.args.proposalId).mark (.executed b) =
        w.state.account f.args.proposalId := by
      rcases hsound.of_tombstone ht with hno | ⟨d, c, hd, hs, hc⟩
      · have := (hsound.of_absent hno).2.1
        omega
      · have hbc : c = b := PaidAt.unique hsound.executed_le hc hpaid
        subst hbc
        ext1
        · simp only [Account.mark, hd, Option.map_some, ← hs]
        all_goals rfl
    rw [hsame]
    exact .same h t (.transfer f)

/-- An outcome that stays open. -/
theorem resumed_unknown (h : WorldSound w) {t : Nat} {f : DisburseFrame}
    (hk : w.tasks t = some (.transfer f))
    (hopen : ∀ d b, (w.state.account f.args.proposalId).record = some d → d.status ≠ .executed b) :
    ResumedAccount w t (.transfer f) ((w.state.account f.args.proposalId).mark .transportUnknown) := by
  have htask : TransferSound (w.state.account f.args.proposalId) w.env t f := h.tasks t _ hk
  have hsound := h.accounts f.args.proposalId
  by_cases ht : (w.state.account f.args.proposalId).tombstone = none
  · obtain ⟨d, hd, hs⟩ := htask.live ht
    obtain ⟨hbal, ho, _⟩ := hsound.of_debited hd (.inl hs)
    have hkey : d.proposalId = f.args.proposalId := hsound.key hd
    refine ⟨.debited {d with status := .transportUnknown} (by simp [Account.mark, hd]) hkey
      (.inr rfl) hbal hsound.executed_le ho ht, rfl, rfl, fun u k' hne hk' hid => ?_,
      .inr ⟨?_, htask.claim.symm, ht⟩⟩
    · have hold := h.tasks u k' hk'
      rw [hid] at hold
      exact hold.of_other (fun hc => hne (h.transfer_alone hk hk' hid hc)) rfl
    · rw [show (DisburseCont.transfer f).id = f.args.proposalId from rfl, hd]
      simp
  · have hsame : (w.state.account f.args.proposalId).mark .transportUnknown =
        w.state.account f.args.proposalId := by
      rcases hsound.of_tombstone ht with hno | ⟨d, c, hd, hs, _⟩
      · ext1
        · simp only [Account.mark, hno, Option.map_none]
        all_goals rfl
      · exact absurd hs (hopen d c hd)
    rw [hsame]
    exact .same h t (.transfer f)

/-- A rejected transfer is credited back. -/
theorem resumed_aborted (h : WorldSound w) {t : Nat} {f : DisburseFrame}
    {inner : Except IcrcTransferError Nat} (hk : w.tasks t = some (.transfer f))
    (hr : w.env.replies t = some (.transfer inner)) (hn : settledBlock inner = none)
    (ht : (w.state.account f.args.proposalId).tombstone = none) :
    ResumedAccount w t (.transfer f) {(w.state.account f.args.proposalId).clear with
      credits := (w.state.account f.args.proposalId).credits + 1} := by
  have htask : TransferSound (w.state.account f.args.proposalId) w.env t f := h.tasks t _ hk
  obtain ⟨d, hd, hs⟩ := htask.live ht
  obtain ⟨hbal, _, _⟩ := (h.accounts f.args.proposalId).of_debited hd (.inl hs)
  obtain ⟨hx, ho⟩ := htask.refused inner ht hr hn
  refine ⟨.absent rfl hbal hx ho (fun x hx => nomatch ht.symm.trans hx), rfl, rfl,
    fun u k' hne hk' hid => ?_, .inr ⟨?_, htask.claim.symm, ht⟩⟩
  · have hold := h.tasks u k' hk'
    rw [hid] at hold
    cases k' with
    | ledgerFee f' => exact hold.of_absent rfl Nat.le.refl
    | poolBalance f' => exact hold.of_absent rfl Nat.le.refl
    | transfer f' => exact absurd (h.transfer_alone hk hk' hid hold.claim) hne
  · rw [show (DisburseCont.transfer f).id = f.args.proposalId from rfl, hd]
    simp

/-- A definite rejection names no block. -/
theorem settledBlock_of_definite {inner : Except IcrcTransferError Nat}
    (h : classifyLedgerSettlement inner = .definiteError) : settledBlock inner = none := by
  cases inner with
  | ok b => cases h
  | error e => cases e <;> first | rfl | cases h

/-- The reply to a transfer call that is not a rejection of the call is the ledger's. -/
theorem stored_reply {t : Nat} {inner : Except IcrcTransferError Nat} {l : Ledger}
    (h : ledgerService.answer t (.transfer inner) l) : l.replies t = some (.transfer inner) := by
  rcases h with h | ⟨m, h⟩
  · exact h
  · cases h

/-- A timely reply, whatever it comes to: where the message ends, and where it calls again. -/
theorem resume_sound (h : WorldSound w) {t : Nat} {k : DisburseCont} {r : LedgerReply}
    {o : TreasuryOutcome} {w' : TreasuryWorld} (hk : w.tasks t = some k)
    (hr : ledgerService.answer t r w.env) (ht : TimelyReply (w.state.account k.id) k r)
    (he : ResumeEffect w.state k r o) (hl : Lands ledgerService (w.finish t) o w') :
    WorldSound w' ∧ ∃ a, ResumedAccount w t k a ∧
      w'.state.account = Function.update w.state.account k.id a := by
  have hend : ∀ {a : Account} {s' : TreasuryBook}, ResumedAccount w t k a →
      s'.account = Function.update w.state.account k.id a →
        WorldSound {w.finish t with state := s'} := fun ha hs =>
    h.rebook hs (fun _ _ hu => (finish_tasks hu).2) ha.sound fun u k' hu hid =>
      ha.tasks u k' (finish_tasks hu).1 (finish_tasks hu).2 hid
  cases he with
  | @queried f r acct =>
    refine ⟨?_, _, .same h t _, ?_⟩
    · cases hl with
      | call hq =>
        cases hq
        refine (h.finish t).suspend (k := .poolBalance f) (h.tasks t _ hk)
          (fun u k' hu hid hc => ?_) (fun id ha => ?_)
        · obtain ⟨hne, hold⟩ := finish_tasks hu
          exact hne (h.unique u t k' _ hold hk hid hc)
        · obtain ⟨a, hq, _⟩ := ha
          cases hq
    · cases hl
      exact (Function.update_eq_self _ _).symm
  | @gaveUp f k r s' a hv hs =>
    have hid : k.id = f.args.proposalId := by rcases hv with ⟨rfl, _⟩ | rfl <;> rfl
    rw [← hid] at hs
    have ha := resumed_gaveUp h hk (hv.imp (·.1) fun hv => hv) (ht.validation f hv)
    cases hl
    exact ⟨hend ha hs, _, ha, hs⟩
  | @sent f r s' now d hd hs =>
    have hown : (w.state.account f.args.proposalId).claims = f.claim :=
      (ht.validation f (.inr rfl)).resolve_left fun hno => by
        rw [show (DisburseCont.poolBalance f).id = f.args.proposalId from rfl, hd] at hno
        cases hno
    have ha := resumed_sent h now hk hd hown
    have hval : ValidationSound (w.state.account f.args.proposalId) f := h.tasks t _ hk
    obtain ⟨_, hx, ho, htomb⟩ :=
      (h.accounts f.args.proposalId).of_validating hd (hval.live hown.symm d hd)
    have hbooked := hend ha hs
    have hacc : s'.account f.args.proposalId = _ := congrFun hs f.args.proposalId
    rw [Function.update_self] at hacc
    refine ⟨?_, _, ha, ?_⟩
    · cases hl with
      | call hq =>
        cases hq
        refine hbooked.suspend (k := .transfer f) ?_ (fun u k' hu hid hc => ?_) (fun id hask => ?_)
        · show TransferSound (s'.account f.args.proposalId) _ _ f
          rw [hacc]
          refine ⟨hown.symm, fun _ => ⟨_, rfl, rfl⟩, fun q hq => ?_, fun inner b hi => ?_,
            fun inner _ hi => ?_⟩
          · have hq' : LedgerCall.icrc1Transfer (transferArgs f.args now) = q := by simpa using hq
            exact hq' ▸ asks_transferArgs f.args now
          · exact nomatch h.unused.2.symm.trans hi
          · exact nomatch h.unused.2.symm.trans hi
        · obtain ⟨hne, hold⟩ := finish_tasks hu
          exact hne (h.unique u t k' _ hold hk hid hc)
        · have hid : id = f.args.proposalId := hask.unique (asks_transferArgs f.args now)
          subst hid
          refine ⟨hx, ho, ⟨_, congrArg Account.record hacc, .inl rfl⟩, fun u f' hu hid => ?_⟩
          obtain ⟨hne, hold⟩ := finish_tasks hu
          refine h.no_transfer htomb (fun r hr hs' => ?_) hid hold
          rw [hd] at hr
          cases hr
          rw [hval.live hown.symm d hd] at hs'
          cases hs'
    · cases hl
      exact hs
  | @confirmed f inner b s' a hb hs =>
    have ha := resumed_confirmed h hk (stored_reply hr) hb
    cases hl
    exact ⟨hend ha hs, _, ha, hs⟩
  | @unknown f r s' a hopen hs =>
    have ha := resumed_unknown h hk fun d b hd => ht.ambiguity f d b rfl hopen hd
    cases hl
    exact ⟨hend ha hs, _, ha, hs⟩
  | @aborted f inner s' a hdef hs =>
    have ha := resumed_aborted h hk (stored_reply hr) (settledBlock_of_definite hdef)
      (ht.rejection f inner rfl rfl hdef)
    cases hl
    exact ⟨hend ha hs, _, ha, hs⟩
  | trapped => cases hl

/-- What an upgrade keeps of a record. -/
theorem postUpgrade_record {s s' : TreasuryBook} (h : postUpgrade s = some s') (id : ProposalId) :
    s'.account id = {s.account id with
      record := (s.account id).record.filter
        fun r => !classifyTreasuryStatusForUpgrade r.status} := by
  unfold postUpgrade at h
  split at h
  · cases h
  · cases h
    simp [TreasuryBook.account, TreasuryBook.record, TreasuryBook.tombstone]

theorem upgrade_sound (h : WorldSound w) {s : TreasuryBook} (hs : postUpgrade w.state = some s) :
    WorldSound {w with state := s, tasks := fun _ => none} := by
  have haccounts : ∀ id, Sound w.env id (s.account id) := by
    intro id
    rw [postUpgrade_record hs]
    cases h.accounts id with
    | absent hr hb hx ho ht => exact .absent (by simp [hr]) hb hx ho ht
    | validating r hr hk hs hb hx ho ht =>
      exact .absent (by simp [hr, hs, classifyTreasuryStatusForUpgrade]) hb hx ho (by simp [ht])
    | debited r hr hk hs hb hx ho ht =>
      refine .debited r ?_ hk hs hb hx ho ht
      rcases hs with hs | hs <;> simp [hr, hs, classifyTreasuryStatusForUpgrade]
    | done r b hr hk hs hb hx hp ho ht =>
      exact .done r b (by simp [hr, hs, classifyTreasuryStatusForUpgrade]) hk hs hb hx hp ho ht
  exact ⟨haccounts, fun _ _ hk => (nomatch hk), fun _ _ _ _ hk => (nomatch hk),
    fun t ht => ⟨rfl, (h.fresh t ht).2⟩⟩

end Message

/-! ### Runs -/

variable {d : Deployment} {w w' : TreasuryWorld} {e : Event TreasuryInput LedgerReply}

/-- A true, timely step keeps the invariant. -/
theorem step_sound (h : WorldSound w) (htrue : Truthful w e) (htimely : Timely w e)
    (hstep : (system d).step w e w') : WorldSound w' := by
  cases hstep with
  | @call w' i hl =>
    cases i with
    | disburse caller args =>
      exact disburse_sound h (treasuryDisburse_effect w.now caller args w.state) hl
    | reconcile caller id outcome =>
      exact reconcile_sound h htrue htimely
        (reconcile_effect w.now caller id outcome w.state fun _ hr => (h.accounts id).key hr) hl
  | callTrap _ => exact h
  | @reply w' t k r hk hr hl =>
    exact (resume_sound h hk hr (htimely k hk) (resumeDisburse_effect d w.now k r w.state) hl).1
  | replyTrap _ _ _ => exact h.finish _
  | upgrade hs => exact upgrade_sound h hs
  | wait _ => exact ⟨h.accounts, h.tasks, h.unique, h.fresh⟩
  | elsewhere hm => exact h.elsewhere hm
  | others hs =>
    have hacc := TreasuryBook.account_congr hs
    exact ⟨fun id => hacc ▸ h.accounts id, fun t k hk => hacc ▸ h.tasks t k hk, h.unique, h.fresh⟩

theorem installed_sound (h : Installed w) : WorldSound w := by
  obtain ⟨hd, ht, hj, ⟨n, he⟩, hk⟩ := h
  refine ⟨fun id => .absent ?_ ?_ ?_ (fun t ho => ?_) (fun x hx => ?_), fun t k h => ?_,
    fun t t' k k' h => ?_, fun t _ => ?_⟩
  · simp [TreasuryBook.account, TreasuryBook.record, hd]
  · simp [TreasuryBook.account, hj]
  · simp [executed, he, Ledger.idle, pays]
  · obtain ⟨q, hq, _⟩ := ho
    rw [he] at hq
    cases hq
  · simp [TreasuryBook.account, TreasuryBook.tombstone, ht] at hx
  · rw [hk] at h
    cases h
  · rw [hk] at h
    cases h
  · simp [hk, he, Ledger.idle]

/-- The invariant along every true, timely run. -/
theorem run_sound (run : (system d).RunIf (fun w e => Truthful w e ∧ Timely w e) w) :
    WorldSound w :=
  run.invariant (fun _ => installed_sound) fun _ _ _ _ h hok hstep =>
    step_sound h hok.1 hok.2 hstep

theorem WorldSound.balanced (h : WorldSound w) (id : ProposalId) : Balanced w id := by
  cases h.accounts id with
  | absent hr hb hx ho ht => exact ⟨by omega, fun _ => by omega, fun _ => ⟨hb, hx⟩⟩
  | validating r hr hk hs hb hx ho ht => exact ⟨by omega, fun _ => by omega, fun _ => ⟨hb, hx⟩⟩
  | debited r hr hk hs hb hx ho ht =>
    refine ⟨hx, fun _ => hb, ?_⟩
    rintro (hno | ⟨x, hx, _⟩)
    · rw [hr] at hno; cases hno
    · rw [ht] at hx; cases hx
  | done r b hr hk hs hb hx hp ho ht =>
    refine ⟨by omega, fun _ => hb, ?_⟩
    rintro (hno | ⟨x, hx, hn⟩)
    · rw [hr] at hno; cases hno
    · rw [ht x hx] at hn; cases hn

/-- One account is rewritten, and its tombstone, if it has one, stays with its claims. -/
theorem retired_of_update {s s' : TreasuryBook} {id : ProposalId} {a : Account}
    (hs : s'.account = Function.update s.account id a)
    (ha : ∀ x, (s.account id).tombstone = some x →
      a.tombstone = some x ∧ a.claims = (s.account id).claims) (j : ProposalId)
    (x : TreasuryReconciliationTombstone) (hx : (s.account j).tombstone = some x) :
    (s'.account j).tombstone = some x ∧ (s'.account j).claims = (s.account j).claims := by
  by_cases hj : j = id
  · subst hj
    rw [hs, Function.update_self]
    exact ha x hx
  · rw [hs, Function.update_of_ne hj]
    exact ⟨hx, rfl⟩

theorem disburse_retired {s : TreasuryBook} {args : TreasuryDisburseArgs} {o : TreasuryOutcome}
    (he : DisburseEffect s args o) {s' : TreasuryBook} (ho : o.state? = some s') :
    ∀ id x, (s.account id).tombstone = some x →
      (s'.account id).tombstone = some x ∧ (s'.account id).claims = (s.account id).claims := by
  cases he with
  | refused => cases ho; exact fun id x hx => ⟨hx, rfl⟩
  | abandoned hr ht hs =>
    cases ho
    exact retired_of_update hs fun x hx => nomatch ht.symm.trans hx
  | claimed hr ht hf hc hs =>
    cases ho
    exact retired_of_update hs fun x hx => nomatch ht.symm.trans hx

theorem reconcile_retired {s : TreasuryBook} {id : ProposalId} {outcome : DisburseOutcome}
    {o : TreasuryOutcome} (he : ReconcileEffect s id outcome o) {s' : TreasuryBook}
    (ho : o.state? = some s') :
    ∀ id x, (s.account id).tombstone = some x →
      (s'.account id).tombstone = some x ∧ (s'.account id).claims = (s.account id).claims := by
  cases he with
  | refused => cases ho; exact fun id x hx => ⟨hx, rfl⟩
  | trapped => cases ho
  | withdrawn hd hs hacc => cases ho; exact retired_of_update hacc fun x hx => ⟨hx, rfl⟩
  | recorded hd hs hx hacc =>
    cases ho
    exact retired_of_update hacc fun y hy => ⟨by simp [Account.mark, Account.bury, hy], rfl⟩
  | reverted hd hs hx hacc =>
    cases ho
    exact retired_of_update hacc fun y hy => ⟨by simp [Account.clear, Account.bury, hy], rfl⟩

theorem lands_state {o : TreasuryOutcome} (hl : Lands ledgerService w o w') :
    o.state? = some w'.state := by
  cases hl <;> rfl

/-- Only a resumed call has a record of its own to keep to. -/
theorem Confined.of_retired (hr : ∀ id x, (w.state.account id).tombstone = some x →
      (w'.state.account id).tombstone = some x ∧
        (w'.state.account id).claims = (w.state.account id).claims)
    (he : ∀ t r, e ≠ .reply t r) : Confined w e w' :=
  ⟨hr, fun t r _ h => absurd h (he t r)⟩

theorem step_confined (h : WorldSound w) (htimely : Timely w e)
    (hstep : (system d).step w e w') : Confined w e w' := by
  cases hstep with
  | @call w' i hl =>
    refine .of_retired ?_ (by simp)
    cases i with
    | disburse caller args =>
      exact disburse_retired (treasuryDisburse_effect w.now caller args w.state) (lands_state hl)
    | reconcile caller id outcome =>
      exact reconcile_retired (reconcile_effect w.now caller id outcome w.state
        fun _ hr => (h.accounts id).key hr) (lands_state hl)
  | callTrap _ => exact .of_retired (fun id x hx => ⟨hx, rfl⟩) (by simp)
  | @reply w' t k r hk hr hl =>
    obtain ⟨a, ha, hs⟩ :=
      (resume_sound h hk hr (htimely k hk) (resumeDisburse_effect d w.now k r w.state) hl).2
    refine ⟨retired_of_update hs fun x hx => ⟨ha.tombstone.trans hx, ha.claims⟩, ?_⟩
    intro t' r' k' he hk' id
    cases he
    rw [hk] at hk'
    cases hk'
    by_cases hid : id = k.id
    · subst hid
      rw [hs, Function.update_self]
      exact ha.confined.imp (fun h => h) fun h => ⟨rfl, h⟩
    · exact .inl (by rw [hs, Function.update_of_ne hid])
  | replyTrap _ _ _ => exact ⟨fun id x hx => ⟨hx, rfl⟩, fun _ _ _ _ _ id => .inl rfl⟩
  | upgrade hs =>
    refine .of_retired (fun id x hx => ?_) (by simp)
    rw [postUpgrade_record hs]
    exact ⟨hx, rfl⟩
  | wait _ => exact .of_retired (fun id x hx => ⟨hx, rfl⟩) (by simp)
  | elsewhere _ => exact .of_retired (fun id x hx => ⟨hx, rfl⟩) (by simp)
  | others hs =>
    refine .of_retired (fun id x hx => ?_) (by simp)
    rw [TreasuryBook.account_congr hs]
    exact ⟨hx, rfl⟩

/-- **In every run of true assertions and timely replies, disbursements balance.** In
each state reached every proposal is in balance with the ledger, and each further such
step keeps the tombstones and confines a resumed call to its own record. -/
theorem disbursements_balance (d : Deployment) (w : TreasuryWorld)
    (run : (system d).RunIf (fun w e => Truthful w e ∧ Timely w e) w) :
    (∀ id, Balanced w id) ∧
      ∀ e w', Truthful w e → Timely w e → (system d).step w e w' → Confined w e w' :=
  ⟨(run_sound run).balanced, fun _ _ _ htimely hstep => step_confined (run_sound run) htimely hstep⟩

/-! ### A disbursement on given inputs -/

section Sample

def samplePrincipal (n : Nat) : Principal := BitVec.ofNat 240 n

def sampleDeployment : Deployment where
  self := samplePrincipal 1
  debugSettlement _ := "Err(TemporarilyUnavailable)"

def sampleArgs : TreasuryDisburseArgs where
  proposalId := 7
  bucket := .insurance
  recipient := samplePrincipal 9
  recipientSubaccount := none
  amount := 500
  expectedLedgerFee := 10

/-- A pool with a thousand units in each word, before any disbursement. -/
def sampleWorld : TreasuryWorld where
  now := 1
  state := {
    treasury := some (samplePrincipal 2)
    token := some (samplePrincipal 3)
    controller := some (samplePrincipal 4)
    accounting := .commit fun _ => 1000
    disbursements := ∅
    tombstones := ∅
    journal := ⟨fun _ => 0, fun _ => 0, fun _ => 0⟩ }
  env := Ledger.idle []
  tasks := fun _ => none
  next := 0

theorem sampleWorld_installed : Installed sampleWorld :=
  ⟨rfl, rfl, rfl, ⟨0, rfl⟩, rfl⟩

/-- The disbursement up to its transfer: claim, fee, balance, debit. -/
def sampleOpening : List (Move TreasuryInput LedgerReply Ledger.Play) :=
  [.call (.disburse (samplePrincipal 2) sampleArgs),
   .elsewhere (.fee 0 10), .reply 0 (.fee 10),
   .elsewhere (.balance 1 6000), .reply 1 (.balance 6000)]

def samplePlayer : Player ledgerService Ledger.Play := Ledger.player fun _ _ => True

/-- Is the assertion true? -/
def truthfulCheck (w : TreasuryWorld) : Event TreasuryInput LedgerReply → Bool
  | .call (.reconcile _ id (.executed b)) => (w.env.blocks[b]?).any (pays id)
  | .call (.reconcile _ id .notExecuted) => executed w.env id == 0
  | _ => true

theorem truthfulCheck_ok (w : TreasuryWorld) (e : Event TreasuryInput LedgerReply)
    (h : truthfulCheck w e = true) : Truthful w e := by
  cases e with
  | call i =>
    cases i with
    | disburse caller args => trivial
    | reconcile caller id o =>
      cases o with
      | executed b =>
        obtain ⟨block, hb, hp⟩ := (Option.any_eq_true _ _).1 h
        exact ⟨block, hb, hp⟩
      | notExecuted =>
        have hzero : executed w.env id = 0 := by simpa [truthfulCheck] using h
        exact hzero
  | _ => trivial

/-- Enough for a step to be timely: a reply finds its own record, open and without
tombstone. -/
def timelyCheck (w : TreasuryWorld) : Event TreasuryInput LedgerReply → Bool
  | .reply t _ =>
      match w.tasks t with
      | some k =>
          (w.state.account k.id).claims == k.frame.claim && (w.state.account k.id).tombstone.isNone &&
            (w.state.account k.id).record.all fun r =>
              r.status == .pendingValidation || r.status == .pendingTransfer
      | none => true
  | .call (.reconcile _ _ .notExecuted) => false
  | _ => true

theorem timelyCheck_ok (w : TreasuryWorld) (e : Event TreasuryInput LedgerReply)
    (h : timelyCheck w e = true) : Timely w e := by
  cases e with
  | reply t r =>
    intro k hk
    simp only [timelyCheck, hk, Bool.and_eq_true, beq_iff_eq, Option.isNone_iff_eq_none] at h
    obtain ⟨⟨hc, ht⟩, hs⟩ := h
    refine ⟨fun f hf => .inr ?_, fun _ _ _ _ _ => ht, fun f d b _ _ hd hx => ?_⟩
    · rw [hc]
      rcases hf with ⟨rfl, _⟩ | rfl <;> rfl
    · simp [hd, hx] at hs
  | call i =>
    cases i with
    | disburse caller args => trivial
    | reconcile caller id o =>
      cases o with
      | executed b => trivial
      | notExecuted => cases h
  | _ => trivial

/-- A disbursement paid in full. -/
def samplePaid : Option TreasuryWorld :=
  samplePlayer.run (canister sampleDeployment) (fun w e => truthfulCheck w e && timelyCheck w e)
    sampleWorld (sampleOpening ++ [.elsewhere (.transfer 2), .reply 2 (.transfer (.ok 0))])

theorem samplePaid_executed : (samplePaid.map fun w => executed w.env 7) = some 1 := by
  decide +kernel

theorem samplePaid_balanced : ∃ w, executed w.env 7 = 1 ∧ ∀ id, Balanced w id := by
  obtain ⟨w, hw, hx⟩ := Option.map_eq_some_iff.1 samplePaid_executed
  refine ⟨w, hx, (disbursements_balance sampleDeployment w ?_).1⟩
  refine Player.run_runIf (fun w e h => ?_) (.start sampleWorld_installed) hw
  rw [Bool.and_eq_true] at h
  exact ⟨truthfulCheck_ok w e h.1, timelyCheck_ok w e h.2⟩

/-- The transfer is rejected, the controller truthfully asserts that nothing was
executed, and then the rejection reaches the suspended call. -/
def sampleDoubleCredit : Option TreasuryWorld :=
  samplePlayer.run (canister sampleDeployment) truthfulCheck sampleWorld
    (sampleOpening ++ [.elsewhere (.refuse 2 .temporarilyUnavailable),
      .call (.reconcile (samplePrincipal 4) 7 .notExecuted),
      .reply 2 (.transfer (.error .temporarilyUnavailable))])

theorem sampleDoubleCredit_journal :
    (sampleDoubleCredit.map fun w =>
      ((w.state.account 7).record.isNone, executed w.env 7, (w.state.account 7).debits,
        (w.state.account 7).credits)) = some (true, 0, 1, 2) := by
  decide +kernel

/-- Late rejections are credited twice: one debit, two credits, and no transfer. -/
theorem doubleCredit_unbalanced :
    ∃ w, (system sampleDeployment).RunIf Truthful w ∧ executed w.env 7 = 0 ∧
      (w.state.account 7).debits = 1 ∧ (w.state.account 7).credits = 2 ∧ ¬ Balanced w 7 := by
  obtain ⟨w, hw, hx⟩ := Option.map_eq_some_iff.1 sampleDoubleCredit_journal
  simp only [Prod.mk.injEq, Option.isNone_iff_eq_none] at hx
  obtain ⟨hr, hzero, hd, hc⟩ := hx
  refine ⟨w, Player.run_runIf truthfulCheck_ok (.start sampleWorld_installed) hw, hzero, hd, hc,
    fun hb => ?_⟩
  have := (hb.unpaid (.inl hr)).1
  omega

end Sample

end StshProtocol.ShieldedPool.Treasury
