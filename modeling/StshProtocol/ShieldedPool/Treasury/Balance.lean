import StshProtocol.ShieldedPool.Treasury.Effects

/-! The invariant of the treasury book.

Under each proposal id the account and the ledger stand in one of four relations
(`Sound`): no record and nothing owed; a claim under validation; a debited record
whose transfer may still be carried out, once; a finished one, paid by the block it
names. A suspended call is tied to the account it claimed (`TaskSound`). -/
namespace StshProtocol.ShieldedPool.Treasury
open Foundation

/-! ### Payments on the ledger -/

/-- The block is the transfer of this proposal. -/
def pays (id : ProposalId) : Block → Bool
  | .own a => a.memo == some (treasuryDisburseMemo id)
  | .foreign => false

/-- How often the transfer of this proposal was carried out. -/
def executed (l : Ledger) (id : ProposalId) : Nat := l.blocks.countP (pays id)

/-- Block `b` is the transfer of this proposal. -/
def PaidAt (l : Ledger) (id : ProposalId) (b : Nat) : Prop :=
  ∃ block, l.blocks[b]? = some block ∧ pays id block = true

/-- The request is the transfer of this proposal. -/
def Asks (id : ProposalId) (q : LedgerCall) : Prop :=
  ∃ a, q = .icrc1Transfer a ∧ a.memo = some (treasuryDisburseMemo id)

/-- Call `t` is a transfer of this proposal that is still to be carried out. -/
def Owes (l : Ledger) (t : Nat) (id : ProposalId) : Prop :=
  ∃ q, l.inFlight t = some q ∧ Asks id q

theorem asks_transferArgs (args : TreasuryDisburseArgs) (t : Nat) :
    Asks args.proposalId (.icrc1Transfer (transferArgs args t)) := ⟨_, rfl, rfl⟩

theorem pays_iff {id : ProposalId} {a : IcrcTransferArgs} :
    pays id (.own a) = true ↔ Asks id (.icrc1Transfer a) := by
  simp [pays, Asks]

/-- A request is the transfer of one proposal at most. -/
theorem Asks.unique {i j : ProposalId} {q : LedgerCall} (hi : Asks i q) (hj : Asks j q) : i = j := by
  obtain ⟨a, rfl, ha⟩ := hi
  obtain ⟨b, hb, hm⟩ := hj
  cases hb
  rw [ha] at hm
  exact treasuryDisburseMemo_injective (Option.some.inj hm)

theorem PaidAt.executed_pos {l : Ledger} {id : ProposalId} {b : Nat} (h : PaidAt l id b) :
    0 < executed l id := by
  obtain ⟨block, hb, hp⟩ := h
  exact List.countP_pos_iff.2 ⟨block, List.mem_of_getElem? hb, hp⟩

/-- Where one entry at most satisfies `p`, the places of such entries agree. -/
theorem index_unique {α : Type} {p : α → Bool} {xs : List α} (h : xs.countP p ≤ 1) {i j : Nat}
    {x y : α} (hi : xs[i]? = some x) (hx : p x = true) (hj : xs[j]? = some y) (hy : p y = true) :
    i = j := by
  induction xs generalizing i j with
  | nil => simp at hi
  | cons z zs ih =>
    have hrest : ∀ {k w}, zs[k]? = some w → p w = true → 0 < zs.countP p := fun hk hw =>
      List.countP_pos_iff.2 ⟨_, List.mem_of_getElem? hk, hw⟩
    cases i with
    | zero =>
      cases j with
      | zero => rfl
      | succ j =>
        have hz : p z = true := by simp_all
        have := hrest (by simpa using hj) hy
        rw [List.countP_cons_of_pos hz] at h
        omega
    | succ i =>
      cases j with
      | zero =>
        have hz : p z = true := by simp_all
        have := hrest (by simpa using hi) hx
        rw [List.countP_cons_of_pos hz] at h
        omega
      | succ j =>
        have hle : zs.countP p ≤ 1 := Nat.le_trans (List.sublist_cons_self z zs).countP_le h
        have heq : i = j := ih hle (by simpa using hi) (by simpa using hj)
        rw [heq]

theorem PaidAt.unique {l : Ledger} {id : ProposalId} {b c : Nat} (h : executed l id ≤ 1)
    (hb : PaidAt l id b) (hc : PaidAt l id c) : b = c := by
  obtain ⟨x, hx, hpx⟩ := hb
  obtain ⟨y, hy, hpy⟩ := hc
  exact index_unique h hx hpx hy hpy

/-! ### The account and the ledger -/

/-- How the account of a proposal and the ledger stand to each other. -/
inductive Sound (l : Ledger) (id : ProposalId) (a : Account) : Prop where
  | absent (hr : a.record = none) (hb : a.debits = a.credits) (hx : executed l id = 0)
      (ho : ∀ t, ¬ Owes l t id) (ht : ∀ x, a.tombstone = some x → x.decision = .notExecuted) :
      Sound l id a
  | validating (r : TreasuryDisbursement) (hr : a.record = some r) (hk : r.proposalId = id)
      (hs : r.status = .pendingValidation) (hb : a.debits = a.credits) (hx : executed l id = 0)
      (ho : ∀ t, ¬ Owes l t id) (ht : a.tombstone = none) : Sound l id a
  | debited (r : TreasuryDisbursement) (hr : a.record = some r) (hk : r.proposalId = id)
      (hs : r.status.Debited) (hb : a.debits = a.credits + 1) (hx : executed l id ≤ 1)
      (ho : ∀ t, Owes l t id → executed l id = 0 ∧ ∀ t', Owes l t' id → t' = t)
      (ht : a.tombstone = none) : Sound l id a
  | done (r : TreasuryDisbursement) (b : Nat) (hr : a.record = some r) (hk : r.proposalId = id)
      (hs : r.status = .executed b) (hb : a.debits = a.credits + 1) (hx : executed l id = 1)
      (hp : PaidAt l id b) (ho : ∀ t, ¬ Owes l t id)
      (ht : ∀ x, a.tombstone = some x → x.decision = .executed) : Sound l id a

namespace Sound
variable {l : Ledger} {id : ProposalId} {a : Account}

theorem executed_le (h : Sound l id a) : executed l id ≤ 1 := by
  cases h <;> omega

theorem key (h : Sound l id a) {r : TreasuryDisbursement} (hr : a.record = some r) :
    r.proposalId = id := by
  cases h with
  | absent h => rw [h] at hr; cases hr
  | validating r' h hk => rw [h] at hr; cases hr; exact hk
  | debited r' h hk => rw [h] at hr; cases hr; exact hk
  | done r' b h hk => rw [h] at hr; cases hr; exact hk

/-- Without a record nothing was paid and nothing is owed. -/
theorem of_absent (h : Sound l id a) (hr : a.record = none) :
    a.debits = a.credits ∧ executed l id = 0 ∧ ∀ t, ¬ Owes l t id := by
  cases h with
  | absent _ hb hx ho => exact ⟨hb, hx, ho⟩
  | validating r h => rw [hr] at h; cases h
  | debited r h => rw [hr] at h; cases h
  | done r b h => rw [hr] at h; cases h

theorem of_validating (h : Sound l id a) {r : TreasuryDisbursement} (hr : a.record = some r)
    (hs : r.status = .pendingValidation) :
    a.debits = a.credits ∧ executed l id = 0 ∧ (∀ t, ¬ Owes l t id) ∧ a.tombstone = none := by
  cases h with
  | absent h => rw [hr] at h; cases h
  | validating _ _ _ _ hb hx ho ht => exact ⟨hb, hx, ho, ht⟩
  | debited r' h _ hs' =>
    rw [hr] at h; cases h
    rcases hs' with hs' | hs' <;> rw [hs] at hs' <;> cases hs'
  | done r' b h _ hs' => rw [hr] at h; cases h; rw [hs] at hs'; cases hs'

theorem of_debited (h : Sound l id a) {r : TreasuryDisbursement} (hr : a.record = some r)
    (hs : r.status.Debited) :
    a.debits = a.credits + 1 ∧ (∀ t, Owes l t id → executed l id = 0 ∧ ∀ t', Owes l t' id → t' = t) ∧
      a.tombstone = none := by
  cases h with
  | absent h => rw [hr] at h; cases h
  | validating r' h _ hs' =>
    rw [hr] at h; cases h
    rcases hs with hs | hs <;> rw [hs] at hs' <;> cases hs'
  | debited _ _ _ _ hb _ ho ht => exact ⟨hb, ho, ht⟩
  | done r' b h _ hs' =>
    rw [hr] at h; cases h
    rcases hs with hs | hs <;> rw [hs] at hs' <;> cases hs'

/-- A tombstone stands over a finished record or none. -/
theorem of_tombstone (h : Sound l id a) (ht : a.tombstone ≠ none) :
    a.record = none ∨ ∃ r b, a.record = some r ∧ r.status = .executed b ∧ PaidAt l id b := by
  cases h with
  | absent h => exact .inl h
  | validating _ _ _ _ _ _ _ h => exact absurd h ht
  | debited _ _ _ _ _ _ _ h => exact absurd h ht
  | done r b hr _ hs _ _ hp => exact .inr ⟨r, b, hr, hs, hp⟩

/-- A transfer still to be carried out has a debited record and was not carried out before. -/
theorem of_owes (h : Sound l id a) {t : Nat} (ho : Owes l t id) :
    executed l id = 0 ∧ (∀ t', Owes l t' id → t' = t) ∧
      ∃ r, a.record = some r ∧ r.proposalId = id ∧ r.status.Debited ∧
        a.debits = a.credits + 1 ∧ a.tombstone = none := by
  cases h with
  | absent _ _ _ h => exact absurd ho (h t)
  | validating _ _ _ _ _ _ h => exact absurd ho (h t)
  | debited r hr hk hs hb _ h ht => exact ⟨(h t ho).1, (h t ho).2, r, hr, hk, hs, hb, ht⟩
  | done _ _ _ _ _ _ _ _ h => exact absurd ho (h t)

/-- Soundness is about what was carried out, what is owed, and the blocks that pay. -/
theorem congr {l' : Ledger} (hx : executed l' id = executed l id)
    (ho : ∀ t, Owes l' t id ↔ Owes l t id) (hp : ∀ b, PaidAt l id b → PaidAt l' id b)
    (h : Sound l id a) : Sound l' id a := by
  cases h with
  | absent hr hb h0 hno ht =>
    exact .absent hr hb (hx.trans h0) (fun t h => hno t ((ho t).1 h)) ht
  | validating r hr hk hs hb h0 hno ht =>
    exact .validating r hr hk hs hb (hx.trans h0) (fun t h => hno t ((ho t).1 h)) ht
  | debited r hr hk hs hb h1 hone ht =>
    refine .debited r hr hk hs hb (by omega) (fun t h => ?_) ht
    obtain ⟨h0, hu⟩ := hone t ((ho t).1 h)
    exact ⟨hx.trans h0, fun t' h' => hu t' ((ho t').1 h')⟩
  | done r b hr hk hs hb h1 hpay hno ht =>
    exact .done r b hr hk hs hb (hx.trans h1) (hp b hpay) (fun t h => hno t ((ho t).1 h)) ht

end Sound

/-! ### Suspended calls -/

/-- A suspended transfer: its claim is the last under its id; its record waits for the
answer unless a tombstone stands; and what the ledger has for it is about its proposal. -/
structure TransferSound (a : Account) (l : Ledger) (t : Nat) (f : DisburseFrame) : Prop where
  claim : f.claim = a.claims
  live : a.tombstone = none → ∃ r, a.record = some r ∧ r.status = .pendingTransfer
  asked : ∀ q, l.inFlight t = some q → Asks f.args.proposalId q
  settled : ∀ inner b, l.replies t = some (.transfer inner) → settledBlock inner = some b →
    PaidAt l f.args.proposalId b
  refused : ∀ inner, a.tombstone = none → l.replies t = some (.transfer inner) →
    settledBlock inner = none →
      executed l f.args.proposalId = 0 ∧ ∀ t', ¬ Owes l t' f.args.proposalId

/-- A call suspended in validation made its claim no later than the last, and if it is
the last, the record is under validation. -/
structure ValidationSound (a : Account) (f : DisburseFrame) : Prop where
  claim : f.claim ≤ a.claims
  live : f.claim = a.claims → ∀ r, a.record = some r → r.status = .pendingValidation

/-- A suspended call and the account of its proposal. -/
def TaskSound (a : Account) (l : Ledger) (t : Nat) : DisburseCont → Prop
  | .ledgerFee f => ValidationSound a f
  | .poolBalance f => ValidationSound a f
  | .transfer f => TransferSound a l t f

namespace TaskSound
variable {a : Account} {l : Ledger} {t : Nat} {k : DisburseCont}

theorem claim_le (h : TaskSound a l t k) : k.frame.claim ≤ a.claims := by
  cases k with
  | ledgerFee f => exact h.claim
  | poolBalance f => exact h.claim
  | transfer f => exact Nat.le_of_eq h.claim

/-- A call that does not hold the last claim is not concerned by its account. -/
theorem of_other {a' : Account} (h : TaskSound a l t k) (hne : k.frame.claim ≠ a.claims)
    (hc : a'.claims = a.claims) : TaskSound a' l t k := by
  cases k with
  | ledgerFee f => exact ⟨hc ▸ h.claim, fun hf => absurd (hf.trans hc) hne⟩
  | poolBalance f => exact ⟨hc ▸ h.claim, fun hf => absurd (hf.trans hc) hne⟩
  | transfer f => exact absurd h.claim hne

theorem congr {l' : Ledger} (hx : executed l' k.id = executed l k.id)
    (ho : ∀ t', Owes l' t' k.id → Owes l t' k.id) (hp : ∀ b, PaidAt l k.id b → PaidAt l' k.id b)
    (hq : l'.inFlight t = l.inFlight t) (hr : l'.replies t = l.replies t)
    (h : TaskSound a l t k) : TaskSound a l' t k := by
  cases k with
  | ledgerFee f => exact h
  | poolBalance f => exact h
  | transfer f =>
    refine ⟨h.claim, h.live, fun q hq' => h.asked q (hq ▸ hq'), fun inner b hi hb => ?_,
      fun inner ht hi hb => ?_⟩
    · exact hp b (h.settled inner b (hr ▸ hi) hb)
    · obtain ⟨h0, hno⟩ := h.refused inner ht (hr ▸ hi) hb
      exact ⟨hx.trans h0, fun t' h' => hno t' (ho t' h')⟩

end TaskSound

/-- The invariant. -/
structure WorldSound (w : TreasuryWorld) : Prop where
  accounts : ∀ id, Sound w.env id (w.state.account id)
  tasks : ∀ t k, w.tasks t = some k → TaskSound (w.state.account k.id) w.env t k
  unique : ∀ t t' k k', w.tasks t = some k → w.tasks t' = some k' → k.id = k'.id →
    k.frame.claim = k'.frame.claim → t = t'
  fresh : ∀ t, w.next ≤ t →
    w.tasks t = none ∧ w.env.inFlight t = none ∧ w.env.replies t = none

namespace WorldSound
variable {w : TreasuryWorld}

/-- The ledger of a sound world has nothing under a call number that is not yet used. -/
theorem unused (h : WorldSound w) : w.env.inFlight w.next = none ∧ w.env.replies w.next = none :=
  (h.fresh w.next Nat.le.refl).2

theorem lt_next (h : WorldSound w) {t : Nat} {k : DisburseCont} (hk : w.tasks t = some k) :
    t < w.next := by
  rcases Nat.lt_or_ge t w.next with hlt | hge
  · exact hlt
  · rw [(h.fresh t hge).1] at hk
    cases hk

/-- Only one suspended call of a proposal holds the claim of a suspended transfer. -/
theorem transfer_alone (h : WorldSound w) {t t' : Nat} {f : DisburseFrame} {k : DisburseCont}
    (ht : w.tasks t = some (.transfer f)) (hk : w.tasks t' = some k)
    (hid : k.id = f.args.proposalId)
    (hc : k.frame.claim = (w.state.account f.args.proposalId).claims) : t' = t := by
  have hclaim := (h.tasks t _ ht).claim
  exact h.unique t' t _ _ hk ht hid (hc.trans hclaim.symm)

/-- No transfer is suspended under a proposal without tombstone and without a record
waiting for one. -/
theorem no_transfer (h : WorldSound w) {id : ProposalId}
    (ht : (w.state.account id).tombstone = none)
    (hr : ∀ r, (w.state.account id).record = some r → r.status ≠ .pendingTransfer) {t : Nat}
    {f : DisburseFrame} (hid : f.args.proposalId = id) : w.tasks t ≠ some (.transfer f) := by
  intro hk
  subst hid
  obtain ⟨r, hrec, hs⟩ := (h.tasks t _ hk).live ht
  exact hr r hrec hs

end WorldSound

end StshProtocol.ShieldedPool.Treasury
