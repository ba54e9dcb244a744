import StshProtocol.ShieldedPool.Treasury.Balance

/-! The invariant through the moves of the ledger and the bookkeeping of suspended
calls: carrying out a call, rewriting one account, suspending a call. -/
namespace StshProtocol.ShieldedPool.Treasury
open Foundation

/-! ### The ledger moves -/

section Ledger
variable {l : Ledger} {id : ProposalId}

theorem executed_append (id : ProposalId) (l : Ledger) (b : Block) :
    (l.blocks ++ [b]).countP (pays id) = executed l id + if pays id b then 1 else 0 := by
  simp [executed, List.countP_append, List.countP_singleton]

theorem PaidAt.append {l' : Ledger} {b : Nat} {block : Block} (h : PaidAt l id b)
    (hl : l'.blocks = l.blocks ++ [block]) : PaidAt l' id b := by
  obtain ⟨x, hx, hp⟩ := h
  refine ⟨x, ?_, hp⟩
  have hlt : b < l.blocks.length := (List.getElem?_eq_some_iff.1 hx).1
  rw [hl, List.getElem?_append_left hlt, hx]

/-- A call that is taken up is owed from then on; what was owed stays so. -/
theorem owes_accept {n t : Nat} {q : LedgerCall} (hfree : l.inFlight n = none) :
    Owes {l with inFlight := Function.update l.inFlight n (some q)} t id ↔
      Owes l t id ∨ (t = n ∧ Asks id q) := by
  by_cases ht : t = n
  · subst ht
    simp [Owes, hfree]
  · simp [Owes, ht]

/-- A call that was carried out is no longer owed. -/
theorem owes_execute {n t : Nat} {bs : List Block} {r : LedgerReply} :
    Owes (l.carryOut n bs r) t id ↔ Owes l t id ∧ t ≠ n := by
  by_cases ht : t = n
  · subst ht
    simp [Owes, Ledger.carryOut]
  · simp [Owes, Ledger.carryOut, ht]

end Ledger

/-- What carrying out a call leaves of the blocks: a transfer of its own, or nothing new. -/
theorem executes_blocks {bs bs' : List Block} {q : LedgerCall} {r : LedgerReply}
    (h : Ledger.Executes (fun _ _ => True) bs q bs' r) :
    (bs' = bs ∧ ∀ inner b, r = .transfer inner → settledBlock inner = some b →
        ∃ a, q = .icrc1Transfer a ∧ bs[b]? = some (.own a)) ∨
      ∃ a, q = .icrc1Transfer a ∧ bs' = bs ++ [.own a] ∧ r = .transfer (.ok bs.length) := by
  cases h with
  | fee n => exact .inl ⟨rfl, fun _ _ h => by cases h⟩
  | balance a n => exact .inl ⟨rfl, fun _ _ h => by cases h⟩
  | transferred _ => exact .inr ⟨_, rfl, rfl, rfl⟩
  | duplicate hb =>
    refine .inl ⟨rfl, fun inner b h hs => ?_⟩
    cases h
    cases hs
    exact ⟨_, rfl, hb⟩
  | refused hn =>
    refine .inl ⟨rfl, fun inner b h hs => ?_⟩
    cases h
    rw [hn] at hs
    cases hs

namespace WorldSound
variable {w : TreasuryWorld}

/-- Somebody else's block changes nothing for a proposal. -/
theorem foreign (h : WorldSound w) :
    WorldSound {w with env := {w.env with blocks := w.env.blocks ++ [.foreign]}} := by
  have hx : ∀ id, executed {w.env with blocks := w.env.blocks ++ [.foreign]} id =
      executed w.env id := fun id => executed_append id w.env .foreign
  have hp : ∀ id b, PaidAt w.env id b →
      PaidAt {w.env with blocks := w.env.blocks ++ [.foreign]} id b := fun id b hb => hb.append rfl
  refine ⟨fun id => (h.accounts id).congr (hx id) (fun t => Iff.rfl) (hp id), fun t k hk => ?_,
    h.unique, h.fresh⟩
  exact (h.tasks t k hk).congr (hx _) (fun t' ho => ho) (hp _) rfl rfl

section Execute
variable {t : Nat} {q : LedgerCall} {bs : List Block} {r : LedgerReply}

/-- Carrying out a call keeps the accounts sound. -/
theorem execute_accounts (h : WorldSound w) (hq : w.env.inFlight t = some q)
    (he : Ledger.Executes (fun _ _ => True) w.env.blocks q bs r) (id : ProposalId) :
    Sound (w.env.carryOut t bs r) id (w.state.account id) := by
  have hs := h.accounts id
  by_cases hask : Asks id q
  · obtain ⟨h0, hu, d, hd, hk, hst, hb, ht⟩ := hs.of_owes ⟨q, hq, hask⟩
    refine .debited d hd hk hst hb ?_ (fun t' ho' => ?_) ht
    · rcases executes_blocks he with ⟨rfl, _⟩ | ⟨a, rfl, rfl, _⟩
      · have : executed (w.env.carryOut t w.env.blocks r) id = executed w.env id := rfl
        omega
      · have := executed_append id w.env (.own a)
        rw [pays_iff.2 hask, h0] at this
        exact Nat.le_of_eq this
    · obtain ⟨ho, hne⟩ := owes_execute.1 ho'
      exact absurd (hu t' ho) hne
  · refine hs.congr ?_ (fun t' => owes_execute.trans ⟨fun ho => ho.1, fun ho => ⟨ho, ?_⟩⟩) ?_
    · rcases executes_blocks he with ⟨rfl, _⟩ | ⟨a, rfl, rfl, _⟩
      · rfl
      · have hno : pays id (.own a) = false := Bool.eq_false_iff.2 fun hp => hask (pays_iff.1 hp)
        have := executed_append id w.env (.own a)
        rw [hno] at this
        exact this
    · rintro rfl
      obtain ⟨q', hq', ha⟩ := ho
      rw [hq] at hq'
      cases hq'
      exact hask ha
    · rcases executes_blocks he with ⟨rfl, _⟩ | ⟨a, rfl, rfl, _⟩
      · exact fun b hb => hb
      · exact fun b hb => hb.append rfl

/-- Carrying out a call keeps a suspended transfer sound. -/
theorem execute_transfer (h : WorldSound w) (hq : w.env.inFlight t = some q)
    (he : Ledger.Executes (fun _ _ => True) w.env.blocks q bs r) {u : Nat} {f : DisburseFrame}
    (hf : TransferSound (w.state.account f.args.proposalId) w.env u f) :
    TransferSound (w.state.account f.args.proposalId) (w.env.carryOut t bs r) u f := by
  have hpaid : ∀ b, PaidAt w.env f.args.proposalId b →
      PaidAt (w.env.carryOut t bs r) f.args.proposalId b := by
    rcases executes_blocks he with ⟨rfl, _⟩ | ⟨a, rfl, rfl, _⟩
    · exact fun b hb => hb
    · exact fun b hb => hb.append rfl
  have hown : u = t → Asks f.args.proposalId q := by
    rintro rfl
    exact hf.asked q hq
  refine ⟨hf.claim, hf.live, fun q' hq' => ?_, fun inner b hi hb => ?_, fun inner ht hi hb => ?_⟩
  · by_cases hu : u = t
    · subst hu
      simp [Ledger.carryOut] at hq'
    · exact hf.asked q' (by simpa [Ledger.carryOut, hu] using hq')
  · by_cases hu : u = t
    · subst hu
      have hr : r = .transfer inner := by simpa [Ledger.carryOut] using hi
      rcases executes_blocks he with ⟨rfl, hold⟩ | ⟨a, rfl, rfl, hnew⟩
      · obtain ⟨a, rfl, hblock⟩ := hold inner b hr hb
        exact ⟨_, hblock, pays_iff.2 (hown rfl)⟩
      · rw [hr] at hnew
        cases hnew
        cases hb
        exact ⟨.own a, by simp [Ledger.carryOut], pays_iff.2 (hown rfl)⟩
    · exact hpaid b (hf.settled inner b (by simpa [Ledger.carryOut, hu] using hi) hb)
  · have hsound := h.execute_accounts hq he f.args.proposalId
    by_cases hask : Asks f.args.proposalId q
    · have howes : Owes w.env t f.args.proposalId := ⟨q, hq, hask⟩
      obtain ⟨h0, hu, _⟩ := (h.accounts _).of_owes howes
      by_cases hut : u = t
      · subst hut
        have hr : r = .transfer inner := by simpa [Ledger.carryOut] using hi
        refine ⟨?_, fun t' ho => ?_⟩
        · rcases executes_blocks he with ⟨rfl, _⟩ | ⟨a, rfl, rfl, hnew⟩
          · exact h0
          · rw [hr] at hnew
            cases hnew
            cases hb
        · obtain ⟨ho, hne⟩ := owes_execute.1 ho
          exact hne (hu t' ho)
      · have hold := hf.refused inner ht (by simpa [Ledger.carryOut, hut] using hi) hb
        exact absurd howes (hold.2 t)
    · have hut : u ≠ t := fun hu => hask (hown hu)
      obtain ⟨h0, hno⟩ := hf.refused inner ht (by simpa [Ledger.carryOut, hut] using hi) hb
      refine ⟨?_, fun t' ho => hno t' (owes_execute.1 ho).1⟩
      rcases executes_blocks he with ⟨rfl, _⟩ | ⟨a, rfl, rfl, _⟩
      · exact h0
      · have hpays : pays f.args.proposalId (.own a) = false :=
          Bool.eq_false_iff.2 fun hp => hask (pays_iff.1 hp)
        have := executed_append f.args.proposalId w.env (.own a)
        rw [hpays, h0] at this
        exact this

theorem execute (h : WorldSound w) (hq : w.env.inFlight t = some q)
    (he : Ledger.Executes (fun _ _ => True) w.env.blocks q bs r) :
    WorldSound {w with env := w.env.carryOut t bs r} := by
  refine ⟨h.execute_accounts hq he, fun u k hk => ?_, h.unique, fun n hn => ?_⟩
  · have hold := h.tasks u k hk
    cases k with
    | ledgerFee f => exact hold
    | poolBalance f => exact hold
    | transfer f => exact h.execute_transfer hq he hold
  · obtain ⟨htask, hfree, hreply⟩ := h.fresh n hn
    have hne : n ≠ t := by
      rintro rfl
      rw [hfree] at hq
      cases hq
    exact ⟨htask, by simpa [Ledger.carryOut, hne] using hfree,
      by simpa [Ledger.carryOut, hne] using hreply⟩

end Execute

theorem elsewhere (h : WorldSound w) {l : Ledger} (hm : ledgerService.move w.env l) :
    WorldSound {w with env := l} := by
  cases hm with
  | execute hq he => exact h.execute hq he
  | foreign => exact h.foreign

/-! ### Rewriting an account, suspending a call -/

/-- A message that ends rewrites one account and may take its own call off the list. -/
theorem rebook (h : WorldSound w) {id : ProposalId} {a : Account} {s : TreasuryBook}
    {tasks : Nat → Option DisburseCont} (hs : s.account = Function.update w.state.account id a)
    (hsub : ∀ t k, tasks t = some k → w.tasks t = some k) (ha : Sound w.env id a)
    (hk : ∀ t k, tasks t = some k → k.id = id → TaskSound a w.env t k) :
    WorldSound {w with state := s, tasks := tasks} := by
  refine ⟨fun j => ?_, fun t k ht => ?_, fun t t' k k' ht ht' =>
    h.unique t t' k k' (hsub t k ht) (hsub t' k' ht'), fun t ht => ?_⟩
  · show Sound w.env j (s.account j)
    by_cases hj : j = id
    · subst hj
      rw [hs, Function.update_self]
      exact ha
    · rw [hs, Function.update_of_ne hj]
      exact h.accounts j
  · show TaskSound (s.account k.id) w.env t k
    by_cases hid : k.id = id
    · rw [hs, hid, Function.update_self]
      exact hk t k ht hid
    · rw [hs, Function.update_of_ne hid]
      exact h.tasks t k (hsub t k ht)
  · obtain ⟨h1, h2⟩ := h.fresh t ht
    refine ⟨?_, h2⟩
    show tasks t = none
    cases hc : tasks t with
    | none => rfl
    | some k => rw [hsub t k hc] at h1; cases h1

/-- A call under a new number. A transfer among them is the first of its proposal, whose
record is debited. -/
theorem suspend (h : WorldSound w) {k : DisburseCont} {q : LedgerCall}
    (hnew : TaskSound (w.state.account k.id)
      {w.env with inFlight := Function.update w.env.inFlight w.next (some q)} w.next k)
    (hclaim : ∀ t k', w.tasks t = some k' → k'.id = k.id → k'.frame.claim ≠ k.frame.claim)
    (hask : ∀ id, Asks id q → executed w.env id = 0 ∧ (∀ t, ¬ Owes w.env t id) ∧
      (∃ r, (w.state.account id).record = some r ∧ r.status.Debited) ∧
      ∀ t f, w.tasks t = some (.transfer f) → f.args.proposalId ≠ id) :
    WorldSound (w.suspend w.state k
      {w.env with inFlight := Function.update w.env.inFlight w.next (some q)}) := by
  obtain ⟨hfree, hnone⟩ := h.unused
  have howes : ∀ t id, Owes
      {w.env with inFlight := Function.update w.env.inFlight w.next (some q)} t id ↔
        Owes w.env t id ∨ (t = w.next ∧ Asks id q) := fun t id => owes_accept hfree
  have htasks : ∀ t k', Function.update w.tasks w.next (some k) t = some k' →
      (t = w.next ∧ k' = k) ∨ (t < w.next ∧ w.tasks t = some k') := by
    intro t k' ht
    by_cases hn : t = w.next
    · subst hn
      exact .inl ⟨rfl, by simpa using ht.symm⟩
    · rw [Function.update_of_ne hn] at ht
      exact .inr ⟨h.lt_next ht, ht⟩
  refine ⟨fun id => ?_, fun t k' ht => ?_, fun t t' k₁ k₂ ht ht' hid hc => ?_, fun t ht => ?_⟩
  · by_cases ha : Asks id q
    · obtain ⟨h0, hno, ⟨r, hr, hd⟩, _⟩ := hask id ha
      obtain ⟨hb, _, htomb⟩ := (h.accounts id).of_debited hr hd
      refine .debited r hr ((h.accounts id).key hr) hd hb ?_ (fun t ho => ⟨h0, fun t' ho' => ?_⟩) htomb
      · exact (h.accounts id).executed_le
      · rcases (howes t id).1 ho with ho | ⟨rfl, _⟩
        · exact absurd ho (hno t)
        rcases (howes t' id).1 ho' with ho' | ⟨rfl, _⟩
        · exact absurd ho' (hno t')
        · rfl
    · refine Sound.congr (l := w.env) rfl (fun t => ?_) (fun b hb => hb) (h.accounts id)
      exact (howes t id).trans ⟨fun ho => ho.resolve_right fun hq => ha hq.2, .inl⟩
  · rcases htasks t k' ht with ⟨rfl, rfl⟩ | ⟨hlt, hold⟩
    · exact hnew
    · have hne : t ≠ w.next := by omega
      by_cases ha : Asks k'.id q
      · cases k' with
        | ledgerFee f => exact h.tasks t _ hold
        | poolBalance f => exact h.tasks t _ hold
        | transfer f => exact absurd rfl ((hask _ ha).2.2.2 t f hold)
      · refine TaskSound.congr (l := w.env) rfl (fun t' ho => ?_) (fun b hb => hb) ?_ rfl
          (h.tasks t k' hold)
        · exact ((howes t' _).1 ho).resolve_right fun hq => ha hq.2
        · exact Function.update_of_ne hne _ _
  · rcases htasks t k₁ ht with ⟨rfl, rfl⟩ | ⟨_, hold⟩
    · rcases htasks t' k₂ ht' with ⟨rfl, _⟩ | ⟨_, hold'⟩
      · rfl
      · exact absurd hc.symm (hclaim t' k₂ hold' hid.symm)
    · rcases htasks t' k₂ ht' with ⟨rfl, rfl⟩ | ⟨_, hold'⟩
      · exact absurd hc (hclaim t k₁ hold hid)
      · exact h.unique t t' k₁ k₂ hold hold' hid hc
  · have hlt : w.next < t := ht
    obtain ⟨h1, h2, h3⟩ := h.fresh t (Nat.le_of_lt hlt)
    have hne : t ≠ w.next := by omega
    refine ⟨?_, ?_, h3⟩
    · exact (Function.update_of_ne hne _ _).trans h1
    · exact (Function.update_of_ne hne _ _).trans h2

end WorldSound

end StshProtocol.ShieldedPool.Treasury
