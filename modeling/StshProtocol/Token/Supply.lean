import StshProtocol.Token.Genesis
import StshProtocol.Token.Traps

/-! The supply is conserved, and staked tokens cannot be moved.

Both follow from one invariant of the vault, `Vault.Holds 0`: genesis establishes it by
crediting the whole supply, and each payment, fee and lock that the endpoints' checks
let through keeps it (`does_holds`). -/
namespace StshProtocol.Token
open Foundation ShieldedPool Handler

/-! ### The invariant over runs -/

theorem Vault.Holds.lock_covered {v : Vault} {owed amount : Nat} {key : Bytes} (h : v.Holds owed)
    (hle : amount ≤ v.liquid key) : v.locks.get key + amount ≤ v.balances.get key := by
  have hcov := h.covered key
  unfold Vault.liquid at hle
  omega

/-- What a message does keeps the supply and the staking bound. -/
theorem does_holds {cap : Nat} {E : Env} {m : Message} {s t : TokenState} {a : Answer}
    (h : s.vault.Holds 0) (hdoes : Does cap E m s a t) : t.vault.Holds 0 := by
  cases hdoes with
  | nothing => exact h
  | transfer call ht =>
    obtain ⟨v, hv, rfl⟩ := ht.left
    obtain ⟨v', hv', hh⟩ := h.pay ht.liquid _ (feeRecipient s)
    rw [hv] at hv'
    exact Option.some.inj hv' ▸ hh
  | approve call ha =>
    obtain ⟨v, hv, rfl⟩ := ha.left
    obtain ⟨v', hv', hh⟩ := h.charge ha.liquid (feeRecipient s)
    rw [hv] at hv'
    exact Option.some.inj hv' ▸ hh
  | transferFrom call ht =>
    obtain ⟨v, hv, rfl⟩ := ht.left
    obtain ⟨v', hv', hh⟩ := h.pay ht.liquid _ (feeRecipient s)
    rw [hv] at hv'
    exact Option.some.inj hv' ▸ hh
  | lock call hle hw =>
    obtain ⟨v', hv', hh⟩ := h.relock (h.lock_covered hle)
    rw [hw] at hv'
    exact Option.some.inj hv' ▸ hh
  | unlock call hle hw =>
    obtain ⟨v', hv', hh⟩ := h.relock (Nat.le_trans (Nat.sub_le _ _) (h.covered _))
    rw [hw] at hv'
    exact Option.some.inj hv' ▸ hh
  | close call hk hc => cases hc <;> exact h
  | pruneAllowances => exact h
  | pruneDedup => exact h
  | upgrade => exact h

/-- A vault that holds the supply is never stuck. -/
theorem Vault.Holds.not_stuck {v : Vault} {fee : Nat} (h : v.Holds 0) : ¬ Stuck fee v := by
  intro hstuck
  cases hstuck with
  | pay hle hn =>
    obtain ⟨v', hv', -⟩ := h.pay hle _ _
    nomatch hn.symm.trans hv'
  | charge hle hn =>
    obtain ⟨v', hv', -⟩ := h.charge hle _
    nomatch hn.symm.trans hv'
  | lock hle hn =>
    obtain ⟨v', hv', -⟩ := h.relock (h.lock_covered hle)
    nomatch hn.symm.trans hv'
  | unlock hle hn =>
    obtain ⟨v', hv', -⟩ := h.relock (Nat.le_trans (Nat.sub_le _ _) (h.covered _))
    nomatch hn.symm.trans hv'

section Histories
variable {E : Env} {fee : Nat} {args : InitArgs} {log : List Entry} {s : TokenState}

theorem History.holds (history : History E fee args log s) : s.vault.Holds 0 :=
  history.invariant (fun _ h => by obtain ⟨v, rfl, hh⟩ := init_ok h; exact hh) fun _ _ _ _ _ h hdoes => does_holds h hdoes

/-- No message of a history stops at the write funnel. -/
theorem History.not_stuck (history : History E fee args log s) {e : Entry} (he : e ∈ log) :
    e.answer ≠ .trapped .runningTotal := by
  obtain ⟨newer, older, hlog⟩ := List.append_of_mem he
  obtain ⟨hbefore, -, hstep⟩ := history.entry hlog
  intro htrap
  have hanswer : (Token.step E e.message e.before).1 = .trapped .runningTotal := by rw [hstep, htrap]
  exact hbefore.holds.not_stuck (step_stuck hanswer)

end Histories

/-! ### The reports -/

theorem Vault.Holds.verified {s : TokenState} (h : s.vault.Holds 0) (now : Nat) :
    (verifySupplyInvariant now s).invariantHolds = true := by
  have hsupply := h.supply
  have hcap := Vault.totalSupply_le
  show (checkedAdd128 s.vault.balances.sum s.vault.feeReserve == some totalSupply) = true
  rw [checkedAdd128, if_pos (by omega), beq_iff_eq]
  congr 1

theorem LedgerMap.Sound.folded {m : LedgerMap} (h : m.Sound) (hle : m.sum ≤ u128Max) :
    checkedSum m.values = some m.sum := by
  have hvalues : m.values.sum = m.sum := h.sum.symm
  rw [checkedSum_of_le (by omega), hvalues]

theorem Vault.Holds.folded {v : Vault} (h : v.Holds 0) :
    (foldedReconciliation v).totalsConsistent = true ∧
      (foldedReconciliation v).foldedFirstLawHolds = true := by
  have hsupply := h.supply
  have hcap := Vault.totalSupply_le
  have hlocks := h.locks_le
  have hb := h.balances.folded (by omega)
  have hl := h.locks.folded (by omega)
  constructor
  · simp only [foldedReconciliation, hb, hl, beq_self_eq_true, Bool.and_self]
  · simp only [foldedReconciliation, hb, Option.bind_some]
    rw [checkedAdd128, if_pos (by omega), beq_iff_eq]
    congr 1

/-- What a history has kept of the supply: each total is the sum of its map, balances
and reserve are the supply, no row is zero, no write of the funnel failed or saturated,
and both reports say so. -/
structure SupplyConserved (E : Env) (log : List Entry) (s : TokenState) : Prop where
  balances : s.vault.balances.sum = StableMap.total s.vault.balances.rows
  locks : s.vault.locks.sum = StableMap.total s.vault.locks.rows
  supply : s.vault.balances.sum + s.vault.feeReserve = totalSupply
  nonzero : ∀ key : Bytes, s.vault.balances.rows[key]? ≠ some 0 ∧ s.vault.locks.rows[key]? ≠ some 0
  exact : s.vault.saturated = false
  funnel : ∀ e ∈ log, e.answer ≠ .trapped .runningTotal
  verified : ∀ now, (verifySupplyInvariant now s).invariantHolds = true
  reconciled : ∀ caller report, rowCount s.vault ≤ reconcileRowBudget →
    reconcileSupplyInvariant E caller s = .ok report →
    report.totalsConsistent = true ∧ report.foldedFirstLawHolds = true

theorem History.conserved {E : Env} {fee : Nat} {args : InitArgs} {log : List Entry} {s : TokenState}
    (history : History E fee args log s) : SupplyConserved E log s := by
  have h := history.holds
  refine ⟨h.balances.sum, h.locks.sum, h.supply, fun key => ⟨h.balances.nonzero key,
    h.locks.nonzero key⟩, h.exact, fun e he => history.not_stuck he, h.verified, ?_⟩
  intro caller report hbudget hreport
  unfold reconcileSupplyInvariant at hreport
  split at hreport
  · nomatch hreport
  · rw [if_neg (Nat.not_lt.2 hbudget)] at hreport
    obtain rfl := Except.ok.inj hreport
    exact h.folded

/-- An accepted genesis succeeds, and every history from it conserves the supply, whatever
the fee, its recipient and the messages. -/
theorem supply_conserved (E : Env) (fee : Nat) (args : InitArgs)
    (hvalid : validateInitAllocations args.allocations = .ok ()) :
    (∃ s, (init args).exec (TokenState.fresh fee) = .ok (.ok (), s)) ∧
      ∀ log s, History E fee args log s → SupplyConserved E log s := by
  obtain ⟨v, hv, -⟩ := init_exec args fee hvalid
  exact ⟨⟨_, hv⟩, fun _ _ history => history.conserved⟩

theorem supply_conserved_sole :
    (∃ s, (init soleAllocation).exec (TokenState.fresh 3) = .ok (.ok (), s)) ∧
      ∀ log s, History plainEnv 3 soleAllocation log s → SupplyConserved plainEnv log s :=
  supply_conserved plainEnv 3 soleAllocation (by decide)

/-! ### Staked tokens -/

/-- The calls that move tokens or charge a fee. -/
def Call.debits : Call → Bool
  | .icrc1Transfer _ => true
  | .icrc2Approve _ => true
  | .icrc2TransferFrom _ => true
  | _ => false

/-- A call that debits leaves every lock as it was. -/
theorem does_locks {cap : Nat} {E : Env} {m : Message} {s t : TokenState} {a : Answer}
    (h : Does cap E m s a t) (hm : m.call.debits = true) : t.vault.locks = s.vault.locks := by
  cases h with
  | nothing => rfl
  | transfer call ht =>
    obtain ⟨v, hv, rfl⟩ := ht.left
    exact Vault.pay_locks hv
  | approve call ha =>
    obtain ⟨v, hv, rfl⟩ := ha.left
    exact Vault.charge_locks hv
  | transferFrom call ht =>
    obtain ⟨v, hv, rfl⟩ := ht.left
    exact Vault.pay_locks hv
  | lock call => rw [call] at hm; nomatch hm
  | unlock call => rw [call] at hm; nomatch hm
  | close call hk hc => rw [call] at hm; nomatch hm
  | pruneAllowances => rfl
  | pruneDedup => rfl
  | upgrade => rfl

/-- In every state reached each lock is covered by its balance, and no transfer and no
approval, charged any fee, changes a lock or brings a balance below it. -/
theorem staked_tokens_stay {E : Env} {fee : Nat} {args : InitArgs} {log : List Entry}
    {s : TokenState} (history : History E fee args log s) :
    (∀ key, s.vault.locks.get key ≤ s.vault.balances.get key) ∧
      ∀ m : Message, m.call.debits = true → ∀ key,
        (step E m s).2.vault.locks.get key = s.vault.locks.get key ∧
          s.vault.locks.get key ≤ (step E m s).2.vault.balances.get key := by
  refine ⟨history.holds.covered, fun m hm key => ?_⟩
  have hdoes := does_step E m s
  have hlocks := does_locks hdoes hm
  refine ⟨congrArg (LedgerMap.get · key) hlocks, ?_⟩
  rw [← hlocks]
  exact (does_holds history.holds hdoes).covered key

/-- A holder of the whole supply who stakes all of it. -/
theorem staked_tokens_stay_sole : ∃ s : TokenState,
    (init soleAllocation).exec (TokenState.fresh 3) = .ok (.ok (), s) ∧
      let t := (step plainEnv ⟨0, 8, .lockForStaking 7 totalSupply⟩ s).2
      (∀ key, t.vault.locks.get key ≤ t.vault.balances.get key) ∧
        ∀ m : Message, m.call.debits = true → ∀ key,
          (step plainEnv m t).2.vault.locks.get key = t.vault.locks.get key ∧
            t.vault.locks.get key ≤ (step plainEnv m t).2.vault.balances.get key := by
  obtain ⟨v, hs, -⟩ := init_exec soleAllocation 3 (by decide)
  exact ⟨_, hs, staked_tokens_stay (.step (.genesis hs) (Nat.zero_le _))⟩

end StshProtocol.Token
