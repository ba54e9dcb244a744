import StshProtocol.Token.Reclamation
import StshProtocol.Token.Supply
import StshProtocol.Token.Receipts

/-! Who lowers a balance, and by how much.

A balance falls only by a transfer or an approval of its owner, or by a transfer of a spender, and what
spenders draw on an approval never adds up to more than the approval that stands
(`spent_within_approval`). So every fall of a balance was allowed by the owner of the account
(`debits_authorised`). -/
namespace StshProtocol.Token
open Foundation ShieldedPool

/-! ### What was granted and what was drawn -/

/-- What the last approval at `key` granted, and what transfers have drawn on it since, with their fees. -/
def grantedDrawn (fee : Nat) (key : Bytes) : List Entry → Nat × Nat
  | [] => (0, 0)
  | e :: older =>
    match e.message.call, e.answer with
    | .icrc2Approve args, .approve (.ok _) =>
      if approvalKey e.message.caller args = key then (args.amount, 0) else grantedDrawn fee key older
    | .icrc2TransferFrom args, .transferFrom (.ok _) =>
      if spendingKey e.message.caller args = key then
        ((grantedDrawn fee key older).1, (grantedDrawn fee key older).2 + (args.amount + fee))
      else grantedDrawn fee key older
    | _, _ => grantedDrawn fee key older

/-- The allowance that stands at `key`, expired or not. -/
def standing (b : Allowances) (key : Bytes) : Nat := (b.rows[key]?).elim 0 AllowanceRecord.amount

variable {b : Allowances} {key : Bytes} {now cap : Nat}

theorem standing_set {k : Bytes} {previous expiresAt : Option Nat} {amount : Nat} :
    standing (setAllowance k previous amount expiresAt b) key =
      if k = key then amount else standing b key := by
  rw [standing, get_set]
  split
  · split
    · next hzero => exact hzero.symm
    · rfl
  · rfl

theorem standing_prune : standing (pruneExpiredAllowances now cap b) key ≤ standing b key := by
  unfold standing
  cases hr : (pruneExpiredAllowances now cap b).rows[key]? with
  | none => exact Nat.zero_le _
  | some r =>
    rw [get_prune hr]

theorem effectiveAt_le : effectiveAt now b key ≤ standing b key := by
  unfold effectiveAt standing
  cases b.rows[key]? with
  | none => exact Nat.le_refl _
  | some r =>
    show effectiveAllowance r now ≤ r.amount
    unfold effectiveAllowance
    split <;> omega

section Runs
variable {E : Env} {fee : Nat} {args : InitArgs} {log : List Entry} {m : Message} {a : Answer}
  {s t : TokenState}

/-- A message keeps what was drawn and what stands within what was granted. -/
theorem does_within (h : Does cap E m s a t) (hfee : s.transferFee = fee)
    (hwithin : (grantedDrawn fee key log).2 + standing s.allowances key ≤ (grantedDrawn fee key log).1) :
    (grantedDrawn fee key (⟨m, s, a, t⟩ :: log)).2 + standing t.allowances key ≤
      (grantedDrawn fee key (⟨m, s, a, t⟩ :: log)).1 := by
  unfold grantedDrawn
  cases h with
  | nothing idle =>
    split
    · next ha =>
      rw [show a = _ from ha] at idle
      cases idle
    · next ha =>
      rw [show a = _ from ha] at idle
      cases idle
    · exact hwithin
  | approve call ha =>
    rename_i approval block e
    obtain ⟨v, -, rfl⟩ := ha.left
    simp only [call]
    refine Nat.le_trans (Nat.add_le_add_left standing_prune _) ?_
    rw [standing_set]
    split
    · exact Nat.le_of_eq (Nat.zero_add _)
    · exact hwithin
  | transferFrom call ht =>
    rename_i spend block ctx
    have hdraw := ht.spendable
    obtain ⟨v, -, rfl⟩ := ht.left
    simp only [call, standing_set, hfee]
    by_cases hk : spendingKey m.caller spend = key
    · rw [if_pos hk, if_pos hk, hk]
      rw [hk, hfee] at hdraw
      have hle : effectiveAt m.now s.allowances key ≤ standing s.allowances key := effectiveAt_le
      show _ + _ + (_ - _) ≤ _
      omega
    · rw [if_neg hk, if_neg hk]
      exact hwithin
  | transfer call ht =>
    obtain ⟨v, -, rfl⟩ := ht.left
    simp only [call]
    exact hwithin
  | close call hk hc =>
    simp only [call]
    cases hc <;> exact hwithin
  | pruneAllowances call =>
    simp only [call]
    exact Nat.le_trans (Nat.add_le_add_left standing_prune _) hwithin
  | lock call | unlock call | pruneDedup call | upgrade call => simpa only [call] using hwithin

/-- In every history, what has been drawn on an approval and what still stands of it are within what it
granted. -/
theorem History.within (history : History E fee args log s) :
    (grantedDrawn fee key log).2 + standing s.allowances key ≤ (grantedDrawn fee key log).1 := by
  induction history with
  | genesis h =>
    obtain ⟨v, rfl, -⟩ := init_ok h
    exact Nat.le_refl 0
  | step history hnow ih => exact does_within (does_step _ _ _) history.fee_fixed ih

end Runs

/-! ### What a message takes -/

namespace Vault
variable {v v' : Vault} {fromKey toKey : Bytes} {amount fee : Nat} {recipient : Option Principal}

/-- A fee is taken from nobody where it is credited whole. -/
theorem routeFee_get (h : v.routeFee recipient fee = some v') (hexact : v'.saturated = false) (key : Bytes) :
    v.balances.get key ≤ v'.balances.get key := by
  unfold Vault.routeFee at h
  split at h
  · cases h
    exact Nat.le_refl _
  · split at h
    · cases h
      exact Nat.le_refl _
    · obtain ⟨w, hw, rfl⟩ := Option.map_eq_some_iff.1 h
      obtain ⟨-, hfit⟩ := Bool.or_eq_false_iff.1 hexact
      have hfit := Nat.not_lt.1 (of_decide_eq_false hfit)
      show v.balances.get key ≤ w.balances.get key
      rw [writeBalance_get hw]
      split
      · next hk =>
        rw [← hk, satAdd128_eq hfit]
        exact Nat.le_add_right _ _
      · exact Nat.le_refl _

/-- A transfer takes its amount and its fee, from its source. -/
theorem pay_get (h : v.pay fromKey toKey amount fee recipient = some v') (hexact : v'.saturated = false)
    (key : Bytes) : v.balances.get key ≤ v'.balances.get key + if fromKey = key then amount + fee else 0 := by
  simp only [Vault.pay, Option.bind_eq_bind, Option.bind_eq_some_iff] at h
  obtain ⟨v₁, h₁, v₂, h₂, h₃⟩ := h
  have hfee := routeFee_get h₃ hexact key
  rw [writeBalance_get h₂, writeBalance_get h₁] at hfee
  -- Whoever is credited, the debit is only of the source.
  split <;> split at hfee <;> grind

/-- An approval takes its fee. -/
theorem charge_get {k : Bytes} (h : v.charge k fee recipient = some v') (hexact : v'.saturated = false)
    (key : Bytes) : v.balances.get key ≤ v'.balances.get key + if k = key then fee else 0 := by
  simp only [Vault.charge, Option.bind_eq_bind, Option.bind_eq_some_iff] at h
  obtain ⟨v₁, h₁, h₂⟩ := h
  have hfee := routeFee_get h₂ hexact key
  rw [writeBalance_get h₁] at hfee
  grind

end Vault

/-- What lets a message take `amount` from the account at `key`, after these messages. -/
inductive Authorised (fee : Nat) (older : List Entry) (key : Bytes) (amount : Nat) (m : Message) : Prop where
  | transfer {args : TransferArgs} (call : m.call = .icrc1Transfer args)
      (owns : (⟨m.caller, args.fromSubaccount⟩ : Account).encodeKey = key) (hle : amount ≤ args.amount + fee)
  | approve {args : ApproveArgs} (call : m.call = .icrc2Approve args)
      (owns : (⟨m.caller, args.fromSubaccount⟩ : Account).encodeKey = key) (hle : amount ≤ fee)
  | transferFrom {args : TransferFromArgs} (call : m.call = .icrc2TransferFrom args)
      (source : args.source.encodeKey = key) (hle : amount ≤ args.amount + fee)
      (granted : (grantedDrawn fee (spendingKey m.caller args) older).2 + (args.amount + fee) ≤
        (grantedDrawn fee (spendingKey m.caller args) older).1)

section Runs
variable {E : Env} {fee : Nat} {args : InitArgs} {log newer older : List Entry} {s : TokenState} {e : Entry}

/-- In every history, whatever takes from an account was sent by its owner, or by a spender for whom all
that has been drawn since the last approval, this included, is within what the approval granted. -/
theorem debits_authorised (history : History E fee args log s) (hlog : log = newer ++ e :: older)
    (htaken : e.after.vault.balances.get key < e.before.vault.balances.get key) :
    Authorised fee older key (e.before.vault.balances.get key - e.after.vault.balances.get key) e.message := by
  have hdoes := history.does (hlog ▸ List.mem_append_right newer List.mem_cons_self)
  obtain ⟨hbefore, -, -⟩ := history.entry hlog
  have hfee := hbefore.fee_fixed
  have hexact := (does_holds hbefore.holds hdoes).exact
  obtain ⟨m, s, a, t⟩ := e
  dsimp only at hdoes htaken hbefore hfee hexact ⊢
  cases hdoes with
  | transfer call ht =>
    obtain ⟨v, hv, rfl⟩ := ht.left
    have hget := Vault.pay_get hv hexact key
    dsimp only at htaken ⊢
    split at hget
    · next hk => exact .transfer call hk (by omega)
    · omega
  | approve call ha =>
    obtain ⟨v, hv, rfl⟩ := ha.left
    have hget := Vault.charge_get hv hexact key
    dsimp only at htaken ⊢
    split at hget
    · next hk => exact .approve call hk (by omega)
    · omega
  | transferFrom call ht =>
    rename_i spend block ctx
    have hspend := Nat.le_trans ht.spendable effectiveAt_le
    obtain ⟨v, hv, rfl⟩ := ht.left
    have hget := Vault.pay_get hv hexact key
    dsimp only at htaken ⊢
    split at hget
    · next hk =>
      rw [hfee] at hspend
      exact .transferFrom call hk (by omega) (Nat.le_trans (Nat.add_le_add_left hspend _) hbefore.within)
    · omega
  | lock call hle h | unlock call hle h =>
    obtain ⟨m, -, rfl⟩ := Option.map_eq_some_iff.1 h
    exact absurd htaken (Nat.lt_irrefl _)
  | close call hk hc => cases hc <;> exact absurd htaken (Nat.lt_irrefl _)
  | _ => exact absurd htaken (Nat.lt_irrefl _)

/-- The pool, principal 9, is granted 100 and draws 40. -/
def draw : List Message :=
  [⟨5, 7, .icrc2Approve ⟨none, ⟨9, none⟩, 100, none, none, none, none, none⟩⟩,
   ⟨6, 9, .icrc2TransferFrom ⟨none, ⟨7, none⟩, ⟨9, some 1⟩, 40, none, some [1], some 6⟩⟩]

theorem debits_authorised_draw : ∃ log s e, History plainEnv 0 soleAllocation (e :: log) s ∧
    e.message = draw[1] ∧ Authorised 0 log (⟨7, none⟩ : Account).encodeKey 40 e.message := by
  have history : History plainEnv 0 soleAllocation _ _ :=
    .step (m := draw[1]) (.step (m := draw[0]) (.genesis soleGenesis_exec) (by decide)) (by decide)
  have h : Authorised 0 _ (⟨7, none⟩ : Account).encodeKey _ _ :=
    debits_authorised history (show _ = [] ++ _ :: _ from rfl) (by decide +kernel)
  refine ⟨_, _, _, history, rfl, ?_⟩
  rwa [show _ - _ = 40 by decide +kernel] at h

/-! ### Blocks -/

theorem does_height {cap : Nat} {m : Message} {a : Answer} {t : TokenState} (h : Does cap E m s a t) :
    (a.block = none ∧ t.blockHeight = s.blockHeight) ∨
    (a.block = some (s.blockHeight + 1) ∧ t.blockHeight = s.blockHeight + 1) := by
  cases h with
  | nothing idle => exact .inl ⟨Answer.block_of_idle idle, rfl⟩
  | transfer call ht =>
    obtain ⟨v, -, rfl⟩ := ht.left
    exact .inr ⟨congrArg some ht.height, ht.height⟩
  | approve call ha =>
    obtain ⟨v, -, rfl⟩ := ha.left
    exact .inr ⟨congrArg some ha.height, ha.height⟩
  | transferFrom call ht =>
    obtain ⟨v, -, rfl⟩ := ht.left
    exact .inr ⟨congrArg some ht.height, ht.height⟩
  | close call hk hc => cases hc <;> exact .inl ⟨rfl, rfl⟩
  | _ => exact .inl ⟨rfl, rfl⟩

/-- In every history the successes take the blocks from the first on, each once and in order. -/
theorem blocks_in_order (history : History E fee args log s) :
    log.filterMap (fun e => e.answer.block) = (List.range' 1 s.blockHeight).reverse := by
  induction history with
  | genesis h =>
    obtain ⟨v, rfl, -⟩ := init_ok h
    rfl
  | @step log s m history hnow ih =>
    rcases does_height (does_step E m s) with ⟨hblock, hheight⟩ | ⟨hblock, hheight⟩
    · simp only [List.filterMap_cons, hblock, ih, hheight]
    · simp only [List.filterMap_cons, hblock, ih, hheight, List.range'_1_concat, List.reverse_concat,
        Nat.add_comm]

theorem blocks_in_order_draw : ∃ log s, History plainEnv 0 soleAllocation log s ∧
    log.filterMap (fun e => e.answer.block) = [2, 1] := by
  have history : History plainEnv 0 soleAllocation _ _ :=
    .step (m := draw[1]) (.step (m := draw[0]) (.genesis soleGenesis_exec) (by decide)) (by decide)
  refine ⟨_, _, history, (blocks_in_order history).trans ?_⟩
  decide +kernel

end Runs

end StshProtocol.Token
