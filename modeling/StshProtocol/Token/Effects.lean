import StshProtocol.Token.Lifecycle

/-! What a successful call did.

One lemma for each endpoint: the checks that passed, and the state it left as the
state it found with named parts replaced. Nothing after this unfolds an endpoint. -/
namespace StshProtocol.Token
open Foundation ShieldedPool Handler

section Steps
variable {ε : Type} {s t : TokenState}

theorem windowAnswer_ok_iff {w : WindowCheck} {e₁ e₂ : ε} {u : Unit} :
    (windowAnswer w e₁ e₂).exec s = .ok (.ok u, t) ↔ w = .admitted ∧ t = s := by
  cases w <;> simp [windowAnswer, pure_ok_iff, exec_fail, exec_trap]

theorem checkWindow_ok_iff {now : Nat} {o : Option Nat} {e₁ e₂ : ε} {u : Unit} :
    (checkWindow now o e₁ e₂).exec s = .ok (.ok u, t) ↔
      (∀ c ∈ o, windowCheck now c = .admitted) ∧ t = s := by
  unfold checkWindow
  cases o with
  | none => simp [pure_ok_iff]
  | some c => simp [windowAnswer_ok_iff]

/-- The dedup key of a request that carries a time. -/
def keyAt (key : Nat → Bytes32) (createdAtTime : Option Nat) : Option (Bytes32 × Nat) :=
  createdAtTime.map fun c => (key c, c)

theorem checkDuplicate_ok_iff {o : Option Nat} {key : Nat → Bytes32} {dup : Nat → ε}
    {k : Option (Bytes32 × Nat)} :
    (checkDuplicate o key dup).exec s = .ok (.ok k, t) ↔
      k = keyAt key o ∧ (∀ c ∈ o, s.dedup.rows[key c]? = none) ∧ t = s := by
  unfold checkDuplicate keyAt
  cases o with
  | none => simp [pure_ok_iff]
  | some c =>
    simp only [bind_ok_iff, read_ok_iff, refuseSome_ok_iff, pure_ok_iff, Option.map_eq_none_iff,
      Option.mem_def, Option.some.injEq, forall_eq', Option.map_some]
    constructor
    · rintro ⟨_, _, ⟨rfl, rfl⟩, _, _, ⟨hn, rfl⟩, rfl, rfl⟩
      exact ⟨rfl, hn, rfl⟩
    · rintro ⟨rfl, hn, rfl⟩
      exact ⟨_, _, ⟨rfl, rfl⟩, (), _, ⟨hn, rfl⟩, rfl, rfl⟩

theorem writeBalance_ok_iff {key : Bytes} {old new : Nat} {u : Unit} :
    (writeBalance key old new : Endpoint ε Unit).exec s = .ok (.ok u, t) ↔
      ∃ v, s.vault.writeBalance key old new = some v ∧ {s with vault := v} = t := by
  simp only [writeBalance, bind_ok_iff, read_ok_iff, expect_ok_iff, write_ok_iff]
  constructor
  · rintro ⟨_, _, ⟨rfl, rfl⟩, v, _, ⟨hv, rfl⟩, rfl⟩
    exact ⟨v, hv, rfl⟩
  · rintro ⟨v, hv, rfl⟩
    exact ⟨_, _, ⟨rfl, rfl⟩, v, _, ⟨hv, rfl⟩, rfl⟩

theorem writeLock_ok_iff {key : Bytes} {old new : Nat} {u : Unit} :
    (writeLock key old new : Endpoint ε Unit).exec s = .ok (.ok u, t) ↔
      ∃ v, s.vault.writeLock key old new = some v ∧ {s with vault := v} = t := by
  simp only [writeLock, bind_ok_iff, read_ok_iff, expect_ok_iff, write_ok_iff]
  constructor
  · rintro ⟨_, _, ⟨rfl, rfl⟩, v, _, ⟨hv, rfl⟩, rfl⟩
    exact ⟨v, hv, rfl⟩
  · rintro ⟨v, hv, rfl⟩
    exact ⟨_, _, ⟨rfl, rfl⟩, v, _, ⟨hv, rfl⟩, rfl⟩

theorem routeFee_ok_iff {fee : Nat} {u : Unit} :
    (routeFeeToTreasury fee : Endpoint ε Unit).exec s = .ok (.ok u, t) ↔
      ∃ v, s.vault.routeFee (feeRecipient s) fee = some v ∧ {s with vault := v} = t := by
  simp only [routeFeeToTreasury, bind_ok_iff, read_ok_iff, expect_ok_iff, write_ok_iff]
  constructor
  · rintro ⟨_, _, ⟨rfl, rfl⟩, _, _, ⟨rfl, rfl⟩, v, _, ⟨hv, rfl⟩, rfl⟩
    exact ⟨v, hv, rfl⟩
  · rintro ⟨v, hv, rfl⟩
    exact ⟨_, _, ⟨rfl, rfl⟩, _, _, ⟨rfl, rfl⟩, v, _, ⟨hv, rfl⟩, rfl⟩

theorem nextBlock_ok_iff {n : Nat} :
    (nextBlock : Endpoint ε Nat).exec s = .ok (.ok n, t) ↔
      n = s.blockHeight + 1 ∧ s.blockHeight + 1 ≤ u64Max ∧ t = {s with blockHeight := n} := by
  simp only [nextBlock, bind_ok_iff, read_ok_iff, assert_ok_iff, write_ok_iff, pure_ok_iff]
  constructor
  · rintro ⟨_, _, ⟨rfl, rfl⟩, _, _, ⟨hle, rfl⟩, _, _, rfl, rfl, rfl⟩
    exact ⟨rfl, hle, rfl⟩
  · rintro ⟨rfl, hle, rfl⟩
    exact ⟨_, _, ⟨rfl, rfl⟩, (), _, ⟨hle, rfl⟩, (), _, rfl, rfl, rfl⟩

/-- What `record_dedup` does for a request that may carry a time. -/
def recordKey (now : Nat) (dedupKey : Option (Bytes32 × Nat)) (block : Nat) (b : Dedup) : Dedup :=
  match dedupKey with
  | some (key, createdAt) => recordDedup now key block createdAt b
  | none => b

theorem recordDedupKey_ok_iff {now block : Nat} {k : Option (Bytes32 × Nat)} {u : Unit} :
    (recordDedupKey now k block : Endpoint ε Unit).exec s = .ok (.ok u, t) ↔
      t = {s with dedup := recordKey now k block s.dedup} := by
  unfold recordDedupKey recordKey
  cases k with
  | none => simp [pure_ok_iff]
  | some k => simp [write_ok_iff]

theorem writeAllowances_ok_iff {f : Allowances → Allowances} {u : Unit} :
    (writeAllowances f : Endpoint ε Unit).exec s = .ok (.ok u, t) ↔
      t = {s with allowances := f s.allowances} := write_ok_iff

/-- What the receipt of a pool transfer does to the receipts. -/
def putReceipt (ctx : Option PoolReceiptContext) (block amount fee now : Nat)
    (receipts : StableMap Bytes32 DepositReceiptV1) : StableMap Bytes32 DepositReceiptV1 :=
  match ctx with
  | some ctx => receipts.insert ctx.key (.applied block amount fee ctx.requestHash now)
  | none => receipts

theorem writeReceipt_ok_iff {ctx : Option PoolReceiptContext} {block amount fee now : Nat} {u : Unit} :
    (writeReceipt ctx block amount fee now : Endpoint ε Unit).exec s = .ok (.ok u, t) ↔
      t = {s with receipts := putReceipt ctx block amount fee now s.receipts} := by
  unfold writeReceipt putReceipt
  cases ctx with
  | none => simp [pure_ok_iff]
  | some ctx => simp [write_ok_iff]

theorem assertStakingCanister_ok_iff {caller : Principal} {u : Unit} :
    (assertStakingCanister caller : Endpoint ε Unit).exec s = .ok (.ok u, t) ↔
      s.stakingCanister = some caller ∧ t = s := by
  simp only [assertStakingCanister, bind_ok_iff, read_ok_iff, expect_ok_iff, assert_ok_iff]
  constructor
  · rintro ⟨_, _, ⟨rfl, rfl⟩, p, _, ⟨hp, rfl⟩, rfl, rfl⟩
    exact ⟨hp, rfl⟩
  · rintro ⟨hp, rfl⟩
    exact ⟨_, _, ⟨rfl, rfl⟩, caller, _, ⟨hp, rfl⟩, rfl, rfl⟩

theorem mapError_ok {α ε' : Type} {f : ε → ε'} {r : Except ε α} {a : α}
    (h : r.mapError f = .ok a) : r = .ok a := by
  cases r with
  | error e => nomatch h
  | ok b =>
    cases h
    rfl

end Steps

variable {s t : TokenState} {E : Env} {now : Nat} {caller : Principal}

/-! ### Transfers -/

/-- A call of `icrc1_transfer` that succeeded. -/
structure Transferred (E : Env) (now : Nat) (caller : Principal) (args : TransferArgs) (block : Nat)
    (s t : TokenState) : Prop where
  fee : feeAccepted args.fee s.transferFee = true
  represented : toU128 args.amount = some args.amount
  nonzero : args.amount ≠ 0
  payable : checkedTotalDebit args.amount s.transferFee = .ok (args.amount + s.transferFee)
  window : ∀ c ∈ args.createdAtTime, windowCheck now c = .admitted
  fresh : ∀ c ∈ args.createdAtTime, s.dedup.rows[transferDedupKey E ⟨caller, args.fromSubaccount⟩
    args.dest args.amount args.fee args.memo c]? = none
  height : block = s.blockHeight + 1
  liquid : args.amount + s.transferFee ≤
    s.vault.liquid (⟨caller, args.fromSubaccount⟩ : Account).encodeKey
  left : ∃ v, s.vault.pay (⟨caller, args.fromSubaccount⟩ : Account).encodeKey args.dest.encodeKey
      args.amount s.transferFee (feeRecipient s) = some v ∧
    t = {s with vault := v
                blockHeight := block
                dedup := recordKey now (keyAt (transferDedupKey E ⟨caller, args.fromSubaccount⟩
                  args.dest args.amount args.fee args.memo) args.createdAtTime) block s.dedup}

theorem toU128_eq {n m : Nat} (h : toU128 n = some m) : m = n := by
  unfold toU128 at h
  split at h
  · exact (Option.some.inj h).symm
  · nomatch h

theorem icrc1Transfer_ok {args : TransferArgs} {block : Nat}
    (h : (icrc1Transfer E now caller args).exec s = .ok (.ok block, t)) :
    Transferred E now caller args block s t := by
  simp only [icrc1Transfer, bind_ok_iff, read_ok_iff, demand_ok_iff, checkWindow_ok_iff, need_ok_iff,
    lift_ok_iff, checkDuplicate_ok_iff, getBalance, getLock, writeBalance_ok_iff, routeFee_ok_iff,
    nextBlock_ok_iff, recordDedupKey_ok_iff, pure_ok_iff, and_assoc, exists_and_left, exists_eq_left,
    exists_exists_and_eq_and, exists_const] at h
  obtain ⟨hfee, hwindow, amount, hamount, hne, total, htotal, hfresh, hliquid, newFrom, hnewFrom,
    newTo, hnewTo, v₁, hv₁, v₂, hv₂, v₃, hv₃, -, hblock, hleft⟩ := h
  obtain rfl := toU128_eq hamount
  obtain rfl := checkedTotalDebit_ok htotal
  obtain rfl := (checkedSub_eq hnewFrom).1
  obtain rfl := checkedCredit_ok hnewTo
  refine ⟨hfee, hamount, hne, htotal, hwindow, hfresh, hblock, hliquid, v₃, ?_,
    by rw [hleft, hblock]⟩
  simp only [Vault.pay, hv₁, Option.bind_eq_bind, Option.bind_some]
  exact Option.bind_eq_some_iff.2 ⟨v₂, hv₂, hv₃⟩

/-! ### Approvals -/

/-- What either spender of an allowance leaves at its key: nothing is no row. -/
def setAllowance (key : Bytes) (previousExpiresAt : Option Nat) (amount : Nat)
    (expiresAt : Option Nat) (b : Allowances) : Allowances :=
  if amount = 0 then removeAllowance key previousExpiresAt b
  else putAllowance key previousExpiresAt ⟨amount, expiresAt⟩ b

/-- The allowance an approval is about. -/
def approvalKey (caller : Principal) (args : ApproveArgs) : Bytes :=
  compoundKey (⟨caller, args.fromSubaccount⟩ : Account).encodeKey args.spender.encodeKey

/-- A call of `icrc2_approve` that succeeded, storing the expiry `e`. -/
structure Approved (cap : Nat) (E : Env) (now : Nat) (caller : Principal) (args : ApproveArgs)
    (block e : Nat) (s t : TokenState) : Prop where
  fee : feeAccepted args.fee s.transferFee = true
  window : ∀ c ∈ args.createdAtTime, windowCheck now c = .admitted
  fresh : ∀ c ∈ args.createdAtTime,
    s.dedup.rows[approveDedupKey E ⟨caller, args.fromSubaccount⟩ args c]? = none
  lifetime : effectiveApprovalLifetime args.expiresAt now = .effective e
  height : block = s.blockHeight + 1
  liquid : s.transferFee ≤ s.vault.liquid (⟨caller, args.fromSubaccount⟩ : Account).encodeKey
  left : ∃ v, s.vault.charge (⟨caller, args.fromSubaccount⟩ : Account).encodeKey s.transferFee
      (feeRecipient s) = some v ∧
    t = {s with vault := v
                allowances := pruneExpiredAllowances now cap (setAllowance (approvalKey caller args)
                  (previousExpiry s.allowances (approvalKey caller args)) args.amount (some e)
                  s.allowances)
                blockHeight := block
                dedup := recordKey now (keyAt (approveDedupKey E ⟨caller, args.fromSubaccount⟩ args)
                  args.createdAtTime) block s.dedup}

theorem lifetime_ok {l : ApprovalLifetime} {e : Nat}
    (h : (match l with
      | .alreadyExpired => Except.error (ApproveError.expired now)
      | .effective e => .ok e) = .ok e) : l = .effective e := by
  cases l with
  | alreadyExpired => nomatch h
  | effective e' =>
    cases h
    rfl

theorem icrc2Approve_ok {cap : Nat} {args : ApproveArgs} {block : Nat}
    (h : (icrc2ApproveReclaiming cap E now caller args).exec s = .ok (.ok block, t)) :
    ∃ e, Approved cap E now caller args block e s t := by
  simp only [icrc2ApproveReclaiming, bind_ok_iff, read_ok_iff, demand_ok_iff, checkWindow_ok_iff,
    need_ok_iff, lift_ok_iff, checkDuplicate_ok_iff, getBalance, getLock, writeBalance_ok_iff,
    routeFee_ok_iff, writeAllowances_ok_iff, nextBlock_ok_iff, recordDedupKey_ok_iff, pure_ok_iff,
    and_assoc, exists_and_left, exists_eq_left, exists_exists_and_eq_and, exists_const] at h
  obtain ⟨hfee, hwindow, hfresh, e, hlife, amount, hamount, -, -, hliquid, newBal, hnewBal, v₁, hv₁,
    v₂, hv₂, -, hblock, hleft⟩ := h
  obtain rfl := toU128_eq hamount
  obtain rfl := (checkedSub_eq hnewBal).1
  refine ⟨e, hfee, hwindow, hfresh, lifetime_ok hlife, hblock, hliquid, v₂, ?_,
    by rw [hleft, hblock]; rfl⟩
  simp only [Vault.charge, hv₁, Option.bind_eq_bind, Option.bind_some]
  exact hv₂

/-! ### Transfers by a spender -/

/-- What the receipt protocol found: an ordinary spender, or the pool with a fresh
operation. -/
def GateOpen (E : Env) (spender : Account) (args : TransferFromArgs) (amount : Nat) (s : TokenState) :
    Option PoolReceiptContext → Prop
  | none => s.poolCanister ≠ some spender.owner
  | some ctx => s.poolCanister = some spender.owner ∧ ∃ memo c, args.memo = some memo ∧
      args.createdAtTime = some c ∧ memo.length ≤ maxDepositMemoLen ∧
      ctx = ⟨depositOperationId E memo,
        depositRequestHash E args.source spender args.dest amount args.fee args.memo c⟩ ∧
      s.receipts[ctx.key]? = none ∧ s.receipts.size < maxDepositReceipts

theorem poolReceiptGate_ok_iff {spender : Account} {args : TransferFromArgs} {amount : Nat}
    {ctx : Option PoolReceiptContext} :
    (poolReceiptGate E spender args amount).exec s = .ok (.ok ctx, t) ↔
      GateOpen E spender args amount s ctx ∧ t = s := by
  simp only [poolReceiptGate, bind_ok_iff, read_ok_iff, and_assoc, exists_and_left,
    exists_eq_left]
  split
  · next hp =>
    rw [pure_ok_iff]
    constructor
    · rintro ⟨rfl, rfl⟩
      exact ⟨hp, rfl⟩
    · rintro ⟨hg, rfl⟩
      cases ctx with
      | none => exact ⟨rfl, rfl⟩
      | some ctx => exact absurd hg.1 hp
  · next hp =>
    have hpool := not_not.1 hp
    split
    · next memo c hmemo hc =>
      simp only [bind_ok_iff, demand_ok_iff, read_ok_iff, and_assoc, exists_and_left, exists_eq_left,
        exists_const]
      constructor
      · rintro ⟨hlen, h⟩
        split at h
        · nomatch h
        · nomatch h
        · next hnone =>
          simp only [bind_ok_iff, demand_ok_iff, read_ok_iff, pure_ok_iff, and_assoc,
            exists_and_left, exists_eq_left, exists_const] at h
          obtain ⟨hsize, rfl, rfl⟩ := h
          exact ⟨⟨hpool, memo, c, hmemo, hc, hlen, rfl, hnone, hsize⟩, rfl⟩
      · rintro ⟨hg, rfl⟩
        cases ctx with
        | none => exact absurd hpool hg
        | some ctx =>
          obtain ⟨-, memo', c', hmemo', hc', hlen, rfl, hnone, hsize⟩ := hg
          obtain rfl := Option.some.inj (hmemo.symm.trans hmemo')
          obtain rfl := Option.some.inj (hc.symm.trans hc')
          refine ⟨hlen, ?_⟩
          simp only at hnone
          simp only [hnone, bind_ok_iff, demand_ok_iff, read_ok_iff, pure_ok_iff, and_assoc,
            exists_and_left, exists_eq_left, exists_const]
          exact ⟨hsize, trivial, trivial⟩
    · next hmiss =>
      constructor
      · exact fun h => (nomatch h)
      · rintro ⟨hg, -⟩
        cases ctx with
        | none => exact absurd hpool hg
        | some ctx =>
          obtain ⟨-, memo, c, hmemo, hc, -⟩ := hg
          exact absurd hc (hmiss memo c hmemo)

/-- The allowance a transfer by a spender draws on. -/
def spendingKey (caller : Principal) (args : TransferFromArgs) : Bytes :=
  compoundKey args.source.encodeKey (⟨caller, args.spenderSubaccount⟩ : Account).encodeKey

/-- A call of `icrc2_transfer_from` that succeeded. -/
structure TransferredFrom (E : Env) (now : Nat) (caller : Principal) (args : TransferFromArgs)
    (block : Nat) (ctx : Option PoolReceiptContext) (s t : TokenState) : Prop where
  fee : feeAccepted args.fee s.transferFee = true
  represented : toU128 args.amount = some args.amount
  payable : checkedTotalDebit args.amount s.transferFee = .ok (args.amount + s.transferFee)
  window : ∀ c ∈ args.createdAtTime, windowCheck now c = .admitted
  fresh : ∀ c ∈ args.createdAtTime, s.dedup.rows[transferFromDedupKey E args.source
    ⟨caller, args.spenderSubaccount⟩ args.dest args.amount args.fee args.memo c]? = none
  gate : GateOpen E ⟨caller, args.spenderSubaccount⟩ args args.amount s ctx
  height : block = s.blockHeight + 1
  spendable : args.amount + s.transferFee ≤ effectiveAt now s.allowances (spendingKey caller args)
  nonzero : args.amount ≠ 0
  liquid : args.amount + s.transferFee ≤ s.vault.liquid args.source.encodeKey
  left : ∃ v, s.vault.pay args.source.encodeKey args.dest.encodeKey args.amount s.transferFee
      (feeRecipient s) = some v ∧
    t = {s with vault := v
                allowances := setAllowance (spendingKey caller args)
                  (previousExpiry s.allowances (spendingKey caller args))
                  (effectiveAt now s.allowances (spendingKey caller args) -
                    (args.amount + s.transferFee))
                  (previousExpiry s.allowances (spendingKey caller args)) s.allowances
                blockHeight := block
                receipts := putReceipt ctx block args.amount s.transferFee now s.receipts
                dedup := recordKey now (keyAt (transferFromDedupKey E args.source
                  ⟨caller, args.spenderSubaccount⟩ args.dest args.amount args.fee args.memo)
                  args.createdAtTime) block s.dedup}

theorem icrc2TransferFrom_ok {args : TransferFromArgs} {block : Nat}
    (h : (icrc2TransferFrom E now caller args).exec s = .ok (.ok block, t)) :
    ∃ ctx, TransferredFrom E now caller args block ctx s t := by
  simp only [icrc2TransferFrom, bind_ok_iff, read_ok_iff, demand_ok_iff, checkWindow_ok_iff,
    need_ok_iff, lift_ok_iff, checkDuplicate_ok_iff, getBalance, getLock, writeBalance_ok_iff,
    poolReceiptGate_ok_iff, routeFee_ok_iff, writeAllowances_ok_iff, nextBlock_ok_iff,
    writeReceipt_ok_iff, recordDedupKey_ok_iff, pure_ok_iff,
    and_assoc, exists_and_left, exists_eq_left, exists_exists_and_eq_and, exists_const] at h
  obtain ⟨hfee, amount, hamount, hne, total, htotal, hwindow, hfresh, ctx, hgate, hspend, newAllow,
    hnewAllow, hliquid, newFrom, hnewFrom, newTo, hnewTo, v₁, hv₁, v₂, hv₂, v₃, hv₃, -, hblock,
    hleft⟩ := h
  obtain rfl := toU128_eq hamount
  obtain rfl := checkedTotalDebit_ok (mapError_ok htotal)
  obtain rfl := (checkedSub_eq hnewAllow).1
  obtain rfl := (checkedSub_eq hnewFrom).1
  obtain rfl := checkedCredit_ok (mapError_ok hnewTo)
  refine ⟨ctx, hfee, hamount, mapError_ok htotal, hwindow, hfresh, hgate, hblock, hspend, hne, hliquid,
    v₃, ?_, by rw [hleft, hblock]; rfl⟩
  simp only [Vault.pay, hv₁, Option.bind_eq_bind, Option.bind_some]
  exact Option.bind_eq_some_iff.2 ⟨v₂, hv₂, hv₃⟩

/-! ### Receipts -/

/-- The caller is the pool, and its attempt has these keys. -/
def AttemptKeys (E : Env) (caller : Principal) (args : DepositAttemptArgs) (s : TokenState)
    (keys : ReceiptKeys) : Prop :=
  s.poolCanister = some caller ∧ ∃ memo c, args.memo = some memo ∧ args.createdAtTime = some c ∧
    memo.length ≤ maxDepositMemoLen ∧ keys =
      ⟨depositOperationId E memo,
        depositRequestHash E args.source ⟨caller, args.spenderSubaccount⟩ args.dest args.amount
          args.fee args.memo c,
        transferFromDedupKey E args.source ⟨caller, args.spenderSubaccount⟩ args.dest args.amount
          args.fee args.memo c⟩

theorem receiptLookupPreamble_ok {args : DepositAttemptArgs} {keys : ReceiptKeys}
    (h : (receiptLookupPreamble E caller args).exec s = .ok (.ok keys, t)) :
    AttemptKeys E caller args s keys ∧ t = s := by
  simp only [receiptLookupPreamble, bind_ok_iff, read_ok_iff, demand_ok_iff, and_assoc,
    exists_and_left, exists_eq_left, exists_const] at h
  obtain ⟨hpool, h⟩ := h
  split at h
  · next memo c hmemo hc =>
    simp only [bind_ok_iff, demand_ok_iff, need_ok_iff, pure_ok_iff, and_assoc, exists_and_left,
      exists_eq_left, exists_const] at h
    obtain ⟨hlen, amount, hamount, rfl, rfl⟩ := h
    obtain rfl := toU128_eq hamount
    exact ⟨⟨hpool, memo, c, hmemo, hc, hlen, rfl⟩, rfl⟩
  · nomatch h

/-- How a call of `close_deposit_attempt` that succeeded came to its outcome. -/
inductive Closed (now : Nat) (keys : ReceiptKeys) (s : TokenState) :
    CloseOutcome → TokenState → Prop where
  /-- The operation had been executed. -/
  | applied {b a f n : Nat} {hash : Bytes32}
      (found : s.receipts[keys.key]? = some (.applied b a f hash n)) :
      Closed now keys s (.applied (.applied b a f hash n)) s
  /-- The operation had been fenced. -/
  | again {hash : Bytes32} {n : Nat} (found : s.receipts[keys.key]? = some (.cancelled hash n)) :
      Closed now keys s (.cancelled (.cancelled hash n)) s
  | retired (none : s.receipts[keys.key]? = none) : Closed now keys s .retiredOrUnavailable s
  /-- The operation is fenced now. -/
  | fenced (none : s.receipts[keys.key]? = none) (size : s.receipts.size < maxDepositReceipts) :
      Closed now keys s (.cancelled (.cancelled keys.requestHash now))
        {s with receipts := s.receipts.insert keys.key (.cancelled keys.requestHash now)}

theorem closeDepositAttempt_ok {args : DepositAttemptArgs} {outcome : CloseOutcome}
    (h : (closeDepositAttempt E now caller args).exec s = .ok (.ok outcome, t)) :
    ∃ keys, AttemptKeys E caller args s keys ∧ Closed now keys s outcome t := by
  simp only [closeDepositAttempt, bind_ok_iff, read_ok_iff, and_assoc, exists_and_left,
    exists_eq_left] at h
  obtain ⟨keys, u, hpre, h⟩ := h
  obtain ⟨hkeys, rfl⟩ := receiptLookupPreamble_ok hpre
  refine ⟨keys, hkeys, ?_⟩
  split at h
  · next receipt hfound =>
    simp only [bind_ok_iff, demand_ok_iff, pure_ok_iff, and_assoc, exists_and_left, exists_eq_left,
      exists_const] at h
    obtain ⟨-, rfl, rfl⟩ := h
    cases receipt with
    | applied b a f hash n => exact .applied hfound
    | cancelled hash n => exact .again hfound
  · next hnone =>
    simp only [bind_ok_iff, read_ok_iff, and_assoc, exists_and_left, exists_eq_left] at h
    split at h
    · obtain ⟨rfl, rfl⟩ := pure_ok_iff.1 h
      exact .retired hnone
    · simp only [bind_ok_iff, read_ok_iff, demand_ok_iff, write_ok_iff, pure_ok_iff, and_assoc,
        exists_and_left, exists_eq_left, exists_const] at h
      obtain ⟨hsize, rfl, rfl⟩ := h
      exact .fenced hnone hsize

theorem getDepositReceipt_ok {args : DepositAttemptArgs} {r : ReceiptLookup}
    (h : (getDepositReceipt E caller args).exec s = .ok (.ok r, t)) : t = s := by
  simp only [getDepositReceipt, bind_ok_iff, read_ok_iff, and_assoc, exists_and_left,
    exists_eq_left] at h
  obtain ⟨keys, u, hpre, h⟩ := h
  obtain ⟨-, rfl⟩ := receiptLookupPreamble_ok hpre
  split at h
  · simp only [bind_ok_iff, demand_ok_iff, pure_ok_iff, and_assoc, exists_and_left, exists_eq_left,
      exists_const] at h
    exact h.2.2
  · simp only [bind_ok_iff, read_ok_iff, pure_ok_iff, and_assoc, exists_and_left,
      exists_eq_left] at h
    exact h.2

/-! ### Staking -/

theorem lockForStaking_ok {holder : Principal} {amount : Nat}
    (h : (lockForStaking caller holder amount).exec s = .ok (.ok (), t)) :
    let key := (⟨holder, none⟩ : Account).encodeKey
    amount ≤ s.vault.liquid key ∧
      ∃ v, s.vault.writeLock key (s.vault.locks.get key) (s.vault.locks.get key + amount) = some v ∧
        t = {s with vault := v} := by
  simp only [lockForStaking, bind_ok_iff, read_ok_iff, demand_ok_iff, need_ok_iff, getBalance, getLock,
    assertStakingCanister_ok_iff, writeLock_ok_iff, and_assoc, exists_and_left, exists_eq_left,
    exists_const] at h
  obtain ⟨-, hliquid, newLocked, hnew, v, hv, rfl⟩ := h
  obtain rfl := (checkedAdd128_eq hnew).1
  exact ⟨hliquid, v, hv, rfl⟩

theorem unlockFromStaking_ok {holder : Principal} {amount : Nat}
    (h : (unlockFromStaking caller holder amount).exec s = .ok (.ok (), t)) :
    let key := (⟨holder, none⟩ : Account).encodeKey
    amount ≤ s.vault.locks.get key ∧
      ∃ v, s.vault.writeLock key (s.vault.locks.get key) (s.vault.locks.get key - amount) = some v ∧
        t = {s with vault := v} := by
  simp only [unlockFromStaking, bind_ok_iff, read_ok_iff, demand_ok_iff, need_ok_iff, getLock,
    assertStakingCanister_ok_iff, writeLock_ok_iff, and_assoc, exists_and_left, exists_eq_left,
    exists_const] at h
  obtain ⟨-, hle, newLocked, hnew, v, hv, rfl⟩ := h
  obtain rfl := (checkedSub_eq hnew).1
  exact ⟨hle, v, hv, rfl⟩

/-! ### Upgrades -/

theorem preUpgrade_ok (h : preUpgrade.exec s = .ok (.ok (), t)) :
    ∃ c, t = {s with checkpoint := some c} ∧ c.stateVersion = stateVersion ∧
      c.blockHeight = s.blockHeight ∧ c.transferFee = s.transferFee ∧
      c.feeReserve = s.vault.feeReserve ∧ c.mintDone = s.mintDone ∧
      s.treasury = some c.treasury ∧ s.stakingCanister = some c.stakingCanister ∧
      c.feeCollector = s.feeCollector ∧ c.sumBalances = some s.vault.balances.sum ∧
      c.sumStakingLocks = some s.vault.locks.sum ∧ c.poolCanister = s.poolCanister := by
  simp only [preUpgrade, bind_ok_iff, read_ok_iff, expect_ok_iff, write_ok_iff,
    and_assoc, exists_and_left, exists_eq_left] at h
  obtain ⟨treasury, htreasury, staking, hstaking, rfl⟩ := h
  exact ⟨_, rfl, rfl, rfl, rfl, rfl, rfl, htreasury, hstaking, rfl, rfl, rfl, rfl⟩

theorem versionArm_current {c r : TokenStableState} (hc : c.stateVersion = stateVersion)
    (h : (versionArm now c).exec s = .ok (.ok r, t)) : r = c ∧ t = s := by
  rw [versionArm, if_pos hc] at h
  exact pure_ok_iff.1 h

/-- An upgrade that succeeds restores what its own checkpoint saved. -/
theorem upgrade_ok (h : (upgrade now).exec s = .ok (.ok (), t)) :
    ∃ c, t = {s with checkpoint := some c} := by
  simp only [upgrade, postUpgrade, bind_ok_iff, read_ok_iff, expect_ok_iff, write_ok_iff,
    assert_ok_iff, and_assoc, exists_and_left, exists_eq_left, exists_const] at h
  obtain ⟨_, _, hpre, c, hcell, restored, _, harm, _, _, hrestore, -, rfl⟩ := h
  obtain ⟨c', rfl, hversion, hheight, hfee, hreserve, hmint, htreasury, hstaking, hcollector, hsum,
    hlocks, hpool⟩ := preUpgrade_ok hpre
  obtain rfl : c' = c := Option.some.inj hcell
  obtain ⟨rfl, rfl⟩ := versionArm_current hversion harm
  simp only [restoreFromCheckpoint, bind_ok_iff, expect_ok_iff, write_ok_iff, and_assoc,
    exists_and_left, exists_eq_left] at hrestore
  obtain ⟨sb, hsb, sl, hsl, rfl⟩ := hrestore
  obtain rfl := Option.some.inj (hsum.symm.trans hsb)
  obtain rfl := Option.some.inj (hlocks.symm.trans hsl)
  refine ⟨restored, ?_⟩
  rw [hheight, hfee, hreserve, hmint, ← htreasury, ← hstaking, hcollector, hpool]
  rfl

end StshProtocol.Token
