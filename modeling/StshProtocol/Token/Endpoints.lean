import StshProtocol.Token.State

/-! The update endpoints of the token ledger, check by check and write by write. -/
namespace StshProtocol.Token
open Foundation ShieldedPool Handler

/-! ### ICRC-1 -/

def icrc1Transfer (E : Env) (now : Nat) (caller : Principal) (args : TransferArgs) :
    Endpoint TransferError Nat := do
  let fee ← read fun s => s.transferFee
  demand (feeAccepted args.fee fee) (.badFee fee)
  checkWindow now args.createdAtTime (.createdInFuture now) .tooOld
  let source : Account := ⟨caller, args.fromSubaccount⟩
  let fromKey := source.encodeKey
  let toKey := args.dest.encodeKey
  let amount ← need (toU128 args.amount) (.genericError 1 "Amount overflow")
  demand (amount ≠ 0) (.genericError errCodeZeroAmount errMsgZeroAmount)
  let totalDebit ← lift (checkedTotalDebit amount fee)
  let dedupKey ← checkDuplicate args.createdAtTime
    (transferDedupKey E source args.dest amount args.fee args.memo) .duplicate
  let fromBal ← getBalance fromKey
  let locked ← getLock fromKey
  let liquid := fromBal - locked
  demand (totalDebit ≤ liquid) (.insufficientFunds liquid)
  let newFrom ← need (checkedSub fromBal totalDebit) (.insufficientFunds liquid)
  let stored ← getBalance toKey
  -- A self-transfer credits the balance after the debit.
  let toBase := if toKey = fromKey then newFrom else stored
  let newTo ← lift (checkedCredit toBase amount)
  writeBalance fromKey fromBal newFrom
  writeBalance toKey toBase newTo
  routeFeeToTreasury fee
  let block ← nextBlock
  recordDedupKey now dedupKey block
  pure block

/-! ### ICRC-2 -/

/-- The `expected_allowance` check: one that is no `u128` never matches. -/
def expectedMatches (expected : Option Nat) (current : Nat) : Bool :=
  match expected with
  | some e => toU128 e == some current
  | none => true

/-- `icrc2_approve`, reclaiming at most `cap` expired rows when it succeeds. -/
def icrc2ApproveReclaiming (cap : Nat) (E : Env) (now : Nat) (caller : Principal)
    (args : ApproveArgs) : Endpoint ApproveError Nat := do
  let fee ← read fun s => s.transferFee
  demand (feeAccepted args.fee fee) (.badFee fee)
  let source : Account := ⟨caller, args.fromSubaccount⟩
  checkWindow now args.createdAtTime (.createdInFuture now) .tooOld
  let dedupKey ← checkDuplicate args.createdAtTime (approveDedupKey E source args) .duplicate
  let effectiveExpiresAt ← lift (match effectiveApprovalLifetime args.expiresAt now with
    | .alreadyExpired => .error (.expired now)
    | .effective e => .ok e)
  let accountKey := source.encodeKey
  let allowanceKey := compoundKey accountKey args.spender.encodeKey
  let amount ← need (toU128 args.amount) (.genericError 1 "Overflow")
  let currentEffective ← read fun s => effectiveAt now s.allowances allowanceKey
  let previousExpiresAt ← read fun s => previousExpiry s.allowances allowanceKey
  demand (expectedMatches args.expectedAllowance currentEffective) (.allowanceChanged currentEffective)
  demand (¬(amount = 0 ∧ currentEffective = 0)) (.genericError errCodeZeroAmount errMsgZeroAmount)
  let bal ← getBalance accountKey
  let locked ← getLock accountKey
  let liquid := bal - locked
  demand (fee ≤ liquid) (.insufficientFunds liquid)
  let newBal ← need (checkedSub bal fee) (.insufficientFunds liquid)
  writeBalance accountKey bal newBal
  routeFeeToTreasury fee
  writeAllowances fun b =>
    if amount = 0 then removeAllowance allowanceKey previousExpiresAt b
    else putAllowance allowanceKey previousExpiresAt ⟨amount, some effectiveExpiresAt⟩ b
  writeAllowances (pruneExpiredAllowances now cap)
  let block ← nextBlock
  recordDedupKey now dedupKey block
  pure block

def icrc2Approve (E : Env) (now : Nat) (caller : Principal) (args : ApproveArgs) :
    Endpoint ApproveError Nat :=
  icrc2ApproveReclaiming maxAllowancePrunePerCall E now caller args

def depositOperationId (E : Env) (memo : Bytes) : Bytes32 :=
  E.sha256 (lenPrefixed receiptOpidDomain ++ lenPrefixed memo)

def depositRequestHash (E : Env) (source spender dest : Account) (amount : Nat) (fee : Option Nat)
    (memo : Option Bytes) (createdAtTime : Nat) : Bytes32 :=
  E.sha256 (lenPrefixed receiptRequestDomain ++ lenPrefixed (principalSlice E.self) ++
    lenPrefixed (Bytes.toBe 32
      (transferFromDedupKey E source spender dest amount fee memo createdAtTime).toNat))

/-- What the pool path derives before any write and writes after every check. -/
structure PoolReceiptContext where
  key : Bytes32
  requestHash : Bytes32

/-- The receipt protocol before the transfer: nothing for an ordinary spender; for the
pool, one execution per operation, and none after its cancellation. -/
def poolReceiptGate (E : Env) (spender : Account) (args : TransferFromArgs) (amount : Nat) :
    Endpoint TransferFromError (Option PoolReceiptContext) := do
  let pool ← read fun s => s.poolCanister
  if pool ≠ some spender.owner then
    pure none
  else
    match args.memo, args.createdAtTime with
    | some memo, some createdAtTime => do
      demand (memo.length ≤ maxDepositMemoLen) (.genericError errCodeDepositUnreceiptable
        s!"deposit memo exceeds {maxDepositMemoLen} bytes and cannot be receipted")
      let key := depositOperationId E memo
      let requestHash := depositRequestHash E args.source spender args.dest amount args.fee args.memo
        createdAtTime
      let existing ← read fun s => s.receipts[key]?
      match existing with
      | some (.cancelled ..) => fail (.genericError errCodeDepositFenced
          "deposit operation is fenced: a cancellation receipt already exists")
      | some (.applied ..) => fail (.genericError errCodeReceiptConflict
          "deposit operation already has an applied receipt")
      | none => do
        let held ← read fun s => s.receipts.size
        demand (held < maxDepositReceipts) (.genericError errCodeReceiptCapacity
          "deposit receipt capacity reached")
        pure (some ⟨key, requestHash⟩)
    | _, _ => fail (.genericError errCodeDepositUnreceiptable
        "deposit transfer requires both a memo and a created_at_time to be receipted")

/-- The receipt of a pool transfer, in the segment of its writes. -/
def writeReceipt {ε : Type} (ctx : Option PoolReceiptContext) (block amount fee now : Nat) :
    Endpoint ε Unit :=
  match ctx with
  | some ctx => write fun s =>
      {s with receipts := s.receipts.insert ctx.key (.applied block amount fee ctx.requestHash now)}
  | none => pure ()

def icrc2TransferFrom (E : Env) (now : Nat) (caller : Principal) (args : TransferFromArgs) :
    Endpoint TransferFromError Nat := do
  let fee ← read fun s => s.transferFee
  demand (feeAccepted args.fee fee) (.badFee fee)
  let amount ← need (toU128 args.amount) (.genericError 1 "Overflow")
  demand (amount ≠ 0) (.genericError errCodeZeroAmount errMsgZeroAmount)
  let fromKey := args.source.encodeKey
  let toKey := args.dest.encodeKey
  let spender : Account := ⟨caller, args.spenderSubaccount⟩
  let allowanceKey := compoundKey fromKey spender.encodeKey
  let totalDebit ← lift ((checkedTotalDebit amount fee).mapError TransferFromError.ofTransfer)
  checkWindow now args.createdAtTime (.createdInFuture now) .tooOld
  let dedupKey ← checkDuplicate args.createdAtTime
    (transferFromDedupKey E args.source spender args.dest amount args.fee args.memo) .duplicate
  let poolReceipt ← poolReceiptGate E spender args amount
  let spendable ← read fun s => effectiveAt now s.allowances allowanceKey
  let expiresAt ← read fun s => previousExpiry s.allowances allowanceKey
  demand (totalDebit ≤ spendable) (.insufficientAllowance spendable)
  let newAllow ← need (checkedSub spendable totalDebit) (.insufficientAllowance spendable)
  let fromBal ← getBalance fromKey
  let locked ← getLock fromKey
  let liquid := fromBal - locked
  demand (totalDebit ≤ liquid) (.insufficientFunds liquid)
  let newFrom ← need (checkedSub fromBal totalDebit) (.insufficientFunds liquid)
  let stored ← getBalance toKey
  let toBase := if toKey = fromKey then newFrom else stored
  let newTo ← lift ((checkedCredit toBase amount).mapError TransferFromError.ofTransfer)
  writeAllowances fun b =>
    if newAllow = 0 then removeAllowance allowanceKey expiresAt b
    else putAllowance allowanceKey expiresAt ⟨newAllow, expiresAt⟩ b
  writeBalance fromKey fromBal newFrom
  writeBalance toKey toBase newTo
  routeFeeToTreasury fee
  let block ← nextBlock
  writeReceipt poolReceipt block amount fee now
  recordDedupKey now dedupKey block
  pure block

/-! ### Receipts -/

inductive ReceiptLookup where
  | found (receipt : DepositReceiptV1)
  | unrecorded
  | retiredOrUnavailable
  deriving DecidableEq, Repr

inductive CloseOutcome where
  | applied (receipt : DepositReceiptV1)
  | cancelled (receipt : DepositReceiptV1)
  | retiredOrUnavailable
  deriving DecidableEq, Repr

/-- What both receipt endpoints derive: the operation, the request and the dedup key. -/
structure ReceiptKeys where
  key : Bytes32
  requestHash : Bytes32
  dedup : Bytes32

/-- The caller is checked before anything is derived or read. -/
def receiptLookupPreamble (E : Env) (caller : Principal) (args : DepositAttemptArgs) :
    Endpoint ReceiptError ReceiptKeys := do
  let configured ← read fun s => s.poolCanister
  demand (configured = some caller) .unauthorized
  match args.memo, args.createdAtTime with
  | some memo, some createdAtTime => do
    demand (memo.length ≤ maxDepositMemoLen) .unsupportedProtocol
    let amount ← need (toU128 args.amount) .unsupportedProtocol
    let spender : Account := ⟨caller, args.spenderSubaccount⟩
    pure ⟨depositOperationId E memo,
      depositRequestHash E args.source spender args.dest amount args.fee args.memo createdAtTime,
      transferFromDedupKey E args.source spender args.dest amount args.fee args.memo createdAtTime⟩
  | _, _ => fail .unsupportedProtocol

def getDepositReceipt (E : Env) (caller : Principal) (args : DepositAttemptArgs) :
    Endpoint ReceiptError ReceiptLookup := do
  let keys ← receiptLookupPreamble E caller args
  let existing ← read fun s => s.receipts[keys.key]?
  match existing with
  | some receipt => do
    demand (receipt.requestHash = keys.requestHash) .requestMismatch
    pure (.found receipt)
  | none => do
    let known ← read fun s => s.dedup.rows.contains keys.dedup
    pure (if known then .retiredOrUnavailable else .unrecorded)

/-- Close what is not applied. -/
def closeDepositAttempt (E : Env) (now : Nat) (caller : Principal) (args : DepositAttemptArgs) :
    Endpoint ReceiptError CloseOutcome := do
  let keys ← receiptLookupPreamble E caller args
  let existing ← read fun s => s.receipts[keys.key]?
  match existing with
  | some receipt => do
    demand (receipt.requestHash = keys.requestHash) .requestMismatch
    pure (match receipt with
      | .applied .. => .applied receipt
      | .cancelled .. => .cancelled receipt)
  | none => do
    let known ← read fun s => s.dedup.rows.contains keys.dedup
    if known then
      pure .retiredOrUnavailable
    else do
      let held ← read fun s => s.receipts.size
      demand (held < maxDepositReceipts) .unsupportedProtocol
      write fun s => {s with receipts := s.receipts.insert keys.key (.cancelled keys.requestHash now)}
      pure (.cancelled (.cancelled keys.requestHash now))

/-! ### Staking -/

def lockForStaking (caller holder : Principal) (amount : Nat) : Endpoint String Unit := do
  assertStakingCanister caller
  let key := (⟨holder, none⟩ : Account).encodeKey
  let bal ← getBalance key
  let currentlyLocked ← getLock key
  let liquid := bal - currentlyLocked
  demand (amount ≤ liquid) s!"Insufficient liquid balance: {liquid} < {amount}"
  let newLocked ← need (checkedAdd128 currentlyLocked amount) "staking lock overflow"
  writeLock key currentlyLocked newLocked

def unlockFromStaking (caller holder : Principal) (amount : Nat) : Endpoint String Unit := do
  assertStakingCanister caller
  let key := (⟨holder, none⟩ : Account).encodeKey
  let locked ← getLock key
  demand (amount ≤ locked) s!"Cannot unlock {amount} — only {locked} locked"
  let newLocked ← need (checkedSub locked amount) "staking unlock underflow"
  writeLock key locked newLocked

/-! ### Queries -/

def icrc1BalanceOf (s : TokenState) (account : Account) : Nat := s.vault.balances.get account.encodeKey

def stakingLockedBalance (s : TokenState) (holder : Principal) : Nat :=
  s.vault.locks.get (⟨holder, none⟩ : Account).encodeKey

/-- An expired approval reads as no approval. -/
def icrc2Allowance (now : Nat) (s : TokenState) (args : AllowanceArgs) : Allowance :=
  let key := compoundKey args.account.encodeKey args.spender.encodeKey
  let record := (s.allowances.rows[key]?).getD ⟨0, none⟩
  if allowanceIsExpired record.expiresAt now then
    ⟨0, none⟩
  else
    ⟨effectiveAllowance record now, record.expiresAt⟩

end StshProtocol.Token
