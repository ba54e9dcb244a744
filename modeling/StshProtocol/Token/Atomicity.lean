import StshProtocol.Token.Endpoints

/-! An error answered by the token commits nothing.

Each endpoint reads and checks first and writes last: every step that can answer an
error is read-only, and the writes that follow the last of them can only trap. Both
halves are read off the endpoint step by step. -/
namespace StshProtocol.Token
open Foundation ShieldedPool Handler

section Steps
variable {ε : Type}

theorem readOnly_getBalance (key : Bytes) : (getBalance key : Endpoint ε Nat).ReadOnly :=
  readOnly_read _

theorem readOnly_getLock (key : Bytes) : (getLock key : Endpoint ε Nat).ReadOnly := readOnly_read _

theorem readOnly_windowAnswer (check : WindowCheck) (e₁ e₂ : ε) :
    (windowAnswer check e₁ e₂).ReadOnly := by
  cases check with
  | admitted => exact readOnly_pure ()
  | createdInFuture => exact readOnly_fail e₁
  | tooOld => exact readOnly_fail e₂
  | overflow => exact readOnly_trap _

theorem readOnly_checkWindow (now : Nat) (o : Option Nat) (e₁ e₂ : ε) :
    (checkWindow now o e₁ e₂).ReadOnly := by
  cases o with
  | none => exact readOnly_pure ()
  | some c => exact readOnly_windowAnswer (windowCheck now c) e₁ e₂

theorem readOnly_checkDuplicate (o : Option Nat) (key : Nat → Bytes32) (dup : Nat → ε) :
    (checkDuplicate o key dup).ReadOnly := by
  cases o with
  | none => exact readOnly_pure none
  | some c =>
    exact (readOnly_read _).bind fun _ => (readOnly_refuseSome _).bind fun _ => readOnly_pure _

theorem readOnly_poolReceiptGate (E : Env) (spender : Account) (args : TransferFromArgs)
    (amount : Nat) : (poolReceiptGate E spender args amount).ReadOnly := by
  refine (readOnly_read _).bind fun pool => ?_
  split
  · exact readOnly_pure none
  · split
    · refine (readOnly_demand _ _).bind fun _ => (readOnly_read _).bind fun existing => ?_
      split
      · exact readOnly_fail _
      · exact readOnly_fail _
      · exact (readOnly_read _).bind fun _ => (readOnly_demand _ _).bind fun _ => readOnly_pure _
    · exact readOnly_fail _

theorem readOnly_receiptLookupPreamble (E : Env) (caller : Principal) (args : DepositAttemptArgs) :
    (receiptLookupPreamble E caller args).ReadOnly := by
  refine (readOnly_read _).bind fun _ => (readOnly_demand _ _).bind fun _ => ?_
  split
  · exact (readOnly_demand _ _).bind fun _ => (readOnly_need _ _).bind fun _ => readOnly_pure _
  · exact readOnly_fail _

theorem readOnly_assertStakingCanister (caller : Principal) :
    (assertStakingCanister caller : Endpoint ε Unit).ReadOnly := by
  refine (readOnly_read _).bind fun configured => ?_
  cases configured with
  | none => exact (readOnly_trap _).bind fun _ => readOnly_assert _ _
  | some p => exact (readOnly_pure p).bind fun _ => readOnly_assert _ _

theorem sure_writeBalance (key : Bytes) (old new : Nat) :
    (writeBalance key old new : Endpoint ε Unit).Sure :=
  (sure_read _).bind fun _ => (sure_expect _ _).bind fun _ => sure_write _

theorem sure_writeLock (key : Bytes) (old new : Nat) :
    (writeLock key old new : Endpoint ε Unit).Sure :=
  (sure_read _).bind fun _ => (sure_expect _ _).bind fun _ => sure_write _

theorem sure_routeFee (fee : Nat) : (routeFeeToTreasury fee : Endpoint ε Unit).Sure :=
  (sure_read _).bind fun _ => (sure_read _).bind fun _ => (sure_expect _ _).bind fun _ => sure_write _

theorem sure_nextBlock : (nextBlock : Endpoint ε Nat).Sure :=
  (sure_read _).bind fun _ => (sure_assert _ _).bind fun _ => (sure_write _).bind fun _ => sure_pure _

theorem sure_recordDedupKey (now : Nat) (k : Option (Bytes32 × Nat)) (block : Nat) :
    (recordDedupKey now k block : Endpoint ε Unit).Sure := by
  cases k with
  | none => exact sure_pure ()
  | some k => exact sure_write _

theorem sure_writeReceipt (ctx : Option PoolReceiptContext) (block amount fee now : Nat) :
    (writeReceipt ctx block amount fee now : Endpoint ε Unit).Sure := by
  cases ctx with
  | none => exact sure_pure ()
  | some ctx => exact sure_write _

end Steps

variable (E : Env) (now : Nat) (caller : Principal)

theorem atomic_icrc1Transfer (args : TransferArgs) : (icrc1Transfer E now caller args).Atomic := by
  refine (readOnly_read _).bind_atomic fun fee => (readOnly_demand _ _).bind_atomic fun _ => ?_
  refine (readOnly_checkWindow _ _ _ _).bind_atomic fun _ => (readOnly_need _ _).bind_atomic fun _ => ?_
  refine (readOnly_demand _ _).bind_atomic fun _ => (readOnly_lift _).bind_atomic fun _ => ?_
  refine (readOnly_checkDuplicate _ _ _).bind_atomic fun _ => (readOnly_getBalance _).bind_atomic fun _ => ?_
  refine (readOnly_getLock _).bind_atomic fun _ => (readOnly_demand _ _).bind_atomic fun _ => ?_
  refine (readOnly_need _ _).bind_atomic fun _ => (readOnly_getBalance _).bind_atomic fun _ => ?_
  refine (readOnly_lift _).bind_atomic fun _ => Sure.atomic ?_
  -- The last check has passed.
  refine (sure_writeBalance _ _ _).bind fun _ => (sure_writeBalance _ _ _).bind fun _ => ?_
  exact (sure_routeFee _).bind fun _ => sure_nextBlock.bind fun _ =>
    (sure_recordDedupKey _ _ _).bind fun _ => sure_pure _

theorem atomic_icrc2Approve (cap : Nat) (args : ApproveArgs) :
    (icrc2ApproveReclaiming cap E now caller args).Atomic := by
  refine (readOnly_read _).bind_atomic fun fee => (readOnly_demand _ _).bind_atomic fun _ => ?_
  refine (readOnly_checkWindow _ _ _ _).bind_atomic fun _ => ?_
  refine (readOnly_checkDuplicate _ _ _).bind_atomic fun _ => (readOnly_lift _).bind_atomic fun _ => ?_
  refine (readOnly_need _ _).bind_atomic fun _ => (readOnly_read _).bind_atomic fun _ => ?_
  refine (readOnly_read _).bind_atomic fun _ => (readOnly_demand _ _).bind_atomic fun _ => ?_
  refine (readOnly_demand _ _).bind_atomic fun _ => (readOnly_getBalance _).bind_atomic fun _ => ?_
  refine (readOnly_getLock _).bind_atomic fun _ => (readOnly_demand _ _).bind_atomic fun _ => ?_
  refine (readOnly_need _ _).bind_atomic fun _ => Sure.atomic ?_
  refine (sure_writeBalance _ _ _).bind fun _ => (sure_routeFee _).bind fun _ => ?_
  exact (sure_write _).bind fun _ => (sure_write _).bind fun _ => sure_nextBlock.bind fun _ =>
    (sure_recordDedupKey _ _ _).bind fun _ => sure_pure _

theorem atomic_icrc2TransferFrom (args : TransferFromArgs) :
    (icrc2TransferFrom E now caller args).Atomic := by
  refine (readOnly_read _).bind_atomic fun fee => (readOnly_demand _ _).bind_atomic fun _ => ?_
  refine (readOnly_need _ _).bind_atomic fun _ => (readOnly_demand _ _).bind_atomic fun _ => ?_
  refine (readOnly_lift _).bind_atomic fun _ => (readOnly_checkWindow _ _ _ _).bind_atomic fun _ => ?_
  refine (readOnly_checkDuplicate _ _ _).bind_atomic fun _ => ?_
  refine (readOnly_poolReceiptGate _ _ _ _).bind_atomic fun _ => (readOnly_read _).bind_atomic fun _ => ?_
  refine (readOnly_read _).bind_atomic fun _ => (readOnly_demand _ _).bind_atomic fun _ => ?_
  refine (readOnly_need _ _).bind_atomic fun _ => (readOnly_getBalance _).bind_atomic fun _ => ?_
  refine (readOnly_getLock _).bind_atomic fun _ => (readOnly_demand _ _).bind_atomic fun _ => ?_
  refine (readOnly_need _ _).bind_atomic fun _ => (readOnly_getBalance _).bind_atomic fun _ => ?_
  refine (readOnly_lift _).bind_atomic fun _ => Sure.atomic ?_
  refine (sure_write _).bind fun _ => (sure_writeBalance _ _ _).bind fun _ => ?_
  refine (sure_writeBalance _ _ _).bind fun _ => (sure_routeFee _).bind fun _ => ?_
  exact sure_nextBlock.bind fun _ => (sure_writeReceipt _ _ _ _ _).bind fun _ =>
    (sure_recordDedupKey _ _ _).bind fun _ => sure_pure _

theorem readOnly_getDepositReceipt (args : DepositAttemptArgs) :
    (getDepositReceipt E caller args).ReadOnly := by
  refine (readOnly_receiptLookupPreamble _ _ _).bind fun _ => (readOnly_read _).bind fun existing => ?_
  split
  · exact (readOnly_demand _ _).bind fun _ => readOnly_pure _
  · exact (readOnly_read _).bind fun _ => readOnly_pure _

theorem atomic_closeDepositAttempt (args : DepositAttemptArgs) :
    (closeDepositAttempt E now caller args).Atomic := by
  refine (readOnly_receiptLookupPreamble _ _ _).bind_atomic fun _ => ?_
  refine (readOnly_read _).bind_atomic fun existing => ?_
  split
  · exact ((readOnly_demand _ _).bind fun _ => readOnly_pure _).atomic
  · refine (readOnly_read _).bind_atomic fun known => ?_
    split
    · exact (readOnly_pure _).atomic
    · refine (readOnly_read _).bind_atomic fun _ => (readOnly_demand _ _).bind_atomic fun _ => ?_
      exact ((sure_write _).bind fun _ => sure_pure _).atomic

theorem atomic_lockForStaking (holder : Principal) (amount : Nat) :
    (lockForStaking caller holder amount).Atomic := by
  refine (readOnly_assertStakingCanister _).bind_atomic fun _ => ?_
  refine (readOnly_getBalance _).bind_atomic fun _ => (readOnly_getLock _).bind_atomic fun _ => ?_
  refine (readOnly_demand _ _).bind_atomic fun _ => (readOnly_need _ _).bind_atomic fun _ => ?_
  exact (sure_writeLock _ _ _).atomic

theorem atomic_unlockFromStaking (holder : Principal) (amount : Nat) :
    (unlockFromStaking caller holder amount).Atomic := by
  refine (readOnly_assertStakingCanister _).bind_atomic fun _ => ?_
  refine (readOnly_getLock _).bind_atomic fun _ => (readOnly_demand _ _).bind_atomic fun _ => ?_
  exact (readOnly_need _ _).bind_atomic fun _ => (sure_writeLock _ _ _).atomic

end StshProtocol.Token
