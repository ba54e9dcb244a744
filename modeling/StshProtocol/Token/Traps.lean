import StshProtocol.Token.Runs

/-! Where the write funnel's `expect` could be taken.

A running total that cannot follow a write traps the message. Each endpoint reaches
the funnel only with its checks passed, so it stops there only if a transfer, a charge
or a lock that the checks allow could not be carried out (`step_stuck`). -/
namespace StshProtocol.Token
open Foundation ShieldedPool Handler

/-! ### The funnel's `expect` -/

section Traps
variable {ε : Type} {s : TokenState}

theorem checkWindow_trap {now : Nat} {o : Option Nat} {e₁ e₂ : ε} :
    (checkWindow now o e₁ e₂).exec s ≠ .error .runningTotal := by
  cases o with
  | none => exact pure_no_trap
  | some c =>
    show (windowAnswer (windowCheck now c) e₁ e₂).exec s ≠ .error .runningTotal
    cases windowCheck now c <;> simp [windowAnswer, pure_no_trap, fail_no_trap, trap_trap_iff]

theorem checkDuplicate_trap {o : Option Nat} {key : Nat → Bytes32} {dup : Nat → ε} {r : Trap} :
    (checkDuplicate o key dup).exec s ≠ .error r := by
  cases o with
  | none => exact pure_no_trap
  | some c =>
    simp only [checkDuplicate, ne_eq, bind_trap_iff, read_no_trap, refuseSome_no_trap, pure_no_trap,
      and_false, exists_false, or_self, not_false_eq_true]

theorem writeBalance_trap_iff {key : Bytes} {old new : Nat} :
    (writeBalance key old new : Endpoint ε Unit).exec s = .error .runningTotal ↔
      s.vault.writeBalance key old new = none := by
  simp only [writeBalance, bind_trap_iff, read_no_trap, read_ok_iff, expect_trap_iff, expect_ok_iff,
    write_no_trap, false_or, and_assoc, exists_and_left, exists_eq_left, and_true, and_false,
    exists_false, or_false]

theorem writeLock_trap_iff {key : Bytes} {old new : Nat} :
    (writeLock key old new : Endpoint ε Unit).exec s = .error .runningTotal ↔
      s.vault.writeLock key old new = none := by
  simp only [writeLock, bind_trap_iff, read_no_trap, read_ok_iff, expect_trap_iff, expect_ok_iff,
    write_no_trap, false_or, and_assoc, exists_and_left, exists_eq_left, and_true, and_false,
    exists_false, or_false]

theorem routeFee_trap_iff {fee : Nat} :
    (routeFeeToTreasury fee : Endpoint ε Unit).exec s = .error .runningTotal ↔
      s.vault.routeFee (feeRecipient s) fee = none := by
  simp only [routeFeeToTreasury, bind_trap_iff, read_no_trap, read_ok_iff, expect_trap_iff,
    expect_ok_iff, write_no_trap, false_or, and_assoc, exists_and_left, exists_eq_left, and_true,
    and_false, exists_false, or_false]

theorem nextBlock_trap : (nextBlock : Endpoint ε Nat).exec s ≠ .error .runningTotal := by
  simp only [nextBlock, ne_eq, bind_trap_iff, read_no_trap, assert_trap_iff, write_no_trap,
    pure_no_trap, reduceCtorEq, and_false, exists_false, or_self, not_false_eq_true]

theorem recordDedupKey_trap {now block : Nat} {k : Option (Bytes32 × Nat)} {r : Trap} :
    (recordDedupKey now k block : Endpoint ε Unit).exec s ≠ .error r := by
  cases k with
  | none => exact pure_no_trap
  | some k => exact write_no_trap

theorem poolReceiptGate_trap {E : Env} {spender : Account} {args : TransferFromArgs} {amount : Nat}
    {r : Trap} : (poolReceiptGate E spender args amount).exec s ≠ .error r := by
  simp only [poolReceiptGate, ne_eq, bind_trap_iff, read_no_trap, read_ok_iff, false_or, and_assoc,
    exists_and_left, exists_eq_left]
  split
  · exact pure_no_trap
  · split
    · simp only [bind_trap_iff, demand_no_trap, demand_ok_iff, read_no_trap, read_ok_iff, false_or,
        and_assoc, exists_and_left, exists_eq_left, exists_const, not_and]
      intro _
      split
      · exact fail_no_trap
      · exact fail_no_trap
      · simp only [bind_trap_iff, read_no_trap, demand_no_trap, pure_no_trap, and_false,
          exists_false, or_self, not_false_eq_true]
    · exact fail_no_trap

theorem writeReceipt_trap {ctx : Option PoolReceiptContext} {block amount fee now : Nat} {r : Trap} :
    (writeReceipt ctx block amount fee now : Endpoint ε Unit).exec s ≠ .error r := by
  cases ctx with
  | none => exact pure_no_trap
  | some ctx => exact write_no_trap

theorem assertStakingCanister_trap {caller : Principal} :
    (assertStakingCanister caller : Endpoint ε Unit).exec s ≠ .error .runningTotal := by
  simp only [assertStakingCanister, ne_eq, bind_trap_iff, read_no_trap, expect_trap_iff,
    assert_trap_iff, reduceCtorEq, and_false, exists_false, or_self, not_false_eq_true]

end Traps

theorem bind_none_of {α β : Type} {o : Option α} {f : α → Option β}
    (h : o = none ∨ ∃ a, o = some a ∧ f a = none) : o.bind f = none := by
  rcases h with rfl | ⟨a, rfl, h⟩
  · rfl
  · exact h

section Endpoints
variable {E : Env} {now : Nat} {caller : Principal} {s : TokenState}

/-- A transfer stops at the funnel only where its writes cannot be carried out. -/
theorem icrc1Transfer_trap {args : TransferArgs}
    (h : (icrc1Transfer E now caller args).exec s = .error .runningTotal) :
    ∃ fromKey toKey amount, amount + s.transferFee ≤ s.vault.liquid fromKey ∧
      s.vault.pay fromKey toKey amount s.transferFee (feeRecipient s) = none := by
  simp only [icrc1Transfer, bind_trap_iff, read_ok_iff, demand_ok_iff,
    checkWindow_ok_iff, need_ok_iff, lift_ok_iff, checkDuplicate_ok_iff, getBalance, getLock,
    writeBalance_ok_iff, read_no_trap, demand_no_trap, checkWindow_trap, need_no_trap, lift_no_trap,
    checkDuplicate_trap, writeBalance_trap_iff, routeFee_trap_iff, nextBlock_trap,
    recordDedupKey_trap, pure_no_trap, and_assoc, exists_and_left, exists_eq_left,
    exists_exists_and_eq_and, exists_const, false_or, or_false, and_false, exists_false] at h
  obtain ⟨-, -, amount, hamount, -, total, htotal, -, hliquid, newFrom, hnewFrom, newTo, hnewTo, h⟩ := h
  obtain rfl := checkedTotalDebit_ok htotal
  obtain rfl := (checkedSub_eq hnewFrom).1
  obtain rfl := checkedCredit_ok hnewTo
  refine ⟨_, args.dest.encodeKey, amount, hliquid, bind_none_of (h.imp_right fun h => ?_)⟩
  obtain ⟨v, hv, h⟩ := h
  exact ⟨v, hv, bind_none_of h⟩

theorem icrc2Approve_trap {cap : Nat} {args : ApproveArgs}
    (h : (icrc2ApproveReclaiming cap E now caller args).exec s = .error .runningTotal) :
    ∃ key, s.transferFee ≤ s.vault.liquid key ∧
      s.vault.charge key s.transferFee (feeRecipient s) = none := by
  simp only [icrc2ApproveReclaiming, bind_trap_iff, read_ok_iff, demand_ok_iff,
    checkWindow_ok_iff, need_ok_iff, lift_ok_iff, checkDuplicate_ok_iff, getBalance, getLock,
    writeBalance_ok_iff, writeAllowances, read_no_trap, write_no_trap, demand_no_trap,
    checkWindow_trap, need_no_trap, lift_no_trap, checkDuplicate_trap, writeBalance_trap_iff,
    routeFee_trap_iff, nextBlock_trap, recordDedupKey_trap, pure_no_trap, and_assoc, exists_and_left,
    exists_eq_left, exists_exists_and_eq_and, exists_const, false_or, or_false, and_false,
    exists_false] at h
  obtain ⟨-, -, -, e, -, amount, -, -, -, hliquid, newBal, hnewBal, h⟩ := h
  obtain rfl := (checkedSub_eq hnewBal).1
  exact ⟨_, hliquid, bind_none_of h⟩

theorem icrc2TransferFrom_trap {args : TransferFromArgs}
    (h : (icrc2TransferFrom E now caller args).exec s = .error .runningTotal) :
    ∃ fromKey toKey amount, amount + s.transferFee ≤ s.vault.liquid fromKey ∧
      s.vault.pay fromKey toKey amount s.transferFee (feeRecipient s) = none := by
  simp only [icrc2TransferFrom, bind_trap_iff, read_ok_iff, demand_ok_iff, checkWindow_ok_iff,
    need_ok_iff, lift_ok_iff, checkDuplicate_ok_iff, getBalance, getLock, writeBalance_ok_iff,
    poolReceiptGate_ok_iff, writeAllowances, read_no_trap, write_no_trap,
    write_ok_iff, demand_no_trap, checkWindow_trap, need_no_trap, lift_no_trap, checkDuplicate_trap,
    poolReceiptGate_trap, writeBalance_trap_iff, routeFee_trap_iff, nextBlock_trap,
    writeReceipt_trap, recordDedupKey_trap, pure_no_trap, and_assoc, exists_and_left,
    exists_eq_left, exists_exists_and_eq_and, exists_const, false_or, or_false, and_false,
    exists_false] at h
  obtain ⟨-, amount, hamount, -, total, htotal, -, -, ctx, -, -, newAllow, -, hliquid, newFrom,
    hnewFrom, newTo, hnewTo, h⟩ := h
  obtain rfl := checkedTotalDebit_ok (mapError_ok htotal)
  obtain rfl := (checkedSub_eq hnewFrom).1
  obtain rfl := checkedCredit_ok (mapError_ok hnewTo)
  refine ⟨_, args.dest.encodeKey, amount, hliquid, bind_none_of (h.imp_right fun h => ?_)⟩
  obtain ⟨v, hv, h⟩ := h
  exact ⟨v, hv, bind_none_of h⟩

theorem lockForStaking_trap {holder : Principal} {amount : Nat}
    (h : (lockForStaking caller holder amount).exec s = .error .runningTotal) :
    ∃ key, amount ≤ s.vault.liquid key ∧
      s.vault.writeLock key (s.vault.locks.get key) (s.vault.locks.get key + amount) = none := by
  simp only [lockForStaking, bind_trap_iff, read_ok_iff, demand_ok_iff, need_ok_iff, getBalance,
    getLock, assertStakingCanister_ok_iff, assertStakingCanister_trap, read_no_trap, demand_no_trap,
    need_no_trap, writeLock_trap_iff, and_assoc, exists_and_left, exists_eq_left, exists_const,
    false_or] at h
  obtain ⟨-, hliquid, newLocked, hnew, h⟩ := h
  obtain rfl := (checkedAdd128_eq hnew).1
  exact ⟨_, hliquid, h⟩

theorem unlockFromStaking_trap {holder : Principal} {amount : Nat}
    (h : (unlockFromStaking caller holder amount).exec s = .error .runningTotal) :
    ∃ key, amount ≤ s.vault.locks.get key ∧
      s.vault.writeLock key (s.vault.locks.get key) (s.vault.locks.get key - amount) = none := by
  simp only [unlockFromStaking, bind_trap_iff, read_ok_iff, demand_ok_iff, need_ok_iff, getLock,
    assertStakingCanister_ok_iff, assertStakingCanister_trap, read_no_trap, demand_no_trap,
    need_no_trap, writeLock_trap_iff, and_assoc, exists_and_left, exists_eq_left, exists_const,
    false_or] at h
  obtain ⟨-, hle, newLocked, hnew, h⟩ := h
  obtain rfl := (checkedSub_eq hnew).1
  exact ⟨_, hle, h⟩

theorem versionArm_trap {c : TokenStableState} :
    (versionArm now c).exec s ≠ .error .runningTotal := by
  unfold versionArm
  split
  · exact pure_no_trap
  · split
    · simp only [seedTotalsState, ne_eq, bind_trap_iff, read_no_trap, assert_trap_iff,
        expect_trap_iff, pure_no_trap, reduceCtorEq, and_false, exists_false, or_self,
        not_false_eq_true]
    · split
      · simp only [migrateDedupIndexV1ToV2, seedTotalsState, ne_eq, bind_trap_iff, read_no_trap,
          assert_trap_iff, expect_trap_iff, write_no_trap, pure_no_trap, reduceCtorEq, and_false,
          exists_false, or_self, not_false_eq_true]
      · simp only [ne_eq, trap_trap_iff, reduceCtorEq, not_false_eq_true]

theorem upgrade_trap : (upgrade now).exec s ≠ .error .runningTotal := by
  simp only [upgrade, preUpgrade, postUpgrade, restoreFromCheckpoint, ne_eq, bind_trap_iff,
    read_no_trap, write_no_trap, expect_trap_iff, assert_trap_iff, versionArm_trap, reduceCtorEq,
    and_false, exists_false, or_self, not_false_eq_true]

theorem receiptLookupPreamble_trap {args : DepositAttemptArgs} {r : Trap} :
    (receiptLookupPreamble E caller args).exec s ≠ .error r := by
  simp only [receiptLookupPreamble, ne_eq, bind_trap_iff, read_no_trap, read_ok_iff, demand_no_trap,
    demand_ok_iff, false_or, and_assoc, exists_and_left, exists_eq_left, exists_const, not_and]
  intro _
  split
  · simp only [bind_trap_iff, demand_no_trap, need_no_trap, pure_no_trap, and_false, exists_false,
      or_self, not_false_eq_true]
  · exact fail_no_trap

theorem getDepositReceipt_trap {args : DepositAttemptArgs} {r : Trap} :
    (getDepositReceipt E caller args).exec s ≠ .error r := by
  simp only [getDepositReceipt, ne_eq, bind_trap_iff, receiptLookupPreamble_trap, read_no_trap,
    false_or, not_exists, not_and]
  intro keys u _ existing v _
  split
  · simp only [bind_trap_iff, demand_no_trap, pure_no_trap, and_false, exists_false, or_self,
      not_false_eq_true]
  · simp only [bind_trap_iff, read_no_trap, pure_no_trap, and_false, exists_false, or_self,
      not_false_eq_true]

theorem closeDepositAttempt_trap {args : DepositAttemptArgs} {r : Trap} :
    (closeDepositAttempt E now caller args).exec s ≠ .error r := by
  simp only [closeDepositAttempt, ne_eq, bind_trap_iff, receiptLookupPreamble_trap, read_no_trap,
    false_or, not_exists, not_and]
  intro keys u _ existing v _
  split
  · simp only [bind_trap_iff, demand_no_trap, pure_no_trap, and_false, exists_false, or_self,
      not_false_eq_true]
  · simp only [bind_trap_iff, read_no_trap, false_or, not_exists, not_and]
    intro known w _
    split
    · exact pure_no_trap
    · simp only [bind_trap_iff, read_no_trap, demand_no_trap, write_no_trap, pure_no_trap, and_false,
        exists_false, or_self, not_false_eq_true]

end Endpoints

/-- A write the checks allow that the funnel cannot carry out. -/
inductive Stuck (fee : Nat) (v : Vault) : Prop where
  | pay {fromKey toKey : Bytes} {amount : Nat} {recipient : Option Principal}
      (hle : amount + fee ≤ v.liquid fromKey) (h : v.pay fromKey toKey amount fee recipient = none)
  | charge {key : Bytes} {recipient : Option Principal} (hle : fee ≤ v.liquid key)
      (h : v.charge key fee recipient = none)
  | lock {key : Bytes} {amount : Nat} (hle : amount ≤ v.liquid key)
      (h : v.writeLock key (v.locks.get key) (v.locks.get key + amount) = none)
  | unlock {key : Bytes} {amount : Nat} (hle : amount ≤ v.locks.get key)
      (h : v.writeLock key (v.locks.get key) (v.locks.get key - amount) = none)

theorem respond_trapped {ε α : Type} {reply : Except ε α → Answer} {s : TokenState}
    {r : Except Trap (Except ε α × TokenState)} {q : Trap} (h : (respond reply s r).1 = .trapped q)
    (hreply : ∀ a, reply a ≠ .trapped q) : r = .error q := by
  match r with
  | .ok (a, t) => exact absurd h (hreply a)
  | .error trap =>
    cases h
    rfl

theorem step_stuck {cap : Nat} {E : Env} {m : Message} {s : TokenState}
    (h : (stepReclaiming cap E m s).1 = .trapped .runningTotal) : Stuck s.transferFee s.vault := by
  unfold stepReclaiming at h
  split at h
  · obtain ⟨_, _, _, hle, hn⟩ := icrc1Transfer_trap (respond_trapped h fun _ => nofun)
    exact .pay hle hn
  · obtain ⟨_, hle, hn⟩ := icrc2Approve_trap (respond_trapped h fun _ => nofun)
    exact .charge hle hn
  · obtain ⟨_, _, _, hle, hn⟩ := icrc2TransferFrom_trap (respond_trapped h fun _ => nofun)
    exact .pay hle hn
  · obtain ⟨_, hle, hn⟩ := lockForStaking_trap (respond_trapped h fun _ => nofun)
    exact .lock hle hn
  · obtain ⟨_, hle, hn⟩ := unlockFromStaking_trap (respond_trapped h fun _ => nofun)
    exact .unlock hle hn
  · exact absurd (respond_trapped h fun _ => nofun) getDepositReceipt_trap
  · exact absurd (respond_trapped h fun _ => nofun) closeDepositAttempt_trap
  · nomatch h
  · nomatch h
  · exact absurd (respond_trapped h fun _ => nofun) upgrade_trap

end StshProtocol.Token
