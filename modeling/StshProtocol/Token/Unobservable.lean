import StshProtocol.Token.Reclamation

/-! Nobody can tell whether reclamation ran.

Most endpoints do not look at the allowances at all, and ignore what is put in their
place (`Ignores`). The two that do read of them only what has not expired: on two tokens
that differ in expired allowances (`Alike`) every message is answered alike and leaves
two such tokens (`step_alike`), though one reclaims and the other does not. -/
namespace StshProtocol.Token
open Foundation ShieldedPool Handler

/-- The same token with other allowances. -/
def withAllowances (A : Allowances) (s : TokenState) : TokenState := {s with allowances := A}

/-! ### What does not look at the allowances -/

section Steps
variable {ε : Type} (A : Allowances)

theorem ignores_getBalance (key : Bytes) :
    Ignores (withAllowances A) (getBalance key : Endpoint ε Nat) := ignores_read fun _ => rfl

theorem ignores_getLock (key : Bytes) :
    Ignores (withAllowances A) (getLock key : Endpoint ε Nat) := ignores_read fun _ => rfl

theorem ignores_windowAnswer (check : WindowCheck) (e₁ e₂ : ε) :
    Ignores (withAllowances A) (windowAnswer check e₁ e₂) := by
  cases check with
  | admitted => exact ignores_pure ()
  | createdInFuture => exact ignores_fail e₁
  | tooOld => exact ignores_fail e₂
  | overflow => exact ignores_trap _

theorem ignores_checkWindow (now : Nat) (o : Option Nat) (e₁ e₂ : ε) :
    Ignores (withAllowances A) (checkWindow now o e₁ e₂) := by
  cases o with
  | none => exact ignores_pure ()
  | some c => exact ignores_windowAnswer A (windowCheck now c) e₁ e₂

theorem ignores_checkDuplicate (o : Option Nat) (key : Nat → Bytes32) (dup : Nat → ε) :
    Ignores (withAllowances A) (checkDuplicate o key dup) := by
  cases o with
  | none => exact ignores_pure none
  | some c =>
    exact Ignores.bind (ignores_read fun _ => rfl) fun _ => (ignores_refuseSome _).bind fun _ =>
        ignores_pure _

theorem ignores_poolReceiptGate (E : Env) (spender : Account) (args : TransferFromArgs)
    (amount : Nat) : Ignores (withAllowances A) (poolReceiptGate E spender args amount) := by
  refine Ignores.bind (ignores_read fun _ => rfl) fun pool => ?_
  split
  · exact ignores_pure none
  · split
    · refine (ignores_demand _ _).bind fun _ => Ignores.bind (ignores_read fun _ =>
          rfl) fun existing => ?_
      split
      · exact ignores_fail _
      · exact ignores_fail _
      · refine Ignores.bind (ignores_read fun _ => rfl) fun _ => (ignores_demand _ _).bind fun _ => ?_
        exact ignores_pure _
    · exact ignores_fail _

theorem ignores_receiptLookupPreamble (E : Env) (caller : Principal) (args : DepositAttemptArgs) :
    Ignores (withAllowances A) (receiptLookupPreamble E caller args) := by
  refine Ignores.bind (ignores_read fun _ => rfl) fun _ => (ignores_demand _ _).bind fun _ => ?_
  split
  · exact (ignores_demand _ _).bind fun _ => (ignores_need _ _).bind fun _ => ignores_pure _
  · exact ignores_fail _

theorem ignores_assertStakingCanister (caller : Principal) :
    Ignores (withAllowances A) (assertStakingCanister caller : Endpoint ε Unit) :=
  Ignores.bind (ignores_read fun _ => rfl) fun _ => (ignores_expect _ _).bind fun _ => ignores_assert _ _

theorem ignores_writeBalance (key : Bytes) (old new : Nat) :
    Ignores (withAllowances A) (writeBalance key old new : Endpoint ε Unit) :=
  Ignores.bind (ignores_read fun _ => rfl) fun _ => (ignores_expect _ _).bind fun _ =>
      ignores_write fun _ => rfl

theorem ignores_writeLock (key : Bytes) (old new : Nat) :
    Ignores (withAllowances A) (writeLock key old new : Endpoint ε Unit) :=
  Ignores.bind (ignores_read fun _ => rfl) fun _ => (ignores_expect _ _).bind fun _ =>
      ignores_write fun _ => rfl

theorem ignores_routeFee (fee : Nat) :
    Ignores (withAllowances A) (routeFeeToTreasury fee : Endpoint ε Unit) :=
  Ignores.bind (ignores_read fun _ => rfl) fun _ => Ignores.bind (ignores_read fun _ => rfl) fun _ =>
    (ignores_expect _ _).bind fun _ => ignores_write fun _ => rfl

theorem ignores_nextBlock : Ignores (withAllowances A) (nextBlock : Endpoint ε Nat) :=
  Ignores.bind (ignores_read fun _ => rfl) fun _ => (ignores_assert _ _).bind fun _ =>
    Ignores.bind (ignores_write fun _ => rfl) fun _ => ignores_pure _

theorem ignores_recordDedupKey (now : Nat) (k : Option (Bytes32 × Nat)) (block : Nat) :
    Ignores (withAllowances A) (recordDedupKey now k block : Endpoint ε Unit) := by
  cases k with
  | none => exact ignores_pure ()
  | some k => exact ignores_write fun _ => rfl

theorem ignores_writeReceipt (ctx : Option PoolReceiptContext) (block amount fee now : Nat) :
    Ignores (withAllowances A) (writeReceipt ctx block amount fee now : Endpoint ε Unit) := by
  cases ctx with
  | none => exact ignores_pure ()
  | some ctx => exact ignores_write fun _ => rfl

end Steps

section Endpoints
variable (A : Allowances) (E : Env) (now : Nat) (caller : Principal)

theorem ignores_icrc1Transfer (args : TransferArgs) :
    Ignores (withAllowances A) (icrc1Transfer E now caller args) := by
  refine Ignores.bind (ignores_read fun _ => rfl) fun fee => (ignores_demand _ _).bind fun _ => ?_
  refine (ignores_checkWindow A _ _ _ _).bind fun _ => (ignores_need _ _).bind fun _ => ?_
  refine (ignores_demand _ _).bind fun _ => (ignores_lift _).bind fun _ => ?_
  refine (ignores_checkDuplicate A _ _ _).bind fun _ => (ignores_getBalance A _).bind fun _ => ?_
  refine (ignores_getLock A _).bind fun _ => (ignores_demand _ _).bind fun _ => ?_
  refine (ignores_need _ _).bind fun _ => (ignores_getBalance A _).bind fun _ => ?_
  refine (ignores_lift _).bind fun _ => (ignores_writeBalance A _ _ _).bind fun _ => ?_
  refine (ignores_writeBalance A _ _ _).bind fun _ => (ignores_routeFee A _).bind fun _ => ?_
  exact (ignores_nextBlock A).bind fun _ => (ignores_recordDedupKey A _ _ _).bind fun _ => ignores_pure _

theorem ignores_getDepositReceipt (args : DepositAttemptArgs) :
    Ignores (withAllowances A) (getDepositReceipt E caller args) := by
  refine (ignores_receiptLookupPreamble A _ _ _).bind fun _ => ?_
  refine Ignores.bind (ignores_read fun _ => rfl) fun existing => ?_
  split
  · exact (ignores_demand _ _).bind fun _ => ignores_pure _
  · exact Ignores.bind (ignores_read fun _ => rfl) fun _ => ignores_pure _

theorem ignores_closeDepositAttempt (args : DepositAttemptArgs) :
    Ignores (withAllowances A) (closeDepositAttempt E now caller args) := by
  refine (ignores_receiptLookupPreamble A _ _ _).bind fun _ => ?_
  refine Ignores.bind (ignores_read fun _ => rfl) fun existing => ?_
  split
  · exact (ignores_demand _ _).bind fun _ => ignores_pure _
  · refine Ignores.bind (ignores_read fun _ => rfl) fun known => ?_
    split
    · exact ignores_pure _
    · refine Ignores.bind (ignores_read fun _ => rfl) fun _ => (ignores_demand _ _).bind fun _ => ?_
      exact Ignores.bind (ignores_write fun _ => rfl) fun _ => ignores_pure _

theorem ignores_lockForStaking (holder : Principal) (amount : Nat) :
    Ignores (withAllowances A) (lockForStaking caller holder amount) := by
  refine (ignores_assertStakingCanister A _).bind fun _ => (ignores_getBalance A _).bind fun _ => ?_
  refine (ignores_getLock A _).bind fun _ => (ignores_demand _ _).bind fun _ => ?_
  exact (ignores_need _ _).bind fun _ => ignores_writeLock A _ _ _

theorem ignores_unlockFromStaking (holder : Principal) (amount : Nat) :
    Ignores (withAllowances A) (unlockFromStaking caller holder amount) := by
  refine (ignores_assertStakingCanister A _).bind fun _ => (ignores_getLock A _).bind fun _ => ?_
  exact (ignores_demand _ _).bind fun _ => (ignores_need _ _).bind fun _ => ignores_writeLock A _ _ _

theorem ignores_versionArm (c : TokenStableState) :
    Ignores (withAllowances A) (versionArm now c) := by
  have hseed : Ignores (withAllowances A) (seedTotalsState c) :=
    Ignores.bind (ignores_read fun _ => rfl) fun _ => (ignores_assert _ _).bind fun _ =>
      (ignores_expect _ _).bind fun _ => (ignores_expect _ _).bind fun _ => ignores_pure _
  unfold versionArm
  split
  · exact ignores_pure c
  · split
    · exact hseed
    · split
      · refine Ignores.bind ?_ fun _ => hseed
        exact Ignores.bind (ignores_read fun _ => rfl) fun _ => (ignores_assert _ _).bind fun _ =>
          ignores_write fun _ => rfl
      · exact ignores_trap _

theorem ignores_upgrade : Ignores (withAllowances A) (upgrade now) := by
  refine Ignores.bind (ignores_read_bind (fun _ => rfl) fun s => ?_) fun _ => ?_
  · exact (ignores_expect _ _).bind fun _ => (ignores_expect _ _).bind fun _ =>
      ignores_write fun _ => rfl
  · refine Ignores.bind (ignores_write fun _ => rfl) fun _ => Ignores.bind (ignores_read fun _ =>
        rfl) fun _ => ?_
    refine (ignores_expect _ _).bind fun c => (ignores_versionArm A now c).bind fun r => ?_
    refine Ignores.bind ?_ fun _ => Ignores.bind (ignores_read fun _ => rfl) fun _ => ?_
    · exact (ignores_expect _ _).bind fun _ => (ignores_expect _ _).bind fun _ =>
        ignores_write fun _ => rfl
    · exact (ignores_assert _ _).bind fun _ => ignores_write fun _ => rfl

end Endpoints

/-! ### Allowances that differ in what has expired -/

/-- The two show the same rows at `now`. -/
structure Alike (now : Nat) (A A' : Allowances) : Prop where
  kept : Kept A
  kept' : Kept A'
  live : ∀ key, liveAt now A key = liveAt now A' key

namespace Alike
variable {now : Nat} {A A' : Allowances} {key : Bytes}

theorem later (h : Alike now A A') {later : Nat} (hle : now ≤ later) : Alike later A A' :=
  ⟨h.kept, h.kept', fun key => by rw [liveAt_later hle, liveAt_later hle A', h.live]⟩

theorem effective (h : Alike now A A') (key : Bytes) : effectiveAt now A key = effectiveAt now A' key := by
  rw [effectiveAt_eq, effectiveAt_eq, h.live]

theorem live_set {previous expiresAt : Option Nat} {amount : Nat} {k : Bytes} :
    liveAt now (setAllowance k previous amount expiresAt A) key =
      if k = key then
        (if amount = 0 then none else some ⟨amount, expiresAt⟩ : Option AllowanceRecord).filter
          fun r => !allowanceIsExpired r.expiresAt now
      else liveAt now A key := by
  unfold liveAt
  rw [get_set]
  split <;> rfl

theorem set (h : Alike now A A') (k : Bytes) (amount : Nat) {e : Nat} (he : e ≤ u64Max) :
    Alike now (setAllowance k (previousExpiry A k) amount (some e) A)
      (setAllowance k (previousExpiry A' k) amount (some e) A') :=
  ⟨h.kept.setSome he, h.kept'.setSome he, fun key => by rw [live_set, live_set, h.live]⟩

/-- What can be spent shows the same expiry. -/
theorem spend (h : Alike now A A') {k : Bytes} (amount : Nat) (hlive : 0 < effectiveAt now A k) :
    Alike now (setAllowance k (previousExpiry A k) amount (previousExpiry A k) A)
      (setAllowance k (previousExpiry A' k) amount (previousExpiry A' k) A') := by
  obtain ⟨r, hr, hrow, -⟩ := live_of_spendable hlive
  have hrow' : A'.rows[k]? = some r := Option.eq_some_of_filter_eq_some ((h.live k).symm.trans hr)
  have hprev : previousExpiry A' k = previousExpiry A k := by
    rw [previousExpiry, previousExpiry, hrow, hrow']
  refine ⟨h.kept.spend hlive, h.kept'.spend (h.effective k ▸ hlive), fun key => ?_⟩
  rw [live_set, live_set, h.live, hprev]

theorem prune (h : Alike now A A') (hnow : now ≤ u64Max) (cap cap' : Nat) :
    Alike now (pruneExpiredAllowances now cap A) (pruneExpiredAllowances now cap' A') :=
  ⟨h.kept.prune, h.kept'.prune, fun key => by
    rw [h.kept.liveAt_prune hnow (Nat.le_refl _), h.kept'.liveAt_prune hnow (Nat.le_refl _), h.live]⟩

end Alike

/-- The two tokens differ in expired allowances at most. -/
inductive SameBut (now : Nat) : TokenState → TokenState → Prop where
  | mk (t : TokenState) {A A' : Allowances} (h : Alike now A A') :
      SameBut now (withAllowances A t) (withAllowances A' t)

section Endpoints
variable {A A' : Allowances} {E : Env} {now : Nat} {caller : Principal}

/-- The same approval, whatever either reclaims. -/
theorem icrc2Approve_agree (h : Alike now A A') (hnow : now ≤ u64Max) (cap cap' : Nat)
    (args : ApproveArgs) (t : TokenState) :
    Agree (SameBut now) ((icrc2ApproveReclaiming cap E now caller args).exec (withAllowances A t))
      ((icrc2ApproveReclaiming cap' E now caller args).exec (withAllowances A' t)) := by
  have hR : ∀ u, SameBut now (withAllowances A u) (withAllowances A' u) := fun u => .mk u h
  unfold icrc2ApproveReclaiming
  refine agree_read_bind ?_
  refine Ignores.agree_bind (ignores_demand _ _) (ignores_demand _ _) hR fun _ t _ => ?_
  refine (ignores_checkWindow A _ _ _ _).agree_bind (ignores_checkWindow A' _ _ _ _) hR fun _ t _ => ?_
  refine (ignores_checkDuplicate A _ _ _).agree_bind (ignores_checkDuplicate A' _ _ _) hR
    fun dedupKey t _ => ?_
  refine Ignores.agree_bind (ignores_lift _) (ignores_lift _) hR fun e t he => ?_
  have hle := (lifetime_le (lifetime_ok (lift_ok_iff.1 he).1)).1
  refine Ignores.agree_bind (ignores_need _ _) (ignores_need _ _) hR fun amount t _ => ?_
  refine agree_read_bind (agree_read_bind ?_)
  rw [show effectiveAt now (withAllowances A' t).allowances _ = _ from (h.effective _).symm]
  refine Ignores.agree_bind (ignores_demand _ _) (ignores_demand _ _) hR fun _ t _ => ?_
  refine Ignores.agree_bind (ignores_demand _ _) (ignores_demand _ _) hR fun _ t _ => ?_
  refine (ignores_getBalance A _).agree_bind (ignores_getBalance A' _) hR fun bal t _ => ?_
  refine (ignores_getLock A _).agree_bind (ignores_getLock A' _) hR fun locked t _ => ?_
  refine Ignores.agree_bind (ignores_demand _ _) (ignores_demand _ _) hR fun _ t _ => ?_
  refine Ignores.agree_bind (ignores_need _ _) (ignores_need _ _) hR fun newBal t _ => ?_
  refine (ignores_writeBalance A _ _ _).agree_bind (ignores_writeBalance A' _ _ _) hR fun _ t _ => ?_
  refine (ignores_routeFee A _).agree_bind (ignores_routeFee A' _) hR fun _ t _ => ?_
  refine agree_write_bind (agree_write_bind ?_)
  have hset := (h.set (approvalKey caller args) amount hle).prune hnow cap cap'
  have hR' := fun u => SameBut.mk u hset
  refine (ignores_nextBlock _).agree_bind (ignores_nextBlock _) hR' fun block t _ => ?_
  refine (ignores_recordDedupKey _ _ _ _).agree_bind (ignores_recordDedupKey _ _ _ _) hR' fun _ t _ => ?_
  exact agree_pure (hR' t)

/-- The same transfer: what it may spend has not expired. -/
theorem icrc2TransferFrom_agree (h : Alike now A A') (args : TransferFromArgs) (t : TokenState) :
    Agree (SameBut now) ((icrc2TransferFrom E now caller args).exec (withAllowances A t))
      ((icrc2TransferFrom E now caller args).exec (withAllowances A' t)) := by
  have hR : ∀ u, SameBut now (withAllowances A u) (withAllowances A' u) := fun u => .mk u h
  unfold icrc2TransferFrom
  refine agree_read_bind ?_
  refine Ignores.agree_bind (ignores_demand _ _) (ignores_demand _ _) hR fun _ t _ => ?_
  refine Ignores.agree_bind (ignores_need _ _) (ignores_need _ _) hR fun amount t _ => ?_
  refine Ignores.agree_bind (ignores_demand _ _) (ignores_demand _ _) hR fun _ t hne => ?_
  refine Ignores.agree_bind (ignores_lift _) (ignores_lift _) hR fun total t htotal => ?_
  refine (ignores_checkWindow A _ _ _ _).agree_bind (ignores_checkWindow A' _ _ _ _) hR fun _ t _ => ?_
  refine (ignores_checkDuplicate A _ _ _).agree_bind (ignores_checkDuplicate A' _ _ _) hR
    fun dedupKey t _ => ?_
  refine (ignores_poolReceiptGate A _ _ _ _).agree_bind (ignores_poolReceiptGate A' _ _ _ _) hR
    fun ctx t _ => ?_
  refine agree_read_bind (agree_read_bind ?_)
  rw [show effectiveAt now (withAllowances A' t).allowances _ = _ from (h.effective _).symm]
  refine Ignores.agree_bind (ignores_demand _ _) (ignores_demand _ _) hR fun _ t hspend => ?_
  -- Something is spent, so the allowance stands and has not expired.
  have hlive : 0 < effectiveAt now A (spendingKey caller args) := by
    have hle : total ≤ effectiveAt now A (spendingKey caller args) := (demand_ok_iff.1 hspend).1
    have heq := checkedTotalDebit_ok (mapError_ok (lift_ok_iff.1 htotal).1)
    have hpos : amount ≠ 0 := (demand_ok_iff.1 hne).1
    omega
  refine Ignores.agree_bind (ignores_need _ _) (ignores_need _ _) hR fun newAllow t _ => ?_
  refine (ignores_getBalance A _).agree_bind (ignores_getBalance A' _) hR fun bal t _ => ?_
  refine (ignores_getLock A _).agree_bind (ignores_getLock A' _) hR fun locked t _ => ?_
  refine Ignores.agree_bind (ignores_demand _ _) (ignores_demand _ _) hR fun _ t _ => ?_
  refine Ignores.agree_bind (ignores_need _ _) (ignores_need _ _) hR fun newFrom t _ => ?_
  refine (ignores_getBalance A _).agree_bind (ignores_getBalance A' _) hR fun stored t _ => ?_
  refine Ignores.agree_bind (ignores_lift _) (ignores_lift _) hR fun newTo t _ => ?_
  refine agree_write_bind ?_
  have hR' := fun u => SameBut.mk u (h.spend newAllow hlive)
  refine (ignores_writeBalance _ _ _ _).agree_bind (ignores_writeBalance _ _ _ _) hR' fun _ t _ => ?_
  refine (ignores_writeBalance _ _ _ _).agree_bind (ignores_writeBalance _ _ _ _) hR' fun _ t _ => ?_
  refine (ignores_routeFee _ _).agree_bind (ignores_routeFee _ _) hR' fun _ t _ => ?_
  refine (ignores_nextBlock _).agree_bind (ignores_nextBlock _) hR' fun block t _ => ?_
  refine (ignores_writeReceipt _ _ _ _ _ _).agree_bind (ignores_writeReceipt _ _ _ _ _ _) hR'
    fun _ t _ => ?_
  refine (ignores_recordDedupKey _ _ _ _).agree_bind (ignores_recordDedupKey _ _ _ _) hR' fun _ t _ => ?_
  exact agree_pure (hR' t)

end Endpoints

/-! ### Messages -/

variable {E : Env} {now clock : Nat} {m : Message} {s s' : TokenState}

theorem agree_respond {ε α : Type} {reply : Except ε α → Answer} {R : TokenState → TokenState → Prop}
    {x y : Except Trap (Except ε α × TokenState)} (hR : R s s') (h : Agree R x y) :
    (respond reply s x).1 = (respond reply s' y).1 ∧ R (respond reply s x).2 (respond reply s' y).2 := by
  match x, y with
  | .error r, .error r' => exact ⟨congrArg Answer.trapped h, hR⟩
  | .ok (a, t), .ok (a', t') => exact ⟨congrArg reply h.1, h.2⟩
  | .error _, .ok _ => exact h.elim
  | .ok _, .error _ => exact h.elim

/-- A message that only reclaims. -/
def Message.reclaims (m : Message) : Bool :=
  match m.call with
  | .pruneAllowances _ => true
  | _ => false

/-- Any other message is answered alike by both, and leaves them alike. -/
theorem step_alike (h : SameBut m.now s s') (hnow : m.now ≤ u64Max) (hm : m.reclaims = false)
    (cap cap' : Nat) : (stepReclaiming cap E m s).1 = (stepReclaiming cap' E m s').1 ∧
      SameBut m.now (stepReclaiming cap E m s).2 (stepReclaiming cap' E m s').2 := by
  obtain ⟨t, hA⟩ := h
  rename_i A A'
  have hR : ∀ u, SameBut m.now (withAllowances A u) (withAllowances A' u) := fun u => .mk u hA
  unfold stepReclaiming
  split
  · exact agree_respond (hR t) ((ignores_icrc1Transfer A _ _ _ _).agree
      (ignores_icrc1Transfer A' _ _ _ _) hR t)
  · exact agree_respond (hR t) (icrc2Approve_agree hA hnow cap cap' _ t)
  · exact agree_respond (hR t) (icrc2TransferFrom_agree hA _ t)
  · exact agree_respond (hR t) ((ignores_lockForStaking A _ _ _).agree
      (ignores_lockForStaking A' _ _ _) hR t)
  · exact agree_respond (hR t) ((ignores_unlockFromStaking A _ _ _).agree
      (ignores_unlockFromStaking A' _ _ _) hR t)
  · exact agree_respond (hR t) ((ignores_getDepositReceipt A _ _ _).agree
      (ignores_getDepositReceipt A' _ _ _) hR t)
  · exact agree_respond (hR t) ((ignores_closeDepositAttempt A _ _ _ _).agree
      (ignores_closeDepositAttempt A' _ _ _ _) hR t)
  · next call =>
    rw [Message.reclaims, call] at hm
    nomatch hm
  · exact ⟨rfl, .mk {t with dedup := pruneExpiredDedup m.now t.dedup} hA⟩
  · exact agree_respond (hR t) ((ignores_upgrade A _).agree (ignores_upgrade A' _) hR t)

theorem prune_zero (b : Allowances) : pruneExpiredAllowances now 0 b = b := by
  simp [pruneExpiredAllowances, Timed.due, Timed.drop]

/-- A message that only reclaims cannot be told from none. -/
theorem reclaim_alike (h : SameBut m.now s s') (hnow : m.now ≤ u64Max) (hm : m.reclaims = true)
    (cap : Nat) : SameBut m.now (stepReclaiming cap E m s).2 s' := by
  obtain ⟨t, hA⟩ := h
  unfold Message.reclaims at hm
  split at hm
  · next n call =>
    have hpruned := hA.prune hnow n 0
    rw [prune_zero] at hpruned
    rw [stepReclaiming, call]
    exact .mk t hpruned
  · nomatch hm

theorem SameBut.later (h : SameBut now s s') {later : Nat} (hle : now ≤ later) : SameBut later s s' := by
  obtain ⟨t, hA⟩ := h
  exact .mk t (hA.later hle)

/-- What is shown of the row at a key is what has not expired. -/
theorem shown_row (now : Nat) (row : Option AllowanceRecord) :
    (if allowanceIsExpired (row.getD ⟨0, none⟩).expiresAt now then (⟨0, none⟩ : Allowance)
    else ⟨effectiveAllowance (row.getD ⟨0, none⟩) now, (row.getD ⟨0, none⟩).expiresAt⟩) =
      (row.filter fun r => !allowanceIsExpired r.expiresAt now).elim ⟨0, none⟩
        fun r => ⟨r.amount, r.expiresAt⟩ := by
  cases row with
  | none => rfl
  | some r => cases h : allowanceIsExpired r.expiresAt now <;> simp [Option.filter, effectiveAllowance, h]

theorem SameBut.allowance (h : SameBut now s s') (q : AllowanceArgs) :
    icrc2Allowance now s q = icrc2Allowance now s' q := by
  obtain ⟨t, hA⟩ := h
  have hlive := hA.live (compoundKey q.account.encodeKey q.spender.encodeKey)
  unfold icrc2Allowance
  rw [shown_row, shown_row]
  exact congrArg (fun row : Option AllowanceRecord =>
    row.elim (⟨0, none⟩ : Allowance) fun r => ⟨r.amount, r.expiresAt⟩) hlive

/-! ### Runs -/

/-- The messages in turn, approvals reclaiming at most `cap` rows: each with its answer,
and the state they leave. -/
def play (cap : Nat) (E : Env) : List Message → TokenState → List (Message × Answer) × TokenState
  | [], s => ([], s)
  | m :: ms, s =>
    let r := stepReclaiming cap E m s
    let rest := play cap E ms r.2
    ((m, r.1) :: rest.1, rest.2)

/-- Messages under a clock that stands at `clock` and does not go back. -/
def InOrder (clock : Nat) : List Message → Prop
  | [] => True
  | m :: ms => clock ≤ m.now ∧ m.now ≤ u64Max ∧ InOrder m.now ms

theorem play_alike (cap cap' : Nat) {ms : List Message} (h : SameBut clock s s')
    (hms : InOrder clock ms) :
    let reclaiming := play cap E ms s
    let idle := play cap' E (ms.filter fun m => !m.reclaims) s'
    reclaiming.1.filter (fun p => !p.1.reclaims) = idle.1 ∧
      ∀ later, clock ≤ later → (∀ m ∈ ms, m.now ≤ later) → SameBut later reclaiming.2 idle.2 := by
  induction ms generalizing clock s s' with
  | nil => exact ⟨rfl, fun later hle _ => h.later hle⟩
  | cons m ms ih =>
    obtain ⟨hle, hnow, hms⟩ := hms
    have hat := h.later hle
    cases hm : m.reclaims with
    | true =>
      obtain ⟨hanswers, hstates⟩ := ih (reclaim_alike (E := E) hat hnow hm cap) hms
      simp only [play, List.filter_cons, hm, Bool.not_true, Bool.false_eq_true, if_false]
      exact ⟨hanswers, fun later _ hall => hstates later (hall m (List.mem_cons_self ..))
        fun x hx => hall x (List.mem_cons_of_mem _ hx)⟩
    | false =>
      obtain ⟨hanswer, hstate⟩ := step_alike (E := E) hat hnow hm cap cap'
      obtain ⟨hanswers, hstates⟩ := ih hstate hms
      simp only [play, List.filter_cons, hm, Bool.not_false, if_true]
      exact ⟨by rw [hanswers, hanswer], fun later _ hall => hstates later (hall m (List.mem_cons_self ..))
        fun x hx => hall x (List.mem_cons_of_mem _ hx)⟩

/-- What holds of the indexes and of reclamation in every token built with a fee and
installed with `args`. -/
structure ReclamationSound (E : Env) (fee : Nat) (args : InitArgs) : Prop where
  /-- Rows and index entries correspond one to one, for allowances and for records. -/
  indexes : ∀ log s, History E fee args log s →
    Kept s.allowances ∧ s.dedup.Exact DedupValue.stamp
  /-- A row expires within a day of the message that wrote it last. -/
  expires : ∀ clock log s, Run E fee args clock log s → ∀ (key : Bytes) (r : AllowanceRecord),
    s.allowances.rows[key]? = some r → ∃ w e, log.find? (Entry.writesAllowance key) = some w ∧
      r.expiresAt = some e ∧ e ≤ w.message.now + maxApprovalTtlNs
  /-- Reclamation takes exactly the earliest expired rows. -/
  reclaims : ∀ log s, History E fee args log s → ∀ now cap, now ≤ u64Max →
    ∃ gone, Reclaimed now cap s.allowances (pruneExpiredAllowances now cap s.allowances) gone
  /-- The answers are those of a token that never reclaims, and so are the allowances
  asked for at any time after. -/
  unobservable : ∀ clock log s, Run E fee args clock log s → ∀ ms, InOrder clock ms →
    let reclaiming := play maxAllowancePrunePerCall E ms s
    let idle := play 0 E (ms.filter fun m => !m.reclaims) s
    reclaiming.1.filter (fun p => !p.1.reclaims) = idle.1 ∧
      ∀ later, clock ≤ later → (∀ m ∈ ms, m.now ≤ later) → ∀ q,
        icrc2Allowance later reclaiming.2 q = icrc2Allowance later idle.2 q

theorem reclamation_sound (E : Env) (fee : Nat) (args : InitArgs) : ReclamationSound E fee args where
  indexes _ _ history := ⟨history.kept, history.dedup_exact⟩
  expires _ _ _ run _ _ hr := run.expires hr
  reclaims _ _ history now cap hnow := ⟨_, history.kept.reclaimed hnow cap⟩
  unobservable clock log s run ms hms := by
    have hsame : SameBut clock s s := .mk s ⟨run.history.kept, run.history.kept, fun _ => rfl⟩
    obtain ⟨hanswers, hstates⟩ := play_alike (E := E) maxAllowancePrunePerCall 0 hsame hms
    exact ⟨hanswers, fun later hle hall q => (hstates later hle hall).allowance q⟩

end StshProtocol.Token
