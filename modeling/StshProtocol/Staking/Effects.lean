import StshProtocol.Staking.Canister

/-! What each message of the staking canister does to the book of stakes.

A message leaves the book alone, drops a stale dedup record, begins an operation, or ends
one; the lemma for an endpoint says which, with the checks that let it through. -/
namespace StshProtocol.Staking
open Foundation ShieldedPool Handler

variable {ε : Type} {now : Nat} {s t : StakingState}

theorem writeBook_ok_iff {f : StakeBook → StakeBook} {u : Unit} :
    (writeBook f : Endpoint ε Unit).exec s = .ok (.ok u, t) ↔ t = {s with book := f s.book} :=
  write_ok_iff

/-! ### Staking -/

/-- At most a dedup record whose position is gone was dropped. -/
inductive Dropped (ddk : DedupKey) (b : StakeBook) : StakeBook → Prop where
  | nothing : Dropped ddk b b
  | stale {prior : DedupRecord} (hprior : b.stakeDedup[ddk]? = some prior)
      (hgone : b.positions[prior.positionId]? = none) :
      Dropped ddk b {b with stakeDedup := b.stakeDedup.erase ddk}

/-- The next operation id is given out. -/
def numbered (b : StakeBook) : StakeBook := {b with opIdCounter := satAdd64 b.opIdCounter 1}

/-- The ids a stake takes are given out. -/
def allocated (b : StakeBook) : StakeBook :=
  numbered {b with nextPositionIdCell := some (b.nextPositionId + 1)
                   nextPositionId := b.nextPositionId + 1}

/-- The position a well-formed stake is to become, under the next ids. -/
structure NewStake (b : StakeBook) (dedupKey : Bytes) (t : LockTask) : Prop where
  positionId : t.positionId = b.nextPositionId
  room : b.nextPositionId + 1 ≤ u64Max
  opId : t.opId = b.opIdCounter
  named : t.active.positionId = t.positionId
  isOpen : t.active.closed = false
  settled : t.active.opId = none
  weight : 2 * t.active.votingWeight ≤ 5 * t.active.amount
  ddk : t.ddk = DedupKey.new t.active.holder dedupKey

theorem lockMultiplierBps_le (lockDays : Nat) : lockMultiplierBps lockDays ≤ 25000 := by
  unfold lockMultiplierBps
  repeat' split
  all_goals omega

theorem checkedMul128_eq {a b n : Nat} (h : checkedMul128 a b = some n) : n = a * b := by
  unfold checkedMul128 at h
  split at h
  · exact (Option.some.inj h).symm
  · cases h

/-- No lock weighs more than two and a half times its amount. -/
theorem votingWeight_le {amount lockDays n : Nat}
    (h : checkedMul128 amount (lockMultiplierBps lockDays) = some n) :
    2 * (n / 10000) ≤ 5 * amount := by
  have hle := Nat.mul_le_mul_left amount (lockMultiplierBps_le lockDays)
  rw [← checkedMul128_eq h] at hle
  omega

theorem originalOutcome_ends {prior : DedupRecord} {r : Except String (Option Nat)}
    (h : (originalOutcome prior).exec s = .ok (r, t)) : t = s ∧ r ≠ .ok none := by
  rw [originalOutcome, exec_bind_ok (exec_read _)] at h
  by_cases hp : pendingStakeState s.book prior.positionId ≠ some .lockPending
  · rw [exec_bind_ok (exec_demand hp)] at h
    cases h
    exact ⟨rfl, by simp⟩
  · rw [demand, if_neg hp, exec_bind_error exec_fail] at h
    cases h
    exact ⟨rfl, by simp⟩

theorem replayRecord_ends {amount lockDays : Nat} {ddk : DedupKey} {prior : DedupRecord}
    {r : Except String (Option Nat)}
    (h : (replayRecord amount lockDays ddk prior).exec s = .ok (r, t)) :
    (t = s ∧ r ≠ .ok none) ∨
      s.book.positions[prior.positionId]? = none ∧
        t = {s with book := {s.book with stakeDedup := s.book.stakeDedup.erase ddk}} := by
  unfold replayRecord at h
  by_cases hargs : prior.amount = amount ∧ prior.lockDays = lockDays
  · rw [exec_bind_ok (exec_demand hargs), exec_bind_ok (exec_read _)] at h
    by_cases hknown : s.book.positions.contains prior.positionId = true
    · rw [if_pos hknown] at h
      exact .inl (originalOutcome_ends h)
    · rw [if_neg hknown] at h
      cases h
      exact .inr ⟨StableMap.not_contains_iff.1 hknown, rfl⟩
  · rw [demand, if_neg hargs, exec_bind_error exec_fail] at h
    cases h
    exact .inl ⟨rfl, by simp⟩

/-- Where no earlier stake is found the key is free after. -/
theorem replayStake_ends {amount lockDays : Nat} {ddk : DedupKey}
    {r : Except String (Option Nat)}
    (h : (replayStake amount lockDays ddk).exec s = .ok (r, t)) :
    ∃ b, Dropped ddk s.book b ∧ t = {s with book := b} ∧ (r = .ok none → b.stakeDedup[ddk]? = none) := by
  rw [replayStake, exec_bind_ok (exec_read _)] at h
  split at h
  · next hfree =>
    cases h
    exact ⟨_, .nothing, rfl, fun _ => hfree⟩
  · next prior hprior =>
    rcases replayRecord_ends h with ⟨rfl, hr⟩ | ⟨hgone, rfl⟩
    · exact ⟨_, .nothing, rfl, fun hn => absurd hn hr⟩
    · exact ⟨_, .stale hprior hgone, rfl, fun _ => by simp⟩

theorem readOnly_getToken : getToken.ReadOnly := (readOnly_read _).bind fun _ => readOnly_need _ _

theorem sure_writeBook (f : StakeBook → StakeBook) : (writeBook f : Endpoint ε Unit).Sure :=
  sure_write _

theorem sure_allocPositionId : (allocPositionId : Endpoint ε Nat).Sure :=
  (sure_read _).bind fun _ => (sure_assert _ _).bind fun _ =>
    (sure_writeBook _).bind fun _ => sure_pure _

theorem sure_nextOpId : (nextOpId : Endpoint ε Nat).Sure :=
  (sure_read _).bind fun _ => (sure_writeBook _).bind fun _ => sure_pure _

theorem allocPositionId_ok_iff {n : Nat} :
    (allocPositionId : Endpoint ε Nat).exec s = .ok (.ok n, t) ↔
      s.book.nextPositionId + 1 ≤ u64Max ∧ n = s.book.nextPositionId ∧
        t = {s with book := {s.book with nextPositionIdCell := some (s.book.nextPositionId + 1)
                                         nextPositionId := s.book.nextPositionId + 1}} := by
  simp only [allocPositionId, bind_ok_iff, read_ok_iff, assert_ok_iff, writeBook_ok_iff, pure_ok_iff,
    and_assoc, exists_and_left, exists_eq_left, exists_const]

theorem nextOpId_ok_iff {n : Nat} :
    (nextOpId : Endpoint ε Nat).exec s = .ok (.ok n, t) ↔
      n = s.book.opIdCounter ∧ t = {s with book := numbered s.book} := by
  simp only [nextOpId, numbered, bind_ok_iff, read_ok_iff, writeBook_ok_iff, pure_ok_iff, and_assoc,
    exists_and_left, exists_eq_left, exists_const]

/-- A new stake fails before it writes. -/
theorem atomic_beginStake (holder : Principal) (amount lockDays duration : Nat) (key : Bytes) :
    (beginStake now holder amount lockDays duration key).Atomic :=
  readOnly_getToken.bind_atomic fun _ => (readOnly_need _ _).bind_atomic fun _ =>
    (readOnly_need _ _).bind_atomic fun _ => Sure.atomic <| sure_allocPositionId.bind fun _ =>
      sure_nextOpId.bind fun _ => (sure_writeBook _).bind fun _ => sure_pure _

theorem beginStake_ok {holder : Principal} {amount lockDays duration : Nat} {key : Bytes}
    {r : Staked} (h : (beginStake now holder amount lockDays duration key).exec s = .ok (.ok r, t)) :
    ∃ token task, r = .locking token task ∧ NewStake s.book key task ∧
      task.active.holder = holder ∧ task.active.amount = amount ∧
      t = {s with book := recordStake now key task (allocated s.book)} := by
  simp only [beginStake, bind_ok_iff, need_ok_iff, allocPositionId_ok_iff, nextOpId_ok_iff,
    writeBook_ok_iff, pure_ok_iff, and_assoc, exists_and_left, exists_eq_left, exists_const] at h
  obtain ⟨token, s', htoken, weighted, hweighted, lockEndNs, -, hroom, rfl, rfl⟩ := h
  obtain rfl := readOnly_getToken _ _ _ htoken
  exact ⟨_, _, rfl, ⟨rfl, hroom, rfl, rfl, rfl, rfl, votingWeight_le hweighted, rfl⟩, rfl, rfl, rfl⟩

/-- What `stake` does to the book, and whether it goes on to call the token. -/
inductive Stakes (now : Nat) (holder : Principal) (amount : Nat) (key : Bytes) (s : StakingState) :
    Except String Staked → StakingState → Prop where
  | answers {b : StakeBook} {r : Except String Staked}
      (h : Dropped (DedupKey.new holder key) s.book b) (hr : ∀ token task, r ≠ .ok (.locking token task)) :
      Stakes now holder amount key s r {s with book := b}
  | calls {b : StakeBook} {token : Principal} {task : LockTask}
      (h : Dropped (DedupKey.new holder key) s.book b)
      (hfree : b.stakeDedup[DedupKey.new holder key]? = none) (hnew : NewStake b key task)
      (hholder : task.active.holder = holder) (hamount : task.active.amount = amount) :
      Stakes now holder amount key s (.ok (.locking token task))
        {s with book := recordStake now key task (allocated b)}

theorem stake_ends {holder : Principal} {amount lockDays : Nat} {key : Bytes}
    {r : Except String Staked} (h : (stake now holder amount lockDays key).exec s = .ok (r, t)) :
    Stakes now holder amount key s r t := by
  unfold stake at h
  cases hargs : checkStakeArgs amount lockDays key with
  | error e =>
    rw [hargs] at h
    cases h
    exact .answers .nothing nofun
  | ok duration =>
    rw [exec_bind_ok (exec_lift hargs), exec_bind] at h
    match hreplay : (replayStake amount lockDays (DedupKey.new holder key)).exec s with
    | .error _ =>
      rw [hreplay] at h
      cases h
    | .ok (.error e, u) =>
      obtain ⟨b, hb, rfl, -⟩ := replayStake_ends hreplay
      rw [hreplay] at h
      cases h
      exact .answers hb nofun
    | .ok (.ok (some positionId), u) =>
      obtain ⟨b, hb, rfl, -⟩ := replayStake_ends hreplay
      rw [hreplay] at h
      cases h
      exact .answers hb nofun
    | .ok (.ok none, u) =>
      obtain ⟨b, hb, rfl, hfree⟩ := replayStake_ends hreplay
      rw [hreplay] at h
      cases r with
      | error e =>
        obtain rfl := atomic_beginStake _ _ _ _ _ _ _ _ h
        exact .answers hb nofun
      | ok r =>
        obtain ⟨token, task, rfl, hnew, hholder, hamount, rfl⟩ := beginStake_ok h
        exact .calls hb (hfree rfl) hnew hholder hamount

/-! ### Unstaking -/

theorem readOnly_openPosition (holder : Principal) (positionId : Nat) (closed : String) :
    (openPosition holder positionId closed).ReadOnly :=
  (readOnly_read _).bind fun _ => (readOnly_need _ _).bind fun _ =>
    (readOnly_demand _ _).bind fun _ => (readOnly_demand _ _).bind fun _ =>
      (readOnly_read _).bind fun _ => (readOnly_refuseSome _).bind fun _ => readOnly_pure _

/-- A holder's open position that awaits nothing. -/
structure OpenFor (b : StakeBook) (holder : Principal) (positionId : Nat) (p : StakePosition) : Prop where
  present : b.positions[positionId]? = some p
  held : p.holder = holder
  isOpen : p.closed = false
  settled : b.pendingPositions[positionId]? = none

theorem openPosition_ok {holder : Principal} {positionId : Nat} {closed : String} {p : StakePosition}
    (h : (openPosition holder positionId closed).exec s = .ok (.ok p, t)) :
    OpenFor s.book holder positionId p := by
  simp only [openPosition, bind_ok_iff, read_ok_iff, need_ok_iff, demand_ok_iff, refuseSome_ok_iff,
    pure_ok_iff, and_assoc, exists_and_left, exists_eq_left, exists_const,
    Option.map_eq_none_iff] at h
  obtain ⟨p', hp, hholder, hopen, hpending, rfl, -⟩ := h
  exact ⟨hp, hholder, hopen, hpending⟩

theorem readOnly_calculateClaimable (position : StakePosition) :
    (calculateClaimable now position : Endpoint ε Nat).ReadOnly := by
  refine (readOnly_read _).bind fun s => ?_
  dsimp only
  split
  · exact readOnly_pure _
  · exact (readOnly_assert _ _).bind fun _ => readOnly_pure _

theorem readOnly_claimRewardsInternal (position : StakePosition) :
    (claimRewardsInternal now position : Endpoint ε (Except String Nat)).ReadOnly := by
  refine (readOnly_calculateClaimable _).bind fun claimable => ?_
  split
  · exact readOnly_pure _
  · exact readOnly_pure _

theorem sure_unstakeTail (now : Nat) (token : Principal) (positionId : Nat) (p : StakePosition) :
    (do
      let opId ← nextOpId
      let task : UnlockTask := ⟨positionId, opId, p⟩
      writeBook (recordUnstake now task)
      pure (token, task) : Endpoint String (Principal × UnlockTask)).Sure :=
  sure_nextOpId.bind fun _ => (sure_writeBook _).bind fun _ => sure_pure _

/-- An unstake fails before it writes. -/
theorem atomic_unstake (holder : Principal) (positionId : Nat) :
    (unstake now holder positionId).Atomic :=
  (readOnly_openPosition _ _ _).bind_atomic fun _ => (readOnly_demand _ _).bind_atomic fun _ =>
    (readOnly_claimRewardsInternal _).bind_atomic fun _ => readOnly_getToken.bind_atomic fun _ =>
      (sure_unstakeTail _ _ _ _).atomic

theorem unstake_ok {holder : Principal} {positionId : Nat} {r : Principal × UnlockTask}
    (h : (unstake now holder positionId).exec s = .ok (.ok r, t)) :
    OpenFor s.book holder positionId r.2.snapshot ∧ r.2.positionId = positionId ∧
      r.2.opId = s.book.opIdCounter ∧
      t = {s with book := recordUnstake now r.2 (numbered s.book)} := by
  simp only [unstake, bind_ok_iff, demand_ok_iff, nextOpId_ok_iff, writeBook_ok_iff, pure_ok_iff,
    and_assoc, exists_and_left, exists_eq_left, exists_const] at h
  obtain ⟨p, s₁, hp, -, c, s₂, hc, token, s₃, htoken, rfl, rfl⟩ := h
  have hopen := openPosition_ok hp
  obtain rfl := readOnly_openPosition _ _ _ _ _ _ hp
  obtain rfl := readOnly_claimRewardsInternal _ _ _ _ hc
  obtain rfl := readOnly_getToken _ _ _ htoken
  exact ⟨hopen, rfl, rfl, rfl⟩

/-! ### Answers and reconciliations -/

/-- What the token's answer does to a stake. -/
def lockEnd (D : Deployment) (t : LockTask) (r : Reply) (b : StakeBook) : StakeBook :=
  match D.decodeResult r with
  | .ok (.ok ()) => activate t.positionId t.opId t.active b
  | .ok (.error _) => cancelStake (some t.ddk) t.positionId t.opId b
  | .error _ => b

def unlockEnd (D : Deployment) (t : UnlockTask) (r : Reply) (b : StakeBook) : StakeBook :=
  match D.decodeResult r with
  | .ok (.ok ()) => closePosition t.positionId t.opId t.snapshot b
  | .ok (.error _) => activate t.positionId t.opId t.snapshot b
  | .error _ => b

theorem lockAnswered_ends {D : Deployment} {task : LockTask} {reply : Reply} {r : Except String Nat}
    (h : (lockAnswered D task reply).exec s = .ok (r, t)) :
    t = {s with book := lockEnd D task reply s.book} := by
  unfold lockAnswered at h
  unfold lockEnd
  generalize D.decodeResult reply = answer at h
  match answer with
  | .ok (.ok ()) => cases h; rfl
  | .ok (.error e) => cases h; rfl
  | .error e => cases h; rfl

theorem unlockAnswered_ends {D : Deployment} {task : UnlockTask} {reply : Reply}
    {r : Except String Unit} (h : (unlockAnswered D task reply).exec s = .ok (r, t)) :
    t = {s with book := unlockEnd D task reply s.book} := by
  unfold unlockAnswered at h
  unfold unlockEnd
  generalize D.decodeResult reply = answer at h
  match answer with
  | .ok (.ok ()) => cases h; rfl
  | .ok (.error e) => cases h; rfl
  | .error e => cases h; rfl

/-- A pending operation and its position, bound to each other. -/
structure Verified (b : StakeBook) (opId : Nat) (expected : LockOpType) (op : PendingLockOp) : Prop where
  pending : b.pendingLockOps[opId]? = some op
  opType : op.opType = expected

theorem readOnly_loadAndVerifyPendingOp (opId : Nat) (expected : LockOpType) :
    (loadAndVerifyPendingOp opId expected).ReadOnly :=
  (readOnly_read _).bind fun _ => (readOnly_need _ _).bind fun _ =>
    (readOnly_demand _ _).bind fun _ => (readOnly_read _).bind fun _ =>
      (readOnly_need _ _).bind fun _ => (readOnly_demand _ _).bind fun _ =>
        (readOnly_demand _ _).bind fun _ => (readOnly_demand _ _).bind fun _ =>
          (readOnly_read _).bind fun _ => (readOnly_demand _ _).bind fun _ => readOnly_pure _

theorem loadAndVerifyPendingOp_ok {opId : Nat} {expected : LockOpType} {op : PendingLockOp}
    (h : (loadAndVerifyPendingOp opId expected).exec s = .ok (.ok op, t)) :
    Verified s.book opId expected op := by
  simp only [loadAndVerifyPendingOp, bind_ok_iff, read_ok_iff, need_ok_iff, demand_ok_iff, pure_ok_iff,
    and_assoc, exists_and_left, exists_eq_left, exists_const] at h
  obtain ⟨op', hop, htype, p, hp, -, -, -, -, rfl, -⟩ := h
  exact ⟨hop, htype⟩

def reconciledLock (opId : Nat) (op : PendingLockOp) (b : StakeBook) : LockDecision → StakeBook
  | .executed => activate op.positionId opId {op.snapshot with opId := none} b
  | .notExecuted => cancelStake (op.dedupKey.map (DedupKey.new op.holder)) op.positionId opId b

def reconciledUnlock (opId : Nat) (op : PendingLockOp) (b : StakeBook) : LockDecision → StakeBook
  | .executed => closePosition op.positionId opId op.snapshot b
  | .notExecuted => activate op.positionId opId op.snapshot b

theorem atomic_reconcileLock (isController : Bool) (opId : Nat) (decision : LockDecision) :
    (reconcileLock isController opId decision).Atomic :=
  (readOnly_demand _ _).bind_atomic fun _ =>
    (readOnly_loadAndVerifyPendingOp _ _).bind_atomic fun _ => by
      cases decision <;> exact (sure_writeBook _).atomic

theorem reconcileLock_ok {isController : Bool} {opId : Nat} {decision : LockDecision}
    (h : (reconcileLock isController opId decision).exec s = .ok (.ok (), t)) :
    ∃ op, Verified s.book opId .lock op ∧
      t = {s with book := reconciledLock opId op s.book decision} := by
  simp only [reconcileLock, ensureIcController, bind_ok_iff, demand_ok_iff, and_assoc,
    exists_and_left, exists_eq_left, exists_const] at h
  obtain ⟨-, op, s', hop, h⟩ := h
  have hverified := loadAndVerifyPendingOp_ok hop
  obtain rfl := readOnly_loadAndVerifyPendingOp _ _ _ _ _ hop
  refine ⟨op, hverified, ?_⟩
  cases decision <;> exact writeBook_ok_iff.1 h

theorem atomic_reconcileUnlock (isController : Bool) (opId : Nat) (decision : LockDecision) :
    (reconcileUnlock isController opId decision).Atomic :=
  (readOnly_demand _ _).bind_atomic fun _ =>
    (readOnly_loadAndVerifyPendingOp _ _).bind_atomic fun _ => by
      cases decision <;> exact (sure_writeBook _).atomic

theorem reconcileUnlock_ok {isController : Bool} {opId : Nat} {decision : LockDecision}
    (h : (reconcileUnlock isController opId decision).exec s = .ok (.ok (), t)) :
    ∃ op, Verified s.book opId .unlock op ∧
      t = {s with book := reconciledUnlock opId op s.book decision} := by
  simp only [reconcileUnlock, ensureIcController, bind_ok_iff, demand_ok_iff, and_assoc,
    exists_and_left, exists_eq_left, exists_const] at h
  obtain ⟨-, op, s', hop, h⟩ := h
  have hverified := loadAndVerifyPendingOp_ok hop
  obtain rfl := readOnly_loadAndVerifyPendingOp _ _ _ _ _ hop
  refine ⟨op, hverified, ?_⟩
  cases decision <;> exact writeBook_ok_iff.1 h

/-! ### What leaves the book alone -/

/-- The handler does not write the book. -/
abbrev KeepsBook {α : Type} (x : Endpoint ε α) : Prop := Quiet StakingState.book (fun _ => True) x

theorem KeepsBook.book {α : Type} {x : Endpoint ε α} (hx : KeepsBook x) {r : Except ε α}
    (h : x.exec s = .ok (r, t)) : t.book = s.book := (hx s r t h).1

theorem readOnly_keepsBook {α : Type} {x : Endpoint ε α} (hx : x.ReadOnly) : KeepsBook x :=
  fun _ _ _ h => ⟨congrArg StakingState.book (hx _ _ _ h), fun _ _ => trivial⟩

theorem keepsBook_writeGov (f : GovBook → GovBook) : KeepsBook (writeGov f : Endpoint ε Unit) :=
  quiet_write fun _ => rfl

theorem keepsBook_writeProposal (id : Nat) (p : Proposal) :
    KeepsBook (writeProposal id p : Endpoint ε Unit) := keepsBook_writeGov _

theorem readOnly_claimRewards (holder : Principal) (positionId : Nat) :
    (claimRewards now holder positionId).ReadOnly :=
  (readOnly_openPosition _ _ _).bind fun _ => (readOnly_claimRewardsInternal _).bind fun _ =>
    readOnly_lift _

theorem keepsBook_receiveFeeRevenue (caller : Principal) (amount : Nat) :
    KeepsBook (receiveFeeRevenue caller amount) :=
  Quiet.bind (quiet_read _) fun _ => Quiet.bind (quiet_expect _ _) fun _ =>
    Quiet.bind (quiet_assert _ _) fun _ => quiet_write fun _ => rfl

theorem readOnly_validateAtCreation (t : ProposalType) : (validateAtCreation now t).ReadOnly := by
  cases t with
  | verifierKeyUpgrade payload =>
    exact (readOnly_lift _).bind fun _ => (readOnly_assert _ _).bind fun _ => readOnly_demand _ _
  | _ => exact readOnly_pure _

theorem readOnly_scheduleProposal (params : GovernanceParams) (timelock : Nat) :
    (scheduleProposal now params timelock).ReadOnly :=
  (readOnly_need _ _).bind fun _ => (readOnly_need _ _).bind fun _ =>
    (readOnly_need _ _).bind fun _ => readOnly_pure _

theorem keepsBook_allocProposalId : KeepsBook (allocProposalId : Endpoint ε Nat) :=
  Quiet.bind (quiet_read _) fun _ => Quiet.bind (quiet_assert _ _) fun _ =>
    Quiet.bind (keepsBook_writeGov _) fun _ => quiet_pure _

theorem keepsBook_createProposal (proposer : Principal) (t : ProposalType) (description : String) :
    KeepsBook (createProposal now proposer t description) :=
  Quiet.bind (quiet_read _) fun _ => Quiet.bind (readOnly_keepsBook (readOnly_validateAtCreation _))
    fun _ => Quiet.bind (quiet_lift fun _ _ => trivial) fun _ =>
    Quiet.bind (readOnly_keepsBook (readOnly_scheduleProposal _ _)) fun _ =>
    Quiet.bind (quiet_read _) fun _ => Quiet.bind (quiet_assert _ _) fun _ =>
    Quiet.bind (quiet_demand _ trivial) fun _ => Quiet.bind keepsBook_allocProposalId fun _ =>
    Quiet.bind (keepsBook_writeGov _) fun _ => Quiet.bind (quiet_demand _ trivial) fun _ =>
    Quiet.bind (keepsBook_writeProposal _ _) fun _ => quiet_pure _

theorem keepsBook_vote (voter : Principal) (proposalId : Nat) (approve : Bool) :
    KeepsBook (vote now voter proposalId approve) :=
  Quiet.bind (quiet_read _) fun _ => Quiet.bind (quiet_need _ trivial) fun _ =>
    Quiet.bind (quiet_demand _ trivial) fun _ => Quiet.bind (quiet_demand _ trivial) fun _ =>
    Quiet.bind (quiet_read _) fun _ => Quiet.bind (quiet_demand _ trivial) fun _ =>
    Quiet.bind (quiet_read _) fun _ => Quiet.bind (quiet_demand _ trivial) fun _ =>
    Quiet.bind (keepsBook_writeGov _) fun _ => keepsBook_writeProposal _ _

theorem keepsBook_note (f : GovJournal → GovJournal) : KeepsBook (note f : Endpoint ε Unit) :=
  keepsBook_writeGov _

theorem keepsBook_issueCall (id : Nat) (act : Act) (pool : Principal) :
    KeepsBook (issueCall id act pool : Endpoint ε Action) :=
  Quiet.bind (keepsBook_note _) fun _ => quiet_pure _

theorem keepsBook_callPool (id : Nat) (act : Act) (fits : Prop) [Decidable fits] :
    KeepsBook (callPool id act fits : Endpoint ε Action) := by
  refine Quiet.bind (quiet_read _) fun pool => ?_
  cases pool with
  | none => exact quiet_pure _
  | some pool => exact Quiet.bind (quiet_assert _ _) fun _ => keepsBook_issueCall _ _ _

theorem keepsBook_applyHere (id : Nat) {f : StakingState → StakingState} (done : String)
    (hf : ∀ s, (f s).book = s.book) : KeepsBook (applyHere id f done : Endpoint ε Action) :=
  Quiet.bind (keepsBook_note _) fun _ => Quiet.bind (quiet_write hf) fun _ =>
    Quiet.bind (keepsBook_note _) fun _ => quiet_pure _

theorem keepsBook_beginAction (id : Nat) (t : ProposalType) :
    KeepsBook (beginAction id t : Endpoint ε Action) := by
  cases t with
  | verifierKeyUpgrade payload =>
    rw [beginAction]
    split
    · exact quiet_pure _
    · exact keepsBook_callPool _ _ _
  | rewardScheduleUpdate n => exact keepsBook_applyHere _ _ fun _ => rfl
  | governanceParamUpdate params =>
    rw [beginAction]
    split
    · exact quiet_pure _
    · exact keepsBook_applyHere _ _ fun _ => rfl
  | emergencyPause target reason => cases target <;> exact keepsBook_callPool _ _ _
  | _ => exact quiet_pure _

theorem keepsBook_continueAction (D : Deployment) (id : Nat) (t : ProposalType) (act : Act)
    (pool : Principal) (r : Reply) : KeepsBook (continueAction D id t act pool r : Endpoint ε Action) := by
  unfold continueAction
  split
  · exact quiet_pure _
  · split
    · exact quiet_pure _
    · exact keepsBook_issueCall _ _ _
  · split <;> exact quiet_pure _
  · exact quiet_pure _

theorem keepsBook_afterAction (proposalId : Nat) (p : Proposal) (action : Action) :
    KeepsBook (afterAction now proposalId p action) := by
  cases action with
  | ended result =>
    exact Quiet.bind (keepsBook_writeProposal _ _) fun _ =>
      Quiet.bind (quiet_lift fun _ _ => trivial) fun _ => quiet_pure _
  | awaits act pool => exact quiet_pure _

theorem keepsBook_refuseUnless (met : Prop) [Decidable met] (id : Nat) (p : Proposal) (e : String) :
    KeepsBook (refuseUnless met id p e) := by
  unfold refuseUnless
  split
  · exact quiet_pure _
  · exact Quiet.bind (keepsBook_writeProposal _ _) fun _ => quiet_fail trivial

theorem keepsBook_executeProposal (proposalId : Nat) : KeepsBook (executeProposal now proposalId) :=
  Quiet.bind (quiet_read _) fun _ => Quiet.bind (quiet_need _ trivial) fun _ =>
    Quiet.bind (quiet_demand _ trivial) fun _ => Quiet.bind (quiet_demand _ trivial) fun _ =>
    Quiet.bind (quiet_demand _ trivial) fun _ => Quiet.bind (quiet_demand _ trivial) fun _ =>
    Quiet.bind (quiet_read _) fun _ =>
    Quiet.bind (Quiet.bind (quiet_lift fun _ _ => trivial) fun _ =>
      Quiet.bind (quiet_assert _ _) fun _ => Quiet.bind (keepsBook_refuseUnless _ _ _ _) fun _ =>
      keepsBook_refuseUnless _ _ _ _) fun _ =>
    Quiet.bind (keepsBook_writeProposal _ _) fun _ => Quiet.bind (keepsBook_beginAction _ _) fun _ =>
    keepsBook_afterAction _ _ _

theorem keepsBook_noteSuccess (D : Deployment) (task : Execution) (r : Reply) :
    KeepsBook (noteSuccess D task r : Endpoint ε Unit) := by
  unfold noteSuccess
  split
  · exact keepsBook_note _
  · exact quiet_pure _

theorem keepsBook_executeAnswered (D : Deployment) (task : Execution) (r : Reply) :
    KeepsBook (executeAnswered D task r) :=
  Quiet.bind (keepsBook_noteSuccess _ _ _) fun _ =>
    Quiet.bind (keepsBook_continueAction _ _ _ _ _ _) fun _ => keepsBook_afterAction _ _ _

theorem keepsBook_reconcileStuckProposal (isController : Bool) (proposalId : Nat)
    (decision : ProposalReconcileDecision) :
    KeepsBook (reconcileStuckProposal now isController proposalId decision) := by
  refine Quiet.bind (quiet_demand _ trivial) fun _ => Quiet.bind (quiet_read _) fun _ =>
    Quiet.bind (quiet_need _ trivial) fun p => ?_
  cases decideReconcile p decision now with
  | replay _ _ => exact quiet_pure _
  | refuse _ => exact quiet_fail trivial
  | initializeClock _ =>
    exact Quiet.bind (keepsBook_writeProposal _ _) fun _ => quiet_fail trivial
  | commit _ _ _ =>
    refine Quiet.bind ?_ fun _ => Quiet.bind (keepsBook_writeProposal _ _) fun _ => quiet_pure _
    cases decision
    · exact keepsBook_note _
    · exact quiet_pure _

/-! ### Installation and upgrade -/

/-- What an upgrade that succeeds leaves, if the weight was ever counted. -/
structure Upgraded (s t : StakingState) : Prop where
  book : ∃ n, s.book.nextPositionIdCell = some n ∧
    t.book = {s.book with nextPositionId := n
                          totalVotingWeight := s.book.votingWeightCell.total}
  gov : ∃ n params, s.gov.nextProposalIdCell = some n ∧ s.gov.govParamsCell = some params ∧
    t.gov = {s.gov with nextProposalId := n
                        govParams := params}

theorem decodeIdCounter_eq {cell : Option Nat} {n : Nat} (h : decodeIdCounter cell = some n) :
    cell = some n := (Option.filter_eq_some_iff.1 h).1

theorem upgrade_ok (h : upgrade s = some t) (hinit : s.book.votingWeightCell.initialized = true) :
    Upgraded s t := by
  unfold upgrade at h
  split at h
  · next t' hexec =>
    cases h
    have hreload : s.reload.book.votingWeightCell.initialized = true := hinit
    simp only [postUpgrade, restoreWeight, writeBook, writeGov, bind_ok_iff, read_ok_iff, expect_ok_iff,
      write_ok_iff, and_assoc, exists_and_left, exists_eq_left, exists_const, id] at hexec
    obtain ⟨refs, -, n, hn, m, hm, params, hparams, rewards, -, htail⟩ := hexec
    simp only [hreload, if_true, write_ok_iff] at htail
    subst htail
    exact ⟨⟨n, decodeIdCounter_eq hn, rfl⟩, m, params, decodeIdCounter_eq hm, hparams, rfl⟩
  · cases h

/-- What the installation leaves. -/
theorem init_ok {args : InitArgs} (h : (init now args).exec .fresh = .ok (.ok (), s)) :
    s.book = {StakeBook.fresh with nextPositionIdCell := some 1
                                   votingWeightCell := ⟨true, 0⟩} ∧
      ∃ params : GovernanceParams, params.validate = .ok () ∧
        s.gov = {GovBook.fresh with nextProposalIdCell := some 1
                                    govParams := params
                                    govParamsCell := some params} := by
  simp only [init, writeBook, writeGov, bind_ok_iff, assert_ok_iff, write_ok_iff, and_assoc,
    exists_and_left, exists_eq_left, exists_const] at h
  obtain ⟨hvalid, rfl⟩ := h
  exact ⟨rfl, _, hvalid, rfl⟩

end StshProtocol.Staking
