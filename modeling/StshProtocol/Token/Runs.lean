import StshProtocol.Token.Effects
import StshProtocol.Token.Atomicity

/-! Runs of the token: messages, answers, and the states between them.

The canister takes one message at a time, so a run is a sequence of messages under a
clock that does not go back. `Does` says once what a message can do; every invariant
of a run is proved by cases on it. -/
namespace StshProtocol.Token
open Foundation ShieldedPool Handler

inductive Call where
  | icrc1Transfer (args : TransferArgs)
  | icrc2Approve (args : ApproveArgs)
  | icrc2TransferFrom (args : TransferFromArgs)
  | lockForStaking (holder : Principal) (amount : Nat)
  | unlockFromStaking (holder : Principal) (amount : Nat)
  | getDepositReceipt (args : DepositAttemptArgs)
  | closeDepositAttempt (args : DepositAttemptArgs)
  | pruneAllowances (cap : Nat)
  | pruneDedup
  | upgrade
  deriving DecidableEq

structure Message where
  now : Nat
  caller : Principal
  call : Call
  deriving DecidableEq

inductive Answer where
  | transfer (r : Except TransferError Nat)
  | approve (r : Except ApproveError Nat)
  | transferFrom (r : Except TransferFromError Nat)
  | staking (r : Except String Unit)
  | lookup (r : Except ReceiptError ReceiptLookup)
  | close (r : Except ReceiptError CloseOutcome)
  | done
  | trapped (t : Trap)

/-- The endpoint answered `Err`. -/
def Answer.isErr : Answer → Bool
  | .transfer (.error _) => true
  | .approve (.error _) => true
  | .transferFrom (.error _) => true
  | .staking (.error _) => true
  | .lookup (.error _) => true
  | .close (.error _) => true
  | _ => false

/-- The answer of a message that wrote nothing: an error, a trap or a lookup. -/
def Answer.idle : Answer → Bool
  | .lookup _ => true
  | .trapped _ => true
  | a => a.isErr

/-- The block of a transfer or an approval that succeeded. -/
def Answer.block : Answer → Option Nat
  | .transfer (.ok n) => some n
  | .approve (.ok n) => some n
  | .transferFrom (.ok n) => some n
  | _ => none

/-- The message ends: what it wrote is committed, unless it trapped. -/
def respond {ε α : Type} (reply : Except ε α → Answer) (s : TokenState)
    (r : Except Trap (Except ε α × TokenState)) : Answer × TokenState :=
  match r with
  | .ok (a, t) => (reply a, t)
  | .error trap => (.trapped trap, s)

/-- The upgrade hooks answer nothing. -/
def noReply : Except Empty Unit → Answer := fun _ => .done

/-- One message, approvals reclaiming at most `cap` rows. -/
def stepReclaiming (cap : Nat) (E : Env) (m : Message) (s : TokenState) : Answer × TokenState :=
  match m.call with
  | .icrc1Transfer args => respond .transfer s ((icrc1Transfer E m.now m.caller args).exec s)
  | .icrc2Approve args =>
    respond .approve s ((icrc2ApproveReclaiming cap E m.now m.caller args).exec s)
  | .icrc2TransferFrom args =>
    respond .transferFrom s ((icrc2TransferFrom E m.now m.caller args).exec s)
  | .lockForStaking holder amount =>
    respond .staking s ((lockForStaking m.caller holder amount).exec s)
  | .unlockFromStaking holder amount =>
    respond .staking s ((unlockFromStaking m.caller holder amount).exec s)
  | .getDepositReceipt args => respond .lookup s ((getDepositReceipt E m.caller args).exec s)
  | .closeDepositAttempt args => respond .close s ((closeDepositAttempt E m.now m.caller args).exec s)
  | .pruneAllowances cap => (.done, {s with allowances := pruneExpiredAllowances m.now cap s.allowances})
  | .pruneDedup => (.done, {s with dedup := pruneExpiredDedup m.now s.dedup})
  | .upgrade => respond noReply s ((upgrade m.now).exec s)

/-- One message to the token. -/
def step (E : Env) (m : Message) (s : TokenState) : Answer × TokenState :=
  stepReclaiming maxAllowancePrunePerCall E m s

/-! ### What a message can do -/

inductive Does (cap : Nat) (E : Env) (m : Message) (s : TokenState) :
    Answer → TokenState → Prop where
  /-- An error, a trap or a read. -/
  | nothing {a : Answer} (idle : a.idle = true) : Does cap E m s a s
  | transfer {args : TransferArgs} {block : Nat} {t : TokenState} (call : m.call = .icrc1Transfer args)
      (h : Transferred E m.now m.caller args block s t) : Does cap E m s (.transfer (.ok block)) t
  | approve {args : ApproveArgs} {block e : Nat} {t : TokenState} (call : m.call = .icrc2Approve args)
      (h : Approved cap E m.now m.caller args block e s t) : Does cap E m s (.approve (.ok block)) t
  | transferFrom {args : TransferFromArgs} {block : Nat} {ctx : Option PoolReceiptContext}
      {t : TokenState} (call : m.call = .icrc2TransferFrom args)
      (h : TransferredFrom E m.now m.caller args block ctx s t) :
      Does cap E m s (.transferFrom (.ok block)) t
  | lock {key : Bytes} {holder : Principal} {amount : Nat} {v : Vault}
      (call : m.call = .lockForStaking holder amount) (hle : amount ≤ s.vault.liquid key)
      (h : s.vault.writeLock key (s.vault.locks.get key) (s.vault.locks.get key + amount) = some v) :
      Does cap E m s (.staking (.ok ())) {s with vault := v}
  | unlock {key : Bytes} {holder : Principal} {amount : Nat} {v : Vault}
      (call : m.call = .unlockFromStaking holder amount) (hle : amount ≤ s.vault.locks.get key)
      (h : s.vault.writeLock key (s.vault.locks.get key) (s.vault.locks.get key - amount) = some v) :
      Does cap E m s (.staking (.ok ())) {s with vault := v}
  | close {args : DepositAttemptArgs} {keys : ReceiptKeys} {outcome : CloseOutcome} {t : TokenState}
      (call : m.call = .closeDepositAttempt args) (hk : AttemptKeys E m.caller args s keys)
      (h : Closed m.now keys s outcome t) : Does cap E m s (.close (.ok outcome)) t
  | pruneAllowances {n : Nat} (call : m.call = .pruneAllowances n) :
      Does cap E m s .done {s with allowances := pruneExpiredAllowances m.now n s.allowances}
  | pruneDedup (call : m.call = .pruneDedup) :
      Does cap E m s .done {s with dedup := pruneExpiredDedup m.now s.dedup}
  | upgrade {c : TokenStableState} (call : m.call = .upgrade) :
      Does cap E m s .done {s with checkpoint := some c}

/-- An atomic endpoint does nothing or what it does when it succeeds. -/
theorem does_respond {cap : Nat} {E : Env} {m : Message} {s : TokenState} {ε α : Type}
    {reply : Except ε α → Answer} {x : Endpoint ε α} (hx : x.Atomic)
    (herr : ∀ e, (reply (.error e)).idle = true)
    (hok : ∀ a t, x.exec s = .ok (.ok a, t) → Does cap E m s (reply (.ok a)) t) :
    Does cap E m s (respond reply s (x.exec s)).1 (respond reply s (x.exec s)).2 := by
  match h : x.exec s with
  | .error trap => exact .nothing rfl
  | .ok (.error e, t) =>
    rw [hx s e t h]
    exact .nothing (herr e)
  | .ok (.ok a, t) => exact hok a t h

theorem atomic_upgrade (now : Nat) : (upgrade now).Atomic := fun _ e => e.elim

theorem step_does (cap : Nat) (E : Env) (m : Message) (s : TokenState) :
    Does cap E m s (stepReclaiming cap E m s).1 (stepReclaiming cap E m s).2 := by
  unfold stepReclaiming
  split
  · next args call =>
    exact does_respond (atomic_icrc1Transfer _ _ _ _) (fun _ => rfl) fun _ _ h =>
      .transfer call (icrc1Transfer_ok h)
  · next args call =>
    refine does_respond (atomic_icrc2Approve _ _ _ _ _) (fun _ => rfl) fun _ _ h => ?_
    obtain ⟨e, he⟩ := icrc2Approve_ok h
    exact .approve call he
  · next args call =>
    refine does_respond (atomic_icrc2TransferFrom _ _ _ _) (fun _ => rfl) fun _ _ h => ?_
    obtain ⟨ctx, hctx⟩ := icrc2TransferFrom_ok h
    exact .transferFrom call hctx
  · next holder amount call =>
    refine does_respond (atomic_lockForStaking _ _ _) (fun _ => rfl) fun _ _ h => ?_
    obtain ⟨hle, v, hv, rfl⟩ := lockForStaking_ok h
    exact .lock call hle hv
  · next holder amount call =>
    refine does_respond (atomic_unlockFromStaking _ _ _) (fun _ => rfl) fun _ _ h => ?_
    obtain ⟨hle, v, hv, rfl⟩ := unlockFromStaking_ok h
    exact .unlock call hle hv
  · refine does_respond (readOnly_getDepositReceipt _ _ _).atomic (fun _ => rfl) fun _ _ h => ?_
    rw [getDepositReceipt_ok h]
    exact .nothing rfl
  · next args call =>
    refine does_respond (atomic_closeDepositAttempt _ _ _ _) (fun _ => rfl) fun _ _ h => ?_
    obtain ⟨keys, hkeys, hclosed⟩ := closeDepositAttempt_ok h
    exact .close call hkeys hclosed
  · next call => exact .pruneAllowances call
  · next call => exact .pruneDedup call
  · next call =>
    refine does_respond (atomic_upgrade _) (fun e => e.elim) fun _ _ h => ?_
    obtain ⟨c, rfl⟩ := upgrade_ok h
    exact .upgrade call

theorem does_step (E : Env) (m : Message) (s : TokenState) :
    Does maxAllowancePrunePerCall E m s (step E m s).1 (step E m s).2 := step_does _ _ _ _

/-! ### Errors -/

theorem respond_err {ε α : Type} {reply : Except ε α → Answer} {s : TokenState} {x : Endpoint ε α}
    (hx : x.Atomic) (hreply : ∀ a, (reply (.ok a)).isErr = false)
    (h : (respond reply s (x.exec s)).1.isErr = true) : (respond reply s (x.exec s)).2 = s := by
  match hr : x.exec s with
  | .error trap => rfl
  | .ok (.error e, t) => exact hx s e t hr
  | .ok (.ok a, t) =>
    rw [hr] at h
    nomatch (hreply a).symm.trans h

/-- A call that answers an error leaves the whole state as it was. -/
theorem error_leaves_state (E : Env) (m : Message) (s : TokenState)
    (h : (step E m s).1.isErr = true) : (step E m s).2 = s := by
  unfold step stepReclaiming at *
  split at h
  · exact respond_err (atomic_icrc1Transfer _ _ _ _) (fun _ => rfl) h
  · exact respond_err (atomic_icrc2Approve _ _ _ _ _) (fun _ => rfl) h
  · exact respond_err (atomic_icrc2TransferFrom _ _ _ _) (fun _ => rfl) h
  · exact respond_err (atomic_lockForStaking _ _ _) (fun _ => rfl) h
  · exact respond_err (atomic_unlockFromStaking _ _ _) (fun _ => rfl) h
  · exact respond_err (readOnly_getDepositReceipt _ _ _).atomic (fun _ => rfl) h
  · exact respond_err (atomic_closeDepositAttempt _ _ _ _) (fun _ => rfl) h
  · nomatch h
  · nomatch h
  · exact respond_err (atomic_upgrade _) (fun _ => rfl) h

/-- A transfer of nothing. -/
theorem error_leaves_state_zero :
    (step ⟨1, fun _ => 0, fun _ => true⟩ ⟨0, 2, .icrc1Transfer ⟨none, ⟨3, none⟩, 0, none, none, none⟩⟩
      (TokenState.fresh 0)).2 = TokenState.fresh 0 :=
  error_leaves_state _ _ _ (by rfl)

/-! ### Runs -/

/-- One message of a run, with the states around it. -/
structure Entry where
  message : Message
  before : TokenState
  answer : Answer
  after : TokenState

/-- The histories of a token built with a transfer fee and installed with `args`: the
messages so far, the latest first, at whatever times, and the state. -/
inductive History (E : Env) (fee : Nat) (args : InitArgs) : List Entry → TokenState → Prop where
  | genesis {s : TokenState} (h : (init args).exec (TokenState.fresh fee) = .ok (.ok (), s)) :
      History E fee args [] s
  | step {log : List Entry} {s : TokenState} {m : Message} (history : History E fee args log s)
      (hnow : m.now ≤ u64Max) :
      History E fee args (⟨m, s, (step E m s).1, (step E m s).2⟩ :: log) (step E m s).2

/-- The histories under a clock that does not go back, and what it shows. -/
inductive Run (E : Env) (fee : Nat) (args : InitArgs) : Nat → List Entry → TokenState → Prop where
  | genesis {now : Nat} {s : TokenState}
      (h : (init args).exec (TokenState.fresh fee) = .ok (.ok (), s)) : Run E fee args now [] s
  | step {clock : Nat} {log : List Entry} {s : TokenState} {m : Message}
      (run : Run E fee args clock log s) (hle : clock ≤ m.now) (hnow : m.now ≤ u64Max) :
      Run E fee args m.now (⟨m, s, (step E m s).1, (step E m s).2⟩ :: log) (step E m s).2

variable {E : Env} {fee : Nat} {args : InitArgs} {clock : Nat} {log : List Entry} {s : TokenState}

theorem Run.history (run : Run E fee args clock log s) : History E fee args log s := by
  induction run with
  | genesis h => exact .genesis h
  | step run hle hnow ih => exact .step ih hnow

/-- An invariant of the states a history goes through. -/
theorem History.invariant {I : TokenState → Prop}
    (hinit : ∀ s, (init args).exec (TokenState.fresh fee) = .ok (.ok (), s) → I s)
    (hstep : ∀ m s a t, m.now ≤ u64Max → I s → Does maxAllowancePrunePerCall E m s a t → I t)
    (history : History E fee args log s) : I s := by
  induction history with
  | genesis h => exact hinit _ h
  | step history hnow ih => exact hstep _ _ _ _ hnow ih (does_step _ _ _)

/-- An entry of a history is one step of the token, after an earlier part of it. -/
theorem History.entry (history : History E fee args log s) {newer older : List Entry} {e : Entry}
    (h : log = newer ++ e :: older) :
    History E fee args older e.before ∧ e.message.now ≤ u64Max ∧
      Token.step E e.message e.before = (e.answer, e.after) := by
  induction history generalizing newer with
  | genesis _ => simp at h
  | step history hnow ih =>
    cases newer with
    | nil =>
      obtain ⟨rfl, rfl⟩ := List.cons.inj h
      exact ⟨history, hnow, rfl⟩
    | cons _ newer => exact ih (List.cons.inj h).2

/-- What an entry's message did. -/
theorem History.does (history : History E fee args log s) {e : Entry} (he : e ∈ log) :
    Does maxAllowancePrunePerCall E e.message e.before e.answer e.after := by
  obtain ⟨newer, older, hlog⟩ := List.append_of_mem he
  obtain ⟨-, -, hstep⟩ := history.entry hlog
  have hdoes := does_step E e.message e.before
  rwa [hstep] at hdoes

/-- An entry of a run came after an earlier part of it, no earlier than the clock then. -/
theorem Run.entry (run : Run E fee args clock log s) {newer older : List Entry} {e : Entry}
    (h : log = newer ++ e :: older) :
    ∃ before, Run E fee args before older e.before ∧ before ≤ e.message.now := by
  induction run generalizing newer with
  | genesis _ => simp at h
  | step run hle hnow ih =>
    cases newer with
    | nil =>
      obtain ⟨rfl, rfl⟩ := List.cons.inj h
      exact ⟨_, run, hle⟩
    | cons _ newer => exact ih (List.cons.inj h).2

/-- The clock is past every message. -/
theorem Run.past (run : Run E fee args clock log s) {e : Entry} (he : e ∈ log) :
    e.message.now ≤ clock := by
  induction run with
  | genesis _ => nomatch he
  | step run hle hnow ih =>
    rcases List.mem_cons.1 he with rfl | he
    · exact Nat.le_refl _
    · exact Nat.le_trans (ih he) hle

end StshProtocol.Token
