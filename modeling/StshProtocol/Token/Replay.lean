import StshProtocol.Token.Genesis
import StshProtocol.Token.Runs

/-! A request that succeeded is not executed again.

A request that carries a time is recorded when it succeeds, and from then on, at every
instant, its record stands or its time is outside the window (`Run.recorded`). The
window check comes before the lookup, so the request is refused either way. -/
namespace StshProtocol.Token
open Foundation ShieldedPool Handler

/-! ### What a message does to the records -/

/-- The time a request carries. -/
def Call.createdAtTime : Call → Option Nat
  | .icrc1Transfer args => args.createdAtTime
  | .icrc2Approve args => args.createdAtTime
  | .icrc2TransferFrom args => args.createdAtTime
  | _ => none

/-- The key a request is recorded under, for the time it carries. -/
def Call.dedupKey (E : Env) (caller : Principal) : Call → Nat → Bytes32
  | .icrc1Transfer args =>
    transferDedupKey E ⟨caller, args.fromSubaccount⟩ args.dest args.amount args.fee args.memo
  | .icrc2Approve args => approveDedupKey E ⟨caller, args.fromSubaccount⟩ args
  | .icrc2TransferFrom args =>
    transferFromDedupKey E args.source ⟨caller, args.spenderSubaccount⟩ args.dest args.amount args.fee
      args.memo
  | _ => fun _ => 0

def Message.dedupKey (E : Env) (m : Message) : Option (Bytes32 × Nat) :=
  keyAt (m.call.dedupKey E m.caller) m.call.createdAtTime

/-- What a message does to the records: a success that carries a time is recorded under
a key that was free, and nothing else is. -/
inductive Records (E : Env) (m : Message) (a : Answer) (b : Dedup) : Dedup → Prop where
  | same (h : a.block = none ∨ m.dedupKey E = none) : Records E m a b b
  | pruned (h : a.block = none) : Records E m a b (pruneExpiredDedup m.now b)
  | recorded {key : Bytes32} {c n : Nat} (hkey : m.dedupKey E = some (key, c))
      (hblock : a.block = some n) (free : b.rows[key]? = none) :
      Records E m a b (recordDedup m.now key n c b)

theorem Answer.block_of_idle {a : Answer} (h : a.idle = true) : a.block = none := by
  cases a with
  | transfer r => cases r <;> first | rfl | nomatch h
  | approve r => cases r <;> first | rfl | nomatch h
  | transferFrom r => cases r <;> first | rfl | nomatch h
  | staking r => rfl
  | lookup r => rfl
  | close r => rfl
  | done => rfl
  | trapped t => rfl

variable {E : Env} {m : Message} {a : Answer} {b b' : Dedup} {key : Bytes32}

theorem records_of_keyAt {k : Nat → Bytes32} {o : Option Nat} {n : Nat}
    (hkey : m.dedupKey E = keyAt k o) (hblock : a.block = some n)
    (free : ∀ c ∈ o, b.rows[k c]? = none) :
    Records E m a b (recordKey m.now (keyAt k o) n b) := by
  cases o with
  | none => exact .same (.inr hkey)
  | some c => exact .recorded hkey hblock (free c rfl)

theorem does_records {cap : Nat} {s t : TokenState} (h : Does cap E m s a t) :
    Records E m a s.dedup t.dedup := by
  cases h with
  | nothing idle => exact .same (.inl (Answer.block_of_idle idle))
  | transfer call ht =>
    obtain ⟨v, hv, rfl⟩ := ht.left
    exact records_of_keyAt (by rw [Message.dedupKey, call]; rfl) rfl ht.fresh
  | approve call ha =>
    obtain ⟨v, hv, rfl⟩ := ha.left
    exact records_of_keyAt (by rw [Message.dedupKey, call]; rfl) rfl ha.fresh
  | transferFrom call ht =>
    obtain ⟨v, hv, rfl⟩ := ht.left
    exact records_of_keyAt (by rw [Message.dedupKey, call]; rfl) rfl ht.fresh
  | lock call => exact .same (.inl rfl)
  | unlock call => exact .same (.inl rfl)
  | close call hk hc => cases hc <;> exact .same (.inl rfl)
  | pruneAllowances => exact .same (.inl rfl)
  | pruneDedup => exact .pruned rfl
  | upgrade => exact .same (.inl rfl)

theorem Records.exact (h : Records E m a b b') (hexact : b.Exact DedupValue.stamp) :
    b'.Exact DedupValue.stamp := by
  cases h with
  | same => exact hexact
  | pruned => exact exact_prune hexact
  | recorded hkey hblock free => exact exact_record hexact free

/-- A record made earlier stands, or is out of the window. -/
theorem Records.keeps {v : DedupValue} (h : Records E m a b b') (hexact : b.Exact DedupValue.stamp)
    (hv : RecordedOrOld m.now key v b) : RecordedOrOld m.now key v b' := by
  cases h with
  | same => exact hv
  | pruned => exact hv.prune hexact
  | recorded hkey hblock free => exact hv.record hexact free

/-- A success that carries a time is on record. -/
theorem Records.success {c n : Nat} (h : Records E m a b b') (hkey : m.dedupKey E = some (key, c))
    (hblock : a.block = some n) : b'.rows[key]? = some ⟨n, c⟩ := by
  cases h with
  | same h =>
    rcases h with h | h
    · nomatch h.symm.trans hblock
    · nomatch h.symm.trans hkey
  | pruned h => nomatch h.symm.trans hblock
  | recorded hkey' hblock' free =>
    obtain ⟨rfl, rfl⟩ := Prod.mk.inj (Option.some.inj (hkey'.symm.trans hkey))
    obtain rfl := Option.some.inj (hblock'.symm.trans hblock)
    rw [recordDedup_rows, if_pos rfl]

/-! ### Runs -/

section Runs
variable {fee : Nat} {args : InitArgs} {clock : Nat} {log : List Entry} {s : TokenState}

/-- The dedup index has one entry for each record, and no other. -/
theorem History.dedup_exact (history : History E fee args log s) :
    s.dedup.Exact DedupValue.stamp := by
  refine history.invariant (fun s h => ?_) fun m s a t _ h hdoes => (does_records hdoes).exact h
  obtain ⟨v, rfl, -⟩ := init_ok h
  exact Timed.exact_empty

/-- Nothing changes the fee. -/
theorem does_fee {cap : Nat} {t : TokenState} (h : Does cap E m s a t) :
    t.transferFee = s.transferFee := by
  cases h with
  | transfer call ht => obtain ⟨v, -, rfl⟩ := ht.left; rfl
  | approve call ha => obtain ⟨v, -, rfl⟩ := ha.left; rfl
  | transferFrom call ht => obtain ⟨v, -, rfl⟩ := ht.left; rfl
  | close call hk hc => cases hc <;> rfl
  | _ => rfl

theorem History.fee_fixed (history : History E fee args log s) : s.transferFee = fee := by
  refine history.invariant (I := fun s => s.transferFee = fee) (fun s h => ?_)
    fun m s a t _ h hdoes => (does_fee hdoes).trans h
  obtain ⟨v, rfl, -⟩ := init_ok h
  rfl

/-- Every success that carried a time is still on record, or out of the window. -/
theorem Run.recorded (run : Run E fee args clock log s) {e : Entry} (he : e ∈ log) {c n : Nat}
    (hkey : e.message.dedupKey E = some (key, c)) (hblock : e.answer.block = some n) :
    RecordedOrOld clock key ⟨n, c⟩ s.dedup := by
  induction run with
  | genesis _ => nomatch he
  | @step clock log s m run hle hnow ih =>
    have hrecords := does_records (does_step E m s)
    rcases List.mem_cons.1 he with rfl | he
    · exact .inl (hrecords.success hkey hblock)
    · exact hrecords.keeps run.history.dedup_exact ((ih he).later hle)

end Runs

/-! ### The request again -/

/-- The ways a request that succeeded is answered when it comes again. -/
def RefusedAgain {ε α : Type} (duplicate tooOld : ε) (s : TokenState)
    (r : Except Trap (Except ε α × TokenState)) : Prop :=
  r = .ok (.error duplicate, s) ∨ r = .ok (.error tooOld, s) ∨ r = .error .arithmeticOverflow

/-- A time that was admitted is not in the future later. -/
theorem window_again {now later c : Nat} (h : windowCheck now c = .admitted) (hle : now ≤ later) :
    windowCheck later c = .admitted ∨ windowCheck later c = .tooOld ∨
      windowCheck later c = .overflow := by
  have hfuture : ¬ c > later + permittedDriftNs := by
    unfold windowCheck at h
    split at h
    · nomatch h
    · split at h
      · nomatch h
      · omega
  unfold windowCheck
  rw [if_neg hfuture]
  split
  · exact .inr (.inr rfl)
  · split
    · exact .inr (.inl rfl)
    · exact .inl rfl

section Again
variable {s : TokenState} {now c : Nat} {caller : Principal} {v : DedupValue}

theorem exec_checkWindow {ε : Type} {o : Option Nat} {e₁ e₂ : ε} (hc : o = some c) :
    (checkWindow now o e₁ e₂).exec s = (windowAnswer (windowCheck now c) e₁ e₂).exec s := by
  rw [hc]
  rfl

theorem exec_duplicate {ε : Type} {o : Option Nat} {k : Nat → Bytes32} {dup : Nat → ε}
    (hc : o = some c) (hv : s.dedup.rows[k c]? = some v) :
    (checkDuplicate o k dup).exec s = .ok (.error (dup v.blockIndex), s) := by
  rw [hc, checkDuplicate, exec_bind_ok (exec_read _)]
  refine exec_bind_error ?_
  rw [hv]
  rfl

/-- After the window check the lookup finds the record. -/
theorem refused_of_window {ε α : Type} {o : Option Nat} {e₁ dup tooOld : ε}
    {x : Unit → Endpoint ε α} (hc : o = some c)
    (hw : windowCheck now c = .admitted ∨ windowCheck now c = .tooOld ∨ windowCheck now c = .overflow)
    (hdup : windowCheck now c = .admitted → (x ()).exec s = .ok (.error dup, s)) :
    RefusedAgain dup tooOld s ((checkWindow now o e₁ tooOld >>= x).exec s) := by
  rcases hw with hw | hw | hw
  · refine .inl ?_
    rw [exec_bind_ok (a := ()) (u := s), hdup hw]
    rw [exec_checkWindow hc, hw]
    rfl
  · refine .inr (.inl (exec_bind_error ?_))
    rw [exec_checkWindow hc, hw]
    rfl
  · refine .inr (.inr (exec_bind_trap ?_))
    rw [exec_checkWindow hc, hw]
    rfl

/-- The record of a request that carries the time `c`, if the window admits it. -/
def OnRecord (now c : Nat) (key : Bytes32) (v : DedupValue) (s : TokenState) : Prop :=
  (windowCheck now c = .admitted ∨ windowCheck now c = .tooOld ∨ windowCheck now c = .overflow) ∧
    (windowCheck now c = .admitted → s.dedup.rows[key]? = some v)

theorem icrc1Transfer_again {args : TransferArgs} (hc : args.createdAtTime = some c)
    (hfee : feeAccepted args.fee s.transferFee = true)
    (hamount : toU128 args.amount = some args.amount) (hne : args.amount ≠ 0)
    (hpay : checkedTotalDebit args.amount s.transferFee = .ok (args.amount + s.transferFee))
    (hv : OnRecord now c (transferDedupKey E ⟨caller, args.fromSubaccount⟩ args.dest args.amount
      args.fee args.memo c) v s) :
    RefusedAgain (.duplicate v.blockIndex) .tooOld s ((icrc1Transfer E now caller args).exec s) := by
  rw [icrc1Transfer, exec_bind_ok (exec_read _), exec_bind_ok (exec_demand hfee)]
  refine refused_of_window hc hv.1 fun hw => ?_
  rw [exec_bind_ok (exec_need hamount), exec_bind_ok (exec_demand hne), exec_bind_ok (exec_lift hpay)]
  exact exec_bind_error (exec_duplicate hc (hv.2 hw))

theorem icrc2Approve_again {cap : Nat} {args : ApproveArgs} (hc : args.createdAtTime = some c)
    (hfee : feeAccepted args.fee s.transferFee = true)
    (hv : OnRecord now c (approveDedupKey E ⟨caller, args.fromSubaccount⟩ args c) v s) :
    RefusedAgain (.duplicate v.blockIndex) .tooOld s
      ((icrc2ApproveReclaiming cap E now caller args).exec s) := by
  rw [icrc2ApproveReclaiming, exec_bind_ok (exec_read _), exec_bind_ok (exec_demand hfee)]
  exact refused_of_window hc hv.1 fun hw => exec_bind_error (exec_duplicate hc (hv.2 hw))

theorem icrc2TransferFrom_again {args : TransferFromArgs} (hc : args.createdAtTime = some c)
    (hfee : feeAccepted args.fee s.transferFee = true)
    (hamount : toU128 args.amount = some args.amount) (hne : args.amount ≠ 0)
    (hpay : checkedTotalDebit args.amount s.transferFee = .ok (args.amount + s.transferFee))
    (hv : OnRecord now c (transferFromDedupKey E args.source ⟨caller, args.spenderSubaccount⟩ args.dest
      args.amount args.fee args.memo c) v s) :
    RefusedAgain (.duplicate v.blockIndex) .tooOld s
      ((icrc2TransferFrom E now caller args).exec s) := by
  have hpay' : (checkedTotalDebit args.amount s.transferFee).mapError TransferFromError.ofTransfer =
      .ok (args.amount + s.transferFee) := by
    rw [hpay]
    rfl
  rw [icrc2TransferFrom, exec_bind_ok (exec_read _), exec_bind_ok (exec_demand hfee),
    exec_bind_ok (exec_need hamount), exec_bind_ok (exec_demand hne), exec_bind_ok (exec_lift hpay')]
  exact refused_of_window hc hv.1 fun hw => exec_bind_error (exec_duplicate hc (hv.2 hw))

end Again

/-- The answers to a request whose first submission made the block `n`: a duplicate of
that block, or one the window check gives. -/
def Answer.refuses (n : Nat) : Answer → Bool
  | .transfer (.error (.duplicate b)) => b == n
  | .transfer (.error .tooOld) => true
  | .approve (.error (.duplicate b)) => b == n
  | .approve (.error .tooOld) => true
  | .transferFrom (.error (.duplicate b)) => b == n
  | .transferFrom (.error .tooOld) => true
  | .trapped .arithmeticOverflow => true
  | _ => false

theorem refused_respond {ε α : Type} {reply : Except ε α → Answer} {dup tooOld : ε} {s : TokenState}
    {r : Except Trap (Except ε α × TokenState)} {n : Nat} (h : RefusedAgain dup tooOld s r)
    (hdup : (reply (.error dup)).refuses n = true) (hold : (reply (.error tooOld)).refuses n = true) :
    (respond reply s r).2 = s ∧ (respond reply s r).1.refuses n = true := by
  rcases h with rfl | rfl | rfl
  · exact ⟨rfl, hdup⟩
  · exact ⟨rfl, hold⟩
  · exact ⟨rfl, rfl⟩

theorem keyAt_some {k : Nat → Bytes32} {o : Option Nat} {c : Nat} (h : keyAt k o = some (key, c)) :
    o = some c ∧ key = k c := by
  cases o with
  | none => nomatch h
  | some c' =>
    obtain ⟨rfl, rfl⟩ := Prod.mk.inj (Option.some.inj h)
    exact ⟨rfl, rfl⟩

/-- A request that succeeded, submitted again while its record stands or it is too old. -/
theorem Does.again {cap : Nat} {s t s' : TokenState} {m' : Message} {c n : Nat}
    (h : Does cap E m s a t) (hcaller : m'.caller = m.caller) (hcall : m'.call = m.call)
    (hle : m.now ≤ m'.now) (hfee : s'.transferFee = s.transferFee)
    (hkey : m.dedupKey E = some (key, c)) (hblock : a.block = some n)
    (hrec : RecordedOrOld m'.now key ⟨n, c⟩ s'.dedup) :
    (step E m' s').2 = s' ∧ (step E m' s').1.refuses n = true := by
  have honrecord : windowCheck m.now c = .admitted → OnRecord m'.now c key ⟨n, c⟩ s' :=
    fun hw => ⟨window_again hw hle, fun hw' => hrec.refused hw'⟩
  rw [Message.dedupKey] at hkey
  unfold step stepReclaiming
  rw [hcall, hcaller]
  cases h with
  | nothing idle => nomatch (Answer.block_of_idle idle).symm.trans hblock
  | transfer call ht =>
    rw [call] at hkey ⊢
    obtain ⟨hc, rfl⟩ := keyAt_some hkey
    obtain rfl := Option.some.inj hblock
    exact refused_respond (icrc1Transfer_again hc (hfee ▸ ht.fee) ht.represented ht.nonzero
      (hfee ▸ ht.payable) (honrecord (ht.window c hc))) (beq_self_eq_true _) rfl
  | approve call ha =>
    rw [call] at hkey ⊢
    obtain ⟨hc, rfl⟩ := keyAt_some hkey
    obtain rfl := Option.some.inj hblock
    exact refused_respond (icrc2Approve_again hc (hfee ▸ ha.fee) (honrecord (ha.window c hc)))
      (beq_self_eq_true _) rfl
  | transferFrom call ht =>
    rw [call] at hkey ⊢
    obtain ⟨hc, rfl⟩ := keyAt_some hkey
    obtain rfl := Option.some.inj hblock
    exact refused_respond (icrc2TransferFrom_again hc (hfee ▸ ht.fee) ht.represented ht.nonzero
      (hfee ▸ ht.payable) (honrecord (ht.window c hc))) (beq_self_eq_true _) rfl
  | lock => nomatch hblock
  | unlock => nomatch hblock
  | close => nomatch hblock
  | pruneAllowances => nomatch hblock
  | pruneDedup => nomatch hblock
  | upgrade => nomatch hblock

/-- In every run, a request that carried a time and succeeded is refused whenever its
caller submits it again, and changes nothing; and pruning, at whatever time, takes no
record away that the window check would admit then. -/
theorem replay_refused {fee : Nat} {args : InitArgs} {clock : Nat} {log : List Entry} {s : TokenState}
    (run : Run E fee args clock log s) :
    (∀ newer older again first c n, log = newer ++ again :: older → first ∈ older →
      again.message.caller = first.message.caller → again.message.call = first.message.call →
      first.message.call.createdAtTime = some c → first.answer.block = some n →
      again.after = again.before ∧ again.answer.refuses n = true) ∧
    ∀ now (key : Bytes32) (v : DedupValue), s.dedup.rows[key]? = some v → windowCheck now v.createdAt = .admitted →
      (pruneExpiredDedup now s.dedup).rows[key]? = some v := by
  refine ⟨?_, ?_⟩
  · intro newer older again first c n hlog hfirst hcaller hcall hc hblock
    obtain ⟨clock', before, hle⟩ := run.entry hlog
    obtain ⟨-, -, hstep⟩ := run.history.entry hlog
    obtain ⟨newer', older', holder⟩ := List.append_of_mem hfirst
    obtain ⟨hbefore, -, -⟩ := before.history.entry holder
    have hkey : first.message.dedupKey E =
        some (first.message.call.dedupKey E first.message.caller c, c) := by
      rw [Message.dedupKey, hc]
      rfl
    have hagain := (before.history.does hfirst).again hcaller hcall (Nat.le_trans (before.past hfirst) hle)
      (before.history.fee_fixed.trans hbefore.fee_fixed.symm) hkey hblock
      ((before.recorded hfirst hkey hblock).later hle)
    rwa [hstep] at hagain
  · intro now key v hv hw
    have hrecorded : RecordedOrOld now key v s.dedup := .inl hv
    exact (hrecorded.prune run.history.dedup_exact).refused hw

/-- A transfer of one unit out of the whole supply, sent twice at one instant. -/
def twice : Message :=
  ⟨5, 7, .icrc1Transfer ⟨none, ⟨3, none⟩, 1, none, none, some 5⟩⟩

theorem replay_refused_twice :
    let first : Entry := ⟨twice, soleGenesis, (step plainEnv twice soleGenesis).1,
      (step plainEnv twice soleGenesis).2⟩
    let again : Entry := ⟨twice, first.after, (step plainEnv twice first.after).1,
      (step plainEnv twice first.after).2⟩
    (again.after = again.before ∧ again.answer.refuses 1 = true) ∧
      ∀ now (key : Bytes32) (v : DedupValue), again.after.dedup.rows[key]? = some v →
        windowCheck now v.createdAt = .admitted →
        (pruneExpiredDedup now again.after.dedup).rows[key]? = some v := by
  have hgenesis : Run plainEnv 0 soleAllocation 0 [] soleGenesis := .genesis soleGenesis_exec
  have h := replay_refused (.step (m := twice) (.step (m := twice) hgenesis (by decide) (by decide))
    (by decide) (by decide))
  have hblock : (step plainEnv twice soleGenesis).1.block = some 1 := by decide +kernel
  exact ⟨h.1 [] _ _ _ 5 1 rfl (List.mem_cons_self ..) rfl rfl rfl hblock, h.2⟩

end StshProtocol.Token
