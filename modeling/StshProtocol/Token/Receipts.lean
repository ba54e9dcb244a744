import StshProtocol.Token.Genesis
import StshProtocol.Token.Runs
import Mathlib.Data.Set.Function

/-! One execution for each deposit operation, fenced by its cancellation.

Receipts are only ever added (`does_keeps_receipt`). A transfer by the pool leaves the
receipt of its operation in the message that moves the tokens, and is refused where any
receipt stands; closing an attempt leaves a cancellation where none stands. So the
receipt of an operation tells for good which of the two came first. -/
namespace StshProtocol.Token
open Foundation ShieldedPool Handler

variable {E : Env} {cap : Nat} {m : Message} {a : Answer} {s t : TokenState} {p : Principal}
  {memo : Bytes} {key : Bytes32}

/-! ### What a message does to the receipts -/

/-- A receipt, once stored, stays. -/
theorem does_keeps_receipt (h : Does cap E m s a t) {r : DepositReceiptV1}
    (hr : s.receipts[key]? = some r) : t.receipts[key]? = some r := by
  cases h with
  | transferFrom call ht =>
    rename_i ctx
    obtain ⟨v, -, rfl⟩ := ht.left
    cases ctx with
    | none => exact hr
    | some ctx =>
      obtain ⟨-, _, _, -, -, -, -, hnone, -⟩ := ht.gate
      show (s.receipts.insert ctx.key _)[key]? = some r
      rw [StableMap.get_insert, if_neg, hr]
      rintro rfl
      nomatch hnone.symm.trans hr
  | transfer call ht =>
    obtain ⟨v, -, rfl⟩ := ht.left
    exact hr
  | approve call ha =>
    obtain ⟨v, -, rfl⟩ := ha.left
    exact hr
  | close call hk hc =>
    cases hc with
    | fenced hnone size =>
      rw [StableMap.get_insert, if_neg, hr]
      rintro rfl
      nomatch hnone.symm.trans hr
    | _ => exact hr
  | _ => exact hr

/-- The pool bound at install. -/
theorem does_pool (h : Does cap E m s a t) : t.poolCanister = s.poolCanister := by
  cases h with
  | transfer call ht => obtain ⟨v, -, rfl⟩ := ht.left; rfl
  | approve call ha => obtain ⟨v, -, rfl⟩ := ha.left; rfl
  | transferFrom call ht => obtain ⟨v, -, rfl⟩ := ht.left; rfl
  | close call hk hc => cases hc <;> rfl
  | _ => rfl

/-- A transfer by the pool finds no receipt of its operation and leaves one. -/
theorem does_execution {args : TransferFromArgs} {block : Nat} (h : Does cap E m s a t)
    (hpool : s.poolCanister = some m.caller) (hcall : m.call = .icrc2TransferFrom args)
    (ha : a = .transferFrom (.ok block)) (hmemo : args.memo = some memo) :
    s.receipts[depositOperationId E memo]? = none ∧ ∃ c, args.createdAtTime = some c ∧
      t.receipts[depositOperationId E memo]? = some (.applied block args.amount s.transferFee
        (depositRequestHash E args.source ⟨m.caller, args.spenderSubaccount⟩ args.dest args.amount
          args.fee args.memo c) m.now) := by
  cases h with
  | nothing idle => rw [ha] at idle; nomatch idle
  | transferFrom call ht =>
    rename_i ctx
    obtain rfl := Call.icrc2TransferFrom.inj (call.symm.trans hcall)
    cases ha
    obtain ⟨v, -, rfl⟩ := ht.left
    cases ctx with
    | none => exact absurd hpool ht.gate
    | some ctx =>
      obtain ⟨-, memo', c, hmemo', hc, -, rfl, hnone, -⟩ := ht.gate
      obtain rfl := Option.some.inj (hmemo'.symm.trans hmemo)
      exact ⟨hnone, c, hc, (StableMap.get_insert _ _ _ _).trans (if_pos rfl)⟩
  | _ => nomatch ha

/-- A transfer by a spender succeeds or changes nothing. -/
theorem does_transferFrom {args : TransferFromArgs} (h : Does cap E m s a t)
    (hcall : m.call = .icrc2TransferFrom args) : t = s ∨ ∃ block, a = .transferFrom (.ok block) := by
  cases h with
  | nothing => exact .inl rfl
  | transferFrom => exact .inr ⟨_, rfl⟩
  | transfer call => nomatch call.symm.trans hcall
  | approve call => nomatch call.symm.trans hcall
  | lock call => nomatch call.symm.trans hcall
  | unlock call => nomatch call.symm.trans hcall
  | close call => nomatch call.symm.trans hcall
  | pruneAllowances call => nomatch call.symm.trans hcall
  | pruneDedup call => nomatch call.symm.trans hcall
  | upgrade call => nomatch call.symm.trans hcall

/-- A cancellation that was answered is on record. -/
theorem does_cancellation {args : DepositAttemptArgs} {r : DepositReceiptV1} (h : Does cap E m s a t)
    (hcall : m.call = .closeDepositAttempt args) (ha : a = .close (.ok (.cancelled r)))
    (hmemo : args.memo = some memo) :
    ∃ hash n, t.receipts[depositOperationId E memo]? = some (.cancelled hash n) := by
  cases h with
  | nothing idle => rw [ha] at idle; nomatch idle
  | close call hk hc =>
    obtain rfl := Call.closeDepositAttempt.inj (call.symm.trans hcall)
    obtain ⟨-, memo', c, hmemo', -, -, rfl⟩ := hk
    obtain rfl := Option.some.inj (hmemo'.symm.trans hmemo)
    cases hc with
    | again found => exact ⟨_, _, found⟩
    | fenced hnone size => exact ⟨_, _, (StableMap.get_insert _ _ _ _).trans (if_pos rfl)⟩
    | _ => nomatch ha
  | _ => nomatch ha

/-- A receipt of an execution was there before, or is that of the transfer just made. -/
theorem does_applied {b n f x : Nat} {hash : Bytes32} (h : Does cap E m s a t)
    (ht : t.receipts[key]? = some (.applied b n f hash x)) :
    s.receipts[key]? = some (.applied b n f hash x) ∨
      ∃ args memo, s.poolCanister = some m.caller ∧ m.call = .icrc2TransferFrom args ∧
        a = .transferFrom (.ok b) ∧ args.memo = some memo ∧ key = depositOperationId E memo := by
  cases h with
  | transferFrom call htf =>
    rename_i args block ctx
    obtain ⟨v, -, rfl⟩ := htf.left
    cases ctx with
    | none => exact .inl ht
    | some ctx =>
      obtain ⟨hpool, memo, c, hmemo, -, -, rfl, -, -⟩ := htf.gate
      simp only [putReceipt, StableMap.get_insert] at ht
      split at ht
      · next hk =>
        cases ht
        exact .inr ⟨args, memo, hpool, call, rfl, hmemo, hk.symm⟩
      · exact .inl ht
  | transfer call htf =>
    obtain ⟨v, -, rfl⟩ := htf.left
    exact .inl ht
  | approve call ha =>
    obtain ⟨v, -, rfl⟩ := ha.left
    exact .inl ht
  | close call hk hc =>
    cases hc with
    | fenced hnone size =>
      simp only [StableMap.get_insert] at ht
      split at ht
      · nomatch ht
      · exact .inl ht
    | _ => exact .inl ht
  | _ => exact .inl ht

/-! ### Runs -/

/-- A transfer by `p` with the memo moved tokens. -/
def Entry.executes (p : Principal) (memo : Bytes) (e : Entry) : Bool :=
  match e.message.call, e.answer with
  | .icrc2TransferFrom args, .transferFrom (.ok _) =>
    e.message.caller == p && args.memo == some memo
  | _, _ => false

/-- The closing of an attempt with the memo was answered with a cancellation. -/
def Entry.cancels (memo : Bytes) (e : Entry) : Bool :=
  match e.message.call, e.answer with
  | .closeDepositAttempt args, .close (.ok (.cancelled _)) => args.memo == some memo
  | _, _ => false

/-- The receipt a successful transfer by the pool leaves. -/
def Entry.receipt (E : Env) (e : Entry) : Option DepositReceiptV1 :=
  match e.message.call, e.answer with
  | .icrc2TransferFrom args, .transferFrom (.ok block) =>
    args.createdAtTime.map fun c => .applied block args.amount e.before.transferFee
      (depositRequestHash E args.source ⟨e.message.caller, args.spenderSubaccount⟩ args.dest
        args.amount args.fee args.memo c) e.message.now
  | _, _ => none

theorem executes_iff {e : Entry} : e.executes p memo = true ↔ ∃ args block,
    e.message.call = .icrc2TransferFrom args ∧ e.answer = .transferFrom (.ok block) ∧
      e.message.caller = p ∧ args.memo = some memo := by
  unfold Entry.executes
  split
  · next args block hcall ha =>
    rw [hcall, ha, Bool.and_eq_true, beq_iff_eq, beq_iff_eq]
    constructor
    · exact fun ⟨hp, hm⟩ => ⟨args, block, rfl, rfl, hp, hm⟩
    · rintro ⟨args', block', h, -, hp, hm⟩
      cases h
      exact ⟨hp, hm⟩
  · next hno =>
    refine ⟨nofun, ?_⟩
    rintro ⟨args, block, hcall, ha, -, -⟩
    exact absurd ha (hno args block hcall)

theorem cancels_iff {e : Entry} : e.cancels memo = true ↔ ∃ args r,
    e.message.call = .closeDepositAttempt args ∧ e.answer = .close (.ok (.cancelled r)) ∧
      args.memo = some memo := by
  unfold Entry.cancels
  split
  · next args r hcall ha =>
    rw [hcall, ha, beq_iff_eq]
    constructor
    · exact fun hm => ⟨args, r, rfl, rfl, hm⟩
    · rintro ⟨args', r', h, -, hm⟩
      cases h
      exact hm
  · next hno =>
    refine ⟨nofun, ?_⟩
    rintro ⟨args, r, hcall, ha, -⟩
    exact absurd ha (hno args r hcall)

section Histories
variable {fee : Nat} {args : InitArgs} {log : List Entry}

theorem History.pool_fixed (history : History E fee args log s) :
    s.poolCanister = args.poolCanister := by
  refine history.invariant (I := fun s => s.poolCanister = args.poolCanister) (fun s h => ?_)
    fun m s a t _ h hdoes => (does_pool hdoes).trans h
  obtain ⟨v, rfl, -⟩ := init_ok h
  rfl

/-- A receipt stored by any message of a history is still there. -/
theorem History.keeps_receipt (history : History E fee args log s) {e : Entry} (he : e ∈ log)
    {r : DepositReceiptV1} (hr : e.after.receipts[key]? = some r) : s.receipts[key]? = some r := by
  induction history with
  | genesis _ => nomatch he
  | step history hnow ih =>
    rcases List.mem_cons.1 he with rfl | he
    · exact hr
    · exact does_keeps_receipt (does_step _ _ _) (ih he)

theorem History.pool_before (history : History E fee args log s) {e : Entry} (he : e ∈ log) :
    e.before.poolCanister = args.poolCanister := by
  obtain ⟨newer, older, hlog⟩ := List.append_of_mem he
  exact (history.entry hlog).1.pool_fixed

/-- An execution found no receipt and left the one that says what it did. -/
theorem History.execution (history : History E fee args log s) (hpool : args.poolCanister = some p)
    {e : Entry} (he : e ∈ log) (hexec : e.executes p memo = true) :
    e.before.receipts[depositOperationId E memo]? = none ∧
      ∃ r, e.receipt E = some r ∧ (∃ b n f hash x, r = .applied b n f hash x) ∧
        e.after.receipts[depositOperationId E memo]? = some r := by
  obtain ⟨a, block, hcall, ha, hp, hmemo⟩ := executes_iff.1 hexec
  have hbefore : e.before.poolCanister = some e.message.caller := by
    rw [history.pool_before he, hpool, hp]
  obtain ⟨hnone, c, hc, hr⟩ := does_execution (history.does he) hbefore hcall ha hmemo
  refine ⟨hnone, _, ?_, ⟨_, _, _, _, _, rfl⟩, hr⟩
  simp only [Entry.receipt, hcall, ha, hc, Option.map_some]

/-- Its receipt is there for good. -/
theorem History.executed (history : History E fee args log s) (hpool : args.poolCanister = some p)
    {e : Entry} (he : e ∈ log) (hexec : e.executes p memo = true) :
    ∃ b n f hash x, e.receipt E = some (.applied b n f hash x) ∧
      s.receipts[depositOperationId E memo]? = some (.applied b n f hash x) := by
  obtain ⟨-, r, hreceipt, ⟨b, n, f, hash, x, rfl⟩, hr⟩ := history.execution hpool he hexec
  exact ⟨b, n, f, hash, x, hreceipt, history.keeps_receipt he hr⟩

theorem History.cancelled (history : History E fee args log s) {e : Entry} (he : e ∈ log)
    (hcancel : e.cancels memo = true) :
    ∃ hash n, s.receipts[depositOperationId E memo]? = some (.cancelled hash n) := by
  obtain ⟨a, r, hcall, ha, hmemo⟩ := cancels_iff.1 hcancel
  obtain ⟨hash, n, hr⟩ := does_cancellation (history.does he) hcall ha hmemo
  exact ⟨hash, n, history.keeps_receipt he hr⟩

/-- At most one transfer of an operation moves tokens. -/
theorem History.once (history : History E fee args log s) (hpool : args.poolCanister = some p)
    (memo : Bytes) :
    (log.filter (Entry.executes p memo)).length ≤ 1 := by
  induction history with
  | genesis _ => exact Nat.zero_le 1
  | @step log s m history hnow ih =>
    by_cases hexec : (⟨m, s, (Token.step E m s).1, (Token.step E m s).2⟩ : Entry).executes p memo = true
    · -- The latest transfer found no receipt, so there was none before it.
      have hnone := ((History.step history hnow).execution hpool (List.mem_cons_self ..) hexec).1
      have hempty : log.filter (Entry.executes p memo) = [] := by
        refine List.filter_eq_nil_iff.2 fun e he he' => ?_
        obtain ⟨_, _, _, _, _, -, hr⟩ := history.executed hpool he he'
        nomatch hnone.symm.trans hr
      rw [List.filter_cons_of_pos hexec, hempty]
      exact Nat.le_refl 1
    · rw [List.filter_cons_of_neg hexec]
      exact ih

/-- A receipt of an execution was left by a transfer of its operation. -/
theorem History.applied (history : History E fee args log s) (hpool : args.poolCanister = some p)
    {b n f x : Nat} {hash : Bytes32} (hr : s.receipts[key]? = some (.applied b n f hash x)) :
    ∃ e ∈ log, ∃ memo, e.executes p memo = true ∧ key = depositOperationId E memo := by
  induction history with
  | genesis h =>
    obtain ⟨v, rfl, -⟩ := init_ok h
    simp [installed, configure, seedAtGenesis, TokenState.fresh] at hr
  | step history hnow ih =>
    rcases does_applied (does_step _ _ _) hr with hbefore | ⟨args, memo, hp, hcall, ha, hmemo, hkey⟩
    · obtain ⟨e, he, hexec⟩ := ih hbefore
      exact ⟨e, List.mem_cons_of_mem _ he, hexec⟩
    · have hcaller := Option.some.inj (hp.symm.trans (history.pool_fixed.trans hpool))
      exact ⟨_, List.mem_cons_self .., memo, executes_iff.2 ⟨args, b, hcall, ha, hcaller, hmemo⟩, hkey⟩

end Histories

/-! ### The operation ids -/

/-- What is hashed into the id of the operation with a memo. -/
def operationPreimage (memo : Bytes) : Bytes := lenPrefixed receiptOpidDomain ++ lenPrefixed memo

theorem lenPrefixed_inj {a b : Bytes} (h : lenPrefixed a = lenPrefixed b) : a = b :=
  (List.append_inj h (by rw [Bytes.length_toLe, Bytes.length_toLe])).2

theorem operationPreimage_inj {a b : Bytes} (h : operationPreimage a = operationPreimage b) : a = b :=
  lenPrefixed_inj (List.append_cancel_left h)

/-- What is hashed for the ids of the transfers of a history, and for one memo more. -/
def hashedIds (log : List Entry) (memo : Bytes) : Set Bytes :=
  {x | ∃ m, (m = memo ∨ ∃ e ∈ log, ∃ args, e.message.call = .icrc2TransferFrom args ∧
    args.memo = some m) ∧ x = operationPreimage m}

/-- One execution for the operation of a memo: at most one transfer by the pool moves
tokens; receipts stay as they were stored; the operation has a receipt of an execution
just when there was one, and the receipt is what it did; after a cancellation nothing
moves; and what was executed is not cancelled, nor the other way around. -/
structure OneExecution (E : Env) (p : Principal) (memo : Bytes) (log : List Entry) (s : TokenState) :
    Prop where
  once : (log.filter (Entry.executes p memo)).length ≤ 1
  kept : ∀ e ∈ log, ∀ (key : Bytes32) (r : DepositReceiptV1),
    e.after.receipts[key]? = some r → s.receipts[key]? = some r
  applied_iff : (∃ b n f hash x, s.receipts[depositOperationId E memo]? = some (.applied b n f hash x)) ↔
    (log.filter (Entry.executes p memo)).length = 1
  recorded : ∀ e ∈ log, e.executes p memo = true → ∃ b n f hash x,
    e.receipt E = some (.applied b n f hash x) ∧
      s.receipts[depositOperationId E memo]? = some (.applied b n f hash x)
  fenced : ∀ newer older e e' args, log = newer ++ e' :: older → e ∈ older → e.cancels memo = true →
    e'.message.caller = p → e'.message.call = .icrc2TransferFrom args → args.memo = some memo →
    e'.after = e'.before
  exclusive : ∀ e ∈ log, ∀ e' ∈ log, e.executes p memo = true → e'.cancels memo = false

section Histories
variable {fee : Nat} {args : InitArgs} {log : List Entry}

theorem History.applied_iff (history : History E fee args log s) (hpool : args.poolCanister = some p)
    (hinj : Set.InjOn E.sha256 (hashedIds log memo)) :
    (∃ b n f hash x, s.receipts[depositOperationId E memo]? = some (.applied b n f hash x)) ↔
      (log.filter (Entry.executes p memo)).length = 1 := by
  constructor
  · rintro ⟨b, n, f, hash, x, hr⟩
    obtain ⟨e, he, memo', hexec, hkey⟩ := history.applied hpool hr
    obtain ⟨a, -, hcall, -, -, hmemo⟩ := executes_iff.1 hexec
    have hsame : operationPreimage memo = operationPreimage memo' :=
      hinj ⟨memo, .inl rfl, rfl⟩ ⟨memo', .inr ⟨e, he, a, hcall, hmemo⟩, rfl⟩ hkey
    obtain rfl := operationPreimage_inj hsame
    have hpos := List.length_pos_of_mem (List.mem_filter.2 ⟨he, hexec⟩)
    have honce := history.once hpool memo
    omega
  · intro hlen
    obtain ⟨e, hfilter⟩ := List.length_eq_one_iff.1 hlen
    have hmem : e ∈ log.filter (Entry.executes p memo) := by
      rw [hfilter]
      exact List.mem_cons_self ..
    obtain ⟨he, hexec⟩ := List.mem_filter.1 hmem
    obtain ⟨b, n, f, hash, x, -, hr⟩ := history.executed hpool he hexec
    exact ⟨b, n, f, hash, x, hr⟩

/-- Once an operation is cancelled, its transfers by the pool change nothing. -/
theorem History.fenced (history : History E fee args log s) (hpool : args.poolCanister = some p)
    {newer older : List Entry} {e e' : Entry} {a : TransferFromArgs} (hlog : log = newer ++ e' :: older)
    (he : e ∈ older) (hcancel : e.cancels memo = true) (hcaller : e'.message.caller = p)
    (hcall : e'.message.call = .icrc2TransferFrom a) (hmemo : a.memo = some memo) :
    e'.after = e'.before := by
  obtain ⟨hbefore, -, -⟩ := history.entry hlog
  obtain ⟨hash, n, hr⟩ := hbefore.cancelled he hcancel
  have he' : e' ∈ log := hlog ▸ List.mem_append_right newer (List.mem_cons_self ..)
  rcases does_transferFrom (history.does he') hcall with hsame | ⟨block, ha⟩
  · exact hsame
  · have hexec : e'.executes p memo = true := executes_iff.2 ⟨a, block, hcall, ha, hcaller, hmemo⟩
    nomatch (history.execution hpool he' hexec).1.symm.trans hr

/-- In every history of a token bound to the pool `p`, with messages in any order at any
times, every operation is executed at most once and its receipt says so; SHA-256 is
taken to tell apart the ids of the operations of the history. -/
theorem one_execution (history : History E fee args log s) (hpool : args.poolCanister = some p)
    (hinj : Set.InjOn E.sha256 (hashedIds log memo)) : OneExecution E p memo log s where
  once := history.once hpool memo
  kept _ he _ _ hr := history.keeps_receipt he hr
  applied_iff := history.applied_iff hpool hinj
  recorded _ he hexec := history.executed hpool he hexec
  fenced _ _ _ _ _ hlog he hcancel hcaller hcall hmemo :=
    history.fenced hpool hlog he hcancel hcaller hcall hmemo
  exclusive e he e' he' hexec := by
    obtain ⟨_, _, _, _, _, -, hr⟩ := history.executed hpool he hexec
    refine Bool.eq_false_iff.2 fun hcancel => ?_
    obtain ⟨_, _, hr'⟩ := history.cancelled he' hcancel
    nomatch hr.symm.trans hr'

/-- Where one memo occurs, there is one preimage. -/
theorem injOn_of_sole (h : ∀ e ∈ log, ∀ args m, e.message.call = .icrc2TransferFrom args →
    args.memo = some m → m = memo) : Set.InjOn E.sha256 (hashedIds log memo) := by
  have hone : ∀ x ∈ hashedIds log memo, x = operationPreimage memo := by
    rintro x ⟨m, rfl | ⟨e, he, args, hcall, hmemo⟩, rfl⟩
    · rfl
    · rw [h e he args m hcall hmemo]
  exact fun x hx y hy _ => (hone x hx).trans (hone y hy).symm

/-- The holder of the supply lets the pool, principal 9, take 40 for a deposit. -/
def deposit : List Message :=
  [⟨5, 7, .icrc2Approve ⟨none, ⟨9, none⟩, 100, none, none, none, none, none⟩⟩,
   ⟨6, 9, .icrc2TransferFrom ⟨none, ⟨7, none⟩, ⟨9, none⟩, 40, none, some [1], some 6⟩⟩]

theorem one_execution_deposit : ∃ log s, History plainEnv 0 soleAllocation log s ∧
    log.map Entry.message = deposit.reverse ∧ (log.any (Entry.executes 9 [1])) = true ∧
    OneExecution plainEnv 9 [1] log s := by
  have history : History plainEnv 0 soleAllocation _ _ :=
    .step (m := deposit[1]) (.step (m := deposit[0]) (.genesis soleGenesis_exec) (by decide)) (by decide)
  refine ⟨_, _, history, rfl, by decide +kernel, one_execution history rfl (injOn_of_sole ?_)⟩
  intro e he args m hcall hmemo
  simp only [List.mem_cons, List.not_mem_nil, or_false] at he
  rcases he with rfl | rfl
  · cases hcall
    cases hmemo
    rfl
  · nomatch hcall

end Histories

end StshProtocol.Token
