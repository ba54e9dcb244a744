import StshProtocol.Staking.Turns

/-! Stakes, locks and weights agree in every run.

`Coherent` is kept by every step whose assertions are true and whose replies are timely, and
the step is a turn of the book. -/
namespace StshProtocol.Staking
open Foundation ShieldedPool Handler

variable {D : Deployment} {E : Token.Env} {own : Principal} {w w' : StakingWorld}

/-! ### The invariant -/

/-- What a suspended message holds. -/
def ContHeld (b : StakeBook) (e : Ledger) (n : Nat) : Cont → Prop
  | .lock t => ∃ now key, t.ddk = DedupKey.new t.active.holder key ∧ TaskHeld b e n (stakeOp now key t)
  | .unlock t => ∃ now, TaskHeld b e n (unstakeOp now t)
  | .execute _ => True

structure Coherent (own : Principal) (w : StakingWorld) : Prop where
  kept : Kept w.state.book
  weighed : Weighed w.state.book
  paired : Paired own w.state.book w.env w.next
  tasks : ∀ n k, w.tasks n = some k → ContHeld w.state.book w.env n k

/-- The book may turn to `b'` while the calls stay as they are. -/
structure Advances (own : Principal) (w : StakingWorld) (b' : StakeBook) : Prop where
  turn : Turn w.env w.state.book b'
  kept : Kept b'
  weighed : Weighed b'
  paired : Paired own b' w.env w.next

theorem Turn.next {e : Ledger} {b b' : StakeBook} (h : Turn e b b') :
    b.nextPositionId ≤ b'.nextPositionId := by
  cases h with
  | idle h => exact Nat.le_of_eq h.next.symm
  | begins h => exact h.next
  | settles h => exact Nat.le_of_eq h.next.symm

theorem ContHeld.turn {b b' : StakeBook} {e e' : Ledger} {next n : Nat} {k : Cont} (hk : Kept b)
    (hp : Paired own b e next) (turn : Turn e b b') (h : ContHeld b e n k)
    (hcalls : n < next → e'.calls n = e.calls n) : ContHeld b' e' n k := by
  cases k with
  | lock t =>
    obtain ⟨now, key, hddk, h⟩ := h
    obtain ⟨-, -, -, -, hlt, -⟩ := h.latest hp
    exact ⟨now, key, hddk, h.turn hk hp turn turn.next (hcalls hlt)⟩
  | unlock t =>
    obtain ⟨now, h⟩ := h
    obtain ⟨-, -, -, -, hlt, -⟩ := h.latest hp
    exact ⟨now, h.turn hk hp turn turn.next (hcalls hlt)⟩
  | execute t => trivial

theorem Coherent.unchanged (h : Coherent own w) : Advances own w w.state.book :=
  ⟨.idle (.refl _), h.kept, h.weighed, h.paired⟩

theorem Coherent.idle (h : Coherent own w) {b' : StakeBook} (hi : Idle w.state.book b')
    (hk : Kept b') : Advances own w b' :=
  ⟨.idle hi, hk, hi.weighed h.weighed, hi.paired h.paired⟩

theorem Coherent.settles (h : Coherent own w) {b' : StakeBook} {o : Nat} {op : PendingLockOp}
    {executed : Bool} (hs : Settles w.state.book b' o op executed) (hsent : w.env.Came o (· ≠ .sent))
    (htruth : w.env.Came o fun outcome => outcome = .executed ↔ executed = true) :
    Advances own w b' :=
  ⟨.settles hs hsent htruth, hs.kept h.kept, hs.weighed h.kept h.weighed,
    h.paired.settles h.kept hs hsent htruth⟩

/-- The book advances and some messages are gone. -/
theorem Coherent.advance (h : Coherent own w) (ha : Advances own w w'.state.book)
    (henv : w'.env = w.env) (hnext : w'.next = w.next)
    (htasks : ∀ n k, w'.tasks n = some k → w.tasks n = some k) : Coherent own w' where
  kept := ha.kept
  weighed := ha.weighed
  paired := by rw [henv, hnext]; exact ha.paired
  tasks n k hk := (h.tasks n k (htasks n k hk)).turn h.kept h.paired ha.turn fun _ => by rw [henv]

/-- A message that awaits is suspended under the next call number. -/
theorem Coherent.suspend (h : Coherent own w) {s : StakingState} {k : Cont} {e : Ledger}
    (turn : Turn w.env w.state.book s.book) (hk : Kept s.book) (hw : Weighed s.book)
    (hp : Paired own s.book e (w.next + 1)) (hcalls : ∀ n, n < w.next → e.calls n = w.env.calls n)
    (hnew : ContHeld s.book e w.next k) : Coherent own (w.suspend s k e) where
  kept := hk
  weighed := hw
  paired := hp
  tasks n k' hk' := by
    by_cases hn : n = w.next
    · subst hn
      have heq : (Function.update w.tasks w.next (some k)) w.next = some k' := hk'
      rw [Function.update_self] at heq
      exact Option.some.inj heq ▸ hnew
    · have heq : (Function.update w.tasks w.next (some k)) n = some k' := hk'
      rw [Function.update_of_ne hn] at heq
      exact (h.tasks n k' heq).turn h.kept h.paired turn (hcalls n)

/-! ### Where a segment leaves the world -/

/-- A segment's handler has run, and what comes of it is kept or awaited. -/
inductive Concluded {ε α : Type} (E : Token.Env) (own : Principal) (next : α → Next)
    (x : Endpoint ε α) (w w' : StakingWorld) : Prop where
  | failed {e : ε} {t : StakingState} (hx : x.exec w.state = .ok (.error e, t))
      (h : w' = {w with state := t})
  | ended {a : α} {t : StakingState} {answer : Answer} (hx : x.exec w.state = .ok (.ok a, t))
      (hnext : next a = .ends answer) (h : w' = {w with state := t})
  | awaits {a : α} {t : StakingState} {k : Cont} {q : Request} (hx : x.exec w.state = .ok (.ok a, t))
      (hnext : next a = .awaits k q) (h : w' = w.suspend t k (w.env.accept w.next q))

theorem conclude_lands {ε α : Type} {failed : ε → Answer} {next : α → Next} {x : Endpoint ε α}
    (h : Lands (callees E own) w (conclude failed next x w.state) w') :
    Concluded E own next x w w' := by
  unfold conclude at h
  split at h
  · exact absurd h Lands.not_trap
  · next hx => exact .failed hx h.of_reply
  · next hx =>
    split at h
    · next hn => exact .ended hx hn h.of_reply
    · next hn =>
      obtain ⟨e, he, hw⟩ := h.of_call
      rw [he] at hw
      exact .awaits hx hn hw

/-- However the message goes on, it has committed what it wrote. -/
theorem Concluded.committed {ε α : Type} {next : α → Next} {x : Endpoint ε α}
    (h : Concluded E own next x w w') : ∃ r, x.exec w.state = .ok (r, w'.state) := by
  cases h with
  | failed hx hw => exact hw ▸ ⟨_, hx⟩
  | ended hx _ hw => exact hw ▸ ⟨_, hx⟩
  | awaits hx _ hw => exact hw ▸ ⟨_, hx⟩

/-- A message that never awaits. -/
theorem conclude_ends {ε α : Type} {failed : ε → Answer} {answer : α → Answer} {x : Endpoint ε α}
    (h : Lands (callees E own) w (conclude failed (fun a => .ends (answer a)) x w.state) w') :
    ∃ r t, x.exec w.state = .ok (r, t) ∧ w' = {w with state := t} := by
  cases conclude_lands h with
  | failed hx h => exact ⟨_, _, hx, h⟩
  | ended hx _ h => exact ⟨_, _, hx, h⟩
  | awaits _ hn _ => cases hn

/-! ### Messages that leave the stakes alone -/

/-- Where a step leads: what is coherent stays so, and the book turns. -/
structure Steps (own : Principal) (w w' : StakingWorld) : Prop where
  coherent : Coherent own w'
  turn : Turn w.env w.state.book w'.state.book

theorem Coherent.finish (h : Coherent own w) (n : Nat) : Coherent own (w.finish n) := by
  refine h.advance h.unchanged rfl rfl fun m k hk => ?_
  by_cases hm : m = n
  · subst hm
    nomatch (Function.update_self _ _ _).symm.trans hk
  · exact (Function.update_of_ne hm _ _).symm.trans hk

/-- The message ends, and the book advances. -/
theorem Coherent.writes (h : Coherent own w) {t : StakingState} (ha : Advances own w t.book) :
    Steps own w {w with state := t} :=
  ⟨h.advance ha rfl rfl fun _ _ hk => hk, ha.turn⟩

theorem Coherent.writesBook (h : Coherent own w) {t : StakingState} (hb : t.book = w.state.book) :
    Steps own w {w with state := t} :=
  h.writes (by rw [hb]; exact h.unchanged)

theorem Coherent.keepsBook {ε α : Type} {next : α → Next} {x : Endpoint ε α} (h : Coherent own w)
    (hx : KeepsBook x) (hc : Concluded E own next x w w')
    (hnext : ∀ a k q, next a = .awaits k q → (∃ t, k = .execute t) ∧ w.env.accept w.next q = w.env) :
    Steps own w w' := by
  cases hc with
  | failed hexec hw => exact hw ▸ h.writesBook (hx.book hexec)
  | ended hexec _ hw => exact hw ▸ h.writesBook (hx.book hexec)
  | @awaits a t k q hexec hn hw =>
    obtain ⟨⟨task, rfl⟩, haccept⟩ := hnext a k q hn
    have hbook := hx.book hexec
    have hturn : Turn w.env w.state.book t.book := by
      rw [hbook]
      exact .idle (.refl _)
    rw [haccept] at hw
    rw [hw]
    exact ⟨h.suspend hturn (hbook ▸ h.kept) (hbook ▸ h.weighed) (hbook ▸ h.paired.later) (fun _ _ => rfl)
      trivial, hturn⟩

/-- Of an executing proposal nothing is sent to the token. -/
theorem executed_awaits {a : Executed} {k : Cont} {q : Request} (h : a.next = .awaits k q) (n : Nat)
    (e : Ledger) : (∃ t, k = .execute t) ∧ e.accept n q = e := by
  cases a with
  | done => cases h
  | calling t =>
    cases h
    refine ⟨⟨t, rfl⟩, ?_⟩
    unfold callOf
    split <;> rfl

/-! ### Beginning an operation -/

/-- What was dropped before an operation began is none of its business. -/
theorem Idle.begins {b b₁ b' : StakeBook} {op : PendingLockOp} (h : Idle b b₁) (hb : Begins b₁ b' op) :
    Begins b b' op where
  intact := hb.intact
  opId := hb.opId.trans h.counter
  fresh := by rw [← h.ops, ← h.counter]; exact hb.fresh
  before := by rw [← h.positions]; exact hb.before
  new hlock := h.next ▸ hb.new hlock
  positions a := by rw [hb.positions, h.positions, h.counter]
  states a := by rw [hb.states, h.states]
  ops a := by rw [hb.ops, h.ops, h.counter]
  counter := by rw [hb.counter, h.counter]
  next := h.next ▸ hb.next
  weight := hb.weight.trans h.weight

/-- A message begins an operation and calls the token for it. -/
theorem Coherent.begins (h : Coherent own w) {b b' : StakeBook} {op : PendingLockOp} {k : Cont}
    (hi : Idle w.state.book b) (hk : Kept b) (hb : Begins b b' op) (hk' : Kept b')
    (hcont : ContHeld b' (w.env.send w.next (callFor op)) w.next k) :
    Steps own w (w.suspend {w.state with book := b'} k (w.env.send w.next (callFor op))) := by
  have hturn : Turn w.env w.state.book b' := .begins (hi.begins hb)
  exact ⟨h.suspend hturn hk' (hb.weighed (hi.weighed h.weighed)) ((hi.paired h.paired).begins hk hb)
    (fun n hn => Function.update_of_ne (Nat.ne_of_lt hn) _ _) hcont, hturn⟩

theorem Coherent.stake (h : Coherent own w) {now : Nat} {holder : Principal} {amount lockDays : Nat}
    {key : Bytes} (hcounter : w.state.book.opIdCounter < u64Max)
    (hc : Concluded E own Staked.next (stake now holder amount lockDays key) w w') : Steps own w w' := by
  have hdropped : ∀ b, Dropped (DedupKey.new holder key) w.state.book b →
      Steps own w {w with state := {w.state with book := b}} := fun b hb =>
    h.writes (h.idle hb.idle (hb.kept h.kept))
  cases hc with
  | failed hexec hw =>
    subst hw
    cases stake_ends hexec with
    | answers hb _ => exact hdropped _ hb
  | ended hexec hn hw =>
    subst hw
    cases stake_ends hexec with
    | answers hb _ => exact hdropped _ hb
    | calls _ _ _ _ _ => cases hn
  | @awaits a t k q hexec hn hw =>
    subst hw
    cases stake_ends hexec with
    | answers _ hr =>
      cases a with
      | earlier positionId => cases hn
      | locking token task => exact absurd rfl (hr token task)
    | @calls b token task hb hfree hnew hholder hamount =>
      cases hn
      have hkept := hb.kept h.kept
      have hcounter' : b.opIdCounter < u64Max := hb.idle.counter ▸ hcounter
      have hbegins := begins_stake now hkept hcounter' hnew
      have hddk : task.ddk = DedupKey.new holder key := hholder ▸ hnew.ddk
      have hold : task.positionId < b.nextPositionId + 1 := hnew.positionId ▸ Nat.lt_succ_self _
      have hcont : ContHeld _ (w.env.send w.next (callFor (stakeOp now key task))) w.next (.lock task) :=
        ⟨now, key, hnew.ddk, .begins hbegins hold⟩
      exact h.begins hb.idle hkept hbegins (kept_stake hkept hcounter' (hddk ▸ hfree) hnew) hcont

theorem Coherent.unstake (h : Coherent own w) {now : Nat} {holder : Principal} {positionId : Nat}
    (hcounter : w.state.book.opIdCounter < u64Max)
    (hc : Concluded E own unstaked (unstake now holder positionId) w w') : Steps own w w' := by
  cases hc with
  | failed hexec hw =>
    obtain rfl := atomic_unstake _ _ _ _ _ hexec
    exact hw ▸ h.writesBook rfl
  | ended _ hn _ => cases hn
  | @awaits r t k q hexec hn hw =>
    obtain ⟨token, task⟩ := r
    subst hw
    cases hn
    obtain ⟨hopen, hposition, hid, rfl⟩ := unstake_ok hexec
    rw [← hposition] at hopen
    have hbegins := begins_unstake now h.kept h.weighed hcounter hopen hid
    have hold := (h.kept.position _ _ hopen.present).old
    have hcont : ContHeld _ (w.env.send w.next (callFor (unstakeOp now task))) w.next (.unlock task) :=
      ⟨now, .begins hbegins hold⟩
    exact h.begins (.refl _) h.kept hbegins (kept_unstake h.kept h.weighed hcounter hopen hid) hcont

/-! ### Ending an operation -/

section Ends
variable {b : StakeBook} {e : Ledger} {next o : Nat} {op : PendingLockOp}

/-- The position of a lock that was carried out, or of an unlock that was not. -/
theorem activates (hk : Kept b) (hw : Weighed b) (hp : Paired own b e next)
    (hop : b.pendingLockOps[o]? = some op) {executed : Bool}
    (hafter : op.after executed = some op.snapshot)
    (htruth : e.Came o fun outcome => outcome = .executed ↔ executed = true) :
    Settles b (activate op.positionId o op.snapshot b) o op executed :=
  activate_settles hop hafter (activate_fits hk hw hp hop hafter htruth)

theorem cancels (hk : Kept b) (hop : b.pendingLockOps[o]? = some op) (hlock : op.opType = .lock) {key : Bytes}
    (hkey : op.dedupKey = some key) :
    Settles b (cancelStake (some (DedupKey.new op.holder key)) op.positionId o b) o op false :=
  cancelStake_settles hk hop (by unfold PendingLockOp.after; rw [hlock]) ((hk.op o op hop).under key hkey)

theorem reconciledLock_settles (hk : Kept b) (hw : Weighed b) (hp : Paired own b e next)
    (h : Verified b o .lock op) {decision : LockDecision}
    (htruth : e.Came o fun outcome => outcome = .executed ↔ decision = .executed) :
    Settles b (reconciledLock o op b decision) o op (decide (decision = .executed)) := by
  have hintact := (hk.op o op h.pending).intact
  cases decision with
  | executed =>
    have heq : {op.snapshot with opId := none} = op.snapshot := by
      rw [← hintact.settled]
    rw [reconciledLock, heq]
    refine activates hk hw hp h.pending ?_ fun n c hl hc => by simpa using htruth n c hl hc
    unfold PendingLockOp.after
    rw [h.opType]
    rfl
  | notExecuted =>
    obtain ⟨key, hkey⟩ := hintact.key h.opType
    rw [reconciledLock, hkey]
    exact cancels hk h.pending h.opType hkey

theorem reconciledUnlock_settles (hk : Kept b) (hw : Weighed b) (hp : Paired own b e next)
    (h : Verified b o .unlock op) {decision : LockDecision}
    (htruth : e.Came o fun outcome => outcome = .executed ↔ decision = .executed) :
    Settles b (reconciledUnlock o op b decision) o op (decide (decision = .executed)) := by
  cases decision with
  | executed =>
    refine closePosition_settles hk h.pending ?_
    unfold PendingLockOp.after
    rw [h.opType]
    rfl
  | notExecuted =>
    refine activates hk hw hp h.pending ?_ fun n c hl hc => by simpa using htruth n c hl hc
    unfold PendingLockOp.after
    rw [h.opType]
    rfl

end Ends

theorem Coherent.reconcileLock (h : Coherent own w) {isController : Bool} {opId : Nat}
    {decision : LockDecision} (hsent : w.env.Came opId (· ≠ .sent))
    (htruth : w.env.Came opId fun outcome => outcome = .executed ↔ decision = .executed)
    {r : Except String Unit} {t : StakingState}
    (hexec : (reconcileLock isController opId decision).exec w.state = .ok (r, t)) :
    Steps own w {w with state := t} := by
  cases r with
  | error e =>
    obtain rfl := atomic_reconcileLock _ _ _ _ _ _ hexec
    exact h.writesBook rfl
  | ok u =>
    obtain ⟨op, hop, rfl⟩ := reconcileLock_ok hexec
    exact h.writes (h.settles (reconciledLock_settles h.kept h.weighed h.paired hop htruth) hsent
      fun n c hl hc => by simpa using htruth n c hl hc)

theorem Coherent.reconcileUnlock (h : Coherent own w) {isController : Bool} {opId : Nat}
    {decision : LockDecision} (hsent : w.env.Came opId (· ≠ .sent))
    (htruth : w.env.Came opId fun outcome => outcome = .executed ↔ decision = .executed)
    {r : Except String Unit} {t : StakingState}
    (hexec : (reconcileUnlock isController opId decision).exec w.state = .ok (r, t)) :
    Steps own w {w with state := t} := by
  cases r with
  | error e =>
    obtain rfl := atomic_reconcileUnlock _ _ _ _ _ _ hexec
    exact h.writesBook rfl
  | ok u =>
    obtain ⟨op, hop, rfl⟩ := reconcileUnlock_ok hexec
    exact h.writes (h.settles (reconciledUnlock_settles h.kept h.weighed h.paired hop htruth) hsent
      fun n c hl hc => by simpa using htruth n c hl hc)

/-! ### The token's answers -/

section Answers
variable {b : StakeBook} {e : Ledger} {next n : Nat}

/-- The record of an operation that has ended is cleared again. -/
theorem settleOp_ended (hk : Kept b) {positionId opId : Nat}
    (hgone : b.pendingLockOps[opId]? = none)
    (hrest : ∀ pos : StakePosition, b.positions[positionId]? = some pos → pos.opId = none) :
    settleOp positionId opId b = b := by
  have hstate : b.pendingPositions[positionId]? = none := by
    cases hst : b.pendingPositions[positionId]? with
    | none => rfl
    | some st =>
      obtain ⟨o, op, hop, rfl⟩ := hk.state positionId st hst
      nomatch hrest _ (hk.op o op hop).position
  unfold settleOp
  rw [StableMap.erase_of_none hstate, StableMap.erase_of_none hgone]

/-- A refusal that comes after the stake was cancelled. -/
theorem cancelStake_ended (hk : Kept b) {t : LockTask} (hgone : b.pendingLockOps[t.opId]? = none)
    (hremoved : b.positions[t.positionId]? = none) (hfree : b.stakeDedup[t.ddk]? = none) :
    cancelStake (some t.ddk) t.positionId t.opId b = b := by
  have hsame : {b with stakeDedup := (some t.ddk).elim b.stakeDedup b.stakeDedup.erase
                       positions := b.positions.erase t.positionId} = b := by
    rw [Option.elim_some, StableMap.erase_of_none hfree, StableMap.erase_of_none hremoved]
  rw [cancelStake, hsame]
  exact settleOp_ended hk hgone fun pos hpos => nomatch hremoved.symm.trans hpos

/-- A confirmation that comes after the position was closed. -/
theorem closePosition_ended (hk : Kept b) {t : UnlockTask} (hgone : b.pendingLockOps[t.opId]? = none)
    (hclosed : b.positions[t.positionId]? = some t.snapshot.close) :
    closePosition t.positionId t.opId t.snapshot b = b := by
  have hsame : {b with positions := b.positions.insert t.positionId t.snapshot.close} = b := by
    rw [StableMap.insert_of_get hclosed]
  rw [closePosition, hsame]
  exact settleOp_ended hk hgone fun pos hpos => Option.some.inj (hclosed.symm.trans hpos) ▸ rfl

end Answers

/-- What the answer to a call says of the last call of its operation. -/
theorem TaskHeld.answered {n : Nat} {op : PendingLockOp} (hp : Paired own w.state.book w.env w.next)
    (h : TaskHeld w.state.book w.env n op) {c : TokenCall} (hc : w.env.calls n = some c)
    {P : CallOutcome → Prop} (hP : P c.outcome) : w.env.Came op.opId P := by
  obtain ⟨c', hc', hlatest, -⟩ := h.latest hp
  intro n' c'' hl hc''
  obtain rfl := Option.some.inj (hlatest.symm.trans hl)
  obtain rfl := Option.some.inj (hc.symm.trans hc'')
  exact hP

theorem Coherent.lockAnswered (h : Coherent own w) {n : Nat} {t : LockTask} {reply : Reply}
    (hk : w.tasks n = some (.lock t)) (hr : w.env.Answers n reply)
    (htimely : LockTimely w.state.book t reply) : Advances own w (lockEnd D t reply w.state.book) := by
  obtain ⟨now, key, hddk, htask⟩ := h.tasks n _ hk
  obtain ⟨c, hc, -⟩ := htask.call
  have hlive : ∀ {op : PendingLockOp}, w.state.book.pendingLockOps[t.opId]? = some op →
      w.state.book.pendingLockOps[t.opId]? = some (stakeOp now key t) := fun {op} hop =>
    htask.live.resolve_right fun hgone => nomatch hgone.symm.trans hop
  rcases hr c hc with ⟨m, rfl⟩ | ⟨hexecuted, rfl⟩ | ⟨m, hrefused, rfl⟩
  · exact h.unchanged
  · rcases htimely with ⟨op, hop⟩ | ⟨m, hm⟩ | ⟨hne, -⟩
    · have htruth := htask.answered h.paired hc
        (P := fun outcome => outcome = .executed ↔ true = true) (by simp [hexecuted])
      exact h.settles (activates h.kept h.weighed h.paired (hlive hop) rfl htruth)
        (htask.answered h.paired hc (by rw [hexecuted]; nofun)) htruth
    · cases hm
    · exact absurd rfl hne
  · have hcancels : ∀ {op : PendingLockOp}, w.state.book.pendingLockOps[t.opId]? = some op →
        Advances own w (cancelStake (some t.ddk) t.positionId t.opId w.state.book) := fun {op} hop => by
      rw [hddk]
      exact h.settles (cancels h.kept (hlive hop) rfl rfl)
        (htask.answered h.paired hc (by rw [hrefused]; nofun))
        (htask.answered h.paired hc (by simp [hrefused]))
    rcases htimely with ⟨op, hop⟩ | ⟨m', hm⟩ | ⟨-, hfree⟩
    · exact hcancels hop
    · cases hm
    · rcases htask.live with hlive | hgone
      · exact hcancels hlive
      · -- The operation was ended as refused: the position is gone.
        have hremoved := htask.stale hgone c hc (by rw [hrefused]; exact ⟨nofun, nofun⟩)
        show Advances own w (cancelStake (some t.ddk) t.positionId t.opId w.state.book)
        rw [cancelStake_ended h.kept hgone hremoved hfree]
        exact h.unchanged

theorem Coherent.unlockAnswered (h : Coherent own w) {n : Nat} {t : UnlockTask} {reply : Reply}
    (hk : w.tasks n = some (.unlock t)) (hr : w.env.Answers n reply)
    (htimely : UnlockTimely w.state.book t reply) :
    Advances own w (unlockEnd D t reply w.state.book) := by
  obtain ⟨now, htask⟩ := h.tasks n _ hk
  obtain ⟨c, hc, -⟩ := htask.call
  have hlive : ∀ {op : PendingLockOp}, w.state.book.pendingLockOps[t.opId]? = some op →
      w.state.book.pendingLockOps[t.opId]? = some (unstakeOp now t) := fun {op} hop =>
    htask.live.resolve_right fun hgone => nomatch hgone.symm.trans hop
  rcases hr c hc with ⟨m, rfl⟩ | ⟨hexecuted, rfl⟩ | ⟨m, hrefused, rfl⟩
  · exact h.unchanged
  · rcases htask.live with hlive | hgone
    · have hcloses : Settles _ (unlockEnd D t (.result (.ok ())) w.state.book) _ _ true :=
        closePosition_settles h.kept hlive rfl
      exact h.settles hcloses (htask.answered h.paired hc (by rw [hexecuted]; nofun))
        (htask.answered h.paired hc (by simp [hexecuted]))
    · -- The operation was ended as carried out: the position is closed.
      have hclosed := htask.stale hgone c hc (by rw [hexecuted]; exact ⟨fun _ => rfl, fun _ => rfl⟩)
      show Advances own w (closePosition t.positionId t.opId t.snapshot w.state.book)
      rw [closePosition_ended h.kept hgone hclosed]
      exact h.unchanged
  · rcases htimely with ⟨op, hop⟩ | ⟨m', hm⟩ | hok
    · have htruth := htask.answered h.paired hc
        (P := fun outcome => outcome = .executed ↔ false = true) (by simp [hrefused])
      exact h.settles (activates h.kept h.weighed h.paired (hlive hop) rfl htruth)
        (htask.answered h.paired hc (by rw [hrefused]; nofun)) htruth
    · cases hm
    · cases hok

/-! ### Every step -/

theorem Coherent.call (h : Coherent own w) {i : Input} (htruth : Truthful w (.call i))
    (htimely : Timely w (.call i)) (hl : Lands (callees E own) w (start w.now i w.state) w') :
    Steps own w w' := by
  cases i with
  | stake caller amount lockDays key => exact h.stake htimely (conclude_lands hl)
  | unstake caller positionId => exact h.unstake htimely (conclude_lands hl)
  | reconcileLock isController opId decision =>
    obtain ⟨r, t, hexec, rfl⟩ := conclude_ends hl
    exact h.reconcileLock htimely htruth hexec
  | reconcileUnlock isController opId decision =>
    obtain ⟨r, t, hexec, rfl⟩ := conclude_ends hl
    exact h.reconcileUnlock htimely htruth hexec
  | claimRewards caller positionId =>
    obtain ⟨r, t, hexec, rfl⟩ := conclude_ends hl
    exact h.writesBook ((readOnly_keepsBook (readOnly_claimRewards _ _)).book hexec)
  | receiveFeeRevenue caller amount =>
    obtain ⟨r, t, hexec, rfl⟩ := conclude_ends hl
    exact h.writesBook ((keepsBook_receiveFeeRevenue _ _).book hexec)
  | createProposal caller proposalType description =>
    obtain ⟨r, t, hexec, rfl⟩ := conclude_ends hl
    exact h.writesBook ((keepsBook_createProposal _ _ _).book hexec)
  | vote caller proposalId approve =>
    obtain ⟨r, t, hexec, rfl⟩ := conclude_ends hl
    exact h.writesBook ((keepsBook_vote _ _ _).book hexec)
  | executeProposal proposalId =>
    exact h.keepsBook (keepsBook_executeProposal _) (conclude_lands hl) fun a k q hn =>
      executed_awaits hn _ _
  | reconcileStuckProposal isController proposalId decision =>
    obtain ⟨r, t, hexec, rfl⟩ := conclude_ends hl
    exact h.writesBook ((keepsBook_reconcileStuckProposal _ _ _).book hexec)

theorem Steps.finish {n : Nat} (h : Steps own (w.finish n) w') : Steps own w w' := ⟨h.coherent, h.turn⟩

theorem Advances.finish {n : Nat} {b' : StakeBook} (h : Advances own w b') :
    Advances own (w.finish n) b' := ⟨h.turn, h.kept, h.weighed, h.paired⟩

theorem Coherent.reply (h : Coherent own w) {n : Nat} {k : Cont} {r : Reply} (hk : w.tasks n = some k)
    (hr : w.env.Answers n r) (htimely : Timely w (.reply n r))
    (hl : Lands (callees E own) (w.finish n) (resume D k r w.state) w') : Steps own w w' := by
  have hfinish := h.finish n
  refine .finish (n := n) ?_
  simp only [Timely, hk] at htimely
  cases k with
  | lock t =>
    obtain ⟨a, s, hexec, rfl⟩ := conclude_ends hl
    obtain rfl := lockAnswered_ends hexec
    exact hfinish.writes (h.lockAnswered hk hr htimely).finish
  | unlock t =>
    obtain ⟨a, s, hexec, rfl⟩ := conclude_ends hl
    obtain rfl := unlockAnswered_ends hexec
    exact hfinish.writes (h.unlockAnswered hk hr htimely).finish
  | execute t =>
    exact hfinish.keepsBook (keepsBook_executeAnswered _ _ _) (conclude_lands hl) fun a k q hn =>
      executed_awaits hn _ _

/-- An upgrade reads the book back as it was. -/
theorem upgrade_book (hk : Kept w.state.book) {s : StakingState} (h : upgrade w.state = some s) :
    s.book = w.state.book := by
  obtain ⟨n, hcell, hbook⟩ := (upgrade_ok h (by rw [hk.weightCell])).book
  rw [hbook, hk.weightCell]
  obtain rfl := Option.some.inj (hk.cell.symm.trans hcell)
  rfl

theorem Coherent.step (h : Coherent own w) {a : Event Input Reply} (htruth : Truthful w a)
    (htimely : Timely w a) (hstep : (canister D).Step (callees E own) w a w') : Steps own w w' := by
  cases hstep with
  | call hl => exact h.call htruth htimely hl
  | callTrap _ => exact ⟨h, .idle (.refl _)⟩
  | reply hk hr hl => exact h.reply hk hr htimely hl
  | @replyTrap t k r hk hr _ =>
    have hdropped : Steps own (w.finish t) {w.finish t with state := w.state} :=
      (h.finish t).writesBook rfl
    exact ⟨hdropped.coherent, hdropped.turn⟩
  | @upgrade s hs =>
    have hbook := upgrade_book h.kept hs
    have hforgot : ∀ n k, (fun _ => none : Nat → Option Cont) n = some k → w.tasks n = some k :=
      fun _ _ hk => nomatch hk
    refine ⟨h.advance ?_ rfl rfl hforgot, ?_⟩
    · show Advances own w s.book
      exact hbook ▸ h.unchanged
    · show Turn w.env w.state.book s.book
      exact hbook ▸ .idle (.refl _)
  | wait _ => exact ⟨h.advance h.unchanged rfl rfl fun _ _ hk => hk, .idle (.refl _)⟩
  | @elsewhere e hm =>
    refine ⟨⟨h.kept, h.weighed, h.paired.moves h.kept hm, fun n k hk => ?_⟩, .idle (.refl _)⟩
    have hcont := h.tasks n k hk
    cases k with
    | lock t =>
      obtain ⟨now, key, hddk, htask⟩ := hcont
      exact ⟨now, key, hddk, htask.moves h.paired hm⟩
    | unlock t =>
      obtain ⟨now, htask⟩ := hcont
      exact ⟨now, htask.moves h.paired hm⟩
    | execute t => trivial
  | others hs =>
    obtain rfl := hs
    exact ⟨h, .idle (.refl _)⟩

/-! ### Every run -/

theorem Installed.coherent (h : Installed E own w) : Coherent own w := by
  obtain ⟨args, hinit⟩ := h.state
  obtain ⟨fee, targs, log, hist⟩ := h.token
  obtain ⟨hbook, -⟩ := init_ok hinit
  refine ⟨?_, ?_, ?_, ?_⟩
  · rw [hbook]
    refine ⟨fun o op hop => ?_, fun p pos hp => ?_, fun p st hst => ?_, rfl, by decide, rfl⟩
    · simp [StakeBook.fresh] at hop
    · simp [StakeBook.fresh] at hp
    · simp [StakeBook.fresh] at hst
  · rw [hbook]
    exact StableMap.sumBy_empty.symm
  · refine ⟨fun o n hn => ?_, fun n c hc => ?_, fun n c hc => ?_, fun o op hop => ?_,
      hist.holds, h.staking, fun key => ?_⟩
    · rw [h.latest] at hn
      cases hn
    · rw [h.calls] at hc
      cases hc
    · rw [h.calls] at hc
      cases hc
    · rw [hbook] at hop
      simp [StakeBook.fresh] at hop
    · rw [hbook, h.locks]
      exact StableMap.sumBy_empty
  · intro n k hk
    rw [h.tasks] at hk
    cases hk

/-- While assertions are true and replies are timely, stakes, weights and locks agree. -/
theorem coherent_run (run : (system D E own).RunIf (fun w a => Truthful w a ∧ Timely w a) w) :
    Coherent own w :=
  run.invariant (I := Coherent own) (fun _ h => Installed.coherent h) fun _ _ _ _ h hok hstep =>
    (h.step hok.1 hok.2 hstep).coherent

end StshProtocol.Staking
