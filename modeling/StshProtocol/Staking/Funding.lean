import StshProtocol.Staking.Runs

/-! What a position that counts is worth.

However late the replies, a position with weight is of an amount the token once locked, so no
weight exceeds two and a half times the supply, and the weights of all positions fit. -/
namespace StshProtocol.Staking
open Foundation ShieldedPool Handler

variable {D : Deployment} {E : Token.Env} {own : Principal} {w w' : StakingWorld}

/-! ### The invariant -/

/-- The weight of a position follows its amount, which the supply covers if it counts. -/
structure Fair (pos : StakePosition) : Prop where
  weight : 2 * pos.votingWeight ≤ 5 * pos.amount
  amount : pos.votingWeight ≠ 0 → pos.amount ≤ Token.totalSupply

/-- The position stands under its own id, one already given out. -/
structure Sited (b : StakeBook) (positionId : Nat) (pos : StakePosition) : Prop where
  named : pos.positionId = positionId
  old : positionId < b.nextPositionId

/-- Call `n` asks for the amount of this position. -/
structure Asked (e : Ledger) (n : Nat) (pos : StakePosition) : Prop where
  weight : 2 * pos.votingWeight ≤ 5 * pos.amount
  call : ∃ c, e.calls n = some c ∧ c.amount = pos.amount

structure OpFunded (b : StakeBook) (e : Ledger) (o : Nat) (op : PendingLockOp) : Prop where
  sited : Sited b op.positionId op.snapshot
  lock : op.opType = .lock → ∃ n, e.latest o = some n ∧ Asked e n op.snapshot
  unlock : op.opType = .unlock → Fair op.snapshot

def ContFunded (b : StakeBook) (e : Ledger) (n : Nat) : Cont → Prop
  | .lock t => Sited b t.positionId t.active ∧ Asked e n t.active
  | .unlock t => Sited b t.positionId t.snapshot ∧ Fair t.snapshot
  | .execute _ => True

structure BookFunded (b : StakeBook) : Prop where
  position : ∀ (p : Nat) (pos : StakePosition), b.positions[p]? = some pos → Sited b p pos ∧ Fair pos
  cell : b.nextPositionIdCell = some b.nextPositionId
  room : b.nextPositionId ≤ u64Max
  initialized : b.votingWeightCell.initialized = true

structure Funded (w : StakingWorld) : Prop where
  book : BookFunded w.state.book
  ops : ∀ (o : Nat) (op : PendingLockOp), w.state.book.pendingLockOps[o]? = some op →
    OpFunded w.state.book w.env o op
  tasks : ∀ n k, w.tasks n = some k → ContFunded w.state.book w.env n k
  calls : ∀ n c, w.env.calls n = some c →
    n < w.next ∧ (c.outcome = .executed → c.amount ≤ Token.totalSupply)
  holds : w.env.token.vault.Holds 0

theorem Sited.later {b b' : StakeBook} {p : Nat} {pos : StakePosition} (h : Sited b p pos)
    (hnext : b.nextPositionId ≤ b'.nextPositionId) : Sited b' p pos :=
  ⟨h.named, Nat.lt_of_lt_of_le h.old hnext⟩

theorem fair_weightless {pos : StakePosition} (h : pos.votingWeight = 0) : Fair pos :=
  ⟨by rw [h]; exact Nat.zero_le _, fun hne => absurd h hne⟩

/-- A position the token locked. -/
theorem Asked.fair {e : Ledger} {n : Nat} {pos : StakePosition} (h : Asked e n pos)
    (hcall : ∀ c, e.calls n = some c → c.amount ≤ Token.totalSupply) : Fair pos := by
  obtain ⟨c, hc, hamount⟩ := h.call
  exact ⟨h.weight, fun _ => hamount ▸ hcall c hc⟩

theorem Asked.congr {e e' : Ledger} {n : Nat} {pos : StakePosition} (h : Asked e n pos)
    (hcalls : ∀ c, e.calls n = some c → ∃ c', e'.calls n = some c' ∧ c'.amount = c.amount) :
    Asked e' n pos := by
  obtain ⟨c, hc, hamount⟩ := h.call
  obtain ⟨c', hc', hsame⟩ := hcalls c hc
  exact ⟨h.weight, c', hc', hsame.trans hamount⟩

/-! ### What is written to the book -/

/-- A position that is new or changed is fair, and stands under its id. -/
structure Revises (b b' : StakeBook) : Prop where
  position : ∀ (p : Nat) (pos : StakePosition), b'.positions[p]? = some pos →
    b.positions[p]? = some pos ∨ Sited b' p pos ∧ Fair pos
  next : b.nextPositionId ≤ b'.nextPositionId
  cell : b'.nextPositionIdCell = some b'.nextPositionId
  room : b'.nextPositionId ≤ u64Max
  initialized : b'.votingWeightCell.initialized = true

section Revises
variable {b b' : StakeBook} {positionId opId : Nat} {pos : StakePosition}

theorem Revises.book (h : BookFunded b) (hr : Revises b b') : BookFunded b' where
  position p pos hp := by
    rcases hr.position p pos hp with hold | hnew
    · obtain ⟨hsited, hfair⟩ := h.position p pos hold
      exact ⟨hsited.later hr.next, hfair⟩
    · exact hnew
  cell := hr.cell
  room := hr.room
  initialized := hr.initialized

theorem insert_cases {positions : StableMap Nat StakePosition} {p : Nat} {q : StakePosition}
    (hq : (positions.insert positionId pos)[p]? = some q) :
    positions[p]? = some q ∨ p = positionId ∧ q = pos := by
  rw [StableMap.get_insert_at] at hq
  split at hq
  · next hp => exact .inr ⟨hp, (Option.some.inj hq).symm⟩
  · exact .inl hq

theorem revises_insert {p : StakePosition} (hs : Sited b' positionId p) (hf : Fair p)
    (hpositions : b'.positions = b.positions.insert positionId p)
    (hnext : b.nextPositionId ≤ b'.nextPositionId)
    (hcell : b'.nextPositionIdCell = some b'.nextPositionId) (hroom : b'.nextPositionId ≤ u64Max)
    (hinit : b'.votingWeightCell.initialized = true) : Revises b b' where
  position a q hq := by
    rw [hpositions] at hq
    rcases insert_cases hq with hold | ⟨rfl, rfl⟩
    · exact .inl hold
    · exact .inr ⟨hs, hf⟩
  next := hnext
  cell := hcell
  room := hroom
  initialized := hinit

theorem revises_activate (h : BookFunded b) (hs : Sited b positionId pos) (hf : Fair pos) :
    Revises b (activate positionId opId pos b) :=
  revises_insert ⟨hs.named, hs.old⟩ hf rfl (Nat.le_refl _) h.cell h.room rfl

theorem revises_closePosition (h : BookFunded b) (hs : Sited b positionId pos) :
    Revises b (closePosition positionId opId pos b) :=
  revises_insert (p := pos.close) ⟨hs.named, hs.old⟩ (fair_weightless rfl) rfl (Nat.le_refl _) h.cell
    h.room h.initialized

theorem revises_cancelStake (h : BookFunded b) (ddk : Option DedupKey) :
    Revises b (cancelStake ddk positionId opId b) where
  position p q hq := by
    have hkept : (b.positions.erase positionId)[p]? = some q := hq
    rw [StableMap.get_erase_at] at hkept
    split at hkept
    · cases hkept
    · exact .inl hkept
  next := Nat.le_refl _
  cell := h.cell
  room := h.room
  initialized := h.initialized

theorem Dropped.revises {ddk : DedupKey} (h : BookFunded b) (hd : Dropped ddk b b') : Revises b b' := by
  cases hd with
  | nothing => exact ⟨fun _ _ hp => .inl hp, Nat.le_refl _, h.cell, h.room, h.initialized⟩
  | stale _ _ => exact ⟨fun _ _ hp => .inl hp, Nat.le_refl _, h.cell, h.room, h.initialized⟩

theorem revises_recordStake (h : BookFunded b) (now : Nat) {key : Bytes} {t : LockTask}
    (hnew : NewStake b key t) : Revises b (recordStake now key t (allocated b)) := by
  have hold : t.positionId < b.nextPositionId + 1 := hnew.positionId ▸ Nat.lt_succ_self _
  exact revises_insert (p := t.active.pending t.opId) ⟨hnew.named, hold⟩ (fair_weightless rfl) rfl
    (Nat.le_succ _) rfl hnew.room h.initialized

theorem revises_recordUnstake (h : BookFunded b) (now : Nat) {t : UnlockTask}
    (hp : b.positions[t.positionId]? = some t.snapshot) :
    Revises b (recordUnstake now t (numbered b)) := by
  obtain ⟨hsited, -⟩ := h.position _ _ hp
  exact revises_insert (p := t.snapshot.pending t.opId) ⟨hsited.named, hsited.old⟩ (fair_weightless rfl)
    rfl (Nat.le_refl _) h.cell h.room rfl

end Revises

/-! ### Steps -/

theorem ContFunded.later {b b' : StakeBook} {e e' : Ledger} {n : Nat} {k : Cont} (h : ContFunded b e n k)
    (hnext : b.nextPositionId ≤ b'.nextPositionId)
    (hcalls : ∀ c, e.calls n = some c → ∃ c', e'.calls n = some c' ∧ c'.amount = c.amount) :
    ContFunded b' e' n k := by
  cases k with
  | lock t => exact ⟨h.1.later hnext, h.2.congr hcalls⟩
  | unlock t => exact ⟨h.1.later hnext, h.2⟩
  | execute t => trivial

/-- A message ends: the book is revised, and no operation is new. -/
theorem Funded.revise (h : Funded w) (w' : StakingWorld) (hr : Revises w.state.book w'.state.book)
    (hops : ∀ (o : Nat) (op : PendingLockOp), w'.state.book.pendingLockOps[o]? = some op →
      w.state.book.pendingLockOps[o]? = some op)
    (henv : w'.env = w.env) (hnext : w.next ≤ w'.next)
    (htasks : ∀ n k, w'.tasks n = some k → w.tasks n = some k ∨ ∃ t, k = .execute t) : Funded w' where
  book := hr.book h.book
  ops o op hop := by
    have hold := h.ops o op (hops o op hop)
    rw [henv]
    exact ⟨hold.sited.later hr.next, hold.lock, hold.unlock⟩
  tasks n k hk := by
    rw [henv]
    rcases htasks n k hk with hold | ⟨t, rfl⟩
    · exact (h.tasks n k hold).later hr.next fun c hc => ⟨c, hc, rfl⟩
    · trivial
  calls n c hc := by
    rw [henv] at hc
    exact ⟨Nat.lt_of_lt_of_le (h.calls n c hc).1 hnext, (h.calls n c hc).2⟩
  holds := by rw [henv]; exact h.holds

theorem Funded.writes (h : Funded w) {b' : StakeBook} (hr : Revises w.state.book b')
    (hops : ∀ (o : Nat) (op : PendingLockOp), b'.pendingLockOps[o]? = some op →
      w.state.book.pendingLockOps[o]? = some op) : Funded {w with state := {w.state with book := b'}} :=
  h.revise _ hr hops rfl (Nat.le_refl _) fun _ _ hk => .inl hk

theorem Funded.same (h : Funded w) {s : StakingState} (hb : s.book = w.state.book) :
    Funded {w with state := s} := by
  have hr : Revises w.state.book s.book := by
    rw [hb]
    exact ⟨fun _ _ hp => .inl hp, Nat.le_refl _, h.book.cell, h.book.room, h.book.initialized⟩
  exact h.revise _ hr (fun _ _ hop => hb ▸ hop) rfl (Nat.le_refl _) fun _ _ hk => .inl hk

theorem Funded.finish (h : Funded w) (n : Nat) : Funded (w.finish n) := by
  refine ⟨h.book, h.ops, fun m k hk => ?_, h.calls, h.holds⟩
  by_cases hm : m = n
  · subst hm
    nomatch (Function.update_self _ _ _).symm.trans hk
  · exact h.tasks m k ((Function.update_of_ne hm _ _).symm.trans hk)

/-- A message begins an operation and calls the token for it. -/
theorem Funded.begins (h : Funded w) {b' : StakeBook} (op : PendingLockOp) (k : Cont)
    (hr : Revises w.state.book b')
    (hops : ∀ (o : Nat) (op' : PendingLockOp), b'.pendingLockOps[o]? = some op' →
      w.state.book.pendingLockOps[o]? = some op' ∧ o ≠ op.opId ∨ o = op.opId ∧ op' = op)
    (hsited : Sited b' op.positionId op.snapshot)
    (hweight : 2 * op.snapshot.votingWeight ≤ 5 * op.snapshot.amount)
    (hamount : op.amount = op.snapshot.amount) (hunlock : op.opType = .unlock → Fair op.snapshot)
    (hcont : Asked (w.env.send w.next (callFor op)) w.next op.snapshot →
      ContFunded b' (w.env.send w.next (callFor op)) w.next k) :
    Funded (w.suspend {w.state with book := b'} k (w.env.send w.next (callFor op))) := by
  have hcall : (w.env.send w.next (callFor op)).calls w.next = some (callFor op) :=
    Function.update_self _ _ _
  have hcalls : ∀ n c, w.env.calls n = some c → (w.env.send w.next (callFor op)).calls n = some c :=
    fun n c hc => (Function.update_of_ne (Nat.ne_of_lt (h.calls n c hc).1) _ _).trans hc
  have hasked : Asked (w.env.send w.next (callFor op)) w.next op.snapshot :=
    ⟨hweight, _, hcall, hamount⟩
  refine ⟨hr.book h.book, fun o op' hop' => ?_, fun n k' hk' => ?_, fun n c hc => ?_, h.holds⟩
  · rcases hops o op' hop' with ⟨hold, hne⟩ | ⟨rfl, rfl⟩
    · have hkept := h.ops o op' hold
      refine ⟨hkept.sited.later hr.next, fun hlock => ?_, hkept.unlock⟩
      obtain ⟨n, hlatest, hold⟩ := hkept.lock hlock
      exact ⟨n, (Function.update_of_ne hne _ _).trans hlatest,
        hold.congr fun c hc => ⟨c, hcalls n c hc, rfl⟩⟩
    · exact ⟨hsited, fun _ => ⟨w.next, Function.update_self _ _ _, hasked⟩, hunlock⟩
  · by_cases hn : n = w.next
    · subst hn
      have heq : (Function.update w.tasks w.next (some k)) w.next = some k' := hk'
      rw [Function.update_self] at heq
      exact Option.some.inj heq ▸ hcont hasked
    · have heq : (Function.update w.tasks w.next (some k)) n = some k' := hk'
      rw [Function.update_of_ne hn] at heq
      exact (h.tasks n k' heq).later hr.next fun c hc => ⟨c, hcalls n c hc, rfl⟩
  · by_cases hn : n = w.next
    · subst hn
      obtain rfl := Option.some.inj (hcall.symm.trans hc)
      exact ⟨Nat.lt_succ_self _, nofun⟩
    · have hold : w.env.calls n = some c := (Function.update_of_ne hn _ _).symm.trans hc
      exact ⟨Nat.lt_succ_of_lt (h.calls n c hold).1, (h.calls n c hold).2⟩

/-! ### Messages -/

theorem settleOp_ops {b : StakeBook} {positionId opId o : Nat} {op : PendingLockOp}
    (h : (settleOp positionId opId b).pendingLockOps[o]? = some op) : b.pendingLockOps[o]? = some op := by
  have hkept : (b.pendingLockOps.erase opId)[o]? = some op := h
  rw [StableMap.get_erase_at] at hkept
  split at hkept
  · cases hkept
  · exact hkept

theorem Dropped.ops {b b' : StakeBook} {ddk : DedupKey} (h : Dropped ddk b b') :
    b'.pendingLockOps = b.pendingLockOps := by
  cases h <;> rfl

/-- A message that does not write the book. -/
theorem Funded.keepsBook {ε α : Type} {next : α → Next} {x : Endpoint ε α} (h : Funded w)
    (hx : KeepsBook x) (hc : Concluded E own next x w w')
    (hnext : ∀ a k q, next a = .awaits k q → (∃ t, k = .execute t) ∧ w.env.accept w.next q = w.env) :
    Funded w' := by
  cases hc with
  | failed hexec hw => exact hw ▸ h.same (hx.book hexec)
  | ended hexec _ hw => exact hw ▸ h.same (hx.book hexec)
  | @awaits a t k q hexec hn hw =>
    obtain ⟨⟨task, rfl⟩, haccept⟩ := hnext a k q hn
    rw [haccept] at hw
    subst hw
    have hsame := h.same (hx.book hexec)
    refine hsame.revise (w.suspend t (.execute task) w.env) ?_ (fun _ _ hop => hop) rfl (Nat.le_succ _)
      fun n k hk => ?_
    · exact ⟨fun _ _ hp => .inl hp, Nat.le_refl _, hsame.book.cell, hsame.book.room, hsame.book.initialized⟩
    · have heq : (Function.update w.tasks w.next (some (.execute task))) n = some k := hk
      by_cases hn : n = w.next
      · subst hn
        rw [Function.update_self] at heq
        exact .inr ⟨task, (Option.some.inj heq).symm⟩
      · rw [Function.update_of_ne hn] at heq
        exact .inl heq

theorem Funded.stake (h : Funded w) {now : Nat} {holder : Principal} {amount lockDays : Nat} {key : Bytes}
    (hc : Concluded E own Staked.next (stake now holder amount lockDays key) w w') : Funded w' := by
  have hdropped : ∀ b, Dropped (DedupKey.new holder key) w.state.book b →
      Funded {w with state := {w.state with book := b}} := fun b hb =>
    h.writes (hb.revises h.book) fun _ _ hop => hb.ops ▸ hop
  cases hc with
  | failed hexec hw =>
    subst hw
    cases stake_ends hexec with
    | answers hb _ => exact hdropped _ hb
  | ended hexec hn hw =>
    subst hw
    cases stake_ends hexec with
    | answers hb _ => exact hdropped _ hb
    | calls _ _ _ _ _ => cases hn
  | @awaits a t k q hexec hn hw =>
    subst hw
    cases stake_ends hexec with
    | answers _ hr =>
      cases a with
      | earlier positionId => cases hn
      | locking token task => exact absurd rfl (hr token task)
    | @calls b token task hb hfree hnew hholder hamount =>
      cases hn
      have hdrop := hb.revises h.book
      have hrecord := revises_recordStake (hdrop.book h.book) now hnew
      have hold : task.positionId < b.nextPositionId + 1 := hnew.positionId ▸ Nat.lt_succ_self _
      have hsited : Sited (recordStake now key task (allocated b)) task.positionId task.active :=
        ⟨hnew.named, hold⟩
      refine h.begins (stakeOp now key task) (.lock task) ⟨fun p pos hp => ?_,
        Nat.le_trans hdrop.next hrecord.next, hrecord.cell, hrecord.room, hrecord.initialized⟩
        (fun o op' hop' => ?_) hsited hnew.weight rfl nofun fun hasked => ⟨hsited, hasked⟩
      · rcases hrecord.position p pos hp with hold | hfresh
        · rcases hdrop.position p pos hold with hold | hfresh
          · exact .inl hold
          · exact .inr ⟨hfresh.1.later hrecord.next, hfresh.2⟩
        · exact .inr hfresh
      · have hinsert : (b.pendingLockOps.insert task.opId (stakeOp now key task))[o]? = some op' := hop'
        rw [StableMap.get_insert_at] at hinsert
        split at hinsert
        · next ho => exact .inr ⟨ho, (Option.some.inj hinsert).symm⟩
        · next ho => exact .inl ⟨hb.ops ▸ hinsert, ho⟩

theorem Funded.unstake (h : Funded w) {now : Nat} {holder : Principal} {positionId : Nat}
    (hc : Concluded E own unstaked (unstake now holder positionId) w w') : Funded w' := by
  cases hc with
  | failed hexec hw =>
    obtain rfl := atomic_unstake _ _ _ _ _ hexec
    exact hw ▸ h.same rfl
  | ended _ hn _ => cases hn
  | @awaits r t k q hexec hn hw =>
    obtain ⟨token, task⟩ := r
    subst hw
    cases hn
    obtain ⟨hopen, hposition, hid, rfl⟩ := unstake_ok hexec
    rw [← hposition] at hopen
    obtain ⟨hsited, hfair⟩ := h.book.position _ _ hopen.present
    have hrecord := revises_recordUnstake h.book now hopen.present
    have hsited' : Sited (recordUnstake now task (numbered w.state.book)) task.positionId task.snapshot :=
      ⟨hsited.named, hsited.old⟩
    refine h.begins (unstakeOp now task) (.unlock task) hrecord (fun o op' hop' => ?_)
      hsited' hfair.weight rfl (fun _ => hfair) fun _ => ⟨hsited', hfair⟩
    have hinsert : (w.state.book.pendingLockOps.insert task.opId (unstakeOp now task))[o]? = some op' := hop'
    rw [StableMap.get_insert_at] at hinsert
    split at hinsert
    · next ho => exact .inr ⟨ho, (Option.some.inj hinsert).symm⟩
    · next ho => exact .inl ⟨hinsert, ho⟩

theorem Funded.reconcileLock (h : Funded w) {isController : Bool} {opId : Nat} {decision : LockDecision}
    (htruth : w.env.Came opId fun outcome => outcome = .executed ↔ decision = .executed)
    {r : Except String Unit} {t : StakingState}
    (hexec : (reconcileLock isController opId decision).exec w.state = .ok (r, t)) :
    Funded {w with state := t} := by
  cases r with
  | error e =>
    obtain rfl := atomic_reconcileLock _ _ _ _ _ _ hexec
    exact h.same rfl
  | ok u =>
    obtain ⟨op, hop, rfl⟩ := reconcileLock_ok hexec
    have hkept := h.ops opId op hop.pending
    cases decision with
    | executed =>
      obtain ⟨n, hlatest, hasked⟩ := hkept.lock hop.opType
      have hfair : Fair op.snapshot := hasked.fair fun c hc =>
        (h.calls n c hc).2 ((htruth n c hlatest hc).2 rfl)
      exact h.writes (revises_activate h.book ⟨hkept.sited.named, hkept.sited.old⟩
        ⟨hfair.weight, hfair.amount⟩) fun _ _ => settleOp_ops
    | notExecuted => exact h.writes (revises_cancelStake h.book _) fun _ _ => settleOp_ops

theorem Funded.reconcileUnlock (h : Funded w) {isController : Bool} {opId : Nat}
    {decision : LockDecision} {r : Except String Unit} {t : StakingState}
    (hexec : (reconcileUnlock isController opId decision).exec w.state = .ok (r, t)) :
    Funded {w with state := t} := by
  cases r with
  | error e =>
    obtain rfl := atomic_reconcileUnlock _ _ _ _ _ _ hexec
    exact h.same rfl
  | ok u =>
    obtain ⟨op, hop, rfl⟩ := reconcileUnlock_ok hexec
    have hkept := h.ops opId op hop.pending
    cases decision with
    | executed => exact h.writes (revises_closePosition h.book hkept.sited) fun _ _ => settleOp_ops
    | notExecuted =>
      exact h.writes (revises_activate h.book hkept.sited (hkept.unlock hop.opType)) fun _ _ => settleOp_ops

theorem Funded.lockAnswered (h : Funded w) {n : Nat} {t : LockTask} {reply : Reply}
    (hk : w.tasks n = some (.lock t)) (hr : w.env.Answers n reply) :
    Funded {w with state := {w.state with book := lockEnd D t reply w.state.book}} := by
  obtain ⟨hsited, hasked⟩ := h.tasks n _ hk
  obtain ⟨c, hc, hamount⟩ := hasked.call
  rcases hr c hc with ⟨m, rfl⟩ | ⟨hexecuted, rfl⟩ | ⟨m, -, rfl⟩
  · exact h.same rfl
  · have hfair : Fair t.active := hasked.fair fun c' hc' => by
      obtain rfl := Option.some.inj (hc.symm.trans hc')
      exact (h.calls n c hc).2 hexecuted
    exact h.writes (revises_activate h.book hsited hfair) fun _ _ => settleOp_ops
  · exact h.writes (revises_cancelStake h.book _) fun _ _ => settleOp_ops

theorem Funded.unlockAnswered (h : Funded w) {n : Nat} {t : UnlockTask} (reply : Reply)
    (hk : w.tasks n = some (.unlock t)) :
    Funded {w with state := {w.state with book := unlockEnd D t reply w.state.book}} := by
  obtain ⟨hsited, hfair⟩ := h.tasks n _ hk
  unfold unlockEnd
  split
  · exact h.writes (revises_closePosition h.book hsited) fun _ _ => settleOp_ops
  · exact h.writes (revises_activate h.book hsited hfair) fun _ _ => settleOp_ops
  · exact h.same rfl

/-! ### Every step and every run -/

theorem Funded.call (h : Funded w) {i : Input} (htruth : Truthful w (.call i))
    (hl : Lands (callees E own) w (start w.now i w.state) w') : Funded w' := by
  cases i with
  | stake caller amount lockDays key => exact h.stake (conclude_lands hl)
  | unstake caller positionId => exact h.unstake (conclude_lands hl)
  | reconcileLock isController opId decision =>
    obtain ⟨r, t, hexec, rfl⟩ := conclude_ends hl
    exact h.reconcileLock htruth hexec
  | reconcileUnlock isController opId decision =>
    obtain ⟨r, t, hexec, rfl⟩ := conclude_ends hl
    exact h.reconcileUnlock hexec
  | claimRewards caller positionId =>
    obtain ⟨r, t, hexec, rfl⟩ := conclude_ends hl
    exact h.same ((readOnly_keepsBook (readOnly_claimRewards _ _)).book hexec)
  | receiveFeeRevenue caller amount =>
    obtain ⟨r, t, hexec, rfl⟩ := conclude_ends hl
    exact h.same ((keepsBook_receiveFeeRevenue _ _).book hexec)
  | createProposal caller proposalType description =>
    obtain ⟨r, t, hexec, rfl⟩ := conclude_ends hl
    exact h.same ((keepsBook_createProposal _ _ _).book hexec)
  | vote caller proposalId approve =>
    obtain ⟨r, t, hexec, rfl⟩ := conclude_ends hl
    exact h.same ((keepsBook_vote _ _ _).book hexec)
  | executeProposal proposalId =>
    exact h.keepsBook (keepsBook_executeProposal _) (conclude_lands hl) fun a k q hn =>
      executed_awaits hn _ _
  | reconcileStuckProposal isController proposalId decision =>
    obtain ⟨r, t, hexec, rfl⟩ := conclude_ends hl
    exact h.same ((keepsBook_reconcileStuckProposal _ _ _).book hexec)

theorem Funded.reply (h : Funded w) {n : Nat} {k : Cont} {r : Reply} (hk : w.tasks n = some k)
    (hr : w.env.Answers n r) (hl : Lands (callees E own) (w.finish n) (resume D k r w.state) w') :
    Funded w' := by
  cases k with
  | lock t =>
    obtain ⟨a, s, hexec, rfl⟩ := conclude_ends hl
    obtain rfl := lockAnswered_ends hexec
    exact (h.lockAnswered hk hr).finish n
  | unlock t =>
    obtain ⟨a, s, hexec, rfl⟩ := conclude_ends hl
    obtain rfl := unlockAnswered_ends hexec
    exact (h.unlockAnswered r hk).finish n
  | execute t =>
    exact (h.finish n).keepsBook (keepsBook_executeAnswered _ _ _) (conclude_lands hl) fun a k q hn =>
      executed_awaits hn _ _

/-- What the token locks or unlocks for the canister is of the supply. -/
theorem taken_amount {t : Token.TokenState} (hholds : t.vault.Holds 0) {now : Nat} {c : TokenCall}
    (hout : Ledger.outcomeOf (Token.step E ⟨now, own, c.call⟩ t).1 = .executed) :
    c.amount ≤ Token.totalSupply := by
  have hcovered : ∀ {v : Token.Vault}, v.Holds 0 → ∀ key, v.locks.get key ≤ Token.totalSupply :=
    fun {v} hv key => by
      have hcov := hv.covered key
      have hbal := hv.balances.get_le key
      have hsupply := hv.supply
      omega
  have hlocks := take_locks own E now c t (lockKey c.holder)
  have hafter := Token.does_holds hholds (Token.does_step E ⟨now, own, c.call⟩ t)
  have hbefore := hcovered hholds (lockKey c.holder)
  have hcovafter := hcovered hafter (lockKey c.holder)
  rw [hout] at hlocks
  cases hty : c.opType <;> rw [hty] at hlocks <;> simp at hlocks <;> omega

theorem outcome_cases {calls : Nat → Option TokenCall} {n m : Nat} {c c' : TokenCall}
    (h : Function.update calls n (some c) m = some c') : m = n ∧ c' = c ∨ calls m = some c' := by
  by_cases hmn : m = n
  · subst hmn
    rw [Function.update_self] at h
    exact .inl ⟨rfl, (Option.some.inj h).symm⟩
  · rw [Function.update_of_ne hmn] at h
    exact .inr h

theorem Funded.moves (h : Funded w) {e : Ledger} (hm : Ledger.Moves E own w.env e) :
    Funded {w with env := e} := by
  -- A call keeps what it asks for.
  have hasks : ∀ {n out}, ∀ c₀, w.env.calls n = some c₀ → ∀ m c, w.env.calls m = some c →
      ∃ c', Function.update w.env.calls n (some {c₀ with outcome := out}) m = some c' ∧
        c'.amount = c.amount := fun {n out} c₀ hc₀ m c hc => by
    by_cases hmn : m = n
    · subst hmn
      obtain rfl := Option.some.inj (hc₀.symm.trans hc)
      exact ⟨_, Function.update_self _ _ _, rfl⟩
    · exact ⟨c, (Function.update_of_ne hmn _ _).trans hc, rfl⟩
  have hrest : ∀ {e' : Ledger}, (∀ n c, w.env.calls n = some c → ∃ c', e'.calls n = some c' ∧
      c'.amount = c.amount) → e'.latest = w.env.latest → (∀ n c, e'.calls n = some c →
        n < w.next ∧ (c.outcome = .executed → c.amount ≤ Token.totalSupply)) →
      e'.token.vault.Holds 0 → Funded {w with env := e'} := fun {e'} hcalls hlatest hnew hholds => by
    refine ⟨h.book, fun o op hop => ?_, fun n k hk => ?_, hnew, hholds⟩
    · have hkept := h.ops o op hop
      refine ⟨hkept.sited, fun hlock => ?_, hkept.unlock⟩
      obtain ⟨n, hl, hasked⟩ := hkept.lock hlock
      exact ⟨n, hlatest ▸ hl, hasked.congr fun c hc => hcalls n c hc⟩
    · exact (h.tasks n k hk).later (Nat.le_refl _) fun c hc => hcalls n c hc
  cases hm with
  | @take n now c hc hsent =>
    refine hrest (hasks c hc) rfl (fun m c' hc' => ?_) (Token.does_holds h.holds (Token.does_step _ _ _))
    rcases outcome_cases hc' with ⟨rfl, rfl⟩ | hold
    · exact ⟨(h.calls m c hc).1, fun hout => taken_amount h.holds hout⟩
    · exact h.calls m c' hold
  | @drop n c hc hsent =>
    refine hrest (hasks c hc) rfl (fun m c' hc' => ?_) h.holds
    rcases outcome_cases hc' with ⟨rfl, rfl⟩ | hold
    · exact ⟨(h.calls m c hc).1, nofun⟩
    · exact h.calls m c' hold
  | other hcaller =>
    exact hrest (fun n c hc => ⟨c, hc, rfl⟩) rfl h.calls
      (Token.does_holds h.holds (Token.does_step _ _ _))

theorem Funded.upgrade (h : Funded w) {s : StakingState} (hs : upgrade w.state = some s) :
    Funded {w with state := s, tasks := fun _ => none} := by
  obtain ⟨n, hcell, hbook⟩ := (upgrade_ok hs h.book.initialized).book
  obtain rfl := Option.some.inj (h.book.cell.symm.trans hcell)
  have hr : Revises w.state.book s.book := by
    rw [hbook]
    exact ⟨fun _ _ hp => .inl hp, Nat.le_refl _, h.book.cell, h.book.room, h.book.initialized⟩
  refine h.revise {w with state := s, tasks := fun _ => none} hr (fun o op hop => ?_) rfl
    (Nat.le_refl _) fun _ _ hk => nomatch hk
  have hops : s.book.pendingLockOps[o]? = some op := hop
  rw [hbook] at hops
  exact hops

theorem Funded.step (h : Funded w) {a : Event Input Reply} (htruth : Truthful w a)
    (hstep : (canister D).Step (callees E own) w a w') : Funded w' := by
  cases hstep with
  | call hl => exact h.call htruth hl
  | callTrap _ => exact h
  | reply hk hr hl => exact h.reply hk hr hl
  | @replyTrap t k r hk hr _ => exact h.finish t
  | upgrade hs => exact h.upgrade hs
  | wait _ => exact ⟨h.book, h.ops, h.tasks, h.calls, h.holds⟩
  | elsewhere hm => exact h.moves hm
  | others hs =>
    obtain rfl := hs
    exact h

theorem Installed.funded (h : Installed E own w) : Funded w := by
  obtain ⟨args, hinit⟩ := h.state
  obtain ⟨fee, targs, log, hist⟩ := h.token
  obtain ⟨hbook, -⟩ := init_ok hinit
  refine ⟨?_, fun o op hop => ?_, fun n k hk => ?_, fun n c hc => ?_, hist.holds⟩
  · rw [hbook]
    exact ⟨fun p pos hp => by simp [StakeBook.fresh] at hp, rfl, by decide, rfl⟩
  · rw [hbook] at hop
    simp [StakeBook.fresh] at hop
  · rw [h.tasks] at hk
    cases hk
  · rw [h.calls] at hc
    cases hc

/-- In the runs whose lock assertions are true, every position is fair. -/
theorem funded_run (run : (system D E own).RunIf Truthful w) : Funded w :=
  run.invariant (I := Funded) (fun _ h => Installed.funded h) fun _ _ _ _ h htruth hstep =>
    Funded.step h htruth hstep

/-- The weights of all positions fit. -/
theorem BookFunded.fits {b : StakeBook} (h : BookFunded b) :
    StableMap.sumBy StakePosition.votingWeight b.positions ≤ u128Max := by
  have hweight : ∀ (a : Nat) (pos : StakePosition), b.positions[a]? = some pos →
      pos.votingWeight ≤ 5 * Token.totalSupply := fun a pos hpos => by
    obtain ⟨-, hfair⟩ := h.position a pos hpos
    have hle := hfair.weight
    by_cases h0 : pos.votingWeight = 0
    · omega
    · have hamount := hfair.amount h0
      omega
  have hsize := StableMap.size_le_of_lt fun a pos hpos => (h.position a pos hpos).1.old
  have hsum := StableMap.sumBy_le_size hweight
  have hmul := Nat.mul_le_mul_right (5 * Token.totalSupply) (Nat.le_trans hsize h.room)
  have hcap : u64Max * (5 * Token.totalSupply) ≤ u128Max := by decide
  omega

end StshProtocol.Staking
