import StshProtocol.Staking.Locks

/-! What one step of the world does to the stakes.

The book is left as it is, or an operation begins, or one that was pending ends as the token
decided it (`Turn`). A suspended message still speaks of its own operation, or of one that a
reconciliation has ended (`TaskHeld`). -/
namespace StshProtocol.Staking
open Foundation ShieldedPool Handler

/-! ### Assertions and replies -/

/-- A reconciliation asserts what is true of the token. -/
def Truthful (w : StakingWorld) : Event Input Reply → Prop
  | .call (.reconcileLock _ opId decision) | .call (.reconcileUnlock _ opId decision) =>
    w.env.Came opId fun outcome => outcome = .executed ↔ decision = .executed
  | _ => True

/-- The operation is still pending, or was ended in a way the reply cannot spoil. -/
def LockTimely (b : StakeBook) (t : LockTask) (r : Reply) : Prop :=
  (∃ op : PendingLockOp, b.pendingLockOps[t.opId]? = some op) ∨ (∃ m, r = .rejected m) ∨
    (r ≠ .result (.ok ()) ∧ b.stakeDedup[t.ddk]? = none)

def UnlockTimely (b : StakeBook) (t : UnlockTask) (r : Reply) : Prop :=
  (∃ op : PendingLockOp, b.pendingLockOps[t.opId]? = some op) ∨ (∃ m, r = .rejected m) ∨
    r = .result (.ok ())

/-- What keeps a step from the defects: a definite reply finds its operation pending, or does
no harm; nothing is asserted of a call that may still be carried out; and the operation ids
are not used up. -/
def Timely (w : StakingWorld) : Event Input Reply → Prop
  | .reply n r => match w.tasks n with
    | some (.lock t) => LockTimely w.state.book t r
    | some (.unlock t) => UnlockTimely w.state.book t r
    | _ => True
  | .call (.reconcileLock _ opId _) | .call (.reconcileUnlock _ opId _) =>
    w.env.Came opId (· ≠ .sent)
  | .call (.stake _ _ _ _) | .call (.unstake _ _) => w.state.book.opIdCounter < u64Max
  | _ => True

/-! ### Turns -/

/-- Nothing changes but dedup records. -/
structure Idle (b b' : StakeBook) : Prop where
  positions : b'.positions = b.positions
  states : b'.pendingPositions = b.pendingPositions
  ops : b'.pendingLockOps = b.pendingLockOps
  counter : b'.opIdCounter = b.opIdCounter
  next : b'.nextPositionId = b.nextPositionId
  weight : b'.totalVotingWeight = b.totalVotingWeight

/-- What a step does to the book, with what became of the calls before it. -/
inductive Turn (e : Ledger) (b b' : StakeBook) : Prop where
  | idle (h : Idle b b')
  | begins {op : PendingLockOp} (h : Begins b b' op)
  | settles {o : Nat} {op : PendingLockOp} {executed : Bool} (h : Settles b b' o op executed)
      (hsent : e.Came o (· ≠ .sent))
      (htruth : e.Came o fun outcome => outcome = .executed ↔ executed = true)

theorem Idle.refl (b : StakeBook) : Idle b b := ⟨rfl, rfl, rfl, rfl, rfl, rfl⟩

section Idle
variable {own : Principal} {b b' : StakeBook} {e : Ledger} {next : Nat}

theorem Dropped.idle {ddk : DedupKey} (h : Dropped ddk b b') : Idle b b' := by
  cases h with
  | nothing => exact .refl b
  | stale => exact ⟨rfl, rfl, rfl, rfl, rfl, rfl⟩

theorem Idle.weighed (h : Idle b b') (hweighed : Weighed b) : Weighed b' := by
  unfold Weighed at *
  rw [h.weight, h.positions]
  exact hweighed

theorem Idle.paired (h : Idle b b') (hp : Paired own b e next) : Paired own b' e next :=
  hp.congr h.ops h.positions h.counter

end Idle

/-- An operation id is given out once: what was given out and is not pending never is again. -/
theorem Turn.spent {e : Ledger} {b b' : StakeBook} (h : Turn e b b') {o : Nat}
    (hold : o < b.opIdCounter) (hgone : b.pendingLockOps[o]? = none) :
    o < b'.opIdCounter ∧ b'.pendingLockOps[o]? = none := by
  cases h with
  | idle h => exact ⟨h.counter ▸ hold, by rw [h.ops]; exact hgone⟩
  | begins h =>
    rw [h.counter, h.ops, if_neg (Nat.ne_of_lt hold)]
    exact ⟨Nat.lt_succ_of_lt hold, hgone⟩
  | settles h =>
    rw [h.counter, h.ops]
    refine ⟨hold, ?_⟩
    split
    · rfl
    · exact hgone

/-! ### Suspended messages -/

/-- Where the position of an operation is left by the end that a late reply agrees with. -/
def PendingLockOp.rest (op : PendingLockOp) : Option StakePosition :=
  match op.opType with
  | .lock => none
  | .unlock => some op.snapshot.close

/-- A suspended message made call `n` for this operation. -/
structure TaskHeld (b : StakeBook) (e : Ledger) (n : Nat) (op : PendingLockOp) : Prop where
  call : ∃ c, e.calls n = some c ∧ c.opId = op.opId ∧ Matches c op
  old : op.positionId < b.nextPositionId
  live : b.pendingLockOps[op.opId]? = some op ∨ b.pendingLockOps[op.opId]? = none
  stale : b.pendingLockOps[op.opId]? = none → ∀ c, e.calls n = some c →
    (c.outcome = .executed ↔ op.opType = .unlock) → b.positions[op.positionId]? = op.rest

section TaskHeld
variable {own : Principal} {b b' : StakeBook} {e e' : Ledger} {next n : Nat} {op : PendingLockOp}

/-- The message made the last call of its operation. -/
theorem TaskHeld.latest (hp : Paired own b e next) (h : TaskHeld b e n op) :
    ∃ c, e.calls n = some c ∧ e.latest op.opId = some n ∧ op.opId < b.opIdCounter ∧ n < next ∧
      Matches c op := by
  obtain ⟨c, hc, hid, hm⟩ := h.call
  obtain ⟨hlatest, hlt, hold⟩ := hp.call n c hc
  rw [hid] at hlatest hold
  exact ⟨c, hc, hlatest, hold, hlt, hm⟩

/-- A position at rest stays as it is. -/
theorem Turn.rest (hk : Kept b) (turn : Turn e b b') (hold : op.positionId < b.nextPositionId)
    (hrest : b.positions[op.positionId]? = op.rest) :
    b'.positions[op.positionId]? = op.rest := by
  have hclosed : ∀ {p : StakePosition}, b.positions[op.positionId]? = some p →
      p.closed = true ∧ p.opId = none := fun {p} hp => by
    rw [hrest] at hp
    unfold PendingLockOp.rest at hp
    split at hp
    · cases hp
    · obtain rfl := Option.some.inj hp
      exact ⟨rfl, rfl⟩
  cases turn with
  | idle h => rw [h.positions]; exact hrest
  | @begins op' h =>
    have hne : op.positionId ≠ op'.positionId := by
      intro heq
      have hbefore := h.before
      unfold PendingLockOp.before at hbefore
      split at hbefore
      · next hlock => exact absurd (heq ▸ hold) (Nat.not_lt.2 (h.new hlock))
      · rw [← heq] at hbefore
        cases h.intact.isOpen.symm.trans (hclosed hbefore).1
    rw [h.positions, if_neg hne]
    exact hrest
  | @settles o op' executed h =>
    have hpos := (hk.op o op' h.pending).position
    have hne : op.positionId ≠ op'.positionId := by
      intro heq
      rw [← heq] at hpos
      cases (hclosed hpos).2
    rw [h.positions, if_neg hne]
    exact hrest

theorem PendingLockOp.after_rest_eq {op : PendingLockOp} {executed : Bool}
    (h : executed = true ↔ op.opType = .unlock) : op.after executed = op.rest := by
  unfold PendingLockOp.after PendingLockOp.rest
  cases hty : op.opType <;> cases executed <;> simp_all

/-- Whatever a step does, a suspended message still speaks of its operation. -/
theorem TaskHeld.turn (hk : Kept b) (hp : Paired own b e next) (h : TaskHeld b e n op)
    (turn : Turn e b b') (hnext : b.nextPositionId ≤ b'.nextPositionId)
    (hcalls : e'.calls n = e.calls n) : TaskHeld b' e' n op := by
  obtain ⟨c, hc, hlatest, hcounter, -, -⟩ := h.latest hp
  have hcall := h.call
  refine ⟨by rw [hcalls]; exact hcall, Nat.lt_of_lt_of_le h.old hnext, ?_, ?_⟩
  · rcases h.live with hlive | hgone
    · cases turn with
      | idle hi => exact .inl (by rw [hi.ops]; exact hlive)
      | begins hb => exact .inl (by rw [hb.ops, if_neg (Nat.ne_of_lt hcounter)]; exact hlive)
      | settles hs =>
        rw [hs.ops]
        split
        · exact .inr rfl
        · exact .inl hlive
    · exact .inr (turn.spent hcounter hgone).2
  · rw [hcalls]
    intro hgone' c' hc' hout
    obtain rfl := Option.some.inj (hc.symm.trans hc')
    rcases h.live with hlive | hgone
    · cases turn with
      | idle hi =>
        rw [hi.ops, hlive] at hgone'
        cases hgone'
      | begins hb =>
        rw [hb.ops, if_neg (Nat.ne_of_lt hcounter), hlive] at hgone'
        cases hgone'
      | @settles o op' executed hs hsent htruth =>
        by_cases ho : op.opId = o
        · subst ho
          obtain rfl := Option.some.inj (hlive.symm.trans hs.pending)
          rw [hs.positions, if_pos rfl]
          exact PendingLockOp.after_rest_eq ((htruth n c hlatest hc).symm.trans hout)
        · rw [hs.ops, if_neg ho, hlive] at hgone'
          cases hgone'
    · exact turn.rest hk h.old (h.stale hgone c hc hout)

/-- However the token moves, too: a call whose operation has ended has been decided. -/
theorem TaskHeld.moves (hp : Paired own b e next) (h : TaskHeld b e n op) {E : Token.Env}
    (hm : Ledger.Moves E own e e') : TaskHeld b e' n op := by
  obtain ⟨c, hc, hid, hmatch⟩ := h.call
  -- One call may have changed, and then it had only been sent.
  have hchange : e'.calls n = some c ∨
      (c.outcome = .sent ∧ ∃ out, e'.calls n = some {c with outcome := out}) := by
    cases hm with
    | @take n' now c' hc' hsent =>
      by_cases hn : n = n'
      · subst hn
        obtain rfl := Option.some.inj (hc.symm.trans hc')
        exact .inr ⟨hsent, _, Function.update_self _ _ _⟩
      · exact .inl ((Function.update_of_ne hn _ _).trans hc)
    | @drop n' c' hc' hsent =>
      by_cases hn : n = n'
      · subst hn
        obtain rfl := Option.some.inj (hc.symm.trans hc')
        exact .inr ⟨hsent, _, Function.update_self _ _ _⟩
      · exact .inl ((Function.update_of_ne hn _ _).trans hc)
    | other _ => exact .inl hc
  rcases hchange with hsame | ⟨hsent, out, hnew⟩
  · exact ⟨⟨c, hsame, hid, hmatch⟩, h.old, h.live, fun hgone c' hc' hout =>
      h.stale hgone c' (hc.trans (hsame.symm.trans hc')) hout⟩
  · refine ⟨⟨_, hnew, hid, hmatch.opType, hmatch.holder, hmatch.amount⟩, h.old, h.live,
      fun hgone => ?_⟩
    obtain ⟨op', hop'⟩ := hp.unsettled n c hc hsent
    rw [hid, hgone] at hop'
    cases hop'

/-- The message that has just begun an operation. -/
theorem TaskHeld.begins (hb : Begins b b' op) (hold : op.positionId < b'.nextPositionId) :
    TaskHeld b' (e.send next (callFor op)) next op := by
  have hlive : b'.pendingLockOps[op.opId]? = some op := by rw [hb.opId, hb.ops, if_pos rfl]
  exact ⟨⟨_, Function.update_self _ _ _, rfl, rfl, rfl, rfl⟩, hold, .inl hlive,
    fun hgone => nomatch hlive.symm.trans hgone⟩

end TaskHeld

/-! ### The ends of an operation -/

section Ends
variable {own : Principal} {b : StakeBook} {e : Ledger} {next : Nat} {o : Nat} {op : PendingLockOp}

/-- The position is active after a lock that was carried out, or an unlock that was not. -/
theorem PendingLockOp.after_active (hopen : op.snapshot.closed = false) {executed : Bool}
    (h : op.after executed = some op.snapshot) : executed = true ↔ op.opType = .lock := by
  have hne : op.snapshot.close ≠ op.snapshot := fun heq =>
    nomatch (congrArg StakePosition.closed heq).trans hopen
  unfold PendingLockOp.after at h
  cases hty : op.opType <;> cases executed <;> simp_all

/-- Making a pending position active again never saturates the total. -/
theorem activate_fits (hk : Kept b) (hw : Weighed b) (hp : Paired own b e next)
    (hop : b.pendingLockOps[o]? = some op) {executed : Bool}
    (hafter : op.after executed = some op.snapshot)
    (htruth : e.Came o fun outcome => outcome = .executed ↔ executed = true) :
    b.totalVotingWeight + op.snapshot.votingWeight ≤ u128Max := by
  have hkept := hk.op o op hop
  obtain ⟨n, c, hl, hc, -, hm⟩ := hp.op o op hop
  have hexec := htruth n c hl hc
  have hsum : ∀ f : StakePosition → Nat,
      StableMap.sumBy f (b.positions.insert op.positionId op.snapshot) + f (op.snapshot.pending o) =
        StableMap.sumBy f b.positions + f op.snapshot := fun f => by
    have h := StableMap.sumBy_insert (f := f) b.positions op.positionId op.snapshot
    rwa [hkept.position, Option.elim_some] at h
  have hfits := weights_fit (b.positions.insert op.positionId op.snapshot)
    (n := b.nextPositionId) (e := e) (fun a pos hpos => ?_) hk.room hp.holds fun key => ?_
  · have htotal := hsum StakePosition.votingWeight
    rw [elim_pending] at htotal
    rw [hw]
    omega
  · rw [StableMap.get_insert_at] at hpos
    split at hpos
    · next ha =>
      obtain rfl := Option.some.inj hpos
      have hold := (hk.position _ _ hkept.position).old
      exact ⟨ha ▸ hold, hkept.intact.weight, fun _ => ⟨hkept.intact.settled, hkept.intact.isOpen⟩⟩
    · have hpkept := hk.position a pos hpos
      refine ⟨hpkept.old, hpkept.weight, fun h0 => ⟨?_, ?_⟩⟩
      · cases ho : pos.opId with
        | none => rfl
        | some o' => exact absurd (hk.pending_weight hpos ho) h0
      · cases hcl : pos.closed with
        | false => rfl
        | true => exact absurd (hpkept.closed hcl).1 h0
  · have hheld : e.held key (op.snapshot.pending o) = e.held key op.snapshot := by
      have hactive := PendingLockOp.after_active hkept.intact.isOpen hafter
      rw [held_pending hkept.intact.isOpen, held_settled hkept.intact.settled, keeps_of_call hl hc,
        hm.opType, hkept.intact.isOpen]
      cases hty : op.opType <;> cases executed <;> simp_all
    have htotal := hsum (e.held key)
    rw [hheld] at htotal
    exact (Nat.add_right_cancel htotal).trans (hp.locks key)

end Ends

end StshProtocol.Staking
