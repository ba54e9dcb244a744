import StshProtocol.Staking.Effects

/-! The book of stakes and the operations that are pending in it.

A message begins an operation or ends one (`Begins`, `Settles`); the rest leave the book as
it is. What the book keeps (`Kept`) ties each pending operation to its position, and each
position to the dedup key it was staked under. -/
namespace StshProtocol.Staking
open Foundation ShieldedPool

/-! ### What is kept -/

/-- The position an operation is about, as it is when nothing is pending. -/
structure Intact (op : PendingLockOp) : Prop where
  isOpen : op.snapshot.closed = false
  settled : op.snapshot.opId = none
  named : op.snapshot.positionId = op.positionId
  holder : op.snapshot.holder = op.holder
  amount : op.snapshot.amount = op.amount
  weight : 2 * op.snapshot.votingWeight ≤ 5 * op.snapshot.amount
  key : op.opType = .lock → ∃ key, op.dedupKey = some key

structure OpKept (b : StakeBook) (o : Nat) (op : PendingLockOp) : Prop where
  intact : Intact op
  named : op.opId = o
  old : o < b.opIdCounter
  position : b.positions[op.positionId]? = some (op.snapshot.pending o)
  state : b.pendingPositions[op.positionId]? = some op.opType.pendingState
  under : ∀ key, op.dedupKey = some key → b.stakedUnder op.positionId = some (DedupKey.new op.holder key)

structure PositionKept (b : StakeBook) (p : Nat) (pos : StakePosition) : Prop where
  named : pos.positionId = p
  old : p < b.nextPositionId
  weight : 2 * pos.votingWeight ≤ 5 * pos.amount
  pending : ∀ o, pos.opId = some o → ∃ op : PendingLockOp, b.pendingLockOps[o]? = some op ∧ op.positionId = p
  closed : pos.closed = true → pos.votingWeight = 0 ∧ pos.opId = none
  dedup : ∃ (key : DedupKey) (prior : DedupRecord), b.stakedUnder p = some key ∧
    b.stakeDedup[key]? = some prior ∧ prior.positionId = p

structure Kept (b : StakeBook) : Prop where
  op : ∀ (o : Nat) (op : PendingLockOp), b.pendingLockOps[o]? = some op → OpKept b o op
  position : ∀ (p : Nat) (pos : StakePosition), b.positions[p]? = some pos → PositionKept b p pos
  state : ∀ (p : Nat) (st : PendingStakeState), b.pendingPositions[p]? = some st →
    ∃ (o : Nat) (op : PendingLockOp), b.pendingLockOps[o]? = some op ∧ op.positionId = p
  cell : b.nextPositionIdCell = some b.nextPositionId
  room : b.nextPositionId ≤ u64Max
  weightCell : b.votingWeightCell = ⟨true, b.totalVotingWeight⟩

section Kept
variable {b b' : StakeBook} {o p : Nat} {op : PendingLockOp} {pos : StakePosition}

/-- A position that awaits an operation weighs nothing. -/
theorem Kept.pending_weight (h : Kept b) (hp : b.positions[p]? = some pos) (ho : pos.opId = some o) :
    pos.votingWeight = 0 := by
  obtain ⟨op, hop, rfl⟩ := (h.position p pos hp).pending o ho
  have hpos := (h.op o op hop).position
  rw [hp] at hpos
  rw [Option.some.inj hpos]
  rfl

/-- A position is marked as pending exactly while an operation awaits it. -/
theorem Kept.settled_iff (h : Kept b) (hp : b.positions[p]? = some pos) :
    b.pendingPositions[p]? = none ↔ pos.opId = none := by
  constructor
  · intro hstate
    cases ho : pos.opId with
    | none => rfl
    | some o =>
      obtain ⟨op, hop, rfl⟩ := (h.position p pos hp).pending o ho
      nomatch hstate.symm.trans (h.op o op hop).state
  · intro ho
    cases hstate : b.pendingPositions[p]? with
    | none => rfl
    | some st =>
      obtain ⟨o, op, hop, rfl⟩ := h.state p st hstate
      have hpos := (h.op o op hop).position
      rw [hp] at hpos
      rw [Option.some.inj hpos] at ho
      nomatch ho

/-- Two pending operations are about two positions. -/
theorem Kept.op_unique (h : Kept b) {o' : Nat} {op' : PendingLockOp}
    (hop : b.pendingLockOps[o]? = some op) (hop' : b.pendingLockOps[o']? = some op')
    (heq : op'.positionId = op.positionId) : o' = o := by
  have hpos := (h.op o op hop).position
  have hpos' := (h.op o' op' hop').position
  rw [heq, hpos] at hpos'
  have hids := congrArg StakePosition.opId (Option.some.inj hpos')
  exact (Option.some.inj hids).symm

/-- Two positions staked under one key are one. -/
theorem Kept.dedup_unique (h : Kept b) {q : Nat} {pos' : StakePosition} {key : DedupKey}
    (hp : b.positions[p]? = some pos) (hq : b.positions[q]? = some pos')
    (hpk : b.stakedUnder p = some key) (hqk : b.stakedUnder q = some key) : p = q := by
  obtain ⟨k₁, r₁, hk₁, hr₁, rfl⟩ := (h.position p pos hp).dedup
  obtain ⟨k₂, r₂, hk₂, hr₂, rfl⟩ := (h.position q pos' hq).dedup
  obtain rfl := Option.some.inj (hpk.symm.trans hk₁)
  obtain rfl := Option.some.inj (hqk.symm.trans hk₂)
  obtain rfl := Option.some.inj (hr₁.symm.trans hr₂)
  rfl

/-- A change at one position and one operation keeps the book if it is right there. -/
theorem Kept.rewrite (h : Kept b) (hpositions : ∀ a : Nat, a ≠ p → b'.positions[a]? = b.positions[a]?)
    (hstates : ∀ a : Nat, a ≠ p → b'.pendingPositions[a]? = b.pendingPositions[a]?)
    (hops : ∀ a : Nat, a ≠ o → b'.pendingLockOps[a]? = b.pendingLockOps[a]?)
    (hown : ∀ op : PendingLockOp, b.pendingLockOps[o]? = some op → op.positionId = p)
    (hapart : ∀ (a : Nat) (op : PendingLockOp), a ≠ o → b.pendingLockOps[a]? = some op → op.positionId ≠ p)
    (hcounter : b.opIdCounter ≤ b'.opIdCounter) (hnext : b.nextPositionId ≤ b'.nextPositionId)
    (hunder : ∀ a, a ≠ p → b'.stakedUnder a = b.stakedUnder a)
    (hdedup : ∀ (a : Nat) (pos : StakePosition) (key : DedupKey) (prior : DedupRecord), a ≠ p → b.positions[a]? = some pos →
      b.stakedUnder a = some key → b.stakeDedup[key]? = some prior → prior.positionId = a →
        b'.stakeDedup[key]? = some prior)
    (hop : ∀ op : PendingLockOp, b'.pendingLockOps[o]? = some op → OpKept b' o op)
    (hposition : ∀ pos : StakePosition, b'.positions[p]? = some pos → PositionKept b' p pos)
    (hstate : ∀ st : PendingStakeState, b'.pendingPositions[p]? = some st →
      ∃ (a : Nat) (op : PendingLockOp), b'.pendingLockOps[a]? = some op ∧ op.positionId = p)
    (hcell : b'.nextPositionIdCell = some b'.nextPositionId) (hroom : b'.nextPositionId ≤ u64Max)
    (hweight : b'.votingWeightCell = ⟨true, b'.totalVotingWeight⟩) : Kept b' where
  op a op' ha := by
    by_cases hao : a = o
    · exact hao ▸ hop op' (hao ▸ ha)
    · rw [hops a hao] at ha
      have hkept := h.op a op' ha
      have hne := hapart a op' hao ha
      exact {
        intact := hkept.intact
        named := hkept.named
        old := Nat.lt_of_lt_of_le hkept.old hcounter
        position := (hpositions _ hne).trans hkept.position
        state := (hstates _ hne).trans hkept.state
        under := fun key hkey => (hunder _ hne).trans (hkept.under key hkey) }
  position a pos ha := by
    by_cases hap : a = p
    · exact hap ▸ hposition pos (hap ▸ ha)
    · rw [hpositions a hap] at ha
      have hkept := h.position a pos ha
      obtain ⟨key, prior, hkey, hprior, hid⟩ := hkept.dedup
      refine {
        named := hkept.named
        old := Nat.lt_of_lt_of_le hkept.old hnext
        weight := hkept.weight
        pending := fun o' ho' => ?_
        closed := hkept.closed
        dedup := ⟨key, prior, (hunder a hap).trans hkey,
          hdedup a pos key prior hap ha hkey hprior hid, hid⟩ }
      obtain ⟨op', hop', hpid⟩ := hkept.pending o' ho'
      have hne : o' ≠ o := fun heq => hap (hpid ▸ hown op' (heq ▸ hop'))
      exact ⟨op', (hops o' hne).trans hop', hpid⟩
  state a st ha := by
    by_cases hap : a = p
    · exact hap ▸ hstate st (hap ▸ ha)
    · rw [hstates a hap] at ha
      obtain ⟨o', op', hop', hpid⟩ := h.state a st ha
      have hne : o' ≠ o := fun heq => hap (hpid ▸ hown op' (heq ▸ hop'))
      exact ⟨o', op', (hops o' hne).trans hop', hpid⟩
  cell := hcell
  room := hroom
  weightCell := hweight

end Kept

/-- The total is the weight of all positions; those that are closed or pending weigh nothing. -/
def Weighed (b : StakeBook) : Prop :=
  b.totalVotingWeight = StableMap.sumBy StakePosition.votingWeight b.positions

/-! ### Beginning an operation -/

/-- The position before its operation; a stake's is not there yet. -/
def PendingLockOp.before (op : PendingLockOp) : Option StakePosition :=
  match op.opType with
  | .lock => none
  | .unlock => some op.snapshot

/-- The next operation is recorded, and its position awaits it. -/
structure Begins (b b' : StakeBook) (op : PendingLockOp) : Prop where
  intact : Intact op
  opId : op.opId = b.opIdCounter
  fresh : b.pendingLockOps[b.opIdCounter]? = none
  before : b.positions[op.positionId]? = op.before
  new : op.opType = .lock → b.nextPositionId ≤ op.positionId
  positions : ∀ a : Nat, b'.positions[a]? =
    if a = op.positionId then some (op.snapshot.pending b.opIdCounter) else b.positions[a]?
  states : ∀ a : Nat, b'.pendingPositions[a]? =
    if a = op.positionId then some op.opType.pendingState else b.pendingPositions[a]?
  ops : ∀ a : Nat, b'.pendingLockOps[a]? =
    if a = b.opIdCounter then some op else b.pendingLockOps[a]?
  counter : b'.opIdCounter = b.opIdCounter + 1
  next : b.nextPositionId ≤ b'.nextPositionId
  weight : b'.totalVotingWeight + op.before.elim 0 StakePosition.votingWeight = b.totalVotingWeight

section Begins
variable {b b' : StakeBook} {now : Nat} {key : Bytes}

theorem satAdd64_one {n : Nat} (h : n < u64Max) : satAdd64 n 1 = n + 1 := satAdd64_eq h

theorem Kept.op_none (h : Kept b) : b.pendingLockOps[b.opIdCounter]? = none := by
  cases hop : b.pendingLockOps[b.opIdCounter]? with
  | none => rfl
  | some op => exact absurd (h.op _ op hop).old (Nat.lt_irrefl _)

theorem Kept.position_none (h : Kept b) {p : Nat} (hp : b.nextPositionId ≤ p) :
    b.positions[p]? = none := by
  cases hpos : b.positions[p]? with
  | none => rfl
  | some pos => exact absurd (h.position _ pos hpos).old (Nat.not_lt.2 hp)

/-- What `stake` records. -/
def stakeOp (now : Nat) (key : Bytes) (t : LockTask) : PendingLockOp :=
  ⟨t.opId, t.positionId, t.active.holder, t.active.amount, .lock, now, t.active, some key⟩

theorem begins_stake (now : Nat) {t : LockTask} (h : Kept b) (hcounter : b.opIdCounter < u64Max)
    (hnew : NewStake b key t) : Begins b (recordStake now key t (allocated b)) (stakeOp now key t) where
  intact := ⟨hnew.isOpen, hnew.settled, hnew.named, rfl, rfl, hnew.weight, fun _ => ⟨key, rfl⟩⟩
  opId := hnew.opId
  fresh := h.op_none
  before := h.position_none (Nat.le_of_eq hnew.positionId.symm)
  new _ := Nat.le_of_eq hnew.positionId.symm
  positions a := by
    show (b.positions.insert t.positionId (t.active.pending t.opId))[a]? = _
    rw [StableMap.get_insert_at, hnew.opId]
    rfl
  states _ := StableMap.get_insert_at _ _ _ _
  ops a := by
    show (b.pendingLockOps.insert t.opId (stakeOp now key t))[a]? = _
    rw [StableMap.get_insert_at, hnew.opId]
  counter := satAdd64_one hcounter
  next := Nat.le_succ _
  weight := rfl

/-- What `unstake` records. -/
def unstakeOp (now : Nat) (t : UnlockTask) : PendingLockOp :=
  ⟨t.opId, t.positionId, t.snapshot.holder, t.snapshot.amount, .unlock, now, t.snapshot, none⟩

theorem begins_unstake (now : Nat) {t : UnlockTask} {holder : Principal} (h : Kept b) (hweighed : Weighed b)
    (hcounter : b.opIdCounter < u64Max) (hopen : OpenFor b holder t.positionId t.snapshot)
    (hid : t.opId = b.opIdCounter) :
    Begins b (recordUnstake now t (numbered b)) (unstakeOp now t) where
  intact := by
    have hkept := h.position _ _ hopen.present
    exact ⟨hopen.isOpen, (h.settled_iff hopen.present).1 hopen.settled, hkept.named, rfl, rfl,
      hkept.weight, nofun⟩
  opId := hid
  fresh := h.op_none
  before := hopen.present
  new := nofun
  positions a := by
    show (b.positions.insert t.positionId (t.snapshot.pending t.opId))[a]? = _
    rw [StableMap.get_insert_at, hid]
    rfl
  states _ := StableMap.get_insert_at _ _ _ _
  ops a := by
    show (b.pendingLockOps.insert t.opId (unstakeOp now t))[a]? = _
    rw [StableMap.get_insert_at, hid]
  counter := satAdd64_one hcounter
  next := Nat.le_refl _
  weight := by
    have hle : t.snapshot.votingWeight ≤ b.totalVotingWeight := by
      rw [hweighed]
      exact StableMap.le_sumBy hopen.present
    exact Nat.sub_add_cancel hle

/-- The book after an operation began, if its position's key leads to it. -/
theorem Begins.kept {op : PendingLockOp} (h : Kept b) (hb : Begins b b' op)
    (hunder : ∀ a, a ≠ op.positionId → b'.stakedUnder a = b.stakedUnder a)
    (hdedup : ∀ (a : Nat) (key : DedupKey) (prior : DedupRecord), a ≠ op.positionId →
      b.stakeDedup[key]? = some prior → b'.stakeDedup[key]? = some prior)
    (hposition : PositionKept b' op.positionId (op.snapshot.pending b.opIdCounter))
    (hkey : ∀ key, op.dedupKey = some key →
      b'.stakedUnder op.positionId = some (DedupKey.new op.holder key))
    (hcell : b'.nextPositionIdCell = some b'.nextPositionId) (hroom : b'.nextPositionId ≤ u64Max)
    (hweight : b'.votingWeightCell = ⟨true, b'.totalVotingWeight⟩) : Kept b' := by
  have hop : b'.pendingLockOps[b.opIdCounter]? = some op := by rw [hb.ops, if_pos rfl]
  refine h.rewrite (p := op.positionId) (o := b.opIdCounter)
    (fun a ha => by rw [hb.positions, if_neg ha]) (fun a ha => by rw [hb.states, if_neg ha])
    (fun a ha => by rw [hb.ops, if_neg ha]) (fun op' hop' => nomatch hb.fresh.symm.trans hop') ?_
    (by rw [hb.counter]; exact Nat.le_succ _) hb.next hunder
    (fun a _ key prior ha _ _ hprior _ => hdedup a key prior ha hprior) (fun op' hop' => ?_)
    (fun pos hpos => ?_) (fun _ _ => ⟨_, op, hop, rfl⟩) hcell hroom hweight
  · -- An operation already pending awaits another position: this one awaits none.
    intro a op' _ hop' heq
    have hpos := (h.op a op' hop').position
    rw [heq, hb.before] at hpos
    unfold PendingLockOp.before at hpos
    split at hpos
    · cases hpos
    · have hsettled := hb.intact.settled
      rw [Option.some.inj hpos] at hsettled
      nomatch hsettled
  · obtain rfl := Option.some.inj (hop.symm.trans hop')
    exact {
      intact := hb.intact
      named := hb.opId
      old := by rw [hb.counter]; exact Nat.lt_succ_self _
      position := by rw [hb.positions, if_pos rfl]
      state := by rw [hb.states, if_pos rfl]
      under := hkey }
  · rw [hb.positions, if_pos rfl] at hpos
    exact Option.some.inj hpos ▸ hposition

theorem kept_stake {t : LockTask} (h : Kept b) (hcounter : b.opIdCounter < u64Max)
    (hfree : b.stakeDedup[t.ddk]? = none) (hnew : NewStake b key t) :
    Kept (recordStake now key t (allocated b)) := by
  have hb := begins_stake now h hcounter hnew
  refine hb.kept h (fun a ha => if_neg ha) (fun a k prior _ hprior => ?_) ?_ (fun k hk => ?_) rfl
    hnew.room h.weightCell
  · have hne : t.ddk ≠ k := by
      rintro rfl
      cases hfree.symm.trans hprior
    show (b.stakeDedup.insert t.ddk _)[k]? = _
    rw [StableMap.get_insert, if_neg hne]
    exact hprior
  · exact {
      named := hnew.named
      old := by
        show t.positionId < b.nextPositionId + 1
        rw [hnew.positionId]
        exact Nat.lt_succ_self _
      weight := Nat.zero_le _
      pending := fun o ho => ⟨stakeOp now key t, by rw [hb.ops, if_pos (Option.some.inj ho).symm], rfl⟩
      closed := fun hc => nomatch hnew.isOpen.symm.trans hc
      dedup := ⟨t.ddk, ⟨t.active.amount, t.active.lockDays, t.positionId, t.opId⟩, if_pos rfl,
        by simp [recordStake], rfl⟩ }
  · obtain rfl := Option.some.inj hk
    show (if t.positionId = t.positionId then some t.ddk else _) = _
    rw [if_pos rfl, hnew.ddk]
    rfl

theorem kept_unstake {t : UnlockTask} {holder : Principal} (h : Kept b) (hweighed : Weighed b)
    (hcounter : b.opIdCounter < u64Max) (hopen : OpenFor b holder t.positionId t.snapshot)
    (hid : t.opId = b.opIdCounter) : Kept (recordUnstake now t (numbered b)) := by
  have hb := begins_unstake now h hweighed hcounter hopen hid
  have hkept := h.position _ _ hopen.present
  refine hb.kept h (fun _ _ => rfl) (fun _ _ _ _ hprior => hprior) ?_ nofun h.cell h.room rfl
  exact {
    named := hkept.named
    old := hkept.old
    weight := Nat.zero_le _
    pending := fun o ho => ⟨unstakeOp now t, by rw [hb.ops, if_pos (Option.some.inj ho).symm], rfl⟩
    closed := fun hc => nomatch hopen.isOpen.symm.trans hc
    dedup := hkept.dedup }

/-- A record that is dropped was of no position. -/
theorem Dropped.kept {ddk : DedupKey} (h : Kept b) (hd : Dropped ddk b b') : Kept b' := by
  cases hd with
  | nothing => exact h
  | @stale prior hprior hgone =>
    refine ⟨fun o op ho => ?_, fun p pos hp => ?_, h.state, h.cell, h.room, h.weightCell⟩
    · have hkept := h.op o op ho
      exact ⟨hkept.intact, hkept.named, hkept.old, hkept.position, hkept.state, hkept.under⟩
    have hkept := h.position p pos hp
    obtain ⟨key, r, hkey, hr, rfl⟩ := hkept.dedup
    refine ⟨hkept.named, hkept.old, hkept.weight, hkept.pending, hkept.closed, key, r, hkey, ?_, rfl⟩
    have hne : ddk ≠ key := by
      rintro rfl
      obtain rfl := Option.some.inj (hprior.symm.trans hr)
      nomatch hgone.symm.trans hp
    show (b.stakeDedup.erase ddk)[key]? = some r
    rw [StableMap.get_erase, if_neg hne]
    exact hr

end Begins

/-! ### Ending an operation -/

/-- The position after its operation, by whether the token carried it out. -/
def PendingLockOp.after (op : PendingLockOp) (executed : Bool) : Option StakePosition :=
  match op.opType, executed with
  | .lock, true | .unlock, false => some op.snapshot
  | .lock, false => none
  | .unlock, true => some op.snapshot.close

/-- A pending operation is ended, and its position is what it should be. -/
structure Settles (b b' : StakeBook) (o : Nat) (op : PendingLockOp) (executed : Bool) : Prop where
  pending : b.pendingLockOps[o]? = some op
  positions : ∀ a : Nat, b'.positions[a]? =
    if a = op.positionId then op.after executed else b.positions[a]?
  states : ∀ a : Nat, b'.pendingPositions[a]? =
    if a = op.positionId then none else b.pendingPositions[a]?
  ops : ∀ a : Nat, b'.pendingLockOps[a]? = if a = o then none else b.pendingLockOps[a]?
  counter : b'.opIdCounter = b.opIdCounter
  next : b'.nextPositionId = b.nextPositionId
  cell : b'.nextPositionIdCell = b.nextPositionIdCell
  under : b'.stakedUnder = b.stakedUnder
  dedup : ∀ (key : DedupKey) (prior : DedupRecord), b.stakeDedup[key]? = some prior →
    b'.stakeDedup[key]? = some prior ∨
      (op.after executed = none ∧ b.stakedUnder op.positionId = some key)
  weight : b'.totalVotingWeight =
    b.totalVotingWeight + (op.after executed).elim 0 StakePosition.votingWeight
  weightCell : b'.votingWeightCell = ⟨true, b'.totalVotingWeight⟩

section Settles
variable {b b' : StakeBook} {o : Nat} {op : PendingLockOp} {executed : Bool}

theorem activate_settles (hop : b.pendingLockOps[o]? = some op)
    (hafter : op.after executed = some op.snapshot)
    (hfit : b.totalVotingWeight + op.snapshot.votingWeight ≤ u128Max) :
    Settles b (activate op.positionId o op.snapshot b) o op executed where
  pending := hop
  positions a := by rw [hafter]; exact StableMap.get_insert_at _ _ _ _
  states _ := StableMap.get_erase_at _ _ _
  ops _ := StableMap.get_erase_at _ _ _
  counter := rfl
  next := rfl
  cell := rfl
  under := rfl
  dedup _ _ hprior := .inl hprior
  weight := by rw [hafter]; exact satAdd128_eq hfit
  weightCell := rfl

theorem cancelStake_settles {ddk : DedupKey} (h : Kept b) (hop : b.pendingLockOps[o]? = some op)
    (hafter : op.after executed = none) (hunder : b.stakedUnder op.positionId = some ddk) :
    Settles b (cancelStake (some ddk) op.positionId o b) o op executed where
  pending := hop
  positions a := by rw [hafter]; exact StableMap.get_erase_at _ _ _
  states _ := StableMap.get_erase_at _ _ _
  ops _ := StableMap.get_erase_at _ _ _
  counter := rfl
  next := rfl
  cell := rfl
  under := rfl
  dedup key prior hprior := by
    by_cases hkey : ddk = key
    · exact .inr ⟨hafter, hkey ▸ hunder⟩
    · refine .inl ?_
      show (b.stakeDedup.erase ddk)[key]? = some prior
      rw [StableMap.get_erase, if_neg hkey]
      exact hprior
  weight := by rw [hafter]; rfl
  weightCell := h.weightCell

theorem closePosition_settles (h : Kept b) (hop : b.pendingLockOps[o]? = some op)
    (hafter : op.after executed = some op.snapshot.close) :
    Settles b (closePosition op.positionId o op.snapshot b) o op executed where
  pending := hop
  positions a := by rw [hafter]; exact StableMap.get_insert_at _ _ _ _
  states _ := StableMap.get_erase_at _ _ _
  ops _ := StableMap.get_erase_at _ _ _
  counter := rfl
  next := rfl
  cell := rfl
  under := rfl
  dedup _ _ hprior := .inl hprior
  weight := by rw [hafter]; rfl
  weightCell := h.weightCell

/-- What is left of the position is a position at rest. -/
theorem PendingLockOp.after_rest (hintact : Intact op) {pos : StakePosition}
    (hafter : op.after executed = some pos) : pos.opId = none ∧ pos.positionId = op.positionId ∧
      pos.holder = op.holder ∧ pos.amount = op.amount ∧ 2 * pos.votingWeight ≤ 5 * pos.amount ∧
      (pos.closed = true → pos.votingWeight = 0) := by
  unfold PendingLockOp.after at hafter
  split at hafter
  · obtain rfl := Option.some.inj hafter
    exact ⟨hintact.settled, hintact.named, hintact.holder, hintact.amount, hintact.weight,
      fun hc => nomatch hintact.isOpen.symm.trans hc⟩
  · obtain rfl := Option.some.inj hafter
    exact ⟨hintact.settled, hintact.named, hintact.holder, hintact.amount, hintact.weight,
      fun hc => nomatch hintact.isOpen.symm.trans hc⟩
  · cases hafter
  · obtain rfl := Option.some.inj hafter
    exact ⟨rfl, hintact.named, hintact.holder, hintact.amount, Nat.zero_le _, fun _ => rfl⟩

theorem Settles.kept (h : Kept b) (hs : Settles b b' o op executed) : Kept b' := by
  have hkept := h.op o op hs.pending
  have hpending := h.position _ _ hkept.position
  refine h.rewrite (p := op.positionId) (o := o)
    (fun a ha => by rw [hs.positions, if_neg ha]) (fun a ha => by rw [hs.states, if_neg ha])
    (fun a ha => by rw [hs.ops, if_neg ha])
    (fun op' hop' => by rw [Option.some.inj (hs.pending.symm.trans hop')])
    (fun a op' ha hop' heq => ha (h.op_unique hs.pending hop' heq))
    (Nat.le_of_eq hs.counter.symm) (Nat.le_of_eq hs.next.symm)
    (fun a _ => by rw [hs.under]) (fun a pos key prior ha hpos hkey hprior _ => ?_)
    (fun op' hop' => ?_) (fun pos hpos => ?_) (fun st hst => ?_) ?_ ?_ hs.weightCell
  · rcases hs.dedup key prior hprior with hsame | ⟨-, hunder⟩
    · exact hsame
    · exact absurd (h.dedup_unique hpos hkept.position hkey hunder) ha
  · rw [hs.ops, if_pos rfl] at hop'
    cases hop'
  · rw [hs.positions, if_pos rfl] at hpos
    obtain ⟨hid, hnamed, -, -, hweight, hclosed⟩ := PendingLockOp.after_rest hkept.intact hpos
    obtain ⟨key, prior, hkey, hprior, hown⟩ := hpending.dedup
    have hold : op.positionId < b'.nextPositionId := hs.next ▸ hpending.old
    have hrest : ∀ o', pos.opId = some o' →
        ∃ op' : PendingLockOp, b'.pendingLockOps[o']? = some op' ∧ op'.positionId = op.positionId :=
      fun o' ho' => nomatch hid.symm.trans ho'
    refine ⟨hnamed, hold, hweight, hrest, fun hc => ⟨hclosed hc, hid⟩, key, prior,
      hs.under ▸ hkey, ?_, hown⟩
    rcases hs.dedup key prior hprior with hsame | ⟨hnone, -⟩
    · exact hsame
    · nomatch hnone.symm.trans hpos
  · rw [hs.states, if_pos rfl] at hst
    cases hst
  · rw [hs.cell, hs.next]
    exact h.cell
  · rw [hs.next]
    exact h.room

end Settles

/-! ### The total weight -/

section Weight
variable {b b' : StakeBook}

theorem elim_pending (o : Nat) (p : StakePosition) : (p.pending o).votingWeight = 0 := rfl

/-- Beginning an operation takes away the weight of its position. -/
theorem Begins.weighed {op : PendingLockOp} (hweighed : Weighed b) (hb : Begins b b' op) : Weighed b' := by
  have hpositions : b'.positions =
      b.positions.insert op.positionId (op.snapshot.pending b.opIdCounter) :=
    Std.ExtTreeMap.ext_getElem? fun a => by rw [hb.positions, StableMap.get_insert_at]
  have hsum := StableMap.sumBy_insert (f := StakePosition.votingWeight) b.positions op.positionId
    (op.snapshot.pending b.opIdCounter)
  have htotal := hb.weight
  rw [hb.before, elim_pending] at hsum
  unfold Weighed at *
  rw [hpositions]
  omega

/-- Ending one adds the weight its position has then. -/
theorem Settles.weighed {o : Nat} {op : PendingLockOp} {executed : Bool} (h : Kept b)
    (hweighed : Weighed b) (hs : Settles b b' o op executed) : Weighed b' := by
  have hpos := (h.op o op hs.pending).position
  have hweight := hs.weight
  unfold Weighed at *
  cases hafter : op.after executed with
  | none =>
    have hpositions : b'.positions = b.positions.erase op.positionId :=
      Std.ExtTreeMap.ext_getElem? fun a => by rw [hs.positions, hafter, StableMap.get_erase_at]
    have hsum := StableMap.sumBy_erase (f := StakePosition.votingWeight) b.positions op.positionId
    rw [hpos, Option.elim_some, elim_pending] at hsum
    rw [hafter, Option.elim_none] at hweight
    rw [hpositions]
    omega
  | some pos =>
    have hpositions : b'.positions = b.positions.insert op.positionId pos :=
      Std.ExtTreeMap.ext_getElem? fun a => by rw [hs.positions, hafter, StableMap.get_insert_at]
    have hsum := StableMap.sumBy_insert (f := StakePosition.votingWeight) b.positions op.positionId pos
    rw [hpos, Option.elim_some, elim_pending] at hsum
    rw [hafter, Option.elim_some] at hweight
    rw [hpositions]
    omega

/-- The total is the weight of the active positions. -/
theorem Weighed.active (h : Kept b) (hweighed : Weighed b) : b.totalVotingWeight = backfilledWeight b := by
  rw [hweighed, backfilledWeight, StableMap.sumBy_filter]
  intro p pos hp hinactive
  have hkept := h.position p pos hp
  unfold isActivePosition pendingStakeState at hinactive
  rw [hkept.named] at hinactive
  cases hc : pos.closed with
  | true => exact (hkept.closed hc).1
  | false =>
    cases ho : pos.opId with
    | some o => exact h.pending_weight hp ho
    | none =>
      rw [hc, (h.settled_iff hp).2 ho] at hinactive
      nomatch hinactive

end Weight

end StshProtocol.Staking
