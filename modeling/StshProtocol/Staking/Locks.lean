import StshProtocol.Staking.Stakes
import StshProtocol.Token.Staking

/-! The calls to the token, the operations they were made for, and the token's locks.

Each pending operation has one call at the token. What the token holds locked for an
account is what the account's positions say: an open position its amount, and a position
that awaits an operation its amount or nothing, by what became of the call (`held`). -/
namespace StshProtocol.Staking
open Foundation ShieldedPool

/-- The row of a holder in the token's locks. -/
def lockKey (holder : Principal) : Bytes := (⟨holder, none⟩ : Token.Account).encodeKey

namespace Ledger

/-- Whether the amount of a position is locked at the token while this operation is pending. -/
def keeps (e : Ledger) (o : Nat) : Bool :=
  match (e.latest o).bind e.calls with
  | some ⟨.lock, _, _, _, outcome⟩ => outcome == .executed
  | some ⟨.unlock, _, _, _, outcome⟩ => outcome != .executed
  | none => false

/-- What a position has locked in a row of the token. -/
def held (e : Ledger) (key : Bytes) (pos : StakePosition) : Nat :=
  if lockKey pos.holder = key ∧ pos.closed = false ∧ pos.opId.all e.keeps = true then pos.amount
  else 0

/-- The last call of an operation, if there is one, came to this. -/
def Came (e : Ledger) (o : Nat) (P : CallOutcome → Prop) : Prop :=
  ∀ n c, e.latest o = some n → e.calls n = some c → P c.outcome

end Ledger

/-- A call and the operation it was made for. -/
structure Matches (c : TokenCall) (op : PendingLockOp) : Prop where
  opType : c.opType = op.opType
  holder : c.holder = op.holder
  amount : c.amount = op.amount

structure Paired (own : Principal) (b : StakeBook) (e : Ledger) (next : Nat) : Prop where
  latest : ∀ o n, e.latest o = some n → n < next
  call : ∀ n c, e.calls n = some c → e.latest c.opId = some n ∧ n < next ∧ c.opId < b.opIdCounter
  unsettled : ∀ n c, e.calls n = some c → c.outcome = .sent →
    ∃ op : PendingLockOp, b.pendingLockOps[c.opId]? = some op
  op : ∀ (o : Nat) (op : PendingLockOp), b.pendingLockOps[o]? = some op →
    ∃ n c, e.latest o = some n ∧ e.calls n = some c ∧ c.opId = o ∧ Matches c op
  holds : e.token.vault.Holds 0
  staking : e.token.stakingCanister = some own
  locks : ∀ key, StableMap.sumBy (e.held key) b.positions = e.token.vault.locks.get key

section Held
variable {e e' : Ledger} {key : Bytes} {pos : StakePosition} {o : Nat}

theorem held_congr (h : ∀ o, pos.opId = some o → e'.keeps o = e.keeps o) :
    e'.held key pos = e.held key pos := by
  unfold Ledger.held
  cases ho : pos.opId with
  | none => rfl
  | some o => rw [Option.all_some, Option.all_some, h o ho]

theorem keeps_congr (hlatest : e'.latest o = e.latest o)
    (hcalls : ∀ n, e.latest o = some n → e'.calls n = e.calls n) : e'.keeps o = e.keeps o := by
  unfold Ledger.keeps
  rw [hlatest]
  cases hn : e.latest o with
  | none => rfl
  | some n => rw [Option.bind_some, Option.bind_some, hcalls n hn]

theorem keeps_of_call {n : Nat} {c : TokenCall} (hlatest : e.latest o = some n)
    (hcall : e.calls n = some c) : e.keeps o =
      match c.opType with
      | .lock => c.outcome == .executed
      | .unlock => c.outcome != .executed := by
  unfold Ledger.keeps
  rw [hlatest, Option.bind_some, hcall]
  obtain ⟨opType, opId, holder, amount, outcome⟩ := c
  cases opType <;> rfl

theorem held_settled (ho : pos.opId = none) :
    e.held key pos = if lockKey pos.holder = key ∧ pos.closed = false then pos.amount else 0 := by
  unfold Ledger.held
  rw [ho]
  simp

theorem held_pending {p : StakePosition} (hopen : p.closed = false) :
    e.held key (p.pending o) = if lockKey p.holder = key ∧ e.keeps o = true then p.amount else 0 := by
  simp [Ledger.held, StakePosition.pending, hopen]

theorem held_close {p : StakePosition} : e.held key p.close = 0 := by
  simp [Ledger.held, StakePosition.close]

end Held

section Paired
variable {own : Principal} {b b' : StakeBook} {e : Ledger} {next : Nat} {op : PendingLockOp}

/-- A later call number is as good. -/
theorem Paired.later (h : Paired own b e next) : Paired own b e (next + 1) :=
  {h with
    latest := fun o n hn => Nat.lt_succ_of_lt (h.latest o n hn)
    call := fun n c hc => ⟨(h.call n c hc).1, Nat.lt_succ_of_lt (h.call n c hc).2.1, (h.call n c hc).2.2⟩}

/-- What the pairing reads of the book. -/
theorem Paired.congr (h : Paired own b e next) (hops : b'.pendingLockOps = b.pendingLockOps)
    (hpositions : b'.positions = b.positions) (hcounter : b'.opIdCounter = b.opIdCounter) :
    Paired own b' e next := by
  refine ⟨h.latest, ?_, ?_, ?_, h.holds, h.staking, ?_⟩
  · rw [hcounter]; exact h.call
  · rw [hops]; exact h.unsettled
  · rw [hops]; exact h.op
  · rw [hpositions]; exact h.locks

/-- The call a new operation makes. -/
def callFor (op : PendingLockOp) : TokenCall := ⟨op.opType, op.opId, op.holder, op.amount, .sent⟩

theorem Paired.begins (hk : Kept b) (h : Paired own b e next) (hb : Begins b b' op) :
    Paired own b' (e.send next (callFor op)) (next + 1) := by
  have hid : (callFor op).opId = b.opIdCounter := hb.opId
  have hlatest : ∀ o, o ≠ b.opIdCounter → (e.send next (callFor op)).latest o = e.latest o :=
    fun o ho => Function.update_of_ne (hid ▸ ho) _ _
  have hlatest_new : (e.send next (callFor op)).latest b.opIdCounter = some next := by
    rw [← hid]
    exact Function.update_self _ _ _
  have hcalls : ∀ n, n ≠ next → (e.send next (callFor op)).calls n = e.calls n :=
    fun n hn => Function.update_of_ne hn _ _
  have hcall_new : (e.send next (callFor op)).calls next = some (callFor op) :=
    Function.update_self _ _ _
  refine ⟨fun o n hn => ?_, fun n c hc => ?_, fun n c hc hsent => ?_, fun o op' hop' => ?_,
    h.holds, h.staking, fun key => ?_⟩
  · by_cases ho : o = b.opIdCounter
    · rw [ho, hlatest_new] at hn
      exact Option.some.inj hn ▸ Nat.lt_succ_self _
    · rw [hlatest o ho] at hn
      exact Nat.lt_succ_of_lt (h.latest o n hn)
  · by_cases hn : n = next
    · rw [hn, hcall_new] at hc
      obtain rfl := Option.some.inj hc
      rw [hid, hb.counter, hn]
      exact ⟨hlatest_new, Nat.lt_succ_self _, Nat.lt_succ_self _⟩
    · rw [hcalls n hn] at hc
      obtain ⟨hl, hlt, hold⟩ := h.call n c hc
      rw [hlatest _ (Nat.ne_of_lt hold), hb.counter]
      exact ⟨hl, Nat.lt_succ_of_lt hlt, Nat.lt_succ_of_lt hold⟩
  · by_cases hn : n = next
    · rw [hn, hcall_new] at hc
      obtain rfl := Option.some.inj hc
      exact ⟨op, by rw [hid, hb.ops, if_pos rfl]⟩
    · rw [hcalls n hn] at hc
      obtain ⟨op', hop'⟩ := h.unsettled n c hc hsent
      exact ⟨op', by rw [hb.ops, if_neg (Nat.ne_of_lt (h.call n c hc).2.2)]; exact hop'⟩
  · rw [hb.ops] at hop'
    split at hop'
    · next ho =>
      obtain rfl := Option.some.inj hop'
      exact ⟨next, _, ho ▸ hlatest_new, hcall_new, hid.trans ho.symm, rfl, rfl, rfl⟩
    · next ho =>
      obtain ⟨n, c, hl, hc, hco, hm⟩ := h.op o op' hop'
      exact ⟨n, c, (hlatest o ho).trans hl, (hcalls n (Nat.ne_of_lt (h.latest o n hl))).trans hc, hco, hm⟩
  · -- The positions that were there hold what they held; the new one what it held before.
    have hold : ∀ (a : Nat) (pos : StakePosition), b.positions[a]? = some pos →
        (e.send next (callFor op)).held key pos = e.held key pos := fun a pos hpos =>
      held_congr fun o ho => by
        obtain ⟨op', hop', -⟩ := (hk.position a pos hpos).pending o ho
        have hne : o ≠ b.opIdCounter := Nat.ne_of_lt (hk.op o op' hop').old
        exact keeps_congr (hlatest o hne) fun n hn => hcalls n (Nat.ne_of_lt (h.latest o n hn))
    have hpositions : b'.positions =
        b.positions.insert op.positionId (op.snapshot.pending b.opIdCounter) :=
      Std.ExtTreeMap.ext_getElem? fun a => by rw [hb.positions, StableMap.get_insert_at]
    have hsum := StableMap.sumBy_insert (f := (e.send next (callFor op)).held key) b.positions
      op.positionId (op.snapshot.pending b.opIdCounter)
    rw [StableMap.sumBy_congr hold, held_pending hb.intact.isOpen,
      keeps_of_call hlatest_new hcall_new] at hsum
    have hbefore : (b.positions[op.positionId]?).elim 0 ((e.send next (callFor op)).held key) =
        if lockKey op.snapshot.holder = key ∧
          (match (callFor op).opType with
            | .lock => (callFor op).outcome == .executed
            | .unlock => (callFor op).outcome != .executed) = true then op.snapshot.amount else 0 := by
      rw [hb.before]
      unfold PendingLockOp.before callFor
      cases op.opType with
      | lock => simp
      | unlock => simp [held_settled hb.intact.settled, hb.intact.isOpen]
    rw [hbefore] at hsum
    rw [hpositions]
    exact (Nat.add_right_cancel hsum).trans (h.locks key)

theorem Paired.settles (hk : Kept b) (h : Paired own b e next) {o : Nat} {executed : Bool}
    (hs : Settles b b' o op executed) (hsent : e.Came o (· ≠ .sent))
    (htruth : e.Came o fun outcome => outcome = .executed ↔ executed = true) :
    Paired own b' e next := by
  refine ⟨h.latest, ?_, fun n c hc hout => ?_, fun o' op' hop' => ?_, h.holds, h.staking, fun key => ?_⟩
  · rw [hs.counter]; exact h.call
  · obtain ⟨op', hop'⟩ := h.unsettled n c hc hout
    have hne : c.opId ≠ o := by
      rintro rfl
      exact hsent n c (h.call n c hc).1 hc hout
    exact ⟨op', by rw [hs.ops, if_neg hne]; exact hop'⟩
  · rw [hs.ops] at hop'
    split at hop'
    · cases hop'
    · exact h.op o' op' hop'
  · have hkept := hk.op o op hs.pending
    obtain ⟨n, c, hl, hc, -, hm⟩ := h.op o op hs.pending
    have hexec := htruth n c hl hc
    have hpending : e.held key (op.snapshot.pending o) = (op.after executed).elim 0 (e.held key) := by
      rw [held_pending hkept.intact.isOpen, keeps_of_call hl hc, hm.opType]
      unfold PendingLockOp.after
      cases op.opType <;> cases executed <;>
        simp_all [held_settled hkept.intact.settled, hkept.intact.isOpen, held_close]
    rw [← h.locks key]
    cases hafter : op.after executed with
    | none =>
      have hpositions : b'.positions = b.positions.erase op.positionId :=
        Std.ExtTreeMap.ext_getElem? fun a => by rw [hs.positions, hafter, StableMap.get_erase_at]
      have hsum := StableMap.sumBy_erase (f := e.held key) b.positions op.positionId
      rw [hkept.position, Option.elim_some, hpending, hafter, Option.elim_none] at hsum
      rw [hpositions]
      omega
    | some pos =>
      have hpositions : b'.positions = b.positions.insert op.positionId pos :=
        Std.ExtTreeMap.ext_getElem? fun a => by rw [hs.positions, hafter, StableMap.get_insert_at]
      have hsum := StableMap.sumBy_insert (f := e.held key) b.positions op.positionId pos
      rw [hkept.position, Option.elim_some, hpending, hafter, Option.elim_some] at hsum
      rw [hpositions]
      omega

/-- A call that was sent comes to something, and the token's locks move with it. -/
theorem Paired.concludes (hk : Kept b) (h : Paired own b e next) {n : Nat} {c : TokenCall}
    {t : Token.TokenState} {out : CallOutcome} (hc : e.calls n = some c) (hsent : c.outcome = .sent)
    (hout : out ≠ .sent) (hholds : t.vault.Holds 0) (hstaking : t.stakingCanister = some own)
    (hlocks : ∀ key, t.vault.locks.get key +
        (if lockKey c.holder = key ∧ c.opType = .unlock ∧ out = .executed then c.amount else 0) =
      e.token.vault.locks.get key +
        if lockKey c.holder = key ∧ c.opType = .lock ∧ out = .executed then c.amount else 0) :
    Paired own b {e with token := t
                         calls := Function.update e.calls n (some {c with outcome := out})} next := by
  obtain ⟨hlatest, hlt, hold⟩ := h.call n c hc
  obtain ⟨op, hop⟩ := h.unsettled n c hc hsent
  have hm : Matches c op := by
    obtain ⟨n', c', hl', hc', -, hm⟩ := h.op _ op hop
    obtain rfl := Option.some.inj (hlatest.symm.trans hl')
    exact Option.some.inj (hc'.symm.trans hc) ▸ hm
  have hsame : ∀ n', n' ≠ n → Function.update e.calls n (some {c with outcome := out}) n' = e.calls n' :=
    fun n' hn => Function.update_of_ne hn _ _
  have hnew : Function.update e.calls n (some {c with outcome := out}) n =
      some {c with outcome := out} := Function.update_self _ _ _
  refine ⟨h.latest, fun n' c' hc' => ?_, fun n' c' hc' hs => ?_, fun o op' hop' => ?_, hholds, hstaking,
    fun key => ?_⟩
  · by_cases hn : n' = n
    · subst hn
      obtain rfl := Option.some.inj (hnew.symm.trans hc')
      exact ⟨hlatest, hlt, hold⟩
    · exact h.call n' c' ((hsame n' hn).symm.trans hc')
  · by_cases hn : n' = n
    · subst hn
      obtain rfl := Option.some.inj (hnew.symm.trans hc')
      exact absurd hs hout
    · exact h.unsettled n' c' ((hsame n' hn).symm.trans hc') hs
  · obtain ⟨n', c', hl', hc', ho, hm'⟩ := h.op o op' hop'
    by_cases hn : n' = n
    · subst hn
      obtain rfl := Option.some.inj (hc.symm.trans hc')
      exact ⟨n', _, hl', hnew, ho, hm'.opType, hm'.holder, hm'.amount⟩
    · exact ⟨n', c', hl', (hsame n' hn).trans hc', ho, hm'⟩
  · -- Only the position that awaits this call holds something else than before.
    have hkept := hk.op _ op hop
    have hrest : ∀ (a : Nat) (pos : StakePosition), a ≠ op.positionId → b.positions[a]? = some pos →
        Ledger.held {e with token := t
                            calls := Function.update e.calls n (some {c with outcome := out})} key pos =
          e.held key pos := fun a pos ha hpos => held_congr fun o ho => by
      obtain ⟨op', hop', hpid⟩ := (hk.position a pos hpos).pending o ho
      refine keeps_congr rfl fun n' hl => hsame n' ?_
      rintro rfl
      obtain ⟨n'', c', hl', hc', hco, -⟩ := h.op o op' hop'
      obtain rfl := Option.some.inj (hl'.symm.trans hl)
      obtain rfl := Option.some.inj (hc.symm.trans hc')
      rw [hco] at hop
      obtain rfl := Option.some.inj (hop.symm.trans hop')
      exact ha hpid.symm
    have hsum := StableMap.sumBy_except (g := e.held key) hkept.position hrest
    have hkeeps := keeps_of_call
      (e := {e with token := t
                    calls := Function.update e.calls n (some {c with outcome := out})}) hlatest hnew
    rw [held_pending hkept.intact.isOpen, held_pending hkept.intact.isOpen, keeps_of_call hlatest hc,
      hkeeps, hsent, hkept.intact.holder, hkept.intact.amount, h.locks key] at hsum
    generalize StableMap.sumBy (Ledger.held _ key) b.positions = total at hsum ⊢
    have hmove := hlocks key
    rw [hm.holder, hm.amount] at hmove
    rw [hm.opType] at hsum hmove
    clear hrest hkeeps
    cases hty : op.opType <;> by_cases hex : out = .executed <;> by_cases hkey : lockKey op.holder = key <;>
      simp_all
    omega

theorem outcomeOf_ne_sent (a : Token.Answer) : Ledger.outcomeOf a ≠ .sent := by
  unfold Ledger.outcomeOf
  split <;> nofun

theorem outcomeOf_executed {a : Token.Answer} (h : Ledger.outcomeOf a = .executed) :
    a = .staking (.ok ()) := by
  unfold Ledger.outcomeOf at h
  split at h
  · rfl
  · cases h
  · cases h

/-- What the token makes of a call moves the locks as the call's outcome says. -/
theorem take_locks (own : Principal) (E : Token.Env) (now : Nat) (c : TokenCall) (t : Token.TokenState) (key : Bytes) :
    (Token.step E ⟨now, own, c.call⟩ t).2.vault.locks.get key +
        (if lockKey c.holder = key ∧ c.opType = .unlock ∧
          Ledger.outcomeOf (Token.step E ⟨now, own, c.call⟩ t).1 = .executed then c.amount else 0) =
      t.vault.locks.get key +
        if lockKey c.holder = key ∧ c.opType = .lock ∧
          Ledger.outcomeOf (Token.step E ⟨now, own, c.call⟩ t).1 = .executed then c.amount else 0 := by
  by_cases hex : Ledger.outcomeOf (Token.step E ⟨now, own, c.call⟩ t).1 = .executed
  · have hok := outcomeOf_executed hex
    simp only [hex, and_true]
    obtain ⟨opType, opId, holder, amount, outcome⟩ := c
    cases opType with
    | lock =>
      have hmove := Token.lock_moves hok key
      simpa [lockKey, TokenCall.call] using hmove
    | unlock =>
      have hmove := Token.unlock_moves hok key
      simpa [lockKey, TokenCall.call] using hmove
  · have hsame : (Token.step E ⟨now, own, c.call⟩ t).2 = t := by
      have hfail : (Token.step E ⟨now, own, c.call⟩ t).1 ≠ .staking (.ok ()) := fun hok =>
        hex (by rw [hok]; rfl)
      obtain ⟨opType, opId, holder, amount, outcome⟩ := c
      cases opType with
      | lock => exact Token.staking_refused (Token.atomic_lockForStaking _ _ _) hfail
      | unlock => exact Token.staking_refused (Token.atomic_unlockFromStaking _ _ _) hfail
    simp [hsame, hex]

/-- However the token moves, its locks stay what the positions say. -/
theorem Paired.moves (hk : Kept b) (h : Paired own b e next) {E : Token.Env} {e' : Ledger}
    (hm : Ledger.Moves E own e e') : Paired own b e' next := by
  cases hm with
  | @take n now c hc hsent =>
    refine h.concludes hk hc hsent (outcomeOf_ne_sent _) (Token.does_holds h.holds (Token.does_step _ _ _))
      ((Token.does_stakingCanister (Token.does_step _ _ _)).trans h.staking) (take_locks own E now c _)
  | drop hc hsent =>
    refine h.concludes hk hc hsent nofun h.holds h.staking fun key => ?_
    simp
  | other hcaller =>
    refine ⟨h.latest, h.call, h.unsettled, h.op, Token.does_holds h.holds (Token.does_step _ _ _),
      (Token.does_stakingCanister (Token.does_step _ _ _)).trans h.staking, fun key => ?_⟩
    show StableMap.sumBy (e.held key) b.positions = _
    rw [Token.step_locks h.staking hcaller]
    exact h.locks key

/-! ### The weights fit -/

/-- Positions whose amounts the token holds weigh no more together than their number allows. -/
theorem weights_fit (positions : StableMap Nat StakePosition) {n : Nat}
    (hold : ∀ (a : Nat) (pos : StakePosition), positions[a]? = some pos → a < n ∧
      2 * pos.votingWeight ≤ 5 * pos.amount ∧
        (pos.votingWeight ≠ 0 → pos.opId = none ∧ pos.closed = false))
    (hroom : n ≤ u64Max) (hholds : e.token.vault.Holds 0)
    (hlocks : ∀ key, StableMap.sumBy (e.held key) positions = e.token.vault.locks.get key) :
    StableMap.sumBy StakePosition.votingWeight positions ≤ u128Max := by
  have hweight : ∀ (a : Nat) (pos : StakePosition), positions[a]? = some pos →
      pos.votingWeight ≤ 5 * Token.totalSupply := fun a pos hpos => by
    obtain ⟨-, hle, hactive⟩ := hold a pos hpos
    by_cases h0 : pos.votingWeight = 0
    · omega
    · obtain ⟨hid, hopen⟩ := hactive h0
      have hheld := StableMap.le_sumBy (f := e.held (lockKey pos.holder)) hpos
      rw [held_settled hid, if_pos ⟨rfl, hopen⟩, hlocks] at hheld
      have hcov := hholds.covered (lockKey pos.holder)
      have hbal := hholds.balances.get_le (lockKey pos.holder)
      have hsupply := hholds.supply
      omega
  have hsize := StableMap.size_le_of_lt fun a pos hpos => (hold a pos hpos).1
  have hsum := StableMap.sumBy_le_size hweight
  have hmul := Nat.mul_le_mul_right (5 * Token.totalSupply) (Nat.le_trans hsize hroom)
  have hcap : u64Max * (5 * Token.totalSupply) ≤ u128Max := by decide
  omega

end Paired

end StshProtocol.Staking
