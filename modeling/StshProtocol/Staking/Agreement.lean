import StshProtocol.Staking.Runs

/-! Stakes, the token's locks and the voting weight.

While assertions are true and replies are timely the three agree, and every operation ends
once. A confirmation that comes after its operation was reconciled counts its weight again. -/
namespace StshProtocol.Staking
open Foundation ShieldedPool Handler

/-! ### Agreement -/

/-- The amount of a holder's open positions; a holder is known by its row at the token. -/
def openAmount (b : StakeBook) (holder : Principal) : Nat :=
  StableMap.sumBy (fun pos : StakePosition =>
    if lockKey pos.holder = lockKey holder ∧ pos.closed = false then pos.amount else 0) b.positions

/-- No operation of this holder is pending. -/
def Resolved (b : StakeBook) (holder : Principal) : Prop :=
  ∀ (o : Nat) (op : PendingLockOp), b.pendingLockOps[o]? = some op → lockKey op.holder ≠ lockKey holder

structure Agrees (w : StakingWorld) : Prop where
  mirror : w.state.book.votingWeightCell = ⟨true, w.state.book.totalVotingWeight⟩
  weight : w.state.book.totalVotingWeight = backfilledWeight w.state.book
  locks : ∀ holder, Resolved w.state.book holder →
    Token.stakingLockedBalance w.env.token holder = openAmount w.state.book holder
  dedup : ∀ (p q : Nat) (pos pos' : StakePosition) (key : DedupKey),
    w.state.book.positions[p]? = some pos → w.state.book.positions[q]? = some pos' →
      w.state.book.stakedUnder p = some key → w.state.book.stakedUnder q = some key → p = q

section Agreement
variable {D : Deployment} {E : Token.Env} {own : Principal} {w w' : StakingWorld}

/-- Of a holder whose operations are resolved the token holds the open positions. -/
theorem Coherent.locked (h : Coherent own w) {holder : Principal} (hres : Resolved w.state.book holder) :
    Token.stakingLockedBalance w.env.token holder = openAmount w.state.book holder := by
  rw [Token.stakingLockedBalance]
  refine (h.paired.locks (lockKey holder)).symm.trans (StableMap.sumBy_congr fun p pos hpos => ?_)
  cases ho : pos.opId with
  | none => exact held_settled ho
  | some o =>
    obtain ⟨op, hop, hid⟩ := (h.kept.position p pos hpos).pending o ho
    have hkept := h.kept.op o op hop
    have hsame : pos = op.snapshot.pending o :=
      Option.some.inj ((hid ▸ hpos).symm.trans hkept.position)
    have hholder : pos.holder = op.holder := by
      rw [hsame]
      exact hkept.intact.holder
    have hne := hres o op hop
    rw [← hholder] at hne
    unfold Ledger.held
    rw [if_neg fun hc => hne hc.1, if_neg fun hc => hne hc.1]

theorem Coherent.agrees (h : Coherent own w) : Agrees w where
  mirror := h.kept.weightCell
  weight := h.weighed.active h.kept
  locks _ hres := h.locked hres
  dedup _ _ _ _ _ hp hq hpk hqk := h.kept.dedup_unique hp hq hpk hqk

/-- The runs that go on from a state. -/
def onward (D : Deployment) (E : Token.Env) (own : Principal) (w : StakingWorld) :
    System StakingWorld (Event Input Reply) := ⟨fun v => v = w, (system D E own).step⟩

/-- An operation that has ended is not pending again. -/
theorem spent_run (hw : Coherent own w) {o : Nat} (hold : o < w.state.book.opIdCounter)
    (hgone : w.state.book.pendingLockOps[o]? = none)
    (run : (onward D E own w).RunIf (fun w a => Truthful w a ∧ Timely w a) w') :
    Coherent own w' ∧ o < w'.state.book.opIdCounter ∧ w'.state.book.pendingLockOps[o]? = none := by
  induction run with
  | start h =>
    obtain rfl := h
    exact ⟨hw, hold, hgone⟩
  | step _ hok hstep ih =>
    obtain ⟨hv, hlt, hnone⟩ := ih
    have hsteps := hv.step hok.1 hok.2 hstep
    exact ⟨hsteps.coherent, hsteps.turn.spent hlt hnone⟩

/-- In the runs whose assertions are true and whose replies are timely, the stakes, the locks
and the weight agree in every state; a step begins an operation, ends one as the token decided
it, or leaves positions and weight alone; and an operation that has ended never returns. -/
theorem stakes_agree (D : Deployment) (E : Token.Env) (own : Principal) (w : StakingWorld)
    (run : (system D E own).RunIf (fun w a => Truthful w a ∧ Timely w a) w) :
    Agrees w ∧
    (∀ a w', Truthful w a → Timely w a → (system D E own).step w a w' →
      Turn w.env w.state.book w'.state.book) ∧
    ∀ o, o < w.state.book.opIdCounter → w.state.book.pendingLockOps[o]? = none →
      ∀ w', (onward D E own w).RunIf (fun w a => Truthful w a ∧ Timely w a) w' →
        w'.state.book.pendingLockOps[o]? = none := by
  have h := coherent_run run
  exact ⟨h.agrees, fun _ _ htruth htimely hstep => (h.step htruth htimely hstep).turn,
    fun _ hold hgone _ honward => (spent_run h hold hgone honward).2.2⟩

end Agreement

/-! ### Two runs -/

namespace Ledger

/-- How the token's part is played. -/
inductive Play where
  | take (n now : Nat)
  | drop (n : Nat)

def play (E : Token.Env) (own : Principal) : Play → Ledger → Option Ledger
  | .take n now, e => (e.calls n).bind fun c =>
    if c.outcome = .sent then some (e.take E own now n c) else none
  | .drop n, e => (e.calls n).bind fun c => if c.outcome = .sent then some (e.drop n c) else none

theorem play_moves {E : Token.Env} {own : Principal} {m : Play} {e e' : Ledger}
    (h : e.play E own m = some e') : Moves E own e e' := by
  cases m <;>
  · obtain ⟨c, hc, h⟩ := Option.bind_eq_some_iff.1 h
    split at h
    · next hsent =>
      cases h
      first
      | exact .take hc hsent
      | exact .drop hc hsent
    · cases h

def answers (n : Nat) (r : Reply) (e : Ledger) : Bool :=
  (e.calls n).all fun c =>
    match c.outcome, r with
    | _, .rejected _ => true
    | .executed, .result (.ok ()) => true
    | .refused m, .result (.error m') => m == m'
    | _, _ => false

theorem answers_ok {n : Nat} {r : Reply} {e : Ledger} (h : e.answers n r = true) : e.Answers n r := by
  intro c hc
  rw [answers, hc, Option.all_some] at h
  split at h
  · exact .inl ⟨_, rfl⟩
  · next hout => exact .inr (.inl ⟨hout, rfl⟩)
  · next m m' hout =>
    rw [beq_iff_eq] at h
    exact .inr (.inr ⟨m, hout, h ▸ rfl⟩)
  · cases h

/-- What became of the last call of an operation. -/
def last (e : Ledger) (o : Nat) : Option CallOutcome :=
  ((e.latest o).bind e.calls).map TokenCall.outcome

theorem came_of_last {e : Ledger} {o : Nat} {P : CallOutcome → Prop} {p : CallOutcome → Bool}
    (hp : ∀ out, p out = true → P out) (h : (e.last o).all p = true) : e.Came o P := by
  intro n c hl hc
  rw [last, hl, Option.bind_some, hc] at h
  exact hp _ h

end Ledger

def player (E : Token.Env) (own : Principal) : Player (callees E own) Ledger.Play where
  take n q e := e.accept n q
  take_ok _ _ _ := rfl
  answers := Ledger.answers
  answers_ok _ _ _ := Ledger.answers_ok
  play := Ledger.play E own
  play_ok _ _ _ := Ledger.play_moves

/-- Is the assertion true? -/
def truthfulCheck (w : StakingWorld) : Event Input Reply → Bool
  | .call (.reconcileLock _ opId decision) | .call (.reconcileUnlock _ opId decision) =>
    (w.env.last opId).all fun out => decide (out = .executed ↔ decision = .executed)
  | _ => true

theorem truthfulCheck_ok (w : StakingWorld) (a : Event Input Reply) (h : truthfulCheck w a = true) :
    Truthful w a := by
  cases a with
  | call i =>
    cases i with
    | reconcileLock _ opId decision => exact Ledger.came_of_last (fun _ => of_decide_eq_true) h
    | reconcileUnlock _ opId decision => exact Ledger.came_of_last (fun _ => of_decide_eq_true) h
    | _ => trivial
  | _ => trivial

/-- Enough for a step to be timely: a reply finds its operation pending. -/
def timelyCheck (w : StakingWorld) : Event Input Reply → Bool
  | .reply n _ =>
    match w.tasks n with
    | some (.lock t) => (w.state.book.pendingLockOps[t.opId]?).isSome
    | some (.unlock t) => (w.state.book.pendingLockOps[t.opId]?).isSome
    | _ => true
  | .call (.reconcileLock _ opId _) | .call (.reconcileUnlock _ opId _) =>
    (w.env.last opId).all fun out => decide (out ≠ .sent)
  | .call (.stake _ _ _ _) | .call (.unstake _ _) => decide (w.state.book.opIdCounter < u64Max)
  | _ => true

theorem timelyCheck_ok (w : StakingWorld) (a : Event Input Reply) (h : timelyCheck w a = true) :
    Timely w a := by
  cases a with
  | call i =>
    cases i with
    | reconcileLock _ opId decision => exact Ledger.came_of_last (fun _ => of_decide_eq_true) h
    | reconcileUnlock _ opId decision => exact Ledger.came_of_last (fun _ => of_decide_eq_true) h
    | stake caller amount lockDays key =>
      have hlt : w.state.book.opIdCounter < u64Max := of_decide_eq_true h
      exact hlt
    | unstake caller positionId =>
      have hlt : w.state.book.opIdCounter < u64Max := of_decide_eq_true h
      exact hlt
    | _ => trivial
  | reply n r =>
    cases hk : w.tasks n with
    | none => simp only [Timely, hk]
    | some k =>
      simp only [Timely, timelyCheck, hk] at h ⊢
      cases k with
      | lock t => exact .inl (Option.isSome_iff_exists.1 h)
      | unlock t => exact .inl (Option.isSome_iff_exists.1 h)
      | execute t => trivial
  | _ => trivial

section Sample

/-- A principal of one byte. -/
def samplePrincipal (n : Nat) : Principal := (1#240 <<< 232) + (BitVec.ofNat 240 n <<< 224)

/-- The whole supply is one holder's, and the token names the staking canister. -/
def sampleGenesis : Token.InitArgs where
  allocations := [⟨"treasury", "Treasury", Token.totalSupply, samplePrincipal 7, none⟩]
  treasury := samplePrincipal 7
  stakingCanister := samplePrincipal 8
  feeCollector := some (samplePrincipal 7)
  poolCanister := some (samplePrincipal 9)

def sampleToken : Token.TokenState :=
  match (Token.init sampleGenesis).exec (Token.TokenState.fresh 0) with
  | .ok (_, s) => s
  | .error _ => Token.TokenState.fresh 0

theorem sampleToken_exec :
    (Token.init sampleGenesis).exec (Token.TokenState.fresh 0) = .ok (.ok (), sampleToken) := by
  obtain ⟨v, hs, -⟩ := Token.init_exec sampleGenesis 0 (by decide)
  rw [sampleToken, hs]

def sampleArgs : InitArgs where
  refs := ⟨samplePrincipal 1, samplePrincipal 9, samplePrincipal 2⟩
  initialRewardsPool := 0
  initialEmissionRatePerDay := 0
  governanceParams := none

def sampleStaking : StakingState :=
  match (init 0 sampleArgs).exec .fresh with
  | .ok (_, s) => s
  | .error _ => .fresh

def sampleWorld : StakingWorld where
  now := 0
  state := sampleStaking
  env := ⟨sampleToken, fun _ => none, fun _ => none⟩
  tasks := fun _ => none
  next := 0

theorem sampleWorld_installed : Installed Token.plainEnv (samplePrincipal 8) sampleWorld where
  state := ⟨sampleArgs, by rfl⟩
  token := ⟨0, sampleGenesis, [], .genesis sampleToken_exec⟩
  staking := rfl
  locks key := by
    have hholds : sampleToken.vault.Holds 0 :=
      (Token.History.genesis (E := Token.plainEnv) sampleToken_exec).holds
    have hle := hholds.locks.get_le key
    have hsum : sampleToken.vault.locks.sum = 0 := by decide +kernel
    exact Nat.le_zero.1 (hsum ▸ hle)
  calls := rfl
  latest := rfl
  tasks := rfl

def sampleDeployment : Deployment := ⟨"undecodable"⟩

/-- A stake of ninety days that the token locks. -/
def sampleStake : List (Move Input Reply Ledger.Play) :=
  [.call (.stake (samplePrincipal 7) 1000 90 [1]), .elsewhere (.take 0 0)]

/-- The stake is confirmed. -/
def sampleConfirmed : Option StakingWorld :=
  (player Token.plainEnv (samplePrincipal 8)).run (canister sampleDeployment)
    (fun w a => truthfulCheck w a && timelyCheck w a) sampleWorld
    (sampleStake ++ [.reply 0 (.result (.ok ()))])

theorem sampleConfirmed_weight :
    (sampleConfirmed.map fun w => w.state.book.totalVotingWeight) = some 1250 := by
  decide +kernel

theorem stakes_agree_confirmed : ∃ w, w.state.book.totalVotingWeight = 1250 ∧ Agrees w := by
  obtain ⟨w, hw, hx⟩ := Option.map_eq_some_iff.1 sampleConfirmed_weight
  refine ⟨w, hx, (stakes_agree sampleDeployment Token.plainEnv (samplePrincipal 8) w ?_).1⟩
  refine Player.run_runIf (fun w a h => ?_) (.start sampleWorld_installed) hw
  rw [Bool.and_eq_true] at h
  exact ⟨truthfulCheck_ok w a h.1, timelyCheck_ok w a h.2⟩

/-- A controller truthfully asserts that the lock was carried out, and then the token's own
answer reaches the suspended stake. -/
def sampleTwice : Option StakingWorld :=
  (player Token.plainEnv (samplePrincipal 8)).run (canister sampleDeployment) truthfulCheck sampleWorld
    (sampleStake ++ [.call (.reconcileLock true 1 .executed), .reply 0 (.result (.ok ()))])

theorem sampleTwice_weight :
    (sampleTwice.map fun w => (w.state.book.totalVotingWeight, backfilledWeight w.state.book)) =
      some (2500, 1250) := by
  decide +kernel

/-- A late confirmation doubles the weight of one position. -/
theorem weight_twice : ∃ w,
    (system sampleDeployment Token.plainEnv (samplePrincipal 8)).RunIf Truthful w ∧
      w.state.book.totalVotingWeight = 2500 ∧ backfilledWeight w.state.book = 1250 ∧ ¬Agrees w := by
  obtain ⟨w, hw, hx⟩ := Option.map_eq_some_iff.1 sampleTwice_weight
  obtain ⟨htotal, hactive⟩ := Prod.mk.inj hx
  refine ⟨w, Player.run_runIf truthfulCheck_ok (.start sampleWorld_installed) hw, htotal, hactive,
    fun h => ?_⟩
  have hweight := h.weight
  rw [htotal, hactive] at hweight
  cases hweight

end Sample

end StshProtocol.Staking
