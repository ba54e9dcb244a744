import StshProtocol.Token.LedgerMaps
import StshProtocol.Token.Allowances
import StshProtocol.Foundation.Handler

/-! `TRANSFER_DEDUP`, its time index, and the identities recorded in it.

A request that carries a time is recorded under a digest of its caller and arguments
when it succeeds, and the record is kept for as long as the window check would still
admit the request: pruning starts where the window ends (`RecordedOrOld`). -/
namespace StshProtocol.Token
open Foundation ShieldedPool

/-! ### Identities -/

/-- `hash_len_prefixed`: what is hashed for a field of varying length. -/
def lenPrefixed (bytes : Bytes) : Bytes := Bytes.toLe 4 bytes.length ++ bytes

/-- `BigUint::to_bytes_be`: no leading zeros, and one byte for zero. -/
def toBytesBe (n : Nat) : Bytes := Bytes.toBe (n.log2 / 8 + 1) n

/-- An optional number: a presence byte and a fixed-width value. -/
def optLe (width : Nat) (n : Option Nat) : Bytes :=
  match n with
  | some v => 1 :: Bytes.toLe width v
  | none => 0 :: Bytes.toLe width 0

/-- The fee as hashed; one that is no `u128` is hashed as zero. -/
def feeBytes (fee : Option Nat) : Bytes := optLe 16 (fee.map fun f => (toU128 f).getD 0)

def memoBytes (memo : Option Bytes) : Bytes := lenPrefixed (memo.getD [])

def transferFromDedupKey (E : Env) (source spender dest : Account) (amount : Nat)
    (fee : Option Nat) (memo : Option Bytes) (createdAtTime : Nat) : Bytes32 :=
  E.sha256 (lenPrefixed (tag "stsh.icrc2_transfer_from.dedup.v1") ++ lenPrefixed source.encodeKey ++
    lenPrefixed spender.encodeKey ++ lenPrefixed dest.encodeKey ++ Bytes.toLe 16 amount ++
    feeBytes fee ++ memoBytes memo ++ Bytes.toLe 8 createdAtTime)

def transferDedupKey (E : Env) (source dest : Account) (amount : Nat) (fee : Option Nat)
    (memo : Option Bytes) (createdAtTime : Nat) : Bytes32 :=
  E.sha256 (lenPrefixed (tag "stsh.icrc1_transfer.dedup.v1") ++ lenPrefixed source.encodeKey ++
    lenPrefixed dest.encodeKey ++ Bytes.toLe 16 amount ++ feeBytes fee ++ memoBytes memo ++
    Bytes.toLe 8 createdAtTime)

def approveDedupKey (E : Env) (source : Account) (args : ApproveArgs) (createdAtTime : Nat) : Bytes32 :=
  E.sha256 (lenPrefixed (tag "stsh.icrc2_approve.dedup.v1") ++ lenPrefixed source.encodeKey ++
    lenPrefixed args.spender.encodeKey ++ lenPrefixed (toBytesBe args.amount) ++
    optLe 16 (args.expectedAllowance.map fun e => (toU128 e).getD u128Max) ++
    optLe 8 args.expiresAt ++ feeBytes args.fee ++ memoBytes args.memo ++ Bytes.toLe 8 createdAtTime)

/-! ### The maps -/

/-- `encode_dedup_value`. -/
structure DedupValue where
  blockIndex : Nat
  createdAt : Nat
  deriving DecidableEq, Repr

namespace DedupValue

def stamp (v : DedupValue) : Option Nat := some v.createdAt

end DedupValue

/-- `TRANSFER_DEDUP` and `TRANSFER_DEDUP_BY_TIME`. -/
abbrev Dedup : Type := Timed Bytes32 DedupValue

/-- Everything created before the window that ends at `now`. -/
def dedupBound (now : Nat) : TimeKey Bytes32 := ⟨now - txDedupWindowNs, 0⟩

def pruneExpiredDedup (now : Nat) (b : Dedup) : Dedup :=
  b.drop (b.due (some (dedupBound now)) maxPrunePerCall)

/-- `record_dedup_at`: the single writer of both maps. -/
def recordDedup (now : Nat) (key : Bytes32) (blockIndex createdAt : Nat) (b : Dedup) : Dedup :=
  let pruned := pruneExpiredDedup now b
  ⟨pruned.rows.insert key ⟨blockIndex, createdAt⟩, pruned.byTime.insert ⟨createdAt, key⟩ ()⟩

/-- The window check: neither created in the future, beyond the drift, nor too old.
The sum of the clock and the drift is a `u64` that must not overflow. -/
inductive WindowCheck where
  | admitted
  | createdInFuture
  | tooOld
  | overflow
  deriving DecidableEq, Repr

def windowCheck (now createdAt : Nat) : WindowCheck :=
  if u64Max < now + permittedDriftNs then
    .overflow
  else if createdAt > now + permittedDriftNs then
    .createdInFuture
  else if now - createdAt > txDedupWindowNs then
    .tooOld
  else
    .admitted

/-! ### Exactness and retention -/

variable {b : Dedup} {key : Bytes32} {now : Nat}

theorem not_lt_zero (k : Bytes32) : compare k (0 : Bytes32) ≠ .lt := by
  show compareOfLessAndEq k 0 ≠ .lt
  unfold compareOfLessAndEq
  rw [if_neg (show ¬ k < (0 : Bytes32) from BitVec.not_lt_zero)]
  split <;> nofun

theorem before_dedupBound_iff (e : TimeKey Bytes32) (now : Nat) :
    (∀ u ∈ some (dedupBound now), compare e u = .lt) ↔ e.time < now - txDedupWindowNs := by
  simp only [Option.mem_def, Option.some.injEq, forall_eq', dedupBound]
  exact TimeKey.lt_bound_iff not_lt_zero e _

theorem exact_prune (h : b.Exact DedupValue.stamp) : (pruneExpiredDedup now b).Exact DedupValue.stamp :=
  h.drop fun _ he => Timed.mem_byTime_of_due he

/-- Pruning takes no row away that the window check would admit at any time from now on. -/
theorem prune_keeps (h : b.Exact DedupValue.stamp) {v : DedupValue} (hv : b.rows[key]? = some v)
    (hwindow : now ≤ v.createdAt + txDedupWindowNs) : (pruneExpiredDedup now b).rows[key]? = some v := by
  unfold pruneExpiredDedup
  rw [Timed.rows_drop, if_neg]
  · exact hv
  · intro hk
    obtain ⟨e, he, rfl⟩ := List.mem_map.1 hk
    have ht := h.time_of_row hv (Timed.mem_byTime_of_due he)
    have hlt := (before_dedupBound_iff e now).1 (Timed.before_of_due he)
    have htime : v.createdAt = e.time := Option.some.inj ht
    omega

theorem prune_none (hv : b.rows[key]? = none) : (pruneExpiredDedup now b).rows[key]? = none := by
  unfold pruneExpiredDedup
  rw [Timed.rows_drop]
  split
  · rfl
  · exact hv

theorem prune_some {v : DedupValue} (hv : (pruneExpiredDedup now b).rows[key]? = some v) :
    b.rows[key]? = some v := by
  unfold pruneExpiredDedup at hv
  rw [Timed.rows_drop] at hv
  split at hv
  · cases hv
  · exact hv

theorem exact_record (h : b.Exact DedupValue.stamp) (hkey : b.rows[key]? = none) {n t : Nat} :
    (recordDedup now key n t b).Exact DedupValue.stamp :=
  (exact_prune h).insert (prune_none hkey) rfl

theorem recordDedup_rows (now : Nat) (key : Bytes32) (n t : Nat) (b : Dedup) (k : Bytes32) :
    (recordDedup now key n t b).rows[k]? =
      if key = k then some ⟨n, t⟩ else (pruneExpiredDedup now b).rows[k]? :=
  StableMap.get_insert _ _ _ _

/-- The record of a request stands, or the request is too old to be admitted again. -/
def RecordedOrOld (now : Nat) (key : Bytes32) (v : DedupValue) (b : Dedup) : Prop :=
  b.rows[key]? = some v ∨ v.createdAt + txDedupWindowNs < now

theorem RecordedOrOld.prune {v : DedupValue} (h : RecordedOrOld now key v b)
    (hexact : b.Exact DedupValue.stamp) : RecordedOrOld now key v (pruneExpiredDedup now b) := by
  rcases h with hv | hold
  · by_cases hwindow : now ≤ v.createdAt + txDedupWindowNs
    · exact .inl (prune_keeps hexact hv hwindow)
    · exact .inr (by omega)
  · exact .inr hold

theorem RecordedOrOld.later {v : DedupValue} {later : Nat} (h : RecordedOrOld now key v b)
    (hle : now ≤ later) : RecordedOrOld later key v b :=
  h.imp id fun hold => by omega

/-- Recording another request keeps the record. -/
theorem RecordedOrOld.record {v : DedupValue} (h : RecordedOrOld now key v b)
    (hexact : b.Exact DedupValue.stamp) {k : Bytes32} {n t : Nat} (hk : b.rows[k]? = none) :
    RecordedOrOld now key v (recordDedup now k n t b) := by
  rcases h.prune hexact with hv | hold
  · refine .inl ?_
    rw [recordDedup_rows, if_neg, hv]
    rintro rfl
    rw [prune_none hk] at hv
    nomatch hv
  · exact .inr hold

/-- A request whose record stands or is too old is not admitted to execution. -/
theorem RecordedOrOld.refused {v : DedupValue} (h : RecordedOrOld now key v b)
    (hwindow : windowCheck now v.createdAt = .admitted) : b.rows[key]? = some v := by
  refine h.resolve_right fun hold => ?_
  unfold windowCheck at hwindow
  split at hwindow
  · nomatch hwindow
  · split at hwindow
    · nomatch hwindow
    · split at hwindow
      · nomatch hwindow
      · omega

end StshProtocol.Token

/-! The state of the token canister, and the steps its endpoints are made of.

No endpoint awaits, so each is one `Handler`: its checks and writes in the order of
the source, where an error answered after a write would commit that write. -/
namespace StshProtocol.Token
open Foundation ShieldedPool Handler

/-- The durable evidence of a deposit operation: executed, or fenced off. -/
inductive DepositReceiptV1 where
  | applied (blockIndex amount feeCharged : Nat) (requestHash : Bytes32) (appliedAtNs : Nat)
  | cancelled (requestHash : Bytes32) (closedAtNs : Nat)
  deriving DecidableEq, Repr

def DepositReceiptV1.requestHash : DepositReceiptV1 → Bytes32
  | .applied _ _ _ requestHash _ => requestHash
  | .cancelled requestHash _ => requestHash

/-- The checkpoint `pre_upgrade` serialises. -/
structure TokenStableState where
  stateVersion : Nat
  blockHeight : Nat
  transferFee : Nat
  feeReserve : Nat
  mintDone : Bool
  treasury : Principal
  stakingCanister : Principal
  feeCollector : Option Principal
  sumBalances : Option Nat
  sumStakingLocks : Option Nat
  poolCanister : Option Principal

/-- Stable memory and heap. -/
structure TokenState where
  vault : Vault
  allowances : Allowances
  dedup : Dedup
  receipts : StableMap Bytes32 DepositReceiptV1
  checkpoint : Option TokenStableState
  blockHeight : Nat
  transferFee : Nat
  mintDone : Bool
  treasury : Option Principal
  feeCollector : Option Principal
  stakingCanister : Option Principal
  poolCanister : Option Principal

abbrev Endpoint (ε α : Type) : Type := Handler Trap TokenState ε α

variable {ε : Type}

/-! ### Reads and checks -/

def getBalance (key : Bytes) : Endpoint ε Nat := read fun s => s.vault.balances.get key

def getLock (key : Bytes) : Endpoint ε Nat := read fun s => s.vault.locks.get key

/-- A fee given must be the fee in force. -/
def feeAccepted (provided : Option Nat) (fee : Nat) : Bool :=
  match provided with
  | some p => toU128 p == some fee
  | none => true

/-- What comes of a window check. -/
def windowAnswer (check : WindowCheck) (createdInFuture tooOld : ε) : Endpoint ε Unit :=
  match check with
  | .admitted => pure ()
  | .createdInFuture => fail createdInFuture
  | .tooOld => fail tooOld
  | .overflow => trap .arithmeticOverflow

/-- The window check of a request that carries a time. -/
def checkWindow (now : Nat) (createdAtTime : Option Nat) (createdInFuture tooOld : ε) :
    Endpoint ε Unit :=
  match createdAtTime with
  | none => pure ()
  | some t => windowAnswer (windowCheck now t) createdInFuture tooOld

/-- The lookup of a request that carries a time: a recorded one is a duplicate. -/
def checkDuplicate (createdAtTime : Option Nat) (key : Nat → Bytes32) (duplicate : Nat → ε) :
    Endpoint ε (Option (Bytes32 × Nat)) :=
  match createdAtTime with
  | none => pure none
  | some t => do
    let found ← read fun s => s.dedup.rows[key t]?
    refuseSome (found.map fun v => duplicate v.blockIndex)
    pure (some (key t, t))

def assertStakingCanister (caller : Principal) : Endpoint ε Unit := do
  let configured ← read fun s => s.stakingCanister
  let staking ← expect configured .stakingCanisterNotConfigured
  assert (caller = staking) .notStakingCanister

/-! ### Writes -/

def writeBalance (key : Bytes) (old new : Nat) : Endpoint ε Unit := do
  let v ← read fun s => s.vault
  let v' ← expect (v.writeBalance key old new) .runningTotal
  write fun s => {s with vault := v'}

def writeLock (key : Bytes) (old new : Nat) : Endpoint ε Unit := do
  let v ← read fun s => s.vault
  let v' ← expect (v.writeLock key old new) .runningTotal
  write fun s => {s with vault := v'}

/-- The fee goes to the fee collector, else to the treasury, else to the reserve. -/
def feeRecipient (s : TokenState) : Option Principal := s.feeCollector.or s.treasury

def routeFeeToTreasury (fee : Nat) : Endpoint ε Unit := do
  let recipient ← read feeRecipient
  let v ← read fun s => s.vault
  let v' ← expect (v.routeFee recipient fee) .runningTotal
  write fun s => {s with vault := v'}

def nextBlock : Endpoint ε Nat := do
  let n ← read fun s => s.blockHeight
  assert (n + 1 ≤ u64Max) .arithmeticOverflow
  write fun s => {s with blockHeight := n + 1}
  pure (n + 1)

def writeAllowances (f : Allowances → Allowances) : Endpoint ε Unit :=
  write fun s => {s with allowances := f s.allowances}

/-- `record_dedup`, for a request that carries a time. -/
def recordDedupKey (now : Nat) (dedupKey : Option (Bytes32 × Nat)) (block : Nat) :
    Endpoint ε Unit :=
  match dedupKey with
  | some (key, createdAt) => write fun s => {s with dedup := recordDedup now key block createdAt s.dedup}
  | none => pure ()

end StshProtocol.Token
