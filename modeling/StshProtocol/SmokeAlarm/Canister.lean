import StshProtocol.Foundation.Canister
import StshProtocol.SmokeAlarm.Snapshot

/-! The monitor: a refresh owns a guard while it awaits its four sources one after the
other, and commits one snapshot at the end, whatever came back. -/
namespace StshProtocol.SmokeAlarm
open Foundation ShieldedPool

def poolAttestationSchema : Nat := 1

def maxHistoryCapacity : Nat := 4096

def minRefreshIntervalNs : Nat := 1000000000

def manualRefreshMinGapNs : Nat := 60 * 1000000000

def refreshGuardExpiryNs : Nat := 5 * 60 * 1000000000

structure MonitorInit where
  tokenCanister : Principal
  poolPrincipal : Principal
  treasuryPrincipal : Principal
  poolAttestationSource : Principal
  refreshIntervalNs : Nat
  maxStalenessNs : Nat
  historyCapacity : Nat
  deriving DecidableEq, Repr

structure RefreshOwner where
  generation : Nat
  sampleStartedAtNs : Nat
  deriving DecidableEq, Repr

/-- The state, which exists from `init` on. `leaf` is what the certified tree holds under its
one key, `commits` lists every snapshot a refresh committed, the first one first: no code
reads it. -/
structure MonitorState where
  config : MonitorInit
  snapshot : SolvencySnapshot
  history : List SolvencySnapshot
  leaf : Bytes
  certifiedData : Bytes32
  refreshOwner : Option RefreshOwner
  nextRefreshGeneration : Nat
  lastRefreshAttemptNs : Nat
  commits : List SolvencySnapshot

/-- What the monitor takes from elsewhere: the root hash of a tree of one leaf. -/
structure Deployment where
  rootHash : Bytes → Bytes32

/-! ### Helpers -/

/-- `checked_add(1)` on the generation. -/
def nextGeneration (n : Nat) : Option Nat := if n < u64Max then some (n + 1) else none

/-- The guard's owner may not be replaced yet. -/
def GuardHeld (now : Nat) : Option RefreshOwner → Prop
  | some owner => now - owner.sampleStartedAtNs < refreshGuardExpiryNs
  | none => False

instance (now : Nat) : (owner : Option RefreshOwner) → Decidable (GuardHeld now owner)
  | some _ => inferInstanceAs (Decidable (_ < _))
  | none => inferInstanceAs (Decidable False)

def acquireRefreshOwner (now : Nat) (s : MonitorState) : Option (RefreshOwner × MonitorState) :=
  if GuardHeld now s.refreshOwner then none
  else
    (nextGeneration s.nextRefreshGeneration).map fun generation =>
      let owner : RefreshOwner := ⟨generation, now⟩
      (owner, {s with nextRefreshGeneration := generation, refreshOwner := some owner})

/-- `while h.len() >= n { h.pop_front() }`, for a positive `n`. -/
def popWhileAtLeast (n : Nat) : List SolvencySnapshot → List SolvencySnapshot
  | [] => []
  | first :: rest =>
    if n ≤ (first :: rest).length then popWhileAtLeast n rest else first :: rest

/-- The snapshot is stored, and the root over its bytes is certified. -/
def certify (D : Deployment) (snapshot : SolvencySnapshot) (s : MonitorState) : MonitorState :=
  {s with snapshot := snapshot, leaf := snapshot.canonicalBytes,
          certifiedData := D.rootHash snapshot.canonicalBytes}

def recordInHistory (snapshot : SolvencySnapshot) (s : MonitorState) : MonitorState :=
  {s with history := popWhileAtLeast s.config.historyCapacity s.history ++ [snapshot],
          commits := s.commits ++ [snapshot]}

/-- `commit_snapshot(snapshot, true)`; the placeholder of `init` is only certified. -/
def commitSnapshot (D : Deployment) (snapshot : SolvencySnapshot) (s : MonitorState) :
    MonitorState :=
  certify D snapshot (recordInHistory snapshot s)

def commitAndReleaseIfOwner (D : Deployment) (owner : RefreshOwner) (snapshot : SolvencySnapshot)
    (s : MonitorState) : MonitorState :=
  if s.refreshOwner ≠ some owner then s
  else {commitSnapshot D snapshot s with refreshOwner := none}

def AttemptIsOverlong (startedAtNs completedAtNs maxStalenessNs : Nat) : Prop :=
  maxStalenessNs < completedAtNs - startedAtNs

instance (a b c : Nat) : Decidable (AttemptIsOverlong a b c) := inferInstanceAs (Decidable (_ < _))

/-- `attestation_is_stale`; a tolerance that does not fit its width makes it so. -/
def AttestationIsStale (now attestedAtNs maxStalenessNs : Nat) : Prop :=
  maxStalenessNs + attestationBucketNs ≤ u64Max →
    maxStalenessNs + attestationBucketNs < now - attestedAtNs

instance (a b c : Nat) : Decidable (AttestationIsStale a b c) := inferInstanceAs (Decidable (_ → _))

def failureSnapshot (previous : SolvencySnapshot) (cfg : MonitorInit) (refreshedAtNs : Nat)
    (status : SnapshotStatus) : SolvencySnapshot where
  supplyInvariantHolds := false
  fixedMaxSupplyE8s := previous.fixedMaxSupplyE8s
  sumAllBalancesE8s := previous.sumAllBalancesE8s
  poolBalanceE8s := previous.poolBalanceE8s
  poolAttestationSourceStatus := .callFailed
  poolDeltaHealthy := false
  poolPublicDeltaE8s := previous.poolPublicDeltaE8s
  poolAttestedAtNs := previous.poolAttestedAtNs
  treasuryReadStatus := .callFailed
  treasuryStrayFundsE8s := previous.treasuryStrayFundsE8s
  supplyInvariantUnavailable := false
  refreshedAtNs := refreshedAtNs
  maxStalenessNs := cfg.maxStalenessNs
  status := status
  healthy := false
  schemaVersion := schemaVersion

def enforceAttemptAge (previous : SolvencySnapshot) (cfg : MonitorInit)
    (startedAtNs completedAtNs : Nat) (candidate : SolvencySnapshot) : SolvencySnapshot :=
  if AttemptIsOverlong startedAtNs completedAtNs cfg.maxStalenessNs then
    failureSnapshot previous cfg startedAtNs .refreshFailed
  else candidate

/-! ### A refresh -/

/-- The calls of a refresh, each to a canister of the configuration. -/
inductive MonitorCall where
  | verifySupplyInvariant (callee : Principal)
  | icrc1BalanceOf (callee owner : Principal)
  | getSolvencyAttestation (callee : Principal)
  deriving DecidableEq, Repr

/-- What comes back: the method's own answer, or a rejection. An answer that does not
decode is one too. -/
inductive MonitorReply where
  | supply (report : SupplyInvariantReport)
  | balance (amount : Nat)
  | attestation (certified : CertifiedSolvencyAttestationMirror)
  | rejected
  deriving DecidableEq, Repr

def MonitorReply.asSupply : MonitorReply → Option SupplyInvariantReport
  | .supply report => some report
  | _ => none

def MonitorReply.asBalance : MonitorReply → Option Nat
  | .balance amount => some amount
  | _ => none

def MonitorReply.asAttestation : MonitorReply → Option CertifiedSolvencyAttestationMirror
  | .attestation certified => some certified
  | _ => none

/-- What `run_refresh` fixes before its first await. -/
structure Attempt where
  owner : RefreshOwner
  cfg : MonitorInit
  previous : SolvencySnapshot
  deriving DecidableEq, Repr

/-- The await a refresh is at, with what it has read. -/
inductive RefreshTask where
  | supply (attempt : Attempt)
  | balance (attempt : Attempt) (supply : Option SupplyInvariantReport)
  | attestation (attempt : Attempt) (supply : Option SupplyInvariantReport) (balance : Option Nat)
  | treasury (attempt : Attempt) (supply : Option SupplyInvariantReport) (balance : Option Nat)
      (attestation : Option CertifiedSolvencyAttestationMirror)
  deriving DecidableEq, Repr

def RefreshTask.attempt : RefreshTask → Attempt
  | .supply a => a
  | .balance a _ => a
  | .attestation a _ _ => a
  | .treasury a _ _ _ => a

/-- `to_u128` on a decoded natural number. -/
def natToU128 (n : Nat) : Option Nat := if n ≤ u128Max then some n else none

/-- The four fields an attestation comes to. -/
structure PoolReading where
  sourceStatus : SourceReadStatus
  deltaHealthy : Bool
  publicDeltaE8s : Int
  attestedAtNs : Nat
  deriving DecidableEq, Repr

def foldAttestation (completedAtNs : Nat) (cfg : MonitorInit) :
    Option CertifiedSolvencyAttestationMirror → PoolReading
  | some certified =>
    let a := certified.attestation
    if a.schemaVersion ≠ poolAttestationSchema then ⟨.malformed, false, 0, 0⟩
    else if solvencyAttestationBytesMismatch certified then ⟨.malformed, false, 0, a.attestedAtNs⟩
    else if AttestationIsStale completedAtNs a.attestedAtNs cfg.maxStalenessNs then
      ⟨.stale, false, a.publicDeltaE8s, a.attestedAtNs⟩
    else ⟨.ok, a.healthy, a.publicDeltaE8s, a.attestedAtNs⟩
  | none => ⟨.callFailed, false, 0, 0⟩

/-- The treasury read is never part of the verdict. -/
def foldTreasury : Option Nat → SourceReadStatus × Nat
  | some nat =>
    match natToU128 nat with
    | some v => (.ok, v)
    | none => (.malformed, 0)
  | none => (.callFailed, 0)

/-- The snapshot of a refresh whose two supply reads came through. -/
def freshSnapshot (cfg : MonitorInit) (refreshedAtNs : Nat) (report : SupplyInvariantReport)
    (poolBalanceE8s : Nat) (pool : PoolReading) (treasury : SourceReadStatus × Nat) :
    SolvencySnapshot :=
  let freshAndSound := report.invariantHolds && report.arithmeticError.isNone
  let poolBackingSound := decide (pool.sourceStatus = .ok) && pool.deltaHealthy
  {supplyInvariantHolds := freshAndSound
   fixedMaxSupplyE8s := report.fixedMaxSupply
   sumAllBalancesE8s := report.sumAllBalances
   poolBalanceE8s := poolBalanceE8s
   poolAttestationSourceStatus := pool.sourceStatus
   poolDeltaHealthy := pool.deltaHealthy
   poolPublicDeltaE8s := pool.publicDeltaE8s
   poolAttestedAtNs := pool.attestedAtNs
   treasuryReadStatus := treasury.1
   treasuryStrayFundsE8s := treasury.2
   supplyInvariantUnavailable := report.arithmeticError.isSome
   refreshedAtNs := refreshedAtNs
   maxStalenessNs := cfg.maxStalenessNs
   status := .fresh
   healthy := freshAndSound && poolBackingSound
   schemaVersion := schemaVersion}

/-- What a refresh comes to once all its sources have answered. -/
def candidateSnapshot (completedAtNs : Nat) (a : Attempt) (supply : Option SupplyInvariantReport)
    (balance : Option Nat) (attestation : Option CertifiedSolvencyAttestationMirror)
    (treasury : Option Nat) : SolvencySnapshot :=
  let refreshedAtNs := a.owner.sampleStartedAtNs
  let pool := foldAttestation completedAtNs a.cfg attestation
  match supply, balance with
  | some report, some nat =>
    match natToU128 nat with
    | some poolBalanceE8s =>
      freshSnapshot a.cfg refreshedAtNs report poolBalanceE8s pool (foldTreasury treasury)
    | none => failureSnapshot a.previous a.cfg refreshedAtNs .refreshFailed
  | _, _ => failureSnapshot a.previous a.cfg refreshedAtNs .sourceCallFailed

/-- The snapshot a refresh would commit. -/
def refreshSnapshot (completedAtNs : Nat) (a : Attempt) (supply : Option SupplyInvariantReport)
    (balance : Option Nat) (attestation : Option CertifiedSolvencyAttestationMirror)
    (treasury : Option Nat) : SolvencySnapshot :=
  enforceAttemptAge a.previous a.cfg a.owner.sampleStartedAtNs completedAtNs
    (candidateSnapshot completedAtNs a supply balance attestation treasury)

abbrev MonitorOutcome : Type := Outcome MonitorState RefreshTask MonitorCall (Except String Unit)

/-- `run_refresh` up to its first await. -/
def runRefresh (now : Nat) (s : MonitorState) : MonitorOutcome :=
  match acquireRefreshOwner now s with
  | none => .reply s (.ok ())
  | some (owner, s') =>
    .call {s' with lastRefreshAttemptNs := now} (.supply ⟨owner, s'.config, s'.snapshot⟩)
      (.verifySupplyInvariant s'.config.tokenCanister)

/-- `run_refresh` from one of its awaits. -/
def resumeRefresh (D : Deployment) (now : Nat) (task : RefreshTask) (r : MonitorReply)
    (s : MonitorState) : MonitorOutcome :=
  match task with
  | .supply a =>
    .call s (.balance a r.asSupply) (.icrc1BalanceOf a.cfg.tokenCanister a.cfg.poolPrincipal)
  | .balance a supply =>
    .call s (.attestation a supply r.asBalance)
      (.getSolvencyAttestation a.cfg.poolAttestationSource)
  | .attestation a supply balance =>
    .call s (.treasury a supply balance r.asAttestation)
      (.icrc1BalanceOf a.cfg.tokenCanister a.cfg.treasuryPrincipal)
  | .treasury a supply balance attestation =>
    .reply (commitAndReleaseIfOwner D a.owner
      (refreshSnapshot now a supply balance attestation r.asBalance) s) (.ok ())

def requestRefresh (now : Nat) (s : MonitorState) : MonitorOutcome :=
  if now - s.lastRefreshAttemptNs < manualRefreshMinGapNs then
    .reply s (.error "rate-limited: try again later")
  else runRefresh now s

/-! ### Lifecycle -/

/-- The management canister is the empty principal. -/
def managementCanister : Principal := 0

/-- `validate_config`, the first text it traps with. -/
def validateConfig (cfg : MonitorInit) : Except String Unit :=
  if cfg.tokenCanister = .anonymous ∨ cfg.tokenCanister = managementCanister then
    .error "token_canister must be a real canister principal"
  else if cfg.poolPrincipal = .anonymous then .error "pool_principal must be a real principal"
  else if cfg.treasuryPrincipal = .anonymous then
    .error "treasury_principal must be a real principal"
  else if cfg.poolAttestationSource = .anonymous ∨ cfg.poolAttestationSource = managementCanister then
    .error "pool_attestation_source must be a real canister principal"
  else if cfg.refreshIntervalNs < minRefreshIntervalNs then
    .error s!"refresh_interval_ns below minimum ({minRefreshIntervalNs} ns)"
  else if cfg.maxStalenessNs < cfg.refreshIntervalNs then
    .error "max_staleness_ns must be >= refresh_interval_ns"
  else if 1 ≤ cfg.historyCapacity ∧ cfg.historyCapacity ≤ maxHistoryCapacity then .ok ()
  else .error s!"history_capacity must be in 1..={maxHistoryCapacity}"

/-- What is shown before the first refresh. -/
def placeholder (cfg : MonitorInit) (now : Nat) : SolvencySnapshot where
  supplyInvariantHolds := false
  fixedMaxSupplyE8s := 0
  sumAllBalancesE8s := 0
  poolBalanceE8s := 0
  poolAttestationSourceStatus := .callFailed
  poolDeltaHealthy := false
  poolPublicDeltaE8s := 0
  poolAttestedAtNs := 0
  treasuryReadStatus := .callFailed
  treasuryStrayFundsE8s := 0
  supplyInvariantUnavailable := false
  refreshedAtNs := now
  maxStalenessNs := cfg.maxStalenessNs
  status := .stale
  healthy := false
  schemaVersion := schemaVersion

def init (D : Deployment) (now : Nat) (cfg : MonitorInit) : Except String MonitorState := do
  validateConfig cfg
  let shown := placeholder cfg now
  return ⟨cfg, shown, [], shown.canonicalBytes, D.rootHash shown.canonicalBytes, none, 0, 0, []⟩

/-- The checkpoint holds the configuration, the snapshot, the history and the time of the last
attempt; the guard and its generations start over. -/
def postUpgrade (D : Deployment) (s : MonitorState) : Option MonitorState :=
  match validateConfig s.config with
  | .error _ => none
  | .ok () =>
    some (certify D s.snapshot
      {s with history := popWhileAtLeast (s.config.historyCapacity + 1) s.history,
              refreshOwner := none, nextRefreshGeneration := 0})

/-! ### The monitor and its sources -/

inductive Input where
  /-- One of the two timers. -/
  | refresh
  | requestRefresh
  deriving DecidableEq, Repr

def canister (D : Deployment) :
    Canister MonitorState Input RefreshTask MonitorCall MonitorReply (Except String Unit) where
  start now
    | .refresh => runRefresh now
    | .requestRefresh => requestRefresh now
  resume := resumeRefresh D
  cleanup _ s := s
  upgrade _ := postUpgrade D
  others _ _ := False

/-- The values a reply decodes to lie in their widths. -/
def MonitorReply.InRange : MonitorReply → Prop
  | .supply report => report.fixedMaxSupply ≤ u128Max ∧ report.sumAllBalances ≤ u128Max
  | .balance _ => True
  | .attestation c =>
    IsI128 c.attestation.publicDeltaE8s ∧ c.attestation.attestedAtNs ≤ u64Max ∧
      c.attestation.schemaVersion ≤ u32Max
  | .rejected => True

instance : (r : MonitorReply) → Decidable r.InRange
  | .supply _ => inferInstanceAs (Decidable (_ ∧ _))
  | .balance _ => inferInstanceAs (Decidable True)
  | .attestation _ => inferInstanceAs (Decidable (_ ∧ _))
  | .rejected => inferInstanceAs (Decidable True)

/-- The sources: any call may be answered with anything of the right types, at any time, or
never; `pool` says which attestations the attestation source answers with. -/
def sources (pool : CertifiedSolvencyAttestation → Prop) : Service Unit MonitorCall MonitorReply where
  accept _ _ _ _ := True
  answer _ r _ := r.InRange ∧ ∀ c, r = .attestation c → pool c
  move _ _ := False

/-- The monitor just installed. -/
def Installed (D : Deployment) (w : World MonitorState Unit RefreshTask) : Prop :=
  (∃ cfg, cfg.maxStalenessNs ≤ u64Max ∧ init D w.now cfg = .ok w.state) ∧ w.tasks = fun _ => none

/-- The monitor, its timers and its sources. -/
def monitoring (D : Deployment) (pool : CertifiedSolvencyAttestation → Prop) :
    System (World MonitorState Unit RefreshTask) (Event Input MonitorReply) :=
  (canister D).system (sources pool) (Installed D)

end StshProtocol.SmokeAlarm
