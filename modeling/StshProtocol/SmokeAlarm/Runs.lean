import StshProtocol.SmokeAlarm.Canister
import Mathlib.Data.List.Infix

/-! The refresh guard over whole runs.

An attempt is the owner it was given: no two suspended attempts have the same one, since
generations are given out once between two upgrades, and an upgrade forgets every suspended
attempt. What a step of the monitor may do is said once (`Turn`); from it come what every
reachable state keeps (`Kept`) and which steps may touch the guard or the snapshot
(`OwnerOnly`). -/
namespace StshProtocol.SmokeAlarm
open Foundation ShieldedPool

abbrev MonitorWorld : Type := World MonitorState Unit RefreshTask

variable {D : Deployment} {pool : CertifiedSolvencyAttestation → Prop} {w w' : MonitorWorld}
  {e : Event Input MonitorReply} {s s' : MonitorState} {now : Nat}

/-! ### What one message does -/

/-- The state in which an attempt has just taken the guard. -/
def MonitorState.acquired (s : MonitorState) (now : Nat) : MonitorState :=
  {s with nextRefreshGeneration := s.nextRefreshGeneration + 1,
          refreshOwner := some ⟨s.nextRefreshGeneration + 1, now⟩, lastRefreshAttemptNs := now}

/-- The attempt that has just taken the guard. -/
def MonitorState.attempt (s : MonitorState) (now : Nat) : Attempt :=
  ⟨⟨s.nextRefreshGeneration + 1, now⟩, s.config, s.snapshot⟩

/-- The state in which the owner has committed its snapshot and let go of the guard. -/
def MonitorState.committed (D : Deployment) (snapshot : SolvencySnapshot) (s : MonitorState) :
    MonitorState :=
  {commitSnapshot D snapshot s with refreshOwner := none}

/-- What a call of the monitor does. -/
inductive StartEffect (now : Nat) (s : MonitorState) : MonitorOutcome → Prop where
  | refused {a : Except String Unit} : StartEffect now s (.reply s a)
  | acquired (hfree : ¬GuardHeld now s.refreshOwner) :
      StartEffect now s (.call (s.acquired now) (.supply (s.attempt now))
        (.verifySupplyInvariant s.config.tokenCanister))

theorem runRefresh_effect (now : Nat) (s : MonitorState) : StartEffect now s (runRefresh now s) := by
  unfold runRefresh acquireRefreshOwner
  by_cases hheld : GuardHeld now s.refreshOwner
  · rw [if_pos hheld]
    exact .refused
  · rw [if_neg hheld]
    unfold nextGeneration
    by_cases hlast : s.nextRefreshGeneration < u64Max
    · rw [if_pos hlast]
      exact .acquired hheld
    · rw [if_neg hlast]
      exact .refused

theorem start_effect (now : Nat) (i : Input) (s : MonitorState) :
    StartEffect now s ((canister D).start now i s) := by
  cases i with
  | refresh => exact runRefresh_effect now s
  | requestRefresh =>
    show StartEffect now s (requestRefresh now s)
    unfold requestRefresh
    by_cases hrecent : now - s.lastRefreshAttemptNs < manualRefreshMinGapNs
    · rw [if_pos hrecent]
      exact .refused
    · rw [if_neg hrecent]
      exact runRefresh_effect now s

/-- What the answer to one of the awaits does. -/
inductive ResumeEffect (D : Deployment) (now : Nat) (r : MonitorReply) (s : MonitorState) :
    RefreshTask → MonitorOutcome → Prop where
  | awaits {k k' : RefreshTask} {q : MonitorCall} (h : k'.attempt = k.attempt)
      (hopen : ∀ a supply balance attestation, k ≠ .treasury a supply balance attestation) :
      ResumeEffect D now r s k (.call s k' q)
  | superseded {k : RefreshTask} {answer : Except String Unit}
      (h : s.refreshOwner ≠ some k.attempt.owner) : ResumeEffect D now r s k (.reply s answer)
  | commits {a : Attempt} {supply : Option SupplyInvariantReport} {balance : Option Nat}
      {attestation : Option CertifiedSolvencyAttestationMirror} {answer : Except String Unit}
      (h : s.refreshOwner = some a.owner) :
      ResumeEffect D now r s (.treasury a supply balance attestation)
        (.reply (s.committed D (refreshSnapshot now a supply balance attestation r.asBalance))
          answer)

theorem resume_effect (now : Nat) (k : RefreshTask) (r : MonitorReply) (s : MonitorState) :
    ResumeEffect D now r s k ((canister D).resume now k r s) := by
  cases k with
  | supply a => exact .awaits rfl fun _ _ _ _ h => nomatch h
  | balance a supply => exact .awaits rfl fun _ _ _ _ h => nomatch h
  | attestation a supply balance => exact .awaits rfl fun _ _ _ _ h => nomatch h
  | treasury a supply balance attestation =>
    show ResumeEffect D now r s _ (.reply (commitAndReleaseIfOwner D a.owner _ s) (.ok ()))
    unfold commitAndReleaseIfOwner
    by_cases howner : s.refreshOwner = some a.owner
    · rw [if_neg (not_not.2 howner)]
      exact .commits howner
    · rw [if_pos howner]
      exact .superseded howner

/-! ### What one step does -/

/-- The world in which the message has been answered and has left this state. -/
def answered (w : MonitorWorld) (t : Nat) (s : MonitorState) :
    MonitorWorld :=
  {w.finish t with state := s}

/-- A step of the monitor. -/
inductive Turn (D : Deployment) (w : MonitorWorld) :
    Event Input MonitorReply → MonitorWorld → Prop where
  | refused {i : Input} : Turn D w (.call i) w
  | acquired {i : Input} (hfree : ¬GuardHeld w.now w.state.refreshOwner) :
      Turn D w (.call i)
        (w.suspend (w.state.acquired w.now) (.supply (w.state.attempt w.now)) ())
  | awaits {t : Nat} {r : MonitorReply} {k k' : RefreshTask} (hk : w.tasks t = some k)
      (h : k'.attempt = k.attempt)
      (hopen : ∀ a supply balance attestation, k ≠ .treasury a supply balance attestation) :
      Turn D w (.reply t r) ((w.finish t).suspend w.state k' ())
  | superseded {t : Nat} {r : MonitorReply} {k : RefreshTask} (hk : w.tasks t = some k)
      (h : w.state.refreshOwner ≠ some k.attempt.owner) : Turn D w (.reply t r) (w.finish t)
  | commits {t : Nat} {r : MonitorReply} {a : Attempt} {supply : Option SupplyInvariantReport}
      {balance : Option Nat} {attestation : Option CertifiedSolvencyAttestationMirror}
      (hk : w.tasks t = some (.treasury a supply balance attestation))
      (h : w.state.refreshOwner = some a.owner) :
      Turn D w (.reply t r) (answered w t (w.state.committed D
        (refreshSnapshot w.now a supply balance attestation r.asBalance)))
  | upgrade {s : MonitorState} (h : postUpgrade D w.state = some s) :
      Turn D w .upgrade {w with state := s, tasks := fun _ => none}
  | wait {n : Nat} (h : w.now ≤ n) : Turn D w .wait {w with now := n}

/-- The certified leaf, the history and the order of what was committed. -/
structure Kept (D : Deployment) (w : MonitorWorld) : Prop where
  leaf : w.state.leaf = w.state.snapshot.canonicalBytes
  root : w.state.certifiedData = D.rootHash w.state.leaf
  bounded : w.state.history.length ≤ w.state.config.historyCapacity
  inOrder : w.state.history <:+ w.state.commits
  latest : w.state.commits ≠ [] → w.state.commits.getLast? = some w.state.snapshot
  refreshed : w.state.commits.Pairwise fun a b => a.refreshedAtNs ≤ b.refreshedAtNs
  apart : ∀ t t' k k', w.tasks t = some k → w.tasks t' = some k' →
    k.attempt.owner = k'.attempt.owner → t = t'

/-- What the guard, the suspended attempts and the clock have to do with each other. -/
structure Guarded (w : MonitorWorld) : Prop where
  capacity : 1 ≤ w.state.config.historyCapacity
  past : ∀ c ∈ w.state.commits, c.refreshedAtNs ≤ w.now
  owner : ∀ o, w.state.refreshOwner = some o →
    o.sampleStartedAtNs ≤ w.now ∧ ∀ c ∈ w.state.commits, c.refreshedAtNs ≤ o.sampleStartedAtNs
  generation : ∀ o, w.state.refreshOwner = some o → o.generation ≤ w.state.nextRefreshGeneration
  given : ∀ t k, w.tasks t = some k →
    t < w.next ∧ k.attempt.owner.generation ≤ w.state.nextRefreshGeneration

section Init

theorem init_ok {cfg : MonitorInit} (h : init D now cfg = .ok s) :
    validateConfig cfg = .ok () ∧
      s = ⟨cfg, placeholder cfg now, [], (placeholder cfg now).canonicalBytes,
        D.rootHash (placeholder cfg now).canonicalBytes, none, 0, 0, []⟩ := by
  unfold init at h
  cases hvalid : validateConfig cfg with
  | error e => simp only [hvalid, bind, Except.bind] at h; exact nomatch h
  | ok u =>
    simp only [hvalid, bind, Except.bind, pure, Except.pure] at h
    exact ⟨rfl, (Except.ok.inj h).symm⟩

end Init

section Steps

theorem postUpgrade_some (h : postUpgrade D s = some s') :
    s' = certify D s.snapshot
      {s with history := popWhileAtLeast (s.config.historyCapacity + 1) s.history,
              refreshOwner := none, nextRefreshGeneration := 0} := by
  unfold postUpgrade at h
  split at h
  · exact nomatch h
  · exact (Option.some.inj h).symm

end Steps

/-! ### When a snapshot is healthy -/

/-- Everything behind a healthy snapshot. The treasury read is no part of it. -/
structure Sound (completedAtNs : Nat) (a : Attempt) (supply : Option SupplyInvariantReport)
    (balance : Option Nat) (attestation : Option CertifiedSolvencyAttestationMirror) : Prop where
  supply : ∃ report, supply = some report ∧ report.invariantHolds = true ∧
    report.arithmeticError = none
  balance : ∃ n, balance = some n ∧ n ≤ u128Max
  attestation : ∃ c, attestation = some c ∧ c.attestation.schemaVersion = poolAttestationSchema ∧
    solvencyAttestationBytesMismatch c = false ∧
    ¬AttestationIsStale completedAtNs c.attestation.attestedAtNs a.cfg.maxStalenessNs ∧
    c.attestation.healthy = true
  inTime : ¬AttemptIsOverlong a.owner.sampleStartedAtNs completedAtNs a.cfg.maxStalenessNs

/-- The answer to an attempt under this owner. -/
def Answers (w : MonitorWorld) (e : Event Input MonitorReply) (o : RefreshOwner) : Prop :=
  ∃ t r k, e = .reply t r ∧ w.tasks t = some k ∧ k.attempt.owner = o

section Sample

/-- Sources that answer anything at all. -/
def player : Player (sources fun _ => True) Empty where
  take _ _ _ := ()
  take_ok _ _ _ := trivial
  answers _ r _ := decide r.InRange
  answers_ok _ _ _ h := ⟨of_decide_eq_true h, fun _ _ => trivial⟩
  play m := m.elim
  play_ok m := m.elim

def sampleDeployment : Deployment := ⟨fun _ => 0⟩

def sampleConfig : MonitorInit where
  tokenCanister := 1
  poolPrincipal := 2
  treasuryPrincipal := 3
  poolAttestationSource := 2
  refreshIntervalNs := 60 * 1000000000
  maxStalenessNs := 600 * 1000000000
  historyCapacity := 2

def sampleTime : Nat := 1000 * 1000000000

def sampleState : MonitorState :=
  let shown := placeholder sampleConfig sampleTime
  ⟨sampleConfig, shown, [], shown.canonicalBytes, 0, none, 0, 0, []⟩

theorem sampleState_init : init sampleDeployment sampleTime sampleConfig = .ok sampleState := by
  have hvalid : validateConfig sampleConfig = .ok () := by decide +kernel
  rw [init, hvalid]
  rfl

def sampleWorld : MonitorWorld := ⟨sampleTime, sampleState, (), fun _ => none, 0⟩

theorem sampleWorld_installed : Installed sampleDeployment sampleWorld :=
  ⟨⟨sampleConfig, by decide, sampleState_init⟩, rfl⟩

/-- A pool that backs all it owes. -/
def sampleWords : AccountingWords := fun _ => 0

/-- Three of the four sources have answered well. -/
def sampleMoves : List (Move Input MonitorReply Empty) :=
  [.call .refresh, .reply 0 (.supply ⟨100, 100, true, none⟩), .reply 1 (.balance 40),
    .reply 2 (.attestation (getSolvencyAttestation sampleWords sampleTime))]

def sampleRun : Option MonitorWorld :=
  player.run (canister sampleDeployment) (fun _ _ => true) sampleWorld sampleMoves

def sampleAttempt : Attempt := ⟨⟨1, sampleTime⟩, sampleConfig, placeholder sampleConfig sampleTime⟩

/-- The attempt as it waits for its last source. -/
def sampleTask : RefreshTask :=
  .treasury sampleAttempt (some ⟨100, 100, true, none⟩) (some 40)
    (some (getSolvencyAttestation sampleWords sampleTime))

theorem sampleRun_report : (sampleRun.map fun w => (w.tasks 3, w.state.refreshOwner)) =
    some (some sampleTask, some sampleAttempt.owner) := by
  decide +kernel

end Sample

end StshProtocol.SmokeAlarm
