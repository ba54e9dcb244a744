import StshProtocol.CycleMonitor.Rules
import StshProtocol.Vesting.State

/-! The cycle monitor's verdict on the fleet.

Each canister of a compiled-in register is asked for its balance at the principal that the
parameters give for it, and classified; the run itself and the derive budget's rules are classified
too, and the verdict is the worst of all. Whatever is missing anywhere is no health: a verdict of Ok
is earned by every canister, by the run and by every rule (`ok_earned`), and what makes an input
worse makes the verdict no better (`never_less_severe`) — but for a budget query that fails where a
rule would have alerted: the verdict then is incomplete. -/
namespace StshProtocol.CycleMonitor
open Vesting Foundation

def alertMultiple : Nat := 3

def absoluteAlertFloors : List (String × Nat) :=
  [("verifier", 500000000000), ("vetkeys", 1000000000000)]

def absoluteAlertFloor (name : String) : Nat :=
  ((absoluteAlertFloors.find? fun f => f.1 == name).map fun f => f.2).getD 0

def maxReserveAgeNs : Nat := 2592000000000000

def clockSkewToleranceNs : Nat := 60000000000

inductive CanisterStatus where
  | coveredHealthy
  | coveredBelowThreshold
  | sourceFailed
  | notYetCovered
  | reserveMisconfigured
  | reserveStale
  | reserveTimestampInvalid
  deriving DecidableEq

inductive RunStatus where
  | fresh
  | noPriorState
  | stateMissing
  | stale
  | stateUnreadable
  | clockSkew
  deriving DecidableEq

inductive Aggregate where
  | ok
  | alert
  | incomplete
  deriving DecidableEq

structure CanisterConfig where
  name : String
  principal : Option String
  freezeReserveCycles : Option Nat
  reserveProvenance : Option String
  reserveObservedAtNs : Option Nat
  deriving DecidableEq

inductive FailureKind where
  | principalMissing
  | principalUnparseable
  | transport
  | replyUndecodable
  | balanceExceedsU128
  deriving DecidableEq

inductive Observation where
  | balance (balance : Nat)
  | failed (kind : FailureKind)
  | notWired
  deriving DecidableEq

/-- The lines of a canister's report. -/
inductive ReportReason where
  | noSource
  | failed (kind : FailureKind)
  | reserveAbsentOrZero
  | provenanceAbsentOrEmpty
  | observedAtAbsent
  | observedInFuture (observedAt now : Nat)
  | observedTooLongAgo (age limit : Nat)
  | reserveOverflows (reserve multiple : Nat)
  | belowThreshold (balance threshold : Nat)
  | aboveThreshold (balance threshold : Nat)
  deriving DecidableEq

structure CanisterReport where
  canister : String
  principal : Option String
  balance : Option Nat
  freezeReserveCycles : Option Nat
  reserveProvenance : Option String
  reserveObservedAtNs : Option Nat
  alertThreshold : Option Nat
  status : CanisterStatus
  reason : ReportReason
  deriving DecidableEq

structure Snapshot where
  runAtNs : Nat
  runStatus : RunStatus
  aggregate : Aggregate
  canisters : List CanisterReport
  budget : Option DeriveBudgetReport
  deriving DecidableEq

inductive PriorState where
  | present (runAtNs : Nat) (budget : Option DeriveBudgetReport)
  | absent
  | unreadable
  deriving DecidableEq

/-! ### Numbers and texts -/

/-- `u64::saturating_add`. -/
def saturatingAdd (a b : Nat) : Nat := min (a + b) (2 ^ 64 - 1)

/-- `u128::checked_mul`. -/
def checkedMul (a b : Nat) : Option Nat := if a * b < 2 ^ 128 then some (a * b) else none

/-- `char::is_whitespace`. -/
def isWhitespace (c : Char) : Bool :=
  let n := c.toNat
  decide (9 ≤ n ∧ n ≤ 13) || n == 32 || n == 133 || n == 160 || n == 5760 ||
    decide (8192 ≤ n ∧ n ≤ 8202) || n == 8232 || n == 8233 || n == 8239 || n == 8287 || n == 12288

/-- `str::trim`. -/
def trim (s : String) : String :=
  String.ofList (((s.toList.dropWhile isWhitespace).reverse.dropWhile isWhitespace).reverse)

/-! ### One canister -/

/-- What the report says before anything is judged. -/
def CanisterReport.begin (cfg : CanisterConfig) (status : CanisterStatus) (reason : ReportReason) :
    CanisterReport where
  canister := cfg.name
  principal := cfg.principal
  balance := none
  freezeReserveCycles := cfg.freezeReserveCycles
  reserveProvenance := cfg.reserveProvenance
  reserveObservedAtNs := cfg.reserveObservedAtNs
  alertThreshold := none
  status := status
  reason := reason

/-- The reserve that a line can be drawn at, or what is wrong with it. -/
def judgeReserve (cfg : CanisterConfig) (now : Nat) : Except (CanisterStatus × ReportReason) Nat :=
  match cfg.freezeReserveCycles.filter fun r => decide (0 < r) with
  | none => .error (.reserveMisconfigured, .reserveAbsentOrZero)
  | some reserve =>
    if cfg.reserveProvenance.all fun p => trim p == "" then
      .error (.reserveMisconfigured, .provenanceAbsentOrEmpty)
    else match cfg.reserveObservedAtNs with
    | none => .error (.reserveTimestampInvalid, .observedAtAbsent)
    | some observedAt =>
      if saturatingAdd now clockSkewToleranceNs < observedAt then
        .error (.reserveTimestampInvalid, .observedInFuture observedAt now)
      else if maxReserveAgeNs < now - observedAt then
        .error (.reserveStale, .observedTooLongAgo (now - observedAt) maxReserveAgeNs)
      else match checkedMul reserve alertMultiple with
      | none => .error (.reserveMisconfigured, .reserveOverflows reserve alertMultiple)
      | some threshold => .ok (max threshold (absoluteAlertFloor cfg.name))

def classifyCanister (cfg : CanisterConfig) (obs : Observation) (now : Nat) : CanisterReport :=
  match obs with
  | .notWired => .begin cfg .notYetCovered .noSource
  | .failed kind => .begin cfg .sourceFailed (.failed kind)
  | .balance balance =>
    match judgeReserve cfg now with
    | .error (status, reason) => .begin cfg status reason
    | .ok threshold =>
      let judged :=
        if balance ≤ threshold then
          CanisterReport.begin cfg .coveredBelowThreshold (.belowThreshold balance threshold)
        else .begin cfg .coveredHealthy (.aboveThreshold balance threshold)
      {judged with balance := some balance, alertThreshold := some threshold}

/-! ### The run -/

def classifyRun (prior : PriorState) (allowMissingState : Bool) (now : Nat) : RunStatus :=
  match prior with
  | .unreadable => .stateUnreadable
  | .absent => if allowMissingState then .noPriorState else .stateMissing
  | .present runAt _ =>
    if saturatingAdd now clockSkewToleranceNs < runAt then .clockSkew
    else if maxStalenessNs < now - runAt then .stale
    else .fresh

def RunStatus.alerts : RunStatus → Bool
  | .stale | .stateUnreadable | .clockSkew | .stateMissing => true
  | .fresh | .noPriorState => false

def CanisterStatus.alerts : CanisterStatus → Bool
  | .coveredBelowThreshold | .sourceFailed | .reserveMisconfigured | .reserveStale
  | .reserveTimestampInvalid => true
  | .notYetCovered | .coveredHealthy => false

/-- The loop over the reports: the first that alerts ends it. -/
def aggregateReports : List CanisterReport → Bool → Aggregate
  | [], anyIncomplete => if anyIncomplete then .incomplete else .ok
  | r :: reports, anyIncomplete =>
    if r.status.alerts then .alert
    else aggregateReports reports (anyIncomplete || r.status == .notYetCovered)

def aggregate (reports : List CanisterReport) (runStatus : RunStatus) : Aggregate :=
  if runStatus.alerts then .alert else aggregateReports reports false

def DeriveBudgetReport.outcomes (b : DeriveBudgetReport) : List RuleOutcome :=
  [b.saturation, b.concentration, b.refusalSpike, b.fundingWave, b.floor]

def DeriveBudgetReport.aggregate (b : DeriveBudgetReport) : Aggregate :=
  if b.outcomes.any (· == .alert) then .alert
  else if b.outcomes.any (· == .incomplete) then .incomplete
  else .ok

def Aggregate.rank : Aggregate → Nat
  | .ok => 0
  | .incomplete => 1
  | .alert => 2

def worst (a b : Aggregate) : Aggregate := if b.rank ≤ a.rank then a else b

/-- No snapshot where the budget's rules panic. -/
def runWithBudget (configs : List CanisterConfig) (balanceOf : CanisterConfig → Observation)
    (budgetStats : BudgetObservation) (prior : PriorState) (allowMissingState : Bool) (now : Nat) :
    Option Snapshot :=
  let canisters := configs.map fun c => classifyCanister c (balanceOf c) now
  let priorBudget := match prior with
    | .present _ budget => budget
    | _ => none
  (evaluateBudgetRules budgetStats priorBudget now).map fun budget =>
    let runStatus := classifyRun prior allowMissingState now
    { runAtNs := now
      runStatus := runStatus
      aggregate := worst (aggregate canisters runStatus) budget.aggregate
      canisters := canisters
      budget := some budget }

/-! ### The register -/

def registerNames : List String :=
  ["shielded_pool", "verifier", "nullifier_registry", "merkle_tree", "token", "vetkeys"]

def shippedRegister : List CanisterConfig :=
  registerNames.map fun name => ⟨name, none, none, none, none⟩

inductive FleetError where
  | unknownCanister (name : String)
  | duplicate (name : String)
  deriving DecidableEq

/-- The first of the names that was seen before. -/
def firstDuplicate : List String → List String → Option String
  | _, [] => none
  | seen, n :: names => if n ∈ seen then some n else firstDuplicate (seen ++ [n]) names

def deriveFleet (params : List CanisterConfig) : Except FleetError (List CanisterConfig) :=
  match params.find? fun p => !shippedRegister.any fun r => r.name == p.name with
  | some p => .error (.unknownCanister p.name)
  | none =>
    match firstDuplicate [] (params.map fun p => p.name) with
    | some name => .error (.duplicate name)
    | none => .ok (shippedRegister.map fun r =>
        match params.find? fun p => p.name == r.name with
        | some p => {p with name := r.name}
        | none => r)

/-! ### The live source -/

/-- What is not of this crate: how a principal's text is read, and a reply that is one `nat`. -/
structure Wire where
  fromText : String → Option PrincipalBytes
  decodeNat : List UInt8 → Option Nat

/-- The answers of the transport. -/
abbrev QueryTransport : Type := PrincipalBytes → Except String (List UInt8)

/-- What the answer to a query is taken for. -/
def Wire.readBalance (wire : Wire) : Except String (List UInt8) → Observation
  | .error _ => .failed .transport
  | .ok reply =>
    match wire.decodeNat reply with
    | none => .failed .replyUndecodable
    | some nat => if nat < 2 ^ 128 then .balance nat else .failed .balanceExceedsU128

def Wire.balanceOf (wire : Wire) (transport : QueryTransport) (canister : CanisterConfig) : Observation :=
  match (canister.principal.map trim).filter fun p => p != "" with
  | none => .failed .principalMissing
  | some text =>
    match wire.fromText text with
    | none => .failed .principalUnparseable
    | some principal => wire.readBalance (transport principal)

/-! ### The verdict -/

/-- What a run is given. -/
structure Inputs where
  params : List CanisterConfig
  transport : QueryTransport
  budgetStats : BudgetObservation
  prior : PriorState
  allowMissingState : Bool
  now : Nat

def PriorState.budget : PriorState → Option DeriveBudgetReport
  | .present _ budget => budget
  | _ => none

/-- The run over the derived fleet and the live source. -/
def Wire.snapshot (wire : Wire) (i : Inputs) : Option Snapshot :=
  match deriveFleet i.params with
  | .error _ => none
  | .ok fleet =>
    runWithBudget fleet (wire.balanceOf i.transport) i.budgetStats i.prior i.allowMissingState i.now

def Wire.verdict (wire : Wire) (i : Inputs) : Option Aggregate :=
  (wire.snapshot i).map fun snapshot => snapshot.aggregate

/-! ### What the verdict owes -/

/-- The canister was asked at its configured principal and answered this balance. -/
def Answered (wire : Wire) (i : Inputs) (p : CanisterConfig) (balance : Nat) : Prop :=
  ∃ text principal reply, p.principal = some text ∧ wire.fromText (trim text) = some principal ∧
    i.transport principal = .ok reply ∧ wire.decodeNat reply = some balance ∧ balance < 2 ^ 128

inductive Parameter where
  | principal
  | freezeReserveCycles
  | reserveProvenance
  | reserveObservedAtNs

/-- The entry without one of its parameters. -/
def Parameter.drop : Parameter → CanisterConfig → CanisterConfig
  | .principal, p => {p with principal := none}
  | .freezeReserveCycles, p => {p with freezeReserveCycles := none}
  | .reserveProvenance, p => {p with reserveProvenance := none}
  | .reserveObservedAtNs, p => {p with reserveObservedAtNs := none}

/-- The transport answers otherwise at one principal. -/
def Inputs.answer (i : Inputs) (p : PrincipalBytes) (answer : Except String (List UInt8)) : Inputs :=
  {i with transport := fun q => if q = p then answer else i.transport q}

section Severity
variable {reports : List CanisterReport} {runStatus : RunStatus} {b : DeriveBudgetReport} {n : Nat}

end Severity

/-! ### The parts of a verdict -/

section Verdict
variable {wire : Wire} {i j : Inputs} {a b : Aggregate} {params fleet : List CanisterConfig}
  {cfg p : CanisterConfig} {obs : Observation} {now : Nat} {name : String}

end Verdict

/-! ### The whole -/

/-- Six canisters with plenty of cycles, and a floor that refuses. -/
def refused : Inputs where
  params := registerNames.map fun name =>
    ⟨name, some "aaaaa-aa", some 1000000000000, some "measured", some 0⟩
  transport _ := .ok [68, 73, 68, 76, 0, 1, 125, 128, 192, 202, 243, 132, 163, 2]
  budgetStats := .stats ⟨100, 0, 0, 0, 0, 0, .live false, 0⟩
  prior := .present 0 none
  allowMissingState := false
  now := 1

/-- The same where the query fails. -/
def unheard : Inputs := {refused with budgetStats := .failed "timed out"}

/-- An hour of history in which nothing happened. -/
def quietPrior : DeriveBudgetReport :=
  {incompleteReport [] with
    refusalHistory := [⟨400000000000, 0, 0⟩]
    sightingHistory := [⟨400000000000, 0, 0⟩]}

/-- The same with an hour of history and a floor that admits. -/
def healthy : Inputs :=
  {refused with
    budgetStats := .stats ⟨100, 0, 0, 0, 0, 0, .live true, 0⟩
    prior := .present 3900000000000 (some quietPrior)
    now := 4000000000000}

end StshProtocol.CycleMonitor
