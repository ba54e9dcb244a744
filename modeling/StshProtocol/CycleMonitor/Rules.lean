import StshProtocol.Foundation.TrailingLog

/-! The cycle monitor's rules on the derive budget.

Four rules and the floor are evaluated over one query of the vetkeys canister, with the report of
the run before: how long the fleet has been saturated, and the two counters' samples of the last
hour, are carried from report to report. A query that fails leaves nothing to carry. One product of
32 bits is checked by the compiler: where it overflows, the run panics. -/
namespace StshProtocol.CycleMonitor
open Foundation

def maxStalenessNs : Nat := 900000000000

def saturationMinElapsedNs : Nat := 900000000000

def concentrationMultiple : Nat := 2

def concentrationMinSample : Nat := 10

def refusalSpikePerHour : Nat := 5

def fundingWavePerHour : Nat := 100

def refusalHistorySpanNs : Nat := 3600000000000

def refusalHistoryMaxSamples : Nat := 24

/-- A counter, and the epoch in which it was read. -/
structure CounterSample where
  atNs : Nat
  value : Nat
  epochNs : Nat
  deriving DecidableEq

inductive CycleFloorView where
  | live (admits : Bool)
  | floorOnly (meetsPinnedFloor : Bool) (reason : String)
  | unavailable (reason : String)
  deriving DecidableEq

/-- What the rules read of a reply: numbers of 32 bits, and of 64 the totals and the epoch. -/
structure DeriveBudgetStats where
  budget : Nat
  consumed : Nat
  taggedConsumed : Nat
  distinctPrincipals : Nat
  refusalsBudgetTotal : Nat
  statsEpochNs : Nat
  floor : CycleFloorView
  sightingsRecordedTotal : Nat
  deriving DecidableEq

inductive BudgetObservation where
  | stats (stats : DeriveBudgetStats)
  | failed (why : String)
  | notWired
  deriving DecidableEq

inductive RuleOutcome where
  | quiet
  | alert
  | incomplete
  | notEvaluated
  deriving DecidableEq

/-- The lines of a report. -/
inductive BudgetReason where
  | noSource
  | queryFailed (why : String)
  | liveRefuses
  | belowPinnedFloor (reason : String)
  | priceUnavailable (reason : String)
  | positionUnknown (reason : String)
  | saturation (consumed budget elapsed : Nat)
  | concentration (tagged distinct multiple : Nat)
  | refusalSpike (rise threshold : Nat)
  | fundingWave (rise threshold : Nat)
  deriving DecidableEq

structure DeriveBudgetReport where
  saturation : RuleOutcome
  concentration : RuleOutcome
  refusalSpike : RuleOutcome
  fundingWave : RuleOutcome
  floor : RuleOutcome
  firstSaturatedAtNs : Option Nat
  refusalHistory : List CounterSample
  sightingHistory : List CounterSample
  reasons : List BudgetReason
  deriving DecidableEq

/-! ### The counters -/

/-- A sample of another epoch clears the history; then what is older than the span goes, and what
is too many. -/
def pushSample (history : List CounterSample) (sample : CounterSample) : List CounterSample :=
  let kept :=
    if history.getLast?.any fun prev => decide (prev.epochNs ≠ sample.epochNs) then [] else history
  TrailingLog.prune CounterSample.atNs refusalHistoryMaxSamples (sample.atNs - refusalHistorySpanNs)
    (kept ++ [sample])

def riseOverFullSpan (history : List CounterSample) : Option Nat :=
  match history.getLast?, history.head? with
  | some newest, some oldest =>
    if newest.epochNs ≠ oldest.epochNs then none
    else if newest.atNs - oldest.atNs < refusalHistorySpanNs then none
    else some (newest.value - oldest.value)
  | _, _ => none

/-- The outcome of a rule, and its line where it has one. -/
abbrev Ruled : Type := RuleOutcome × List BudgetReason

/-- A counter that rose by the threshold over a full span alerts. -/
def risenBy (threshold : Nat) (reason : Nat → Nat → BudgetReason) (history : List CounterSample) : Ruled :=
  match riseOverFullSpan history with
  | none => (.incomplete, [])
  | some rise => if threshold ≤ rise then (.alert, [reason rise threshold]) else (.quiet, [])

/-! ### The other rules -/

def floorRule : CycleFloorView → Ruled
  | .live true => (.quiet, [])
  | .live false => (.alert, [.liveRefuses])
  | .floorOnly false reason => (.alert, [.belowPinnedFloor reason])
  | .floorOnly true reason => (.incomplete, [.priceUnavailable reason])
  | .unavailable reason => (.incomplete, [.positionUnknown reason])

/-- Since when the fleet has been saturated. -/
def firstSaturatedAt (saturatedNow : Bool) (prior : Option Nat) (now : Nat) : Option Nat :=
  match saturatedNow, prior with
  | true, some since => some since
  | true, none => some now
  | false, _ => none

def saturationRule (s : DeriveBudgetStats) (now : Nat) : Option Nat → Ruled
  | none => (.quiet, [])
  | some since =>
    if saturationMinElapsedNs ≤ now - since then
      (.alert, [.saturation s.consumed s.budget (now - since)])
    else (.quiet, [])

/-- `CONCENTRATION_MULTIPLE * stats.distinct_principals`, in 32 bits. -/
def concentrationBound (s : DeriveBudgetStats) : Option Nat :=
  if concentrationMultiple * s.distinctPrincipals < 2 ^ 32 then
    some (concentrationMultiple * s.distinctPrincipals)
  else none

/-- No outcome where the product overflows. -/
def concentrationRule (s : DeriveBudgetStats) : Option Ruled :=
  if s.taggedConsumed < concentrationMinSample then some (.notEvaluated, [])
  else if s.distinctPrincipals = 0 then some (.notEvaluated, [])
  else (concentrationBound s).map fun bound =>
    if bound ≤ s.taggedConsumed then
      (.alert, [.concentration s.taggedConsumed s.distinctPrincipals concentrationMultiple])
    else (.quiet, [])

/-! ### The report -/

def incompleteReport (reasons : List BudgetReason) : DeriveBudgetReport where
  saturation := .incomplete
  concentration := .incomplete
  refusalSpike := .incomplete
  fundingWave := .incomplete
  floor := .incomplete
  firstSaturatedAtNs := none
  refusalHistory := []
  sightingHistory := []
  reasons := reasons

/-- The rules over a reply, with the report of the run before. -/
def evaluateStats (s : DeriveBudgetStats) (prior : Option DeriveBudgetReport) (now : Nat) :
    Option DeriveBudgetReport :=
  let floor := floorRule s.floor
  let firstSaturated := firstSaturatedAt (decide (s.budget ≤ s.consumed))
    (prior.bind fun p => p.firstSaturatedAtNs) now
  let saturation := saturationRule s now firstSaturated
  let refusalHistory := pushSample ((prior.map fun p => p.refusalHistory).getD [])
    ⟨now, s.refusalsBudgetTotal, s.statsEpochNs⟩
  let refusalSpike := risenBy refusalSpikePerHour .refusalSpike refusalHistory
  let sightingHistory := pushSample ((prior.map fun p => p.sightingHistory).getD [])
    ⟨now, s.sightingsRecordedTotal, s.statsEpochNs⟩
  let fundingWave := risenBy fundingWavePerHour .fundingWave sightingHistory
  (concentrationRule s).map fun concentration =>
    { saturation := saturation.1
      concentration := concentration.1
      refusalSpike := refusalSpike.1
      fundingWave := fundingWave.1
      floor := floor.1
      firstSaturatedAtNs := firstSaturated
      refusalHistory := refusalHistory
      sightingHistory := sightingHistory
      reasons := floor.2 ++ saturation.2 ++ concentration.2 ++ refusalSpike.2 ++ fundingWave.2 }

/-- No report where the run panics. -/
def evaluateBudgetRules (obs : BudgetObservation) (prior : Option DeriveBudgetReport) (now : Nat) :
    Option DeriveBudgetReport :=
  match obs with
  | .notWired => some (incompleteReport [.noSource])
  | .failed why => some (incompleteReport [.queryFailed why])
  | .stats s => evaluateStats s prior now

end StshProtocol.CycleMonitor
