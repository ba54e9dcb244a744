import StshProtocol.CycleMonitor.Rules
import Mathlib.Data.List.Chain

/-! The derive budget's rules over a sequence of runs.

A counter's history keeps what is at most an hour old, and its rule wants a sample that is at least
an hour old: it is evaluated only where a run stands exactly an hour back, no query has failed since
it, and fewer than two dozen runs came in between. A query that fails also ends what is known of a
saturation. A run does all that is expected of it exactly where nothing of this stands in its way
(`sustained_caught`); values of two epochs are never compared. -/
namespace StshProtocol.CycleMonitor
open Foundation

/-! ### A sequence of runs -/

structure Run where
  nowNs : Nat
  obs : BudgetObservation
  deriving DecidableEq

def Run.answer (r : Run) : Option DeriveBudgetStats :=
  match r.obs with
  | .stats s => some s
  | _ => none

/-- The report of a run, given the runs before, the latest of them first; none once one panics. -/
def report (r : Run) : List Run → Option DeriveBudgetReport
  | [] => evaluateBudgetRules r.obs none r.nowNs
  | q :: past => (report q past).bind fun prior => evaluateBudgetRules r.obs (some prior) r.nowNs

/-- The run was answered in this epoch. -/
def answersIn (epoch : Nat) (r : Run) : Bool :=
  r.answer.any fun s => decide (s.statsEpochNs = epoch)

/-- The run was answered, and the fleet was at its budget. -/
def saturated (r : Run) : Bool := r.answer.any fun s => decide (s.budget ≤ s.consumed)

/-- The epoch of the latest answer. -/
def currentEpoch (runs : List Run) : Option Nat :=
  (runs.findSome? Run.answer).map fun s => s.statsEpochNs

/-- The counter does not decrease within an epoch. -/
def Monotone (counter : DeriveBudgetStats → Nat) (runs : List Run) : Prop :=
  ∀ q ∈ runs, ∀ q' ∈ runs, ∀ s ∈ q.answer, ∀ s' ∈ q'.answer,
    s.statsEpochNs = s'.statsEpochNs → q.nowNs ≤ q'.nowNs → counter s ≤ counter s'

/-- The runs, the latest first, as they are scheduled, and what the canister answers. -/
structure Scheduled (runs : List Run) : Prop where
  later : runs.Pairwise fun r q => q.nowNs < r.nowNs
  close : runs.IsChain fun r q => r.nowNs ≤ q.nowNs + maxStalenessNs
  refusals : Monotone DeriveBudgetStats.refusalsBudgetTotal runs
  sightings : Monotone DeriveBudgetStats.sightingsRecordedTotal runs

/-- The answers of this epoch span an hour. -/
def Spans (epoch : Nat) (runs : List Run) : Prop :=
  ∃ q ∈ runs, ∃ q' ∈ runs, answersIn epoch q ∧ answersIn epoch q' ∧
    q.nowNs + refusalHistorySpanNs ≤ q'.nowNs

/-- Every answer from one on that is old enough was saturated. -/
def SaturatedLong (r : Run) (past : List Run) : Prop :=
  ∃ q ∈ r :: past, q.answer.isSome ∧ q.nowNs + saturationMinElapsedNs ≤ r.nowNs ∧
    ∀ q' ∈ r :: past, q'.answer.isSome → q.nowNs ≤ q'.nowNs → saturated q'

/-! ### What the monitor owes, and when it does it -/

/-- A counter's rule is evaluated, and catches every rise of the last hour. -/
structure Watched (counter : DeriveBudgetStats → Nat) (threshold epoch : Nat) (outcome : RuleOutcome)
    (r : Run) (past : List Run) : Prop where
  evaluated : outcome = .quiet ∨ outcome = .alert
  caught : ∀ q ∈ r :: past, ∀ s ∈ q.answer, s.statsEpochNs = epoch →
    r.nowNs ≤ q.nowNs + refusalHistorySpanNs → ∀ s' ∈ r.answer, counter s + threshold ≤ counter s' →
      outcome = .alert

/-- The samples were read in these runs and in the current epoch. -/
def OneEpoch (counter : DeriveBudgetStats → Nat) (history : List CounterSample) (runs : List Run) : Prop :=
  ∀ sample ∈ history, ∃ q ∈ runs, ∃ s ∈ q.answer, currentEpoch runs = some s.statsEpochNs ∧
    sample = ⟨q.nowNs, counter s, s.statsEpochNs⟩

/-- What a run's report owes. -/
structure Reported (rep : DeriveBudgetReport) (r : Run) (past : List Run) : Prop where
  refusals : ∀ epoch, currentEpoch (r :: past) = some epoch → Spans epoch (r :: past) →
    Watched DeriveBudgetStats.refusalsBudgetTotal refusalSpikePerHour epoch rep.refusalSpike r past
  sightings : ∀ epoch, currentEpoch (r :: past) = some epoch → Spans epoch (r :: past) →
    Watched DeriveBudgetStats.sightingsRecordedTotal fundingWavePerHour epoch rep.fundingWave r past
  oneEpoch : OneEpoch DeriveBudgetStats.refusalsBudgetTotal rep.refusalHistory (r :: past) ∧
    OneEpoch DeriveBudgetStats.sightingsRecordedTotal rep.sightingHistory (r :: past)
  saturation : SaturatedLong r past → rep.saturation = .alert

/-- The run does not panic, and its report is as it should be. -/
def Caught (r : Run) (past : List Run) : Prop := ∃ rep, report r past = some rep ∧ Reported rep r past

/-- The product of the concentration rule fits, if it is computed. -/
def Fits (r : Run) : Prop :=
  ∀ s ∈ r.answer, s.taggedConsumed < concentrationMinSample ∨
    concentrationMultiple * s.distinctPrincipals < 2 ^ 32

/-- A run among the last so many stands exactly an hour back, and since it every query was answered
in the epoch. -/
def HourBack (epoch : Nat) (r : Run) (past : List Run) : Prop :=
  ∃ q ∈ ((r :: past).takeWhile (answersIn epoch)).take refusalHistoryMaxSamples,
    q.nowNs + refusalHistorySpanNs = r.nowNs

/-- Where the fleet has been saturated for long, no query has failed since one answer that is old
enough. -/
def AnsweredThroughout (r : Run) (past : List Run) : Prop :=
  SaturatedLong r past →
    ∃ q ∈ (r :: past).takeWhile saturated, q.nowNs + saturationMinElapsedNs ≤ r.nowNs

/-- Of a run and those before: when its report is as it should be. -/
structure Favourable (r : Run) (past : List Run) : Prop where
  fits : Fits r
  counters : ∀ epoch, currentEpoch (r :: past) = some epoch → Spans epoch (r :: past) →
    HourBack epoch r past
  saturation : AnsweredThroughout r past

/-! ### What a report carries -/

/-- The report a run is given. -/
def priorReport : List Run → Option DeriveBudgetReport
  | [] => none
  | q :: past => report q past

/-- A rule over a counter: how its history and its outcome come out of one evaluation. -/
structure Carries (counter : DeriveBudgetStats → Nat) (threshold : Nat)
    (history : DeriveBudgetReport → List CounterSample) (outcome : DeriveBudgetReport → RuleOutcome) :
    Prop where
  history_stats : ∀ {s prior now rep}, evaluateStats s prior now = some rep →
    history rep = pushSample ((prior.map history).getD []) ⟨now, counter s, s.statsEpochNs⟩
  outcome_stats : ∀ {s prior now rep}, evaluateStats s prior now = some rep →
    ∃ reason, outcome rep = (risenBy threshold reason (history rep)).1
  history_incomplete : ∀ reasons, history (incompleteReport reasons) = []
  outcome_incomplete : ∀ reasons, outcome (incompleteReport reasons) = .incomplete

theorem evaluateStats_eq {s : DeriveBudgetStats} {prior : Option DeriveBudgetReport} {now : Nat}
    {rep : DeriveBudgetReport} (h : evaluateStats s prior now = some rep) :
    rep.firstSaturatedAtNs = firstSaturatedAt (decide (s.budget ≤ s.consumed))
        (prior.bind fun p => p.firstSaturatedAtNs) now ∧
      rep.saturation = (saturationRule s now rep.firstSaturatedAtNs).1 ∧
      rep.refusalHistory = pushSample ((prior.map fun p => p.refusalHistory).getD [])
        ⟨now, s.refusalsBudgetTotal, s.statsEpochNs⟩ ∧
      rep.refusalSpike = (risenBy refusalSpikePerHour .refusalSpike rep.refusalHistory).1 ∧
      rep.sightingHistory = pushSample ((prior.map fun p => p.sightingHistory).getD [])
        ⟨now, s.sightingsRecordedTotal, s.statsEpochNs⟩ ∧
      rep.fundingWave = (risenBy fundingWavePerHour .fundingWave rep.sightingHistory).1 := by
  obtain ⟨c, -, rfl⟩ := Option.map_eq_some_iff.1 h
  exact ⟨rfl, rfl, rfl, rfl, rfl, rfl⟩

theorem refusals_carried : Carries DeriveBudgetStats.refusalsBudgetTotal refusalSpikePerHour
    DeriveBudgetReport.refusalHistory DeriveBudgetReport.refusalSpike where
  history_stats h := (evaluateStats_eq h).2.2.1
  outcome_stats h := ⟨_, (evaluateStats_eq h).2.2.2.1⟩
  history_incomplete _ := rfl
  outcome_incomplete _ := rfl

theorem sightings_carried : Carries DeriveBudgetStats.sightingsRecordedTotal fundingWavePerHour
    DeriveBudgetReport.sightingHistory DeriveBudgetReport.fundingWave where
  history_stats h := (evaluateStats_eq h).2.2.2.2.1
  outcome_stats h := ⟨_, (evaluateStats_eq h).2.2.2.2.2⟩
  history_incomplete _ := rfl
  outcome_incomplete _ := rfl

section History
variable {counter : DeriveBudgetStats → Nat} {threshold epoch : Nat} {r q : Run} {past runs : List Run}
  {s : DeriveBudgetStats} {rep : DeriveBudgetReport} {history : DeriveBudgetReport → List CounterSample}
  {outcome : DeriveBudgetReport → RuleOutcome}

theorem answer_eq_some : r.answer = some s ↔ r.obs = .stats s := by
  rw [Run.answer]
  cases r.obs with
  | stats s' => exact ⟨fun h => congrArg _ (Option.some.inj h), fun h => congrArg some (by injection h)⟩
  | failed why => exact ⟨nofun, nofun⟩
  | notWired => exact ⟨nofun, nofun⟩

theorem answersIn_iff : answersIn epoch r ↔ ∃ s, r.answer = some s ∧ s.statsEpochNs = epoch := by
  simp [answersIn, Option.any_eq_true]

theorem saturated_iff : saturated r ↔ ∃ s, r.answer = some s ∧ s.budget ≤ s.consumed := by
  simp [saturated, Option.any_eq_true]

/-- A run with a report is evaluated with the report of the run before. -/
theorem evaluated_of_report (h : report r past = some rep) :
    evaluateBudgetRules r.obs (priorReport past) r.nowNs = some rep ∧
      ∀ q past', past = q :: past' → ∃ prior, report q past' = some prior := by
  cases past with
  | nil => exact ⟨h, nofun⟩
  | cons q past' =>
    rw [report] at h
    obtain ⟨prior, hprior, heval⟩ := Option.bind_eq_some_iff.1 h
    refine ⟨by rw [priorReport, hprior, heval], fun q' past'' heq => ?_⟩
    cases heq
    exact ⟨prior, hprior⟩

theorem stats_of_report (h : report r past = some rep) (hs : r.answer = some s) :
    evaluateStats s (priorReport past) r.nowNs = some rep := by
  have heval := (evaluated_of_report h).1
  rw [answer_eq_some.1 hs] at heval
  exact heval

/-- Without an answer the report is incomplete throughout. -/
theorem incomplete_of_report (h : report r past = some rep) (hs : r.answer = none) :
    ∃ reasons, rep = incompleteReport reasons := by
  have heval := (evaluated_of_report h).1
  rw [Run.answer] at hs
  cases hobs : r.obs with
  | stats s =>
    rw [hobs] at hs
    cases hs
  | failed why =>
    rw [hobs] at heval
    exact ⟨_, (Option.some.inj heval).symm⟩
  | notWired =>
    rw [hobs] at heval
    exact ⟨_, (Option.some.inj heval).symm⟩

/-! ### The histories -/

/-- What is sampled of an answered run. -/
def sampleOf (counter : DeriveBudgetStats → Nat) (r : Run) : CounterSample :=
  ⟨r.nowNs, r.answer.elim 0 counter, r.answer.elim 0 fun s => s.statsEpochNs⟩

theorem sampleOf_answered (hs : r.answer = some s) :
    sampleOf counter r = ⟨r.nowNs, counter s, s.statsEpochNs⟩ := by
  rw [sampleOf, hs]
  rfl

/-- The runs since the epoch began or a query failed, as far as they are held. -/
def held (epoch : Nat) (r : Run) (past : List Run) : List Run :=
  (((r :: past).takeWhile (answersIn epoch)).take refusalHistoryMaxSamples).filter
    (TrailingLog.since Run.nowNs (r.nowNs - refusalHistorySpanNs))

theorem held_cons (past : List Run) (hs : r.answer = some s) : ∃ rest, held s.statsEpochNs r past = r :: rest := by
  have hin : answersIn s.statsEpochNs r := answersIn_iff.2 ⟨s, hs, rfl⟩
  have hnow : TrailingLog.since Run.nowNs (r.nowNs - refusalHistorySpanNs) r :=
    decide_eq_true (Nat.sub_le _ _)
  rw [held, List.takeWhile_cons_of_pos hin, refusalHistoryMaxSamples, List.take_succ_cons,
    List.filter_cons_of_pos hnow]
  exact ⟨_, rfl⟩

/-- The samples since a horizon are those of the runs since it. -/
theorem map_since (horizon : Nat) (runs : List Run) :
    (runs.filter (TrailingLog.since Run.nowNs horizon)).map (sampleOf counter) =
      (runs.map (sampleOf counter)).filter (TrailingLog.since CounterSample.atNs horizon) := by
  rw [List.filter_map]
  rfl

theorem map_held (counter : DeriveBudgetStats → Nat) : (held epoch r past).map (sampleOf counter) =
    ((((r :: past).takeWhile (answersIn epoch)).map (sampleOf counter)).take
      refusalHistoryMaxSamples).filter
        (TrailingLog.since CounterSample.atNs (r.nowNs - refusalHistorySpanNs)) := by
  rw [held, map_since, List.map_take]

theorem pairwise_samples (counter : DeriveBudgetStats → Nat)
    (h : runs.Pairwise fun r q => q.nowNs < r.nowNs) (p : Run → Bool) :
    ((runs.takeWhile p).map (sampleOf counter)).Pairwise fun a b => b.atNs < a.atNs :=
  (h.sublist (List.takeWhile_sublist p)).map _ fun _ _ hlt => hlt

/-- A history is of the runs that are held. -/
theorem Carries.history_eq (c : Carries counter threshold history outcome)
    (hlater : (r :: past).Pairwise fun r q => q.nowNs < r.nowNs) (h : report r past = some rep)
    (hs : r.answer = some s) :
    (history rep).reverse = (held s.statsEpochNs r past).map (sampleOf counter) := by
  induction past generalizing r rep s with
  | nil =>
    have hin : answersIn s.statsEpochNs r := answersIn_iff.2 ⟨s, hs, rfl⟩
    rw [c.history_stats (stats_of_report h hs), map_held, List.takeWhile_cons_of_pos hin,
      List.map_cons, sampleOf_answered hs]
    exact TrailingLog.prune_push (List.pairwise_singleton _ _) (by decide) (List.filter_nil).symm
      (Nat.zero_le _) (Nat.sub_le _ _)
  | cons q past ih =>
    have hin : answersIn s.statsEpochNs r := answersIn_iff.2 ⟨s, hs, rfl⟩
    obtain ⟨prior, hprior⟩ := (evaluated_of_report h).2 q past rfl
    have heval := stats_of_report h hs
    rw [priorReport, hprior] at heval
    have hsorted := pairwise_samples counter hlater (answersIn s.statsEpochNs)
    have hlog := List.pairwise_cons.1 hlater
    have hqr : q.nowNs < r.nowNs := hlog.1 q List.mem_cons_self
    rw [c.history_stats heval, map_held, List.takeWhile_cons_of_pos hin, List.map_cons,
      sampleOf_answered hs]
    rw [List.takeWhile_cons_of_pos hin, List.map_cons, sampleOf_answered hs] at hsorted
    -- The past's samples are held if they are of this epoch, and else there are none to hold.
    cases hq : q.answer with
    | none =>
      obtain ⟨reasons, rfl⟩ := incomplete_of_report hprior hq
      have hout : ¬answersIn s.statsEpochNs q := fun hcon => by
        obtain ⟨_, hsome, _⟩ := answersIn_iff.1 hcon
        rw [hq] at hsome
        cases hsome
      rw [List.takeWhile_cons_of_neg hout] at hsorted ⊢
      rw [Option.map_some, Option.getD_some, c.history_incomplete]
      exact TrailingLog.prune_push hsorted (by decide) (List.filter_nil).symm (Nat.zero_le _)
        (Nat.sub_le _ _)
    | some sq =>
      have hold := ih hlog.2 hprior hq
      obtain ⟨rest, hrest⟩ := held_cons past hq
      have hlast : (history prior).getLast? = some ⟨q.nowNs, counter sq, sq.statsEpochNs⟩ := by
        rw [← List.head?_reverse, hold, hrest, List.map_cons, sampleOf_answered hq]
        rfl
      rw [Option.map_some, Option.getD_some, pushSample, hlast]
      by_cases hepoch : sq.statsEpochNs = s.statsEpochNs
      · rw [if_neg (by simp [hepoch])]
        rw [hepoch, map_held] at hold
        exact TrailingLog.prune_push hsorted (by decide) hold
          (Nat.sub_le_sub_right (Nat.le_of_lt hqr) _) (Nat.sub_le _ _)
      · have hout : ¬answersIn s.statsEpochNs q := fun hcon => by
          obtain ⟨s', hsome, hs'⟩ := answersIn_iff.1 hcon
          rw [hq] at hsome
          cases hsome
          exact hepoch hs'
        rw [List.takeWhile_cons_of_neg hout] at hsorted ⊢
        rw [if_pos (by simp [hepoch])]
        exact TrailingLog.prune_push hsorted (by decide) (List.filter_nil).symm (Nat.zero_le _)
          (Nat.sub_le _ _)

theorem mem_held : q ∈ held epoch r past ↔
    q ∈ ((r :: past).takeWhile (answersIn epoch)).take refusalHistoryMaxSamples ∧
      r.nowNs - refusalHistorySpanNs ≤ q.nowNs := by
  rw [held, List.mem_filter, TrailingLog.since, decide_eq_true_eq]

theorem answered_of_held (h : q ∈ held epoch r past) :
    q ∈ r :: past ∧ ∃ s, q.answer = some s ∧ s.statsEpochNs = epoch := by
  have hmem := List.mem_of_mem_take (mem_held.1 h).1
  exact ⟨(List.takeWhile_sublist _).mem hmem, answersIn_iff.1 (List.mem_takeWhile_imp hmem)⟩

/-- A counter's rule measures the rise from the oldest run that is held. -/
theorem Carries.measured (c : Carries counter threshold history outcome)
    (hlater : (r :: past).Pairwise fun r q => q.nowNs < r.nowNs) (h : report r past = some rep)
    (hs : r.answer = some s) :
    ∃ o ∈ held s.statsEpochNs r past, (∀ q ∈ held s.statsEpochNs r past, o.nowNs ≤ q.nowNs) ∧
      ∃ so, o.answer = some so ∧ so.statsEpochNs = s.statsEpochNs ∧
        outcome rep =
          if r.nowNs - o.nowNs < refusalHistorySpanNs then .incomplete
          else if threshold ≤ counter s - counter so then .alert else .quiet := by
  have hheld := c.history_eq hlater h hs
  obtain ⟨rest, hrest⟩ := held_cons past hs
  obtain ⟨o, ho⟩ := Option.ne_none_iff_exists'.1
    (show (held s.statsEpochNs r past).getLast? ≠ none by rw [hrest]; simp)
  have hmem := List.mem_of_getLast? ho
  obtain ⟨-, so, hso, hepoch⟩ := answered_of_held hmem
  have hsorted : (held s.statsEpochNs r past).Pairwise fun r q => q.nowNs < r.nowNs :=
    hlater.sublist ((List.filter_sublist).trans ((List.take_sublist _ _).trans (List.takeWhile_sublist _)))
  have hnewest : (history rep).getLast? = some (sampleOf counter r) := by
    rw [← List.head?_reverse, hheld, hrest]
    rfl
  have holdest : (history rep).head? = some (sampleOf counter o) := by
    rw [← List.getLast?_reverse, hheld, List.getLast?_map, ho]
    rfl
  obtain ⟨reason, hout⟩ := c.outcome_stats (stats_of_report h hs)
  refine ⟨o, hmem, TrailingLog.last_le hsorted ho, so, hso, hepoch, ?_⟩
  rw [hout, risenBy, riseOverFullSpan, hnewest, holdest, sampleOf_answered hs, sampleOf_answered hso]
  simp only [ne_eq, hepoch, not_true_eq_false, if_false]
  by_cases hshort : r.nowNs - o.nowNs < refusalHistorySpanNs
  · rw [if_pos hshort, if_pos hshort]
  · rw [if_neg hshort, if_neg hshort]
    show (if threshold ≤ counter s - counter so then ((.alert, [reason _ threshold]) : Ruled) else (.quiet, [])).1 = _
    split
    · rfl
    · rfl

/-- A counter's rule is evaluated where a run stands exactly an hour back. -/
theorem Carries.evaluated_iff (c : Carries counter threshold history outcome)
    (hlater : (r :: past).Pairwise fun r q => q.nowNs < r.nowNs) (h : report r past = some rep)
    (hs : r.answer = some s) :
    (outcome rep = .quiet ∨ outcome rep = .alert) ↔ HourBack s.statsEpochNs r past := by
  obtain ⟨o, ho, hleast, so, -, -, hout⟩ := c.measured hlater h hs
  have hspan : 0 < refusalHistorySpanNs := by decide
  rw [hout]
  constructor
  · intro hevaluated
    have hlong : ¬r.nowNs - o.nowNs < refusalHistorySpanNs := by
      intro hshort
      rw [if_pos hshort] at hevaluated
      exact hevaluated.elim nofun nofun
    obtain ⟨hin, hrecent⟩ := mem_held.1 ho
    exact ⟨o, hin, by omega⟩
  · rintro ⟨q, hq, hback⟩
    have hle := hleast q (mem_held.2 ⟨hq, by omega⟩)
    rw [if_neg (show ¬r.nowNs - o.nowNs < refusalHistorySpanNs by omega)]
    split
    · exact .inr rfl
    · exact .inl rfl

/-- Where it is evaluated it catches every rise of the last hour. -/
theorem Carries.watched (c : Carries counter threshold history outcome)
    (hlater : (r :: past).Pairwise fun r q => q.nowNs < r.nowNs) (hmono : Monotone counter (r :: past))
    (h : report r past = some rep) (hs : r.answer = some s) (hback : HourBack s.statsEpochNs r past) :
    Watched counter threshold s.statsEpochNs (outcome rep) r past := by
  have hevaluated := (c.evaluated_iff hlater h hs).2 hback
  refine ⟨hevaluated, fun q hq sq hsq hepoch hlast s' hs' hrise => ?_⟩
  obtain ⟨o, ho, hleast, so, hso, hsame, hout⟩ := c.measured hlater h hs
  obtain ⟨back, hmem, hat⟩ := hback
  have hle := hleast back (mem_held.2 ⟨hmem, by omega⟩)
  rw [hs] at hs'
  cases hs'
  have hfrom : counter so ≤ counter sq := hmono o (answered_of_held ho).1 q hq so hso sq hsq
    (hsame.trans hepoch.symm) (by omega)
  rw [hout, if_neg (show ¬r.nowNs - o.nowNs < refusalHistorySpanNs by omega), if_pos (by omega)]

/-- The samples are of runs of the current epoch. -/
theorem Carries.oneEpoch (c : Carries counter threshold history outcome)
    (hlater : (r :: past).Pairwise fun r q => q.nowNs < r.nowNs) (h : report r past = some rep) :
    OneEpoch counter (history rep) (r :: past) := by
  intro sample hsample
  cases hs : r.answer with
  | none =>
    obtain ⟨reasons, rfl⟩ := incomplete_of_report h hs
    rw [c.history_incomplete] at hsample
    cases hsample
  | some s =>
    rw [← List.mem_reverse, c.history_eq hlater h hs, List.mem_map] at hsample
    obtain ⟨q, hq, rfl⟩ := hsample
    obtain ⟨hmem, sq, hsq, hepoch⟩ := answered_of_held hq
    refine ⟨q, hmem, sq, hsq, ?_, sampleOf_answered hsq⟩
    rw [currentEpoch, List.findSome?_cons, hs, hepoch]
    rfl

/-! ### The saturation -/

/-- The mark is the first run of those that were all saturated up to now. -/
theorem first_saturated (h : report r past = some rep) :
    rep.firstSaturatedAtNs = ((r :: past).takeWhile saturated).getLast?.map Run.nowNs := by
  induction past generalizing r rep with
  | nil =>
    cases hs : r.answer with
    | none =>
      obtain ⟨reasons, rfl⟩ := incomplete_of_report h hs
      have hnot : ¬saturated r := by simp [saturated, hs]
      rw [List.takeWhile_cons_of_neg hnot]
      rfl
    | some s =>
      rw [(evaluateStats_eq (stats_of_report h hs)).1]
      by_cases hfull : s.budget ≤ s.consumed
      · rw [List.takeWhile_cons_of_pos (saturated_iff.2 ⟨s, hs, hfull⟩), decide_eq_true hfull]
        rfl
      · have hnot : ¬saturated r := by simpa [saturated, hs] using hfull
        rw [List.takeWhile_cons_of_neg hnot, decide_eq_false hfull]
        rfl
  | cons q past ih =>
    obtain ⟨prior, hprior⟩ := (evaluated_of_report h).2 q past rfl
    have hmark := ih hprior
    cases hs : r.answer with
    | none =>
      obtain ⟨reasons, rfl⟩ := incomplete_of_report h hs
      have hnot : ¬saturated r := by simp [saturated, hs]
      rw [List.takeWhile_cons_of_neg hnot]
      rfl
    | some s =>
      have heval := stats_of_report h hs
      rw [priorReport, hprior] at heval
      rw [(evaluateStats_eq heval).1, Option.bind_some, hmark]
      by_cases hfull : s.budget ≤ s.consumed
      · rw [List.takeWhile_cons_of_pos (saturated_iff.2 ⟨s, hs, hfull⟩), decide_eq_true hfull,
          List.getLast?_cons]
        cases ((q :: past).takeWhile saturated).getLast? with
        | none => rfl
        | some first => rfl
      · have hnot : ¬saturated r := by simpa [saturated, hs] using hfull
        rw [List.takeWhile_cons_of_neg hnot, decide_eq_false hfull]
        rfl

/-- Saturation alerts where a run that is old enough stands before none but saturated ones. -/
theorem saturation_alert_iff (hlater : (r :: past).Pairwise fun r q => q.nowNs < r.nowNs)
    (h : report r past = some rep) :
    rep.saturation = .alert ↔
      ∃ q ∈ (r :: past).takeWhile saturated, q.nowNs + saturationMinElapsedNs ≤ r.nowNs := by
  have hmin : 0 < saturationMinElapsedNs := by decide
  cases hs : r.answer with
  | none =>
    obtain ⟨reasons, rfl⟩ := incomplete_of_report h hs
    have hnot : ¬saturated r := by simp [saturated, hs]
    rw [List.takeWhile_cons_of_neg hnot]
    exact ⟨nofun, nofun⟩
  | some s =>
    have hsorted := hlater.sublist (List.takeWhile_sublist saturated)
    rw [(evaluateStats_eq (stats_of_report h hs)).2.1, first_saturated h]
    cases hlast : ((r :: past).takeWhile saturated).getLast? with
    | none =>
      rw [List.getLast?_eq_none_iff.1 hlast]
      exact ⟨nofun, nofun⟩
    | some o =>
      rw [Option.map_some, saturationRule]
      constructor
      · intro halert
        by_cases hlong : saturationMinElapsedNs ≤ r.nowNs - o.nowNs
        · exact ⟨o, List.mem_of_getLast? hlast, by omega⟩
        · rw [if_neg hlong] at halert
          cases halert
      · rintro ⟨q, hq, hlong⟩
        have hle := TrailingLog.last_le hsorted hlast q hq
        rw [if_pos (by omega)]

/-! ### Every run -/

theorem currentEpoch_answered (hs : r.answer = some s) :
    currentEpoch (r :: past) = some s.statsEpochNs := by
  rw [currentEpoch, List.findSome?_cons, hs]
  rfl

/-- A run that does not overflow has a report if the one before had. -/
theorem report_of_fits (hprior : ∀ q past', past = q :: past' → ∃ prior, report q past' = some prior)
    (hfits : Fits r) : ∃ rep, report r past = some rep := by
  have heval : ∀ prior, ∃ rep, evaluateBudgetRules r.obs prior r.nowNs = some rep := by
    intro prior
    cases hobs : r.obs with
    | notWired => exact ⟨_, rfl⟩
    | failed why => exact ⟨_, rfl⟩
    | stats s =>
      have hrule : ∃ c, concentrationRule s = some c := by
        rw [concentrationRule]
        by_cases hfew : s.taggedConsumed < concentrationMinSample
        · exact ⟨_, if_pos hfew⟩
        · rw [if_neg hfew]
          by_cases hnone : s.distinctPrincipals = 0
          · exact ⟨_, if_pos hnone⟩
          · rw [if_neg hnone, concentrationBound,
              if_pos ((hfits s (answer_eq_some.2 hobs)).resolve_left hfew)]
            exact ⟨_, rfl⟩
      obtain ⟨c, hc⟩ := hrule
      exact ⟨_, Option.map_eq_some_iff.2 ⟨c, hc, rfl⟩⟩
  cases past with
  | nil => exact heval none
  | cons q past' =>
    obtain ⟨prior, hq⟩ := hprior q past' rfl
    obtain ⟨rep, hrep⟩ := heval (some prior)
    exact ⟨rep, Option.bind_eq_some_iff.2 ⟨prior, hq, hrep⟩⟩

theorem fits_of_report (h : report r past = some rep) : Fits r := by
  intro s hs
  obtain ⟨c, hc, -⟩ := Option.map_eq_some_iff.1 (stats_of_report h hs)
  by_cases hfew : s.taggedConsumed < concentrationMinSample
  · exact .inl hfew
  · refine .inr ?_
    rw [concentrationRule, if_neg hfew] at hc
    by_cases hnone : s.distinctPrincipals = 0
    · rw [hnone]
      decide
    · rw [if_neg hnone, concentrationBound] at hc
      by_cases hlt : concentrationMultiple * s.distinctPrincipals < 2 ^ 32
      · exact hlt
      · rw [if_neg hlt] at hc
        cases hc

/-- A run whose query failed has no counter evaluated and stands an hour after none. -/
theorem not_hourBack (hs : r.answer = none) : ¬HourBack epoch r past := by
  rintro ⟨q, hq, -⟩
  have hnot : ¬answersIn epoch r := by simp [answersIn, hs]
  rw [List.takeWhile_cons_of_neg hnot, List.take_nil] at hq
  cases hq

/-- Each counter's rule owes what it does exactly where a run stands an hour back. -/
theorem Carries.watched_iff (c : Carries counter threshold history outcome)
    (hlater : (r :: past).Pairwise fun r q => q.nowNs < r.nowNs) (hmono : Monotone counter (r :: past))
    (h : report r past = some rep) :
    (∀ epoch, currentEpoch (r :: past) = some epoch → Spans epoch (r :: past) →
        Watched counter threshold epoch (outcome rep) r past) ↔
      ∀ epoch, currentEpoch (r :: past) = some epoch → Spans epoch (r :: past) →
        HourBack epoch r past := by
  refine forall₃_congr fun epoch hepoch _ => ?_
  cases hs : r.answer with
  | none =>
    obtain ⟨reasons, rfl⟩ := incomplete_of_report h hs
    refine ⟨fun hwatched => ?_, fun hback => absurd hback (not_hourBack hs)⟩
    have hevaluated := hwatched.evaluated
    rw [c.outcome_incomplete] at hevaluated
    exact hevaluated.elim nofun nofun
  | some s =>
    rw [currentEpoch_answered hs] at hepoch
    cases hepoch
    exact ⟨fun hwatched => (c.evaluated_iff hlater h hs).1 hwatched.evaluated,
      c.watched hlater hmono h hs⟩

theorem Scheduled.suffix {runs' : List Run} (h : Scheduled runs) (hsuffix : runs' <:+ runs) :
    Scheduled runs' where
  later := h.later.sublist hsuffix.sublist
  close := h.close.suffix hsuffix
  refusals q hq q' hq' := h.refusals q (hsuffix.mem hq) q' (hsuffix.mem hq')
  sightings q hq q' hq' := h.sightings q (hsuffix.mem hq) q' (hsuffix.mem hq')

/-- A run that has a report is caught exactly if it is favourable. -/
theorem reported_iff (hs : Scheduled (r :: past)) (h : report r past = some rep) :
    Reported rep r past ↔ Favourable r past := by
  constructor
  · intro hrep
    exact ⟨fits_of_report h, (refusals_carried.watched_iff hs.later hs.refusals h).1 hrep.refusals,
      fun hlong => (saturation_alert_iff hs.later h).1 (hrep.saturation hlong)⟩
  · intro hfav
    exact ⟨(refusals_carried.watched_iff hs.later hs.refusals h).2 hfav.counters,
      (sightings_carried.watched_iff hs.later hs.sightings h).2 hfav.counters,
      ⟨refusals_carried.oneEpoch hs.later h, sightings_carried.oneEpoch hs.later h⟩,
      fun hlong => (saturation_alert_iff hs.later h).2 (hfav.saturation hlong)⟩

end History

/-- In every sequence of runs, each is caught exactly if each is favourable. -/
theorem sustained_caught (runs : List Run) (hs : Scheduled runs) :
    (∀ r past, r :: past <:+ runs → Caught r past) ↔ ∀ r past, r :: past <:+ runs → Favourable r past := by
  constructor
  · intro hall r past hsuffix
    obtain ⟨rep, hrep, hreported⟩ := hall r past hsuffix
    exact (reported_iff (hs.suffix hsuffix) hrep).1 hreported
  · intro hall r past hsuffix
    -- The runs before are favourable too, so that they leave reports.
    have hreport : ∃ rep, report r past = some rep := by
      induction past generalizing r with
      | nil => exact report_of_fits nofun (hall r [] hsuffix).fits
      | cons q past ih =>
        refine report_of_fits (fun q' past' heq => ?_) (hall r (q :: past) hsuffix).fits
        cases heq
        exact ih q ((List.suffix_cons r _).trans hsuffix)
    obtain ⟨rep, hrep⟩ := hreport
    exact ⟨rep, hrep, (reported_iff (hs.suffix hsuffix) hrep).2 (hall r past hsuffix)⟩

/-- An answer with room to spare, and so many refusals since the epoch began. -/
def calm (refusals : Nat) : BudgetObservation :=
  .stats ⟨100, 0, 0, 0, refusals, 0, .live true, 0⟩

/-- Runs at a cadence that is kept. -/
def punctual : List Run :=
  [⟨3600000000000, calm 5⟩, ⟨2700000000000, calm 4⟩, ⟨1800000000000, calm 0⟩, ⟨900000000000, calm 0⟩,
    ⟨0, calm 0⟩]

theorem sustained_caught_punctual :
    (∀ r past, r :: past <:+ punctual → Caught r past) ↔
      ∀ r past, r :: past <:+ punctual → Favourable r past :=
  sustained_caught punctual ⟨by decide +kernel, by decide +kernel, by unfold Monotone; decide +kernel,
    by unfold Monotone; decide +kernel⟩

/-- Runs at a cadence that is not kept to the nanosecond, and a thousand refusals in the last. -/
def jittered : List Run :=
  [⟨3700000000000, calm 1000⟩, ⟨3200000000000, calm 0⟩, ⟨2400000000000, calm 0⟩,
    ⟨1600000000000, calm 0⟩, ⟨800000000000, calm 0⟩, ⟨0, calm 0⟩]

/-- More than an hour is spanned, and the refusals are not seen. -/
theorem jittered_missed : Scheduled jittered ∧
    ¬∀ r past, r :: past <:+ jittered → Caught r past := by
  refine ⟨⟨by decide +kernel, by decide +kernel, ?_, ?_⟩, fun hall => ?_⟩
  · unfold Monotone
    decide +kernel
  · unfold Monotone
    decide +kernel
  · obtain ⟨rep, hrep, hreported⟩ := hall _ _ (List.suffix_refl jittered)
    have hout : (report ⟨3700000000000, calm 1000⟩ jittered.tail).map (fun rep => rep.refusalSpike) =
        some .incomplete := by decide +kernel
    rw [show report ⟨3700000000000, calm 1000⟩ jittered.tail = some rep from hrep] at hout
    have hspans : Spans 0 jittered :=
      ⟨⟨0, calm 0⟩, by decide +kernel, ⟨3700000000000, calm 1000⟩, by decide +kernel, by decide +kernel⟩
    have hevaluated := (hreported.refusals 0 (by decide +kernel) hspans).evaluated
    rw [show rep.refusalSpike = .incomplete from Option.some.inj hout] at hevaluated
    exact hevaluated.elim nofun nofun

end StshProtocol.CycleMonitor
