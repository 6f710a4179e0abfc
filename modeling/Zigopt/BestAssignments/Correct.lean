/-
Module: Zigopt.BestAssignments.Correct
Layer: BestAssignments
Purpose: The returned observations are best in terms of names and objectives: with a single optimized
  metric no eligible observation is better, and with several ones they are the Pareto-efficient ones.
Main exports: Eligible, Better, ParetoEfficient, SingleBest, Accepted, bestObservations_correct
-/
import Zigopt.BestAssignments.Service
import Zigopt.Lib.Pareto
import Zigopt.Observations.Tasked

namespace Zigopt.BestAssignments

open Observations Raising

/-- The metric has a value, which is not worse than its threshold. -/
def MeetsThreshold (experiment : Experiment) (observation : Observation) (metric : ExperimentMetric) : Prop :=
  ∃ value, observation.data.metricValue experiment.toMetricsExperiment metric.name = some value ∧
    ∀ threshold ∈ metric.threshold,
      match metric.objective with
      | .maximize => threshold ≤ value
      | .minimize => value ≤ threshold

/-- What an observation must be to compete: reported as a success, within the threshold of every metric that has one,
    and at full cost. -/
structure Eligible (experiment : Experiment) (observation : Observation) : Prop where
  succeeded : observation.data.reportedFailure = false
  thresholds : ∀ metric ∈ experiment.allMetrics, MeetsThreshold experiment observation metric
  fullCost : cost observation = 1

/-- Strictly better in the objective of the metric. -/
def Better (experiment : Experiment) (metric : ExperimentMetric) (first second : Observation) : Prop :=
  match metric.objective with
  | .maximize => second.data.valueOf experiment.toMetricsExperiment metric <
      first.data.valueOf experiment.toMetricsExperiment metric
  | .minimize => first.data.valueOf experiment.toMetricsExperiment metric <
      second.data.valueOf experiment.toMetricsExperiment metric

/-- No other eligible observation is better in some optimized metric and worse in none. -/
def ParetoEfficient (experiment : Experiment) (observations : List Observation) (observation : Observation) :
    Prop :=
  ∀ other ∈ observations, Eligible experiment other →
    ¬((∀ metric ∈ experiment.optimizedMetrics, ¬Better experiment metric observation other) ∧
      ∃ metric ∈ experiment.optimizedMetrics, Better experiment metric other observation)

/-- Nothing if no observation is eligible, and otherwise one that no eligible observation is better than. -/
def SingleBest (experiment : Experiment) (observations returned : List Observation) : Prop :=
  (returned = [] ∧ ∀ observation ∈ observations, ¬Eligible experiment observation) ∨
    ∃ best, returned = [best] ∧ best ∈ observations ∧ Eligible experiment best ∧
      ∀ metric ∈ experiment.optimizedMetrics, ∀ other ∈ observations, Eligible experiment other →
        ¬Better experiment metric other best

def ParetoSet (experiment : Experiment) (observations returned : List Observation) : Prop :=
  ∀ observation, observation ∈ returned ↔
    observation ∈ observations ∧ Eligible experiment observation ∧
      ParetoEfficient experiment observations observation

/-- The metrics are named apart, and tasks come with a single optimized metric. -/
structure Accepted (experiment : Experiment) : Prop where
  distinct : (experiment.allMetrics.map (·.name)).Nodup
  singleTask : 1 < experiment.optimizedMetrics.length → experiment.isMultitask = false

section Correct

variable {experiment : Experiment} {observation other : Observation}

theorem better_iff {metric : ExperimentMetric} :
    Better experiment metric observation other ↔
      metric.forMaximization (other.data.valueOf experiment.toMetricsExperiment metric) <
        metric.forMaximization (observation.data.valueOf experiment.toMetricsExperiment metric) := by
  unfold Better ExperimentMetric.forMaximization
  cases metric.objective with
  | maximize => rfl
  | minimize => exact neg_lt_neg_iff.symm

theorem withinMetricThresholds_iff :
    withinMetricThresholds experiment observation = true ↔
      ∀ metric ∈ experiment.allMetrics, MeetsThreshold experiment observation metric := by
  unfold withinMetricThresholds ObservationData.withinMetricThresholds
  rw [List.all_eq_true]
  refine forall₂_congr fun metric _ => ?_
  unfold ObservationData.withinMetricThreshold MeetsThreshold
  cases observation.data.metricValue experiment.toMetricsExperiment metric.name with
  | none => simp
  | some value =>
      cases metric.threshold with
      | none => simp
      | some threshold =>
          cases metric.objective with
          | maximize => simp
          | minimize => simp

theorem mem_validObservations {observations : List Observation} {fullCost : Option ℚ} :
    observation ∈ validObservations observations fullCost ↔
      observation ∈ observations ∧ observation.data.reportedFailure = false ∧
        ∀ expected ∈ fullCost, cost observation = expected := by
  simp [validObservations]

/-- What is within all thresholds is measured in all metrics. -/
theorem measured_of_within (accepted : Accepted experiment)
    (storable : Storable experiment.toMetricsExperiment observation.data)
    (within : ∀ metric ∈ experiment.allMetrics, MeetsThreshold experiment observation metric) :
    Measured experiment.toMetricsExperiment observation.data where
  distinct := accepted.distinct
  values := by
    intro metric isMetric
    obtain ⟨value, found, _⟩ := within metric isMetric
    rw [found]
    rfl
  few := by
    have someMetric := List.length_pos_of_ne_nil experiment.allMetrics_ne_nil
    have fewSorted : observation.data.sortedMeasurements.length ≤ experiment.allMetrics.length := by
      unfold ObservationData.sortedMeasurements
      split
      · exact Nat.zero_le _
      · split
        · exact someMetric
        · rw [List.length_insertionSort]
          exact storable.few
    unfold ObservationData.getAllMeasurements
    split
    · split
      · exact someMetric
      · exact someMetric
    · exact fewSorted

/-! ### A single optimized metric -/

theorem allMetrics_of_optimized {metric : ExperimentMetric} (optimized : metric ∈ experiment.optimizedMetrics) :
    metric ∈ experiment.allMetrics :=
  List.mem_of_mem_filter optimized

theorem defaultMetricName_of_optimized {metric : ExperimentMetric} {others : List ExperimentMetric}
    (optimized : experiment.optimizedMetrics = metric :: others) :
    defaultMetricName experiment = .ok metric.name := by
  have notSearch : experiment.isSearch = false := by
    simp [Experiment.isSearch, optimized]
  rw [defaultMetricName, notSearch, if_neg (by simp), optimized]
  rfl

theorem singleMetricBest_correct {metric : ExperimentMetric} {observations : List Observation}
    (accepted : Accepted experiment)
    (storable : ∀ observation ∈ observations, Storable experiment.toMetricsExperiment observation.data)
    (optimized : experiment.optimizedMetrics = [metric]) :
    ∃ best, singleMetricBest experiment observations (some 1) = .ok best ∧
      SingleBest experiment observations best.toList := by
  have isMetric : metric ∈ experiment.allMetrics :=
    allMetrics_of_optimized (optimized ▸ List.mem_singleton_self metric)
  have isCandidate : ∀ observation, observation ∈ (validObservations observations (some 1)).filter
      (withinMetricThresholds experiment) ↔ observation ∈ observations ∧ Eligible experiment observation := by
    intro observation
    rw [List.mem_filter, mem_validObservations, withinMetricThresholds_iff]
    constructor
    · rintro ⟨⟨member, succeeded, full⟩, within⟩
      exact ⟨member, succeeded, within, full 1 rfl⟩
    · rintro ⟨member, eligible⟩
      refine ⟨⟨member, eligible.succeeded, ?_⟩, eligible.thresholds⟩
      intro expected isOne
      rw [← Option.mem_some_iff.mp isOne]
      exact eligible.fullCost
  have numbers : ∀ observation ∈ (validObservations observations (some 1)).filter
      (withinMetricThresholds experiment), valueForMaximization experiment metric.name observation =
        .ok (some (metric.forMaximization
          (observation.data.valueOf experiment.toMetricsExperiment metric))) := by
    intro observation candidate
    obtain ⟨member, eligible⟩ := (isCandidate observation).mp candidate
    exact (measured_of_within accepted (storable observation member) eligible.thresholds).valueForMaximization_eq
      isMetric
  obtain ⟨best, selected, noneIff, greatest⟩ :=
    Selection.maxOption_of_numbers ServerError.typeError numbers
  refine ⟨best, ?_, ?_⟩
  · rw [singleMetricBest, bestFromValidObservations, defaultMetricName_of_optimized optimized, ok_bind]
    exact selected
  · cases best with
    | none =>
        refine .inl ⟨rfl, ?_⟩
        intro observation member eligible
        have candidate := (isCandidate observation).mpr ⟨member, eligible⟩
        rw [noneIff.mp rfl] at candidate
        cases candidate
    | some best =>
        obtain ⟨candidate, unbeaten⟩ := greatest best rfl
        obtain ⟨member, eligible⟩ := (isCandidate best).mp candidate
        refine .inr ⟨best, rfl, member, eligible, ?_⟩
        intro other isOptimized observation isObservation otherEligible
        rw [optimized, List.mem_singleton] at isOptimized
        subst isOptimized
        rw [better_iff, not_lt]
        exact unbeaten observation ((isCandidate observation).mpr ⟨isObservation, otherEligible⟩)

/-! ### Several optimized metrics -/

/-- The values of the optimized metrics, with the sign in which larger is better. -/
def point (experiment : Experiment) (observation : Observation) : List ℚ :=
  experiment.optimizedMetrics.map fun metric =>
    metric.forMaximization (observation.data.valueOf experiment.toMetricsExperiment metric)

theorem dominates_point_iff :
    Pareto.Dominates (point experiment other) (point experiment observation) ↔
      (∀ metric ∈ experiment.optimizedMetrics, ¬Better experiment metric observation other) ∧
        ∃ metric ∈ experiment.optimizedMetrics, Better experiment metric other observation := by
  simp only [point, Pareto.dominates_map_iff, better_iff, not_lt]

theorem withOptimizedValues_eq (measured : Measured experiment.toMetricsExperiment observation.data) :
    withOptimizedValues experiment observation = .ok (point experiment observation, observation) := by
  obtain ⟨measurements, read, numbers⟩ := measured.optimizedMeasurements_eq
  rw [withOptimizedValues, read, ok_bind, numbers]
  rfl

section Several

variable {libsigopt : Libsigopt} {observations : List Observation}

/-- What the search for the frontier gets. -/
def candidates (experiment : Experiment) (observations : List Observation) : List Observation :=
  validObservations (observations.filter (withinMetricThresholds experiment)) none

/-- Without tasks every observation has full cost. -/
theorem mem_candidates (accepted : Accepted experiment) (several : 1 < experiment.optimizedMetrics.length)
    (storable : ∀ observation ∈ observations, Storable experiment.toMetricsExperiment observation.data) :
    observation ∈ candidates experiment observations ↔
      observation ∈ observations ∧ Eligible experiment observation := by
  rw [candidates, mem_validObservations, List.mem_filter, withinMetricThresholds_iff]
  constructor
  · rintro ⟨⟨member, within⟩, succeeded, _⟩
    refine ⟨member, succeeded, within, ?_⟩
    rw [cost, (storable observation member).untasked (accepted.singleTask several)]
    rfl
  · rintro ⟨member, eligible⟩
    exact ⟨⟨member, eligible.thresholds⟩, eligible.succeeded, nofun⟩

theorem measured_of_candidate (accepted : Accepted experiment)
    (storable : ∀ observation ∈ observations, Storable experiment.toMetricsExperiment observation.data)
    (candidate : observation ∈ candidates experiment observations) :
    Measured experiment.toMetricsExperiment observation.data := by
  obtain ⟨within, _⟩ := mem_validObservations.mp candidate
  obtain ⟨member, thresholds⟩ := List.mem_filter.mp within
  exact measured_of_within accepted (storable observation member) (withinMetricThresholds_iff.mp thresholds)

/-- The frontier that is found has the candidates that no other candidate dominates. -/
theorem paretoFrontier_eq
    (findsEfficient : Pareto.FindsEfficient libsigopt.findParetoFrontierObservationsForMaximization)
    (accepted : Accepted experiment)
    (storable : ∀ observation ∈ observations, Storable experiment.toMetricsExperiment observation.data) :
    ∃ frontier, paretoFrontier libsigopt experiment (observations.filter (withinMetricThresholds experiment)) =
        .ok frontier ∧
      ∀ observation, observation ∈ frontier ↔ observation ∈ candidates experiment observations ∧
        ∀ other ∈ candidates experiment observations,
          ¬Pareto.Dominates (point experiment other) (point experiment observation) := by
  rw [paretoFrontier, ← candidates]
  have measured := fun observation => @measured_of_candidate _ observation _ accepted storable
  cases valid : candidates experiment observations with
  | nil => exact ⟨[], rfl, fun observation => iff_of_false List.not_mem_nil fun impossible => nomatch impossible.1⟩
  | cons first rest =>
      have mapped : (candidates experiment observations).mapM (withOptimizedValues experiment) =
          .ok ((candidates experiment observations).map fun observation =>
            (point experiment observation, observation)) := by
        rw [mapM_eq_ok, List.forall₂_map_right_iff, List.forall₂_same]
        exact fun observation candidate => withOptimizedValues_eq (measured observation candidate)
      rw [← valid]
      refine ⟨libsigopt.findParetoFrontierObservationsForMaximization
        ((candidates experiment observations).map fun observation => (point experiment observation, observation)),
        ?_, ?_⟩
      · rw [valid] at mapped ⊢
        dsimp only
        rw [mapped, ok_bind]
        rfl
      intro observation
      rw [findsEfficient _ experiment.optimizedMetrics.length (by simp [valid]) (by simp [point]) observation]
      simp only [List.mem_map, Pareto.Efficient]
      constructor
      · rintro ⟨_, ⟨candidate, isCandidate, rfl⟩, rfl, efficient⟩
        exact ⟨isCandidate, fun other isOther => efficient _ ⟨other, isOther, rfl⟩⟩
      · rintro ⟨isCandidate, undominated⟩
        refine ⟨_, ⟨observation, isCandidate, rfl⟩, rfl, ?_⟩
        rintro _ ⟨other, isOther, rfl⟩
        exact undominated other isOther

theorem multiMetricBest_correct
    (findsEfficient : Pareto.FindsEfficient libsigopt.findParetoFrontierObservationsForMaximization)
    (accepted : Accepted experiment) (several : 1 < experiment.optimizedMetrics.length)
    (storable : ∀ observation ∈ observations, Storable experiment.toMetricsExperiment observation.data) :
    ∃ returned, multiMetricBest libsigopt experiment observations true = .ok returned ∧
      ParetoSet experiment observations returned := by
  obtain ⟨frontier, found, isFrontier⟩ := paretoFrontier_eq findsEfficient accepted storable
  cases optimized : experiment.optimizedMetrics with
  | nil =>
      rw [optimized] at several
      exact absurd several (Nat.not_lt_zero 1)
  | cons metric others =>
      have isMetric : metric ∈ experiment.allMetrics :=
        allMetrics_of_optimized (optimized ▸ List.mem_cons_self)
      have numbers : ∀ observation ∈ frontier, valueForMaximization experiment metric.name observation =
          .ok (some (metric.forMaximization
            (observation.data.valueOf experiment.toMetricsExperiment metric))) := by
        intro observation member
        have candidate := ((isFrontier observation).mp member).1
        exact (measured_of_candidate accepted storable candidate).valueForMaximization_eq isMetric
      obtain ⟨sorted, isSorted, perm⟩ := Selection.sortDescending_of_numbers numbers
      refine ⟨sorted, ?_, ?_⟩
      · rw [multiMetricBest, defaultMetricName_of_optimized optimized, ok_bind, if_pos rfl, found, ok_bind]
        exact isSorted
      · intro observation
        rw [perm.mem_iff, isFrontier, mem_candidates accepted several storable, and_assoc, ParetoEfficient]
        refine and_congr_right fun _ => and_congr_right fun _ => ?_
        simp only [mem_candidates accepted several storable, dominates_point_iff, and_imp]

end Several

/-- The returned observations are best: with a single optimized metric one that no eligible observation is
    better than, and with several ones exactly the Pareto-efficient eligible observations. Experiments that
    ask for several solutions get other ones. -/
theorem bestObservations_correct (libsigopt : Libsigopt)
    (findsEfficient : Pareto.FindsEfficient libsigopt.findParetoFrontierObservationsForMaximization)
    (experiment : Experiment) (accepted : Accepted experiment) (oneSolution : experiment.numSolutions ≤ 1)
    (observations : List Observation)
    (storable : ∀ observation ∈ observations, Storable experiment.toMetricsExperiment observation.data) :
    (experiment.optimizedMetrics.length = 1 →
      ∃ returned, getBestObservations libsigopt experiment observations = .ok returned ∧
        SingleBest experiment observations returned) ∧
    (1 < experiment.optimizedMetrics.length →
      ∃ returned, getBestObservations libsigopt experiment observations = .ok returned ∧
        ParetoSet experiment observations returned) := by
  constructor
  · intro single
    obtain ⟨metric, optimized⟩ := List.length_eq_one_iff.mp single
    obtain ⟨best, selected, isBest⟩ := singleMetricBest_correct accepted storable optimized
    refine ⟨best.toList, ?_, isBest⟩
    have notSeveral : experiment.requiresParetoFrontierOptimization = false := by
      simp [Experiment.requiresParetoFrontierOptimization, single]
    have notSearch : experiment.isSearch = false := by
      simp [Experiment.isSearch, single]
    rw [getBestObservations, if_neg (by simp [notSeveral]), if_neg (by simp [notSearch]),
      if_neg (Nat.not_lt.mpr oneSolution), selected, ok_bind]
    rfl
  · intro several
    obtain ⟨returned, selected, isSet⟩ := multiMetricBest_correct findsEfficient accepted several storable
    refine ⟨returned, ?_, isSet⟩
    rw [getBestObservations, if_pos (by simpa [Experiment.requiresParetoFrontierOptimization] using several),
      selected]

end Correct

/-! ### Two runs of an experiment -/

/-- A search for the frontier that compares each point with each, and no compute service. -/
def comparingLibsigopt : Libsigopt where
  findParetoFrontierObservationsForMaximization := Pareto.efficientPoints
  multisolutionTopObservationsFraction := 1 / 10
  multisolutionBestAssignments _ _ := none

def withValues (values : List (String × ℚ)) : Observation where
  data := { values := values.map fun entry => { name := entry.1, value := some entry.2 } }

theorem accepted_of_single {metric : ExperimentMetric} (numSolutions : Nat) :
    Accepted { metrics := [metric], numSolutions := numSolutions } where
  distinct := List.nodup_singleton _
  singleTask _ := rfl

/-- Two observations of a single metric. -/
theorem storable_of_single {experiment : Experiment} {name : String} {first second : ℚ}
    (single : experiment.allMetrics.length = 1) :
    ∀ observation ∈ [withValues [(name, first)], withValues [(name, second)]],
      Storable experiment.toMetricsExperiment observation.data := by
  intro observation member
  rcases List.mem_pair.mp member with rfl | rfl
  · exact ⟨single.ge, fun _ => rfl⟩
  · exact ⟨single.ge, fun _ => rfl⟩

/-- Two optimized metrics, one with a threshold, and a bound on the memory. -/
def frontierWithin : Experiment where
  metrics := [{ name := "accuracy", threshold := some (1 / 2) }, { name := "latency", objective := .minimize },
    { name := "memory", objective := .minimize, threshold := some 8, strategy := .constraint }]

def measuredIn (accuracy latency memory : ℚ) : Observation :=
  withValues [("accuracy", accuracy), ("latency", latency), ("memory", memory)]

/-- The third is worse than both before it; the last two miss a threshold each. -/
def measuredOften : List Observation :=
  [measuredIn (9 / 10) 30 5, measuredIn (8 / 10) 20 5, measuredIn (7 / 10) 40 5, measuredIn (95 / 100) 10 20,
    measuredIn (4 / 10) 5 5]

/-- Of the observations within both thresholds the two efficient ones are returned. -/
theorem bestObservations_frontierWithin :
    getBestObservations comparingLibsigopt frontierWithin measuredOften =
        .ok [measuredIn (9 / 10) 30 5, measuredIn (8 / 10) 20 5] ∧
      ParetoSet frontierWithin measuredOften [measuredIn (9 / 10) 30 5, measuredIn (8 / 10) 20 5] := by
  have computed : getBestObservations comparingLibsigopt frontierWithin measuredOften =
      .ok [measuredIn (9 / 10) 30 5, measuredIn (8 / 10) 20 5] := by decide +kernel
  have accepted : Accepted frontierWithin := ⟨by decide +kernel, fun _ => rfl⟩
  have storable : ∀ observation ∈ measuredOften,
      Storable frontierWithin.toMetricsExperiment observation.data := by
    have few : ∀ observation ∈ measuredOften, observation.data.values.length ≤ frontierWithin.allMetrics.length ∧
        observation.data.task = none := by decide +kernel
    exact fun observation member => ⟨(few observation member).1, fun _ => (few observation member).2⟩
  have several : 1 < frontierWithin.optimizedMetrics.length := by decide +kernel
  obtain ⟨returned, selected, isSet⟩ := (bestObservations_correct comparingLibsigopt
    Pareto.efficientPoints_findsEfficient frontierWithin accepted (Nat.zero_le 1) measuredOften storable).2 several
  rw [computed] at selected
  rw [← Except.ok.inj selected] at isSet
  exact ⟨computed, isSet⟩

def twoSolutions : Experiment where
  metrics := [{ name := "accuracy" }]
  numSolutions := 2

/-- Of an experiment that asks for two solutions the second best observation is returned too. -/
theorem twoSolutions_not_single :
    ¬∀ (experiment : Experiment), Accepted experiment → ∀ observations : List Observation,
      (∀ observation ∈ observations, Storable experiment.toMetricsExperiment observation.data) →
        experiment.optimizedMetrics.length = 1 →
          ∃ returned, getBestObservations comparingLibsigopt experiment observations = .ok returned ∧
            SingleBest experiment observations returned := by
  intro supposed
  obtain ⟨returned, selected, best⟩ := supposed twoSolutions (accepted_of_single 2)
    [withValues [("accuracy", 1)], withValues [("accuracy", 2)]] (storable_of_single rfl) rfl
  have isBoth : getBestObservations comparingLibsigopt twoSolutions
      [withValues [("accuracy", 1)], withValues [("accuracy", 2)]] =
        .ok [withValues [("accuracy", 2)], withValues [("accuracy", 1)]] := by
    decide +kernel
  rw [isBoth] at selected
  rw [← Except.ok.inj selected] at best
  rcases best with ⟨impossible, _⟩ | ⟨only, impossible, _⟩
  · cases impossible
  · cases impossible

end Zigopt.BestAssignments
