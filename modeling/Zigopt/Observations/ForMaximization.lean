/-
Module: Zigopt.Observations.ForMaximization
Layer: Observations
Purpose: The measurements of an observation with the sign in which larger is better, as `data/model.py`
  reads them: the measurement at the position of a minimized metric is negated, and measurements are then
  read by name. Where each metric has its value, positions and names agree.
Main exports: optimizedMetrics, withinMetricThresholds, valueForMaximization,
  getOptimizedMeasurementsForMaximization, Measured, Measured.valueForMaximization_eq,
  Measured.optimizedMeasurements_eq
-/
import Mathlib.Algebra.Order.Ring.Rat
import Mathlib.Data.List.Perm.Subperm
import Zigopt.Lib.Raising
import Zigopt.Observations.Data

namespace Zigopt.Observations

open Raising

/-- The exceptions of Python that these readers raise. -/
inductive ServerError where
  | indexError
  | typeError
deriving DecidableEq, Repr

namespace MetricsExperiment

/-- `optimized_metrics`: stored and constraint metrics are reported, but never compared. -/
def optimizedMetrics (experiment : MetricsExperiment) : List ExperimentMetric :=
  experiment.allMetrics.filter fun metric => metric.strategy = .optimize

def constraintMetrics (experiment : MetricsExperiment) : List ExperimentMetric :=
  experiment.allMetrics.filter fun metric => metric.strategy = .constraint

end MetricsExperiment

/-- The number in whose order larger is better. -/
def ExperimentMetric.forMaximization (metric : ExperimentMetric) (value : ℚ) : ℚ :=
  match metric.objective with
  | .maximize => value
  | .minimize => -value

/-- The loop of `get_all_measurements_for_maximization`, over metrics and measurements by position. The
    measurement of a minimized metric is set even if it has no value, which reads as 0. -/
def negateMinimized : List ExperimentMetric → List ObservationValue → Except ServerError (List ObservationValue)
  | [], measurements => pure measurements
  | metric :: metrics, [] =>
      match metric.objective with
      | .maximize => negateMinimized metrics []
      | .minimize => .error .indexError
  | metric :: metrics, measurement :: measurements => do
      let others ← negateMinimized metrics measurements
      match metric.objective with
      | .maximize => pure (measurement :: others)
      | .minimize => pure ({ measurement with value := some (-measurement.value.getD 0) } :: others)

namespace ObservationData

variable (data : ObservationData) (experiment : MetricsExperiment)

def getAllMeasurementsForMaximization : Except ServerError (List ObservationValue) :=
  negateMinimized experiment.allMetrics (data.getAllMeasurements experiment)

/-- `get_optimized_measurements_for_maximization`: the measurements, with minimized metrics negated, of the optimized
    metrics only. -/
def getOptimizedMeasurementsForMaximization : Except ServerError (List ObservationValue) := do
  let measurements ← data.getAllMeasurementsForMaximization experiment
  pure (measurements.filter fun measurement => measurement.name ∈ experiment.optimizedMetrics.map (·.name))

/-- `value_for_maximization`, which negates the value of a minimized metric. -/
def valueForMaximization (name : String) : Except ServerError (Option ℚ) := do
  let measurements ← data.getAllMeasurementsForMaximization experiment
  pure ((measurements.find? fun measurement => measurement.name = name).bind (·.value))

def withinMetricThreshold (metric : ExperimentMetric) : Bool :=
  match data.metricValue experiment metric.name, metric.threshold with
  | none, _ => false
  | some _, none => true
  | some value, some threshold =>
      match metric.objective with
      | .maximize => threshold ≤ value
      | .minimize => value ≤ threshold

/-- `within_metric_thresholds`, over all metrics of the experiment. -/
def withinMetricThresholds : Bool :=
  experiment.allMetrics.all (data.withinMetricThreshold experiment)

/-- The value of the metric, where it has one. -/
def valueOf (metric : ExperimentMetric) : ℚ := (data.metricValue experiment metric.name).getD 0

end ObservationData

/-! ### Measurements as names and values -/

/-- What the readers look at in a measurement. -/
def nameAndValue (measurement : ObservationValue) : String × Option ℚ := (measurement.name, measurement.value)

/-- Measurements are those of the metrics, in the same order, with the values that the function gives. -/
def MeasurementsOf (metrics : List ExperimentMetric) (value : ExperimentMetric → ℚ)
    (measurements : List ObservationValue) : Prop :=
  measurements.map nameAndValue = metrics.map fun metric => (metric.name, some (value metric))

theorem negateMinimized_of_measurementsOf {metrics : List ExperimentMetric} {value : ExperimentMetric → ℚ}
    {measurements : List ObservationValue} (measured : MeasurementsOf metrics value measurements) :
    ∃ negated, negateMinimized metrics measurements = .ok negated ∧
      MeasurementsOf metrics (fun metric => metric.forMaximization (value metric)) negated := by
  induction metrics generalizing measurements with
  | nil =>
      have none := List.map_eq_nil_iff.mp measured
      subst none
      exact ⟨[], rfl, rfl⟩
  | cons metric metrics inductionHypothesis =>
      obtain ⟨measurement, others, rfl, first, rest⟩ := List.map_eq_cons_iff.mp measured
      obtain ⟨negated, done, negatedRest⟩ := inductionHypothesis rest
      obtain ⟨sameName, sameValue⟩ := Prod.mk.inj first
      rw [negateMinimized, done, ok_bind]
      unfold MeasurementsOf at negatedRest ⊢
      cases objective : metric.objective with
      | maximize =>
          have signed : metric.forMaximization (value metric) = value metric := by
            rw [ExperimentMetric.forMaximization, objective]
          refine ⟨measurement :: negated, rfl, ?_⟩
          rw [List.map_cons, List.map_cons, negatedRest, nameAndValue, sameName, sameValue]
          dsimp only
          rw [signed]
      | minimize =>
          have signed : metric.forMaximization (value metric) = -value metric := by
            rw [ExperimentMetric.forMaximization, objective]
          refine ⟨{ measurement with value := some (-measurement.value.getD 0) } :: negated, rfl, ?_⟩
          rw [List.map_cons, List.map_cons, negatedRest, nameAndValue, sameName, sameValue]
          dsimp only
          rw [signed, Option.getD_some]

/-- Reading by name finds the value of the metric of that name. -/
theorem find_measurementsOf {metrics : List ExperimentMetric} {value : ExperimentMetric → ℚ}
    {measurements : List ObservationValue} (measured : MeasurementsOf metrics value measurements)
    (distinct : (metrics.map (·.name)).Nodup) {metric : ExperimentMetric} (isMetric : metric ∈ metrics) :
    (measurements.find? fun measurement => measurement.name = metric.name).bind (·.value) =
      some (value metric) := by
  induction metrics generalizing measurements with
  | nil => cases isMetric
  | cons first metrics inductionHypothesis =>
      obtain ⟨measurement, others, rfl, firstMeasured, rest⟩ := List.map_eq_cons_iff.mp measured
      obtain ⟨sameName, sameValue⟩ := Prod.mk.inj firstMeasured
      rw [List.map_cons, List.nodup_cons] at distinct
      rcases List.mem_cons.mp isMetric with rfl | later
      · rw [List.find?_cons_of_pos (by simpa using sameName), Option.bind_some, sameValue]
      · have otherName : measurement.name ≠ metric.name := by
          intro same
          exact distinct.1 (sameName ▸ same ▸ List.mem_map_of_mem later)
        rw [List.find?_cons_of_neg (by simpa using otherName)]
        exact inductionHypothesis rest distinct.2 later

/-- Selecting measurements by name selects the metrics with these names. -/
theorem filter_measurementsOf {metrics : List ExperimentMetric} {value : ExperimentMetric → ℚ}
    {measurements : List ObservationValue} (measured : MeasurementsOf metrics value measurements)
    (names : List String) :
    MeasurementsOf (metrics.filter fun metric => metric.name ∈ names) value
      (measurements.filter fun measurement => measurement.name ∈ names) := by
  have selected := congrArg (List.filter fun entry => entry.1 ∈ names) measured
  rw [List.filter_map, List.filter_map] at selected
  exact selected

/-! ### An observation with a value for each metric -/

theorem find_of_nodup {measurements : List ObservationValue} (distinct : (measurements.map (·.name)).Nodup)
    {measurement : ObservationValue} (member : measurement ∈ measurements) :
    (measurements.find? fun other => other.name = measurement.name) = some measurement := by
  induction measurements with
  | nil => cases member
  | cons first rest inductionHypothesis =>
      rw [List.map_cons, List.nodup_cons] at distinct
      rcases List.mem_cons.mp member with rfl | later
      · exact List.find?_cons_of_pos (by simp)
      · have otherName : first.name ≠ measurement.name := by
          intro same
          exact distinct.1 (same ▸ List.mem_map_of_mem later)
        rw [List.find?_cons_of_neg (by simpa using otherName)]
        exact inductionHypothesis distinct.2 later

/-- The metrics are named apart, each has a value, and there are no more values than metrics. -/
structure Measured (experiment : MetricsExperiment) (data : ObservationData) : Prop where
  distinct : (experiment.allMetrics.map (·.name)).Nodup
  values : ∀ metric ∈ experiment.allMetrics, (data.metricValue experiment metric.name).isSome
  few : (data.getAllMeasurements experiment).length ≤ experiment.allMetrics.length

theorem allMetrics_sorted (experiment : MetricsExperiment) :
    (experiment.allMetrics.map (·.name)).Pairwise (· ≤ ·) := by
  rw [List.pairwise_map]
  exact List.pairwise_insertionSort _ _

namespace Measured

variable {experiment : MetricsExperiment} {data : ObservationData}

/-- Sorted by name, the measurements are those of the metrics one by one. -/
theorem names_eq (measured : Measured experiment data) :
    (data.getAllMeasurements experiment).map (·.name) = experiment.allMetrics.map (·.name) := by
  have contained : experiment.allMetrics.map (·.name) ⊆ (data.getAllMeasurements experiment).map (·.name) := by
    intro name member
    obtain ⟨metric, isMetric, rfl⟩ := List.mem_map.mp member
    obtain ⟨value, found⟩ := Option.isSome_iff_exists.mp (measured.values metric isMetric)
    obtain ⟨measurement, isMeasurement, _⟩ := Option.bind_eq_some_iff.mp found
    have sameName := List.find?_some isMeasurement
    exact List.mem_map.mpr ⟨measurement, List.mem_of_find?_eq_some isMeasurement, by simpa using sameName⟩
  have perm : (experiment.allMetrics.map (·.name)).Perm ((data.getAllMeasurements experiment).map (·.name)) := by
    apply (List.subperm_of_subset measured.distinct contained).perm_of_length_le
    rw [List.length_map, List.length_map]
    exact measured.few
  exact perm.symm.eq_of_pairwise' (getAllMeasurements_sorted data experiment) (allMetrics_sorted experiment)

theorem measurementsOf (measured : Measured experiment data) :
    MeasurementsOf experiment.allMetrics (data.valueOf experiment) (data.getAllMeasurements experiment) := by
  have distinctMeasurements : ((data.getAllMeasurements experiment).map (·.name)).Nodup := by
    rw [measured.names_eq]
    exact measured.distinct
  have byName : ∀ measurement ∈ data.getAllMeasurements experiment,
      nameAndValue measurement = (measurement.name, data.metricValue experiment measurement.name) := by
    intro measurement member
    rw [ObservationData.metricValue, find_of_nodup distinctMeasurements member]
    rfl
  have pairs : (data.getAllMeasurements experiment).map nameAndValue =
      ((data.getAllMeasurements experiment).map (·.name)).map fun name =>
        (name, data.metricValue experiment name) := by
    rw [List.map_map]
    exact List.map_congr_left byName
  rw [MeasurementsOf, pairs, measured.names_eq, List.map_map]
  apply List.map_congr_left
  intro metric isMetric
  obtain ⟨value, found⟩ := Option.isSome_iff_exists.mp (measured.values metric isMetric)
  rw [Function.comp_apply, ObservationData.valueOf, found, Option.getD_some]

/-- The value that is read under the name of a metric has the sign of its objective. -/
theorem valueForMaximization_eq (measured : Measured experiment data) {metric : ExperimentMetric}
    (isMetric : metric ∈ experiment.allMetrics) :
    data.valueForMaximization experiment metric.name =
      .ok (some (metric.forMaximization (data.valueOf experiment metric))) := by
  obtain ⟨negated, done, measuredNegated⟩ := negateMinimized_of_measurementsOf measured.measurementsOf
  rw [ObservationData.valueForMaximization, ObservationData.getAllMeasurementsForMaximization, done, ok_bind,
    find_measurementsOf measuredNegated measured.distinct isMetric]
  rfl

/-- On complete data nothing is raised, and the measurements come in the order of the optimized metrics. -/
theorem optimizedMeasurements_eq (measured : Measured experiment data) :
    ∃ measurements, data.getOptimizedMeasurementsForMaximization experiment = .ok measurements ∧
      measurements.map (fun measurement => measurement.value.getD 0) =
        experiment.optimizedMetrics.map fun metric => metric.forMaximization (data.valueOf experiment metric) := by
  obtain ⟨negated, done, measuredNegated⟩ := negateMinimized_of_measurementsOf measured.measurementsOf
  refine ⟨negated.filter fun measurement => measurement.name ∈ experiment.optimizedMetrics.map (·.name), ?_, ?_⟩
  · rw [ObservationData.getOptimizedMeasurementsForMaximization,
      ObservationData.getAllMeasurementsForMaximization, done, ok_bind]
    rfl
  · have selected := filter_measurementsOf measuredNegated (experiment.optimizedMetrics.map (·.name))
    have optimized : (experiment.allMetrics.filter fun metric =>
        metric.name ∈ experiment.optimizedMetrics.map (·.name)) = experiment.optimizedMetrics := by
      apply List.filter_congr
      intro metric isMetric
      rw [decide_eq_decide]
      constructor
      · intro named
        obtain ⟨other, isOther, sameName⟩ := List.mem_map.mp named
        obtain ⟨otherMetric, otherOptimized⟩ := List.mem_filter.mp isOther
        rw [List.inj_on_of_nodup_map measured.distinct isMetric otherMetric sameName.symm]
        simpa using otherOptimized
      · intro isOptimized
        exact List.mem_map_of_mem (List.mem_filter.mpr ⟨isMetric, by simpa using isOptimized⟩)
    rw [optimized] at selected
    have numbers := congrArg (List.map fun entry => entry.2.getD 0) selected
    rw [List.map_map, List.map_map] at numbers
    exact numbers

end Measured

end Zigopt.Observations
