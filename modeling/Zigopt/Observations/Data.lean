/-
Module: Zigopt.Observations.Data
Layer: Observations
Purpose: What an observation stores, the metrics of its experiment, and the measurements that are read
  from it.
Main exports: ExperimentMetric, MetricsExperiment, ObservationData, Observation, getAllMeasurements,
  metricValue
-/
import Mathlib.Data.Rat.Defs
import Mathlib.Data.List.Sort
import Mathlib.Data.String.Basic

namespace Zigopt.Observations

inductive MetricObjective where
  | maximize
  | minimize
deriving DecidableEq, Repr

inductive MetricStrategy where
  | optimize
  | store
  | constraint
deriving DecidableEq, Repr

/-- A metric; the name of an unnamed one reads as empty. -/
structure ExperimentMetric where
  name : String := ""
  objective : MetricObjective := .maximize
  threshold : Option ℚ := none
  strategy : MetricStrategy := .optimize
deriving DecidableEq, Repr

def ExperimentMetric.hasName (metric : ExperimentMetric) : Bool := metric.name ≠ ""

structure Task where
  name : String := ""
  cost : ℚ := 1
deriving DecidableEq, Repr

/-- What the code here reads of an experiment: its metrics, in the order of the request that created it,
    and its tasks. -/
structure MetricsExperiment where
  metrics : List ExperimentMetric
  tasks : List Task := []
deriving DecidableEq, Repr

namespace MetricsExperiment

def hasUserDefinedMetric (experiment : MetricsExperiment) : Bool := experiment.metrics ≠ []

/-- `_metrics`: an experiment without metrics has an unnamed one. -/
def someMetrics (experiment : MetricsExperiment) : List ExperimentMetric :=
  if experiment.metrics = [] then [{}] else experiment.metrics

/-- `all_metrics`: sorted by name. -/
def allMetrics (experiment : MetricsExperiment) : List ExperimentMetric :=
  experiment.someMetrics.insertionSort fun first second => first.name ≤ second.name

def hasMultipleMetrics (experiment : MetricsExperiment) : Bool := experiment.allMetrics.length > 1
/-- Whether the observations of the experiment have a task. -/
def isMultitask (experiment : MetricsExperiment) : Bool := experiment.tasks.length > 1

theorem someMetrics_ne_nil (experiment : MetricsExperiment) : experiment.someMetrics ≠ [] := by
  unfold someMetrics
  split
  · simp
  · assumption

theorem allMetrics_perm (experiment : MetricsExperiment) :
    experiment.allMetrics.Perm experiment.someMetrics :=
  List.perm_insertionSort _ _

theorem allMetrics_ne_nil (experiment : MetricsExperiment) : experiment.allMetrics ≠ [] := by
  intro empty
  have perm := experiment.allMetrics_perm
  rw [empty] at perm
  exact experiment.someMetrics_ne_nil perm.nil_eq.symm

end MetricsExperiment

/-- A value of an observation; the name of an unnamed one reads as empty. -/
structure ObservationValue where
  name : String := ""
  value : Option ℚ := none
  valueVar : Option ℚ := none
deriving DecidableEq, Repr

/-- The fields of the protobuf that the handlers of observations set and the queries read. -/
structure ObservationData where
  reportedFailure : Bool := false
  deleted : Bool := false
  values : List ObservationValue := []
  assignmentsMap : List (String × ℚ) := []
  task : Option Task := none
deriving DecidableEq, Repr

/-- A row of the observations of one experiment; its id and time are what the database adds. -/
structure Observation where
  processedSuggestionId : Option Nat := none
  data : ObservationData := {}
deriving DecidableEq, Repr

namespace ObservationData

def sortedMeasurements (data : ObservationData) : List ObservationValue :=
  if data.reportedFailure then
    []
  else if data.values = [] then
    [{}]
  else
    data.values.insertionSort fun first second => first.name ≤ second.name

/-- The single measurement of an experiment with a single metric is read under the name of the metric,
    whatever name it was stored with. -/
def getAllMeasurements (data : ObservationData) (experiment : MetricsExperiment) : List ObservationValue :=
  match data.sortedMeasurements, experiment.hasMultipleMetrics, experiment.allMetrics with
  | [onlyMeasurement], false, metric :: _ =>
      if metric.hasName then [{ onlyMeasurement with name := metric.name }] else [onlyMeasurement]
  | measurements, _, _ => measurements

/-- `metric_value`: the value reported under a name, where the name was measured at all. -/
def metricValue (data : ObservationData) (experiment : MetricsExperiment) (name : String) : Option ℚ :=
  ((data.getAllMeasurements experiment).find? fun measurement => measurement.name = name).bind (·.value)

theorem sortedMeasurements_of_failure {data : ObservationData} (failed : data.reportedFailure = true) :
    data.sortedMeasurements = [] := by
  simp [sortedMeasurements, failed]

theorem getAllMeasurements_of_failure {data : ObservationData} (failed : data.reportedFailure = true)
    (experiment : MetricsExperiment) : data.getAllMeasurements experiment = [] := by
  rw [getAllMeasurements, sortedMeasurements_of_failure failed]

theorem sortedMeasurements_perm {data : ObservationData} (succeeded : data.reportedFailure = false)
    (hasValues : data.values ≠ []) : data.sortedMeasurements.Perm data.values := by
  rw [sortedMeasurements, succeeded, if_neg (by simp), if_neg hasValues]
  exact List.perm_insertionSort _ _

end ObservationData

/-! ### The order of the measurements -/

theorem sortedMeasurements_sorted (data : ObservationData) :
    (data.sortedMeasurements.map (·.name)).Pairwise (· ≤ ·) := by
  rw [List.pairwise_map, ObservationData.sortedMeasurements]
  split
  · exact List.Pairwise.nil
  · split
    · exact List.pairwise_singleton _ _
    · exact List.pairwise_insertionSort _ _

theorem getAllMeasurements_sorted (data : ObservationData) (experiment : MetricsExperiment) :
    ((data.getAllMeasurements experiment).map (·.name)).Pairwise (· ≤ ·) := by
  unfold ObservationData.getAllMeasurements
  split
  · split
    · exact List.pairwise_singleton _ _
    · exact List.pairwise_singleton _ _
  · exact sortedMeasurements_sorted data

end Zigopt.Observations
