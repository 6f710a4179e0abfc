/-
Module: Zigopt.BestAssignments.Service
Layer: BestAssignments
Purpose: Which observations are returned as the best ones of an experiment, as
  `ExperimentBestObservationService` selects them. The search for the Pareto frontier and the choice
  between solutions are those of `libsigopt`.
Main exports: Experiment, Libsigopt, singleMetricBest, multiMetricBest, multipleSolutionsBest,
  getBestObservations
-/
import Mathlib.Data.Rat.Floor
import Zigopt.Lib.Selection
import Zigopt.Observations.ForMaximization

namespace Zigopt.BestAssignments

open Observations Raising

/-- What is read of an experiment: its metrics, its tasks and how many solutions are asked for. -/
structure Experiment extends MetricsExperiment where
  numSolutions : Nat := 0
deriving DecidableEq, Repr

namespace Experiment

def requiresParetoFrontierOptimization (experiment : Experiment) : Bool :=
  experiment.optimizedMetrics.length > 1

def isSearch (experiment : Experiment) : Bool :=
  experiment.optimizedMetrics.length = 0 && experiment.constraintMetrics.length > 0

end Experiment

/-- What is called of `libsigopt` and of the compute service. -/
structure Libsigopt where
  /-- `find_pareto_frontier_observations_for_maximization`, of values that come with their observations. -/
  findParetoFrontierObservationsForMaximization : List (List ℚ × Observation) → List Observation
  multisolutionTopObservationsFraction : ℚ
  /-- Nothing for a `SigoptComputeError`. -/
  multisolutionBestAssignments : Experiment → List Observation → Option (List Nat)

/-- `round`: to the nearest integer, and to the even one of two. -/
def roundHalfEven (number : ℚ) : ℤ :=
  if number - ⌊number⌋ < 1 / 2 then
    ⌊number⌋
  else if 1 / 2 < number - ⌊number⌋ then
    ⌊number⌋ + 1
  else if ⌊number⌋ % 2 = 0 then
    ⌊number⌋
  else
    ⌊number⌋ + 1

/-- `o.data.task.cost`, which reads as 1 where nothing is stored. -/
def cost (observation : Observation) : ℚ := (observation.data.task.map (·.cost)).getD 1

def validObservations (observations : List Observation) (fullCost : Option ℚ) : List Observation :=
  observations.filter fun observation =>
    observation.data.reportedFailure = false ∧ ∀ expected ∈ fullCost, cost observation = expected

section Service

variable (libsigopt : Libsigopt) (experiment : Experiment)

/-- `get_experiment_default_metric_name`. -/
def defaultMetricName : Except ServerError String :=
  match (if experiment.isSearch then experiment.constraintMetrics else experiment.optimizedMetrics) with
  | [] => .error .indexError
  | metric :: _ => pure metric.name

def valueForMaximization (name : String) (observation : Observation) : Except ServerError (Option ℚ) :=
  observation.data.valueForMaximization experiment.toMetricsExperiment name

def withinMetricThresholds (observation : Observation) : Bool :=
  observation.data.withinMetricThresholds experiment.toMetricsExperiment

def bestFromValidObservations (observations : List Observation) : Except ServerError (Option Observation) := do
  let name ← defaultMetricName experiment
  Selection.maxOption .typeError (valueForMaximization experiment name) observations

/-- The values of the optimized metrics, with the observation; an unset value reads as 0. -/
def withOptimizedValues (observation : Observation) : Except ServerError (List ℚ × Observation) := do
  let measurements ←
    observation.data.getOptimizedMeasurementsForMaximization experiment.toMetricsExperiment
  pure (measurements.map (fun measurement => measurement.value.getD 0), observation)

def paretoFrontier (observations : List Observation) : Except ServerError (List Observation) :=
  match validObservations observations none with
  | [] => pure []
  | valid => do
      let withValues ← valid.mapM (withOptimizedValues experiment)
      pure (libsigopt.findParetoFrontierObservationsForMaximization withValues)

/-- `single_metric_best`: the thresholds are applied to the valid observations, so a failure never competes. -/
def singleMetricBest (observations : List Observation) (fullCost : Option ℚ) :
    Except ServerError (Option Observation) :=
  bestFromValidObservations experiment
    ((validObservations observations fullCost).filter (withinMetricThresholds experiment))

/-- `multi_metric_best`, whose answer is sorted by the default metric, also where that metric is not optimized. -/
def multiMetricBest (observations : List Observation) (onParetoFrontier : Bool) :
    Except ServerError (List Observation) := do
  let name ← defaultMetricName experiment
  let within := observations.filter (withinMetricThresholds experiment)
  let best ← if onParetoFrontier then paretoFrontier libsigopt experiment within else pure within
  Selection.sortDescending (valueForMaximization experiment name) best

/-- `multiple_solutions_best`: the top fraction is rounded half to even before libsigopt chooses among it. -/
def multipleSolutionsBest (observations : List Observation) : Except ServerError (List Observation) := do
  let best ← multiMetricBest libsigopt experiment observations false
  let share := roundHalfEven (observations.length * libsigopt.multisolutionTopObservationsFraction)
  let top := best.take (max share experiment.numSolutions).toNat
  if top.length ≤ experiment.numSolutions then
    pure top
  else
    match libsigopt.multisolutionBestAssignments experiment top with
    | none => pure (best.take experiment.numSolutions)
    | some indices => (indices.insertionSort (· ≤ ·)).mapM fun index =>
        match top[index]? with
        | some observation => pure observation
        | none => .error .indexError

/-- `get_best_observations`, with the order in which the kinds of experiment are told apart. -/
def getBestObservations (observations : List Observation) : Except ServerError (List Observation) :=
  if experiment.requiresParetoFrontierOptimization then
    multiMetricBest libsigopt experiment observations true
  else if experiment.isSearch then
    multiMetricBest libsigopt experiment observations false
  else if experiment.numSolutions > 1 then
    multipleSolutionsBest libsigopt experiment observations
  else do
    let best ← singleMetricBest experiment observations (some 1)
    pure best.toList

end Service

end Zigopt.BestAssignments
