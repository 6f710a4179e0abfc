/-
Module: Zigopt.SigoptCompute.Adapter
Layer: SigoptCompute
Purpose: The arrays that `sigoptcompute/adapter.py` hands to the optimizer, each built by a loop of its own over
  parameters or metrics, and the suggestions that are made of the coordinates it answers with.
Main exports: OptimizedExperiment, generateDomainInfo, formMetricsInfo, makePointsSampled, makeSuggestionDatas
-/
import Zigopt.Assignments.Unconditioned
import Zigopt.BestAssignments.Service
import Zigopt.Experiment.Constraints
import Zigopt.Experiment.Segmenter

namespace Zigopt.SigoptCompute

open Assignments Experiment Observations Raising

/-- What the adapter reads of an experiment. -/
structure OptimizedExperiment where
  experimentMeta : ExperimentMeta
  metrics : MetricsExperiment
  observationBudget : Option ℤ := none
  forceHitandrunSampling : Bool := false
deriving DecidableEq, Repr

def objectiveName : MetricObjective → String
  | .maximize => "maximize"
  | .minimize => "minimize"

/-! ### Metrics -/

structure MetricsInfo where
  requiresParetoFrontierOptimization : Bool
  observationBudget : Option ℤ
  userSpecifiedThresholds : List (Option ℚ) := []
  objectives : List String := []
  optimizedMetricsIndex : List ℕ := []
  constraintMetricsIndex : List ℕ := []
deriving DecidableEq, Repr

/-- One round of the loop of `form_metrics_info`. -/
def MetricsInfo.add (info : MetricsInfo) (entry : ExperimentMetric × ℕ) : MetricsInfo :=
  { info with
    objectives := info.objectives ++ [objectiveName entry.1.objective]
    userSpecifiedThresholds := info.userSpecifiedThresholds ++ [entry.1.threshold]
    optimizedMetricsIndex :=
      if entry.1.strategy = .optimize then info.optimizedMetricsIndex ++ [entry.2] else info.optimizedMetricsIndex
    constraintMetricsIndex :=
      if entry.1.strategy = .constraint then info.constraintMetricsIndex ++ [entry.2]
      else info.constraintMetricsIndex }

/-- `form_metrics_info`: one pass over all metrics, each added under its strategy. -/
def formMetricsInfo (experiment : OptimizedExperiment) : MetricsInfo :=
  experiment.metrics.allMetrics.zipIdx.foldl MetricsInfo.add
    { requiresParetoFrontierOptimization := experiment.metrics.optimizedMetrics.length > 1
      observationBudget := experiment.observationBudget }

/-- `_sorted_attributes`. -/
def sortedAttributes (data : ObservationData) (experiment : MetricsExperiment)
    (attr : ObservationValue → Option ℚ) : Except ConstraintError (Option (List ℚ)) := do
  let measurements := data.getAllMeasurements experiment
  raiseIf (¬(data.reportedFailure = true ∨ measurements.length = experiment.allMetrics.length)) .assertion
  let attrFields := measurements.map attr
  pure (if attrFields = [] then none else attrFields.mapM id)

def sortedAllMetricValues (data : ObservationData) (experiment : MetricsExperiment) :
    Except ConstraintError (Option (List ℚ)) :=
  sortedAttributes data experiment (·.value)

def sortedAllMetricValueVars (data : ObservationData) (experiment : MetricsExperiment) :
    Except ConstraintError (Option (List ℚ)) :=
  sortedAttributes data experiment (·.valueVar)

/-! ### Parameters -/

inductive VarType where
  | double
  | int
  | categorical
  | quantized
deriving DecidableEq, Repr

structure DomainComponent (K : Type) where
  varType : VarType
  elements : List K
  name : String

structure PriorInfo where
  name : Option String
  params : Option (List (String × ℚ))
deriving DecidableEq, Repr

structure DomainInfo (K : Type) where
  constraintList : List ConstraintFunction
  domainComponents : List (DomainComponent K)
  forceHitandrunSampling : Bool
  priors : Option (List PriorInfo)

def parameterToPriorInfo (parameter : ExperimentParameter) : Except ConstraintError PriorInfo :=
  match parameter.prior with
  | some (.normal mean scale) => do
      raiseIf (parameter.isDouble = false) .assertion
      pure { name := some "normal", params := some [("mean", mean), ("scale", scale)] }
  | some (.beta shapeA shapeB) => do
      raiseIf (parameter.isDouble = false) .assertion
      pure { name := some "beta", params := some [("shape_a", shapeA), ("shape_b", shapeB)] }
  | none => pure { name := none, params := none }

section Numbers

variable {K : Type} [Field K] [LinearOrder K] (logarithm : Logarithm K)

/-- Where a value of the parameter lies on the scale of the optimizer. -/
def coordinate (parameter : ExperimentParameter) (value : K) : K :=
  if parameter.hasLogTransformation then logarithm.log10 value else value

def peParameterInfo (onlyActiveCategoricalValues : Bool) (parameter : ExperimentParameter) : DomainComponent K :=
  if parameter.isCategorical then
    let categoricalValues :=
      if onlyActiveCategoricalValues then parameter.activeCategoricalValues else parameter.allCategoricalValues
    { varType := .categorical, elements := categoricalValues.map fun value => (value.enumIndex : K)
      name := parameter.name }
  else if parameter.isGrid then
    { varType := .quantized, elements := parameter.gridValues.map fun value => coordinate logarithm parameter (value : K)
      name := parameter.name }
  else if parameter.isDouble then
    { varType := .double
      elements := [coordinate logarithm parameter (parameter.bounds.minimum : K),
        coordinate logarithm parameter (parameter.bounds.maximum : K)]
      name := parameter.name }
  else
    { varType := .int, elements := [(parameter.bounds.minimum : K), (parameter.bounds.maximum : K)]
      name := parameter.name }

/-- `generate_domain_info`: the constraints, the priors where a parameter has one, and a component for each parameter.
    -/
def generateDomainInfo (experiment : OptimizedExperiment) (onlyActiveCategoricalValues : Bool) :
    Except ConstraintError (DomainInfo K) := do
  let parameters := allParameters experiment.experimentMeta
  let constraintList ← parseExperimentConstraintsToFuncList experiment.experimentMeta
  let priors ←
    if parameters.any fun parameter => parameter.prior.isSome then
      (parameters.mapM parameterToPriorInfo).map some
    else
      pure none
  pure {
    constraintList := constraintList
    domainComponents := parameters.map (peParameterInfo logarithm onlyActiveCategoricalValues)
    forceHitandrunSampling := experiment.forceHitandrunSampling
    priors := priors }

/-- `extract_array_for_computation_from_assignments`; a map of doubles has 0 where nothing is stored. -/
def extractArrayForComputationFromAssignments (row : AssignmentsMap) (parameters : List ExperimentParameter) : List K :=
  parameters.map fun parameter =>
    coordinate logarithm parameter (((filledValues row parameters parameter.name).getD 0 : ℚ) : K)

/-! ### Points -/

structure PointsContainer (K : Type) where
  points : List (List K)
  /-- Nothing for a NaN. -/
  values : List (List (Option ℚ))
  valueVars : List (List ℚ)
  failures : List Bool
  taskCosts : Option (List ℚ)

/-- The rows of an observation in the arrays. -/
structure SampledRow (K : Type) where
  point : List K
  values : List (Option ℚ)
  valueVars : List ℚ
  failure : Bool
  taskCost : ℚ

/-- The assignments that an observation stores. -/
def assignmentsOf (data : ObservationData) : AssignmentsMap := fun name => data.assignmentsMap.lookup name

/-- One round of the loop of `_make_points_sampled`. A row that is set to None is a row of NaNs. -/
def sampledRow (minimumValueVar : ℚ) (experiment : OptimizedExperiment) (observation : Observation) :
    Except ConstraintError (SampledRow K) := do
  let width := experiment.metrics.allMetrics.length
  let values ← sortedAllMetricValues observation.data experiment.metrics
  let valueVar ← sortedAllMetricValueVars observation.data experiment.metrics
  pure {
    point := extractArrayForComputationFromAssignments logarithm (assignmentsOf observation.data)
      (allParameters experiment.experimentMeta)
    values := (values.map fun given => given.map some).getD (List.replicate width none)
    valueVars := (valueVar.getD (List.replicate width minimumValueVar)).map (max · minimumValueVar)
    failure := observation.data.reportedFailure
    taskCost := BestAssignments.cost observation }

/-- `_make_points_sampled`. The counter of the loop is 0 as well if there is nothing to count, and rows are only there
    for as many observations as were announced. -/
def makePointsSampled (minimumValueVar : ℚ) (experiment : OptimizedExperiment) (observations : List Observation)
    (observationCount : ℕ) : Except ConstraintError (PointsContainer K) := do
  let rows ← observations.mapM (sampledRow logarithm minimumValueVar experiment)
  raiseIf (observationCount ≠ observations.length - 1 + 1) .assertion
  pure {
    points := rows.map (·.point)
    values := rows.map (·.values)
    valueVars := rows.map (·.valueVars)
    failures := rows.map (·.failure)
    taskCosts := if experiment.metrics.isMultitask then some (rows.map (·.taskCost)) else none }

/-! ### Suggestions -/

structure SuggestionData (K : Type) where
  assignmentsMap : String → Option K := fun _ => none
  task : Option Task := none

/-- `round`: to the nearest integer, and to the even one of two. -/
def roundHalfEven [FloorRing K] (number : K) : ℤ :=
  if number - ⌊number⌋ < 1 / 2 then
    ⌊number⌋
  else if 1 / 2 < number - ⌊number⌋ then
    ⌊number⌋ + 1
  else if ⌊number⌋ % 2 = 0 then
    ⌊number⌋
  else
    ⌊number⌋ + 1

/-- The value of the parameter at a coordinate. -/
def valueAt [FloorRing K] (parameter : ExperimentParameter) (coordinate : K) : K :=
  let assignment := if parameter.hasLogTransformation then logarithm.pow10 coordinate else coordinate
  if parameter.isInteger || parameter.isCategorical then (roundHalfEven assignment : K) else assignment

def getTaskByCost (experiment : MetricsExperiment) (taskCost : ℚ) : Except ConstraintError Task :=
  match experiment.tasks.find? fun task => task.cost = taskCost with
  | some matchingTask => pure matchingTask
  | none => .error (.valueError s!"No task with cost {taskCost} for experiment.")

/-- The loop over the coordinates of a point. -/
def assignCoordinates [FloorRing K] (parameters : List ExperimentParameter) (suggestedPoint : List K) :
    String → Option K :=
  (suggestedPoint.zip parameters).foldl
    (fun assignments entry => Function.update assignments entry.2.name (some (valueAt logarithm entry.2 entry.1)))
    fun _ => none

/-- `make_suggestion_datas`: points and task costs side by side, as `zip` cuts them. -/
def makeSuggestionDatas [FloorRing K] (experiment : OptimizedExperiment) (suggestedPoints : List (List K))
    (taskCosts : Option (List ℚ)) : Except ConstraintError (List (SuggestionData K)) :=
  let costs := match taskCosts with
    | some (taskCost :: others) => (taskCost :: others).map some
    | _ => List.replicate suggestedPoints.length none
  (suggestedPoints.zip costs).mapM fun entry => do
    let task ← match entry.2 with
      | some taskCost => (getTaskByCost experiment.metrics taskCost).map some
      | none => pure none
    pure {
      assignmentsMap := assignCoordinates logarithm (allParameters experiment.experimentMeta) entry.1
      task := task }

end Numbers

end Zigopt.SigoptCompute
