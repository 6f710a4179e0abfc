/-
Module: Zigopt.SigoptCompute.ColumnsAgree
Layer: SigoptCompute
Purpose: The arrays for the optimizer line up: there is one order of the parameters and one of the metrics that all of
  them have, and the assignments that were turned into coordinates are what the coordinates are turned back into.
Main exports: WellFormedObservation, ColumnsAgree, AssignsActive, ColumnsInvert, columns_agree
-/
import Mathlib.Data.Rat.Cast.CharZero
import Zigopt.Experiment.ConstraintMeaning
import Zigopt.Assignments.RoundTrip
import Zigopt.Assignments.UnconditionedView
import Zigopt.Experiment.TypedParameters
import Zigopt.SigoptCompute.Adapter
import Zigopt.Suggestion.LatinHypercube

namespace Zigopt.SigoptCompute

open Assignments Experiment Observations Raising Suggestion

/-! ### What the columns are to say -/

/-- `metric_value_var`. -/
def metricValueVar (data : ObservationData) (experiment : MetricsExperiment) (name : String) : Option ℚ :=
  ((data.getAllMeasurements experiment).find? fun measurement => measurement.name = name).bind (·.valueVar)

/-- There is a value for every active parameter, its own or one that replaces it, and if it has not failed one
    measurement for every metric. -/
structure WellFormedObservation (experiment : OptimizedExperiment) (observation : Observation) : Prop where
  assigned : ∀ parameter ∈ allParameters experiment.experimentMeta,
    (filledValues (assignmentsOf observation.data) (allParameters experiment.experimentMeta) parameter.name).isSome
  measured : observation.data.reportedFailure = false → Measured experiment.metrics observation.data

/-- The variance is only told if all metrics have one, and it is never too small. -/
def toldVariance (minimumValueVar : ℚ) (data : ObservationData) (experiment : MetricsExperiment)
    (metric : ExperimentMetric) : ℚ :=
  if ∀ other ∈ experiment.allMetrics, (metricValueVar data experiment other.name).isSome then
    max ((metricValueVar data experiment metric.name).getD minimumValueVar) minimumValueVar
  else
    minimumValueVar

def varTypeOf (parameter : ExperimentParameter) : VarType :=
  match parameter.paramType, parameter.isGrid with
  | .categorical, _ => .categorical
  | _, true => .quantized
  | .double, false => .double
  | .int, false => .int

section Numbers

variable {K : Type} [Field K] [LinearOrder K] (logarithm : Logarithm K)

/-- The values that the domain of a parameter is told by. -/
def domainValues (onlyActiveCategoricalValues : Bool) (parameter : ExperimentParameter) : List K :=
  match parameter.paramType, parameter.isGrid with
  | .categorical, _ =>
      (if onlyActiveCategoricalValues then parameter.activeCategoricalValues else parameter.allCategoricalValues).map
        fun value => (value.enumIndex : K)
  | _, true => parameter.gridValues.map fun value => (value : K)
  | _, false => [(parameter.bounds.minimum : K), (parameter.bounds.maximum : K)]

/-- The component is that of the parameter, on the scale of its coordinates. -/
structure DescribesDomain (onlyActiveCategoricalValues : Bool) (parameter : ExperimentParameter)
    (component : DomainComponent K) : Prop where
  name : component.name = parameter.name
  varType : component.varType = varTypeOf parameter
  elements : component.elements =
    (domainValues onlyActiveCategoricalValues parameter).map (coordinate logarithm parameter)

/-- The coordinate is where the value that the observation has for the parameter lies. -/
def DescribesValue (experiment : OptimizedExperiment) (observation : Observation) (parameter : ExperimentParameter)
    (entry : K) : Prop :=
  ∃ value : ℚ, filledValues (assignmentsOf observation.data) (allParameters experiment.experimentMeta) parameter.name =
    some value ∧ entry = coordinate logarithm parameter (value : K)

/-- All arrays have the active parameters in this order. -/
structure ParametersAgree (experiment : OptimizedExperiment) (onlyActiveCategoricalValues : Bool)
    (observations : List Observation) (domain : DomainInfo K) (points : PointsContainer K)
    (parameters : List ExperimentParameter) : Prop where
  active : parameters.Perm
    (experiment.experimentMeta.allParametersUnsorted.filter fun parameter => !parameter.deleted)
  components : List.Forall₂ (DescribesDomain logarithm onlyActiveCategoricalValues) parameters domain.domainComponents
  noPriors : domain.priors = none ↔ ∀ parameter ∈ parameters, parameter.prior = none
  priors : ∀ priors ∈ domain.priors,
    List.Forall₂ (fun parameter info => parameterToPriorInfo parameter = .ok info) parameters priors
  points : List.Forall₂ (fun observation row =>
    List.Forall₂ (DescribesValue logarithm experiment observation) parameters row) observations points.points

/-- All arrays have the metrics in this order. -/
structure MetricsAgree (minimumValueVar : ℚ) (experiment : OptimizedExperiment) (observations : List Observation)
    (info : MetricsInfo) (points : PointsContainer K) (metrics : List ExperimentMetric) : Prop where
  all : metrics.Perm experiment.metrics.someMetrics
  objectives : List.Forall₂ (fun metric objective => objective = objectiveName metric.objective) metrics
    info.objectives
  thresholds : List.Forall₂ (fun metric threshold => threshold = metric.threshold) metrics info.userSpecifiedThresholds
  optimized : ∀ index, index ∈ info.optimizedMetricsIndex ↔
    ∃ metric, metrics[index]? = some metric ∧ metric.strategy = .optimize
  constraint : ∀ index, index ∈ info.constraintMetricsIndex ↔
    ∃ metric, metrics[index]? = some metric ∧ metric.strategy = .constraint
  values : List.Forall₂ (fun observation row =>
    List.Forall₂ (fun metric entry => entry = observation.data.metricValue experiment.metrics metric.name) metrics row)
      observations points.values
  valueVars : List.Forall₂ (fun observation row =>
    List.Forall₂ (fun metric entry => entry = toldVariance minimumValueVar observation.data experiment.metrics metric)
      metrics row) observations points.valueVars

/-- The other arrays have the observations in their order as well. -/
structure RowsAgree (experiment : OptimizedExperiment) (observations : List Observation) (points : PointsContainer K) :
    Prop where
  failures : List.Forall₂ (fun observation failure => failure = observation.data.reportedFailure) observations
    points.failures
  taskCosts : points.taskCosts.isSome = experiment.metrics.isMultitask
  costs : ∀ taskCosts ∈ points.taskCosts,
    List.Forall₂ (fun observation taskCost => taskCost = BestAssignments.cost observation) observations taskCosts

/-- There is one order of the active parameters and one of the metrics that all arrays have. -/
structure ColumnsAgree (minimumValueVar : ℚ) (experiment : OptimizedExperiment) (onlyActiveCategoricalValues : Bool)
    (observations : List Observation) (domain : DomainInfo K) (points : PointsContainer K) : Prop where
  parameters : ∃ parameters,
    ParametersAgree logarithm experiment onlyActiveCategoricalValues observations domain points parameters
  metrics : ∃ metrics,
    MetricsAgree minimumValueVar experiment observations (formMetricsInfo experiment) points metrics
  rows : RowsAgree experiment observations points

end Numbers

/-- A valid value for every active parameter, positive where it is on a logarithmic scale, and nothing else. -/
structure AssignsActive (experiment : ExperimentMeta) (assignments : AssignmentsMap) : Prop where
  values : ∀ parameter ∈ allParameters experiment, ∃ value, assignments parameter.name = some value ∧
    ValidValue parameter value ∧ (parameter.transformation = .log → 0 < value)
  only : ∀ name, (assignments name).isSome → name ∈ (allParameters experiment).map (·.name)

/-- The costs that come with so many points are those of tasks. -/
def CostsKnown (experiment : MetricsExperiment) (count : ℕ) (taskCosts : Option (List ℚ)) : Prop :=
  ∀ costs ∈ taskCosts, costs.length = count ∧ ∀ cost ∈ costs, ∃ task ∈ experiment.tasks, task.cost = cost

/-- The coordinates of assignments are turned back into them, in their order. -/
def ColumnsInvert {K : Type} [Field K] [LinearOrder K] [FloorRing K] (logarithm : Logarithm K)
    (experiment : OptimizedExperiment) : Prop :=
  ∀ (rows : List AssignmentsMap) (taskCosts : Option (List ℚ)),
    (∀ assignments ∈ rows, AssignsActive experiment.experimentMeta assignments) →
      CostsKnown experiment.metrics rows.length taskCosts →
        ∃ suggestions, makeSuggestionDatas logarithm experiment
            (rows.map fun assignments => extractArrayForComputationFromAssignments logarithm assignments
              (allParameters experiment.experimentMeta)) taskCosts = .ok suggestions ∧
          List.Forall₂ (fun assignments suggestion =>
            suggestion.assignmentsMap = fun name => (assignments name).map fun value : ℚ => (value : K)) rows suggestions

/-! ### The loop over the metrics -/

/-- The indices of the metrics of a strategy. -/
def indicesOf (strategy : MetricStrategy) (entries : List (ExperimentMetric × ℕ)) : List ℕ :=
  entries.filterMap fun entry => if entry.1.strategy = strategy then some entry.2 else none

theorem foldl_add (entries : List (ExperimentMetric × ℕ)) (info : MetricsInfo) :
    entries.foldl MetricsInfo.add info =
      { info with
        objectives := info.objectives ++ entries.map fun entry => objectiveName entry.1.objective
        userSpecifiedThresholds := info.userSpecifiedThresholds ++ entries.map fun entry => entry.1.threshold
        optimizedMetricsIndex := info.optimizedMetricsIndex ++ indicesOf .optimize entries
        constraintMetricsIndex := info.constraintMetricsIndex ++ indicesOf .constraint entries } := by
  induction entries generalizing info with
  | nil => simp [indicesOf]
  | cons entry entries inductionHypothesis =>
      rw [List.foldl_cons, inductionHypothesis]
      cases strategy : entry.1.strategy <;> simp [MetricsInfo.add, indicesOf, strategy]

theorem mem_indicesOf {strategy : MetricStrategy} {metrics : List ExperimentMetric} {index : ℕ} :
    index ∈ indicesOf strategy metrics.zipIdx ↔ ∃ metric, metrics[index]? = some metric ∧ metric.strategy = strategy := by
  rw [indicesOf, List.mem_filterMap]
  constructor
  · rintro ⟨⟨metric, position⟩, isEntry, kept⟩
    split at kept
    · rename_i isStrategy
      obtain rfl := Option.some.inj kept
      exact ⟨metric, List.mem_zipIdx_iff_getElem?.mp isEntry, isStrategy⟩
    · cases kept
  · rintro ⟨metric, isMetric, isStrategy⟩
    exact ⟨(metric, index), List.mem_zipIdx_iff_getElem?.mpr isMetric, if_pos isStrategy⟩

theorem formMetricsInfo_eq (experiment : OptimizedExperiment) :
    formMetricsInfo experiment =
      { requiresParetoFrontierOptimization := experiment.metrics.optimizedMetrics.length > 1
        observationBudget := experiment.observationBudget
        userSpecifiedThresholds := experiment.metrics.allMetrics.map (·.threshold)
        objectives := experiment.metrics.allMetrics.map fun metric => objectiveName metric.objective
        optimizedMetricsIndex := indicesOf .optimize experiment.metrics.allMetrics.zipIdx
        constraintMetricsIndex := indicesOf .constraint experiment.metrics.allMetrics.zipIdx } := by
  have unpaired {α : Type} (function : ExperimentMetric → α) :
      (experiment.metrics.allMetrics.zipIdx.map fun entry => function entry.1) =
        experiment.metrics.allMetrics.map function := by
    conv_rhs => rw [← List.zipIdx_map_fst 0 experiment.metrics.allMetrics]
    rw [List.map_map]
    rfl
  rw [formMetricsInfo, foldl_add, unpaired fun metric => objectiveName metric.objective,
    unpaired fun metric => metric.threshold]
  simp

/-! ### The rows of an observation -/

section Rows

variable {experiment : OptimizedExperiment} {observation : Observation}

/-- In the order of the metrics, each measurement is the one of its name. -/
theorem map_measurements {metrics : MetricsExperiment} {data : ObservationData} (measured : Measured metrics data)
    {α : Type} (attr : ObservationValue → Option α) :
    (data.getAllMeasurements metrics).map attr = metrics.allMetrics.map fun metric =>
      ((data.getAllMeasurements metrics).find? fun measurement => measurement.name = metric.name).bind attr := by
  have distinct : ((data.getAllMeasurements metrics).map (·.name)).Nodup := by
    rw [measured.names_eq]
    exact measured.distinct
  have byName : (data.getAllMeasurements metrics).map attr =
      ((data.getAllMeasurements metrics).map (·.name)).map fun name =>
        ((data.getAllMeasurements metrics).find? fun measurement => measurement.name = name).bind attr := by
    rw [List.map_map]
    apply List.map_congr_left
    intro measurement member
    rw [Function.comp_apply, find_of_nodup distinct member, Option.bind_some]
  rw [byName, measured.names_eq, List.map_map]
  rfl

theorem mapM_id_of_some {entries : List (Option ℚ)} (some : ∀ entry ∈ entries, entry.isSome) :
    entries.mapM id = .some (entries.map fun entry => entry.getD 0) := by
  induction entries with
  | nil => rfl
  | cons entry entries inductionHypothesis =>
      rw [List.forall_mem_cons] at some
      obtain ⟨value, rfl⟩ := Option.isSome_iff_exists.mp some.1
      rw [List.mapM_cons, inductionHypothesis some.2]
      rfl

theorem mapM_id_of_none {entries : List (Option ℚ)} (missing : none ∈ entries) : entries.mapM id = none := by
  induction entries with
  | nil => cases missing
  | cons entry entries inductionHypothesis =>
      rw [List.mapM_cons]
      cases entry with
      | none => rfl
      | some value =>
          rw [inductionHypothesis (by simpa using missing)]
          rfl

/-- What is read for a failed observation, which has no measurements. -/
theorem sortedAttributes_failed (failed : observation.data.reportedFailure = true)
    (attr : ObservationValue → Option ℚ) :
    sortedAttributes observation.data experiment.metrics attr = .ok none := by
  simp only [sortedAttributes, bind_eq_ok, raiseIf_eq_ok, not_not]
  refine ⟨(), .inl failed, ?_⟩
  rw [ObservationData.getAllMeasurements_of_failure failed]
  rfl

theorem sortedAttributes_measured (measured : Measured experiment.metrics observation.data)
    (attr : ObservationValue → Option ℚ) :
    sortedAttributes observation.data experiment.metrics attr =
      .ok ((observation.data.getAllMeasurements experiment.metrics).map attr |>.mapM id) := by
  have sameLength := congrArg List.length measured.names_eq
  rw [List.length_map, List.length_map] at sameLength
  have some : (observation.data.getAllMeasurements experiment.metrics).map attr ≠ [] := by
    rw [← List.length_pos_iff, List.length_map, sameLength, List.length_pos_iff]
    exact experiment.metrics.allMetrics_ne_nil
  simp only [sortedAttributes, bind_eq_ok, raiseIf_eq_ok, not_not]
  refine ⟨(), .inr sameLength, ?_⟩
  rw [if_neg some]
  rfl

theorem metricValue_failed (failed : observation.data.reportedFailure = true) (name : String) :
    observation.data.metricValue experiment.metrics name = none ∧
      metricValueVar observation.data experiment.metrics name = none := by
  simp [ObservationData.metricValue, metricValueVar, ObservationData.getAllMeasurements_of_failure failed]

/-- The row of values has the value of every metric, or nothing if the observation has failed. -/
theorem valuesRow_eq (wellFormed : WellFormedObservation experiment observation) :
    ∃ values, sortedAllMetricValues observation.data experiment.metrics = .ok values ∧
      (values.map fun given => given.map some).getD (List.replicate experiment.metrics.allMetrics.length none) =
        experiment.metrics.allMetrics.map fun metric =>
          observation.data.metricValue experiment.metrics metric.name := by
  cases failed : observation.data.reportedFailure with
  | true =>
      refine ⟨none, sortedAttributes_failed failed _, ?_⟩
      simp only [metricValue_failed failed]
      rw [List.map_const']
      rfl
  | false =>
      have measured := wellFormed.measured failed
      refine ⟨_, sortedAttributes_measured measured _, ?_⟩
      rw [map_measurements measured, mapM_id_of_some]
      · rw [Option.map_some, Option.getD_some, List.map_map, List.map_map]
        apply List.map_congr_left
        intro metric isMetric
        obtain ⟨value, found⟩ := Option.isSome_iff_exists.mp (measured.values metric isMetric)
        rw [ObservationData.metricValue] at found ⊢
        simp [found]
      · intro entry isEntry
        obtain ⟨metric, isMetric, rfl⟩ := List.mem_map.mp isEntry
        exact measured.values metric isMetric

/-- The row of variances has what is told of them. -/
theorem valueVarsRow_eq (minimumValueVar : ℚ) (wellFormed : WellFormedObservation experiment observation) :
    ∃ valueVar, sortedAllMetricValueVars observation.data experiment.metrics = .ok valueVar ∧
      (valueVar.getD (List.replicate experiment.metrics.allMetrics.length minimumValueVar)).map
          (max · minimumValueVar) =
        experiment.metrics.allMetrics.map (toldVariance minimumValueVar observation.data experiment.metrics) := by
  have untold (missing : ¬∀ other ∈ experiment.metrics.allMetrics,
      (metricValueVar observation.data experiment.metrics other.name).isSome) :
      (List.replicate experiment.metrics.allMetrics.length minimumValueVar).map (max · minimumValueVar) =
        experiment.metrics.allMetrics.map (toldVariance minimumValueVar observation.data experiment.metrics) := by
    have constant : toldVariance minimumValueVar observation.data experiment.metrics = fun _ => minimumValueVar := by
      funext metric
      rw [toldVariance, if_neg missing]
    rw [constant, List.map_const', List.map_replicate, max_self]
  cases failed : observation.data.reportedFailure with
  | true =>
      refine ⟨none, sortedAttributes_failed failed _, untold ?_⟩
      obtain ⟨metric, isMetric⟩ := List.exists_mem_of_ne_nil _ experiment.metrics.allMetrics_ne_nil
      intro told
      have isTold := told metric isMetric
      rw [(metricValue_failed failed metric.name).2] at isTold
      cases isTold
  | false =>
      have measured := wellFormed.measured failed
      refine ⟨_, sortedAttributes_measured measured _, ?_⟩
      rw [map_measurements measured]
      by_cases told : ∀ other ∈ experiment.metrics.allMetrics,
          (metricValueVar observation.data experiment.metrics other.name).isSome
      · rw [mapM_id_of_some (by simpa [metricValueVar] using told), Option.getD_some, List.map_map, List.map_map]
        apply List.map_congr_left
        intro metric isMetric
        obtain ⟨variance, found⟩ := Option.isSome_iff_exists.mp (told metric isMetric)
        rw [toldVariance, if_pos told]
        rw [metricValueVar] at found ⊢
        simp [found]
      · obtain ⟨metric, isMetric, missing⟩ := by simpa using told
        rw [mapM_id_of_none (List.mem_map.mpr ⟨metric, isMetric, missing⟩)]
        exact untold told

end Rows

/-! ### The arrays -/

section Arrays

variable {K : Type} [Field K] [LinearOrder K] (logarithm : Logarithm K) {experiment : OptimizedExperiment}
  {observations : List Observation} {parameter : ExperimentParameter}

theorem describesDomain (typed : Typed parameter) (onlyActiveCategoricalValues : Bool) :
    DescribesDomain logarithm onlyActiveCategoricalValues parameter
      (peParameterInfo logarithm onlyActiveCategoricalValues parameter) := by
  have unscaled (notDouble : parameter.paramType ≠ .double) (value : K) : coordinate logarithm parameter value = value := by
    have notLog : parameter.transformation ≠ .log := fun isLog => notDouble (typed.log isLog)
    simp [coordinate, ExperimentParameter.hasLogTransformation, notLog]
  cases isType : parameter.paramType with
  | categorical =>
      have same : coordinate logarithm parameter = id := funext (unscaled (by simp [isType]))
      have isCategorical : parameter.isCategorical = true := by simp [ExperimentParameter.isCategorical, isType]
      rw [peParameterInfo, if_pos isCategorical]
      refine ⟨rfl, by simp [varTypeOf, isType], ?_⟩
      rw [same, List.map_id, domainValues, isType]
  | double =>
      have notCategorical : parameter.isCategorical = false := by simp [ExperimentParameter.isCategorical, isType]
      have isDouble : parameter.isDouble = true := by simp [ExperimentParameter.isDouble, isType]
      cases isGrid : parameter.isGrid with
      | true => constructor <;> simp [peParameterInfo, notCategorical, isGrid, varTypeOf, isType, domainValues]
      | false =>
          constructor <;>
            simp [peParameterInfo, notCategorical, isDouble, isGrid, varTypeOf, isType, domainValues]
  | int =>
      have same : coordinate logarithm parameter = id := funext (unscaled (by simp [isType]))
      have notCategorical : parameter.isCategorical = false := by simp [ExperimentParameter.isCategorical, isType]
      have notDouble : parameter.isDouble = false := by simp [ExperimentParameter.isDouble, isType]
      cases isGrid : parameter.isGrid with
      | true => constructor <;> simp [peParameterInfo, notCategorical, isGrid, varTypeOf, isType, domainValues]
      | false =>
          constructor <;>
            simp [peParameterInfo, notCategorical, notDouble, isGrid, varTypeOf, isType, domainValues, same]

theorem exists_priorInfo (typed : Typed parameter) : ∃ info, parameterToPriorInfo parameter = .ok info := by
  unfold parameterToPriorInfo
  cases prior : parameter.prior with
  | none => exact ⟨_, rfl⟩
  | some given =>
      have isDouble : parameter.isDouble = true := decide_eq_true (typed.prior (by simp [prior]))
      cases given with
      | normal mean scale =>
          simp only [isDouble, raiseIf, bind_eq_ok]
          exact ⟨_, (), rfl, rfl⟩
      | beta shapeA shapeB =>
          simp only [isDouble, raiseIf, bind_eq_ok]
          exact ⟨_, (), rfl, rfl⟩

/-- The domain is made, and has the active parameters in order of their names. -/
theorem generateDomainInfo_agrees
    (typed : ∀ parameter ∈ experiment.experimentMeta.allParametersUnsorted, Typed parameter)
    (encoded : ∃ functions, parseExperimentConstraintsToFuncList experiment.experimentMeta = .ok functions)
    (onlyActiveCategoricalValues : Bool) :
    ∃ domain, generateDomainInfo logarithm experiment onlyActiveCategoricalValues = .ok domain ∧
      List.Forall₂ (DescribesDomain logarithm onlyActiveCategoricalValues) (allParameters experiment.experimentMeta)
        domain.domainComponents ∧
      (domain.priors = none ↔ ∀ parameter ∈ allParameters experiment.experimentMeta, parameter.prior = none) ∧
      ∀ priors ∈ domain.priors, List.Forall₂ (fun parameter info => parameterToPriorInfo parameter = .ok info)
        (allParameters experiment.experimentMeta) priors := by
  have typedActive : ∀ parameter ∈ allParameters experiment.experimentMeta, Typed parameter :=
    fun parameter isActive => typed parameter (mem_allParameters.mp isActive).1
  obtain ⟨functions, areFunctions⟩ := encoded
  obtain ⟨priors, arePriors, described⟩ :
      ∃ priors, (allParameters experiment.experimentMeta).mapM parameterToPriorInfo = .ok priors ∧
        List.Forall₂ (fun parameter info => parameterToPriorInfo parameter = .ok info)
          (allParameters experiment.experimentMeta) priors := by
    apply mapM_of_each
    intro parameter isActive
    obtain ⟨info, isInfo⟩ := exists_priorInfo (typedActive parameter isActive)
    exact ⟨info, isInfo, isInfo⟩
  have components : List.Forall₂ (DescribesDomain logarithm onlyActiveCategoricalValues)
      (allParameters experiment.experimentMeta)
      ((allParameters experiment.experimentMeta).map (peParameterInfo logarithm onlyActiveCategoricalValues)) := by
    rw [List.forall₂_map_right_iff, List.forall₂_same]
    exact fun parameter isActive => describesDomain logarithm (typedActive parameter isActive) _
  let domain (told : Option (List PriorInfo)) : DomainInfo K := {
    constraintList := functions
    domainComponents :=
      (allParameters experiment.experimentMeta).map (peParameterInfo logarithm onlyActiveCategoricalValues)
    forceHitandrunSampling := experiment.forceHitandrunSampling
    priors := told }
  by_cases hasPrior : (allParameters experiment.experimentMeta).any fun parameter => parameter.prior.isSome
  · refine ⟨domain (some priors), ?_, components, ?_, ?_⟩
    · rw [generateDomainInfo, areFunctions, ok_bind]
      simp only [if_pos hasPrior, arePriors]
      rfl
    · refine iff_of_false (by simp [domain]) ?_
      intro allNone
      obtain ⟨parameter, isActive, isSet⟩ := List.any_eq_true.mp hasPrior
      rw [allNone parameter isActive] at isSet
      cases isSet
    · intro told isTold
      obtain rfl := Option.some.inj isTold
      exact described
  · refine ⟨domain none, ?_, components, ?_, nofun⟩
    · rw [generateDomainInfo, areFunctions, ok_bind]
      simp only [if_neg hasPrior]
      rfl
    · refine iff_of_true rfl ?_
      simpa using hasPrior

/-- What a row is made of for a well-formed observation. -/
def rowOf (minimumValueVar : ℚ) (experiment : OptimizedExperiment) (observation : Observation) : SampledRow K where
  point := extractArrayForComputationFromAssignments logarithm (assignmentsOf observation.data)
    (allParameters experiment.experimentMeta)
  values := experiment.metrics.allMetrics.map fun metric =>
    observation.data.metricValue experiment.metrics metric.name
  valueVars := experiment.metrics.allMetrics.map (toldVariance minimumValueVar observation.data experiment.metrics)
  failure := observation.data.reportedFailure
  taskCost := BestAssignments.cost observation

theorem sampledRow_eq (minimumValueVar : ℚ) {observation : Observation}
    (wellFormed : WellFormedObservation experiment observation) :
    sampledRow logarithm minimumValueVar experiment observation =
      .ok (rowOf logarithm minimumValueVar experiment observation) := by
  obtain ⟨values, valuesRead, valuesAre⟩ := valuesRow_eq wellFormed
  obtain ⟨valueVar, varsRead, varsAre⟩ := valueVarsRow_eq minimumValueVar wellFormed
  simp only [sampledRow, bind_eq_ok]
  refine ⟨values, valuesRead, valueVar, varsRead, ?_⟩
  rw [valuesAre, varsAre]
  rfl

theorem point_describes {observation : Observation} (wellFormed : WellFormedObservation experiment observation) :
    List.Forall₂ (DescribesValue logarithm experiment observation) (allParameters experiment.experimentMeta)
      (extractArrayForComputationFromAssignments logarithm (assignmentsOf observation.data)
        (allParameters experiment.experimentMeta)) := by
  rw [extractArrayForComputationFromAssignments, List.forall₂_map_right_iff, List.forall₂_same]
  intro parameter isActive
  obtain ⟨value, isAssigned⟩ := Option.isSome_iff_exists.mp (wellFormed.assigned parameter isActive)
  refine ⟨value, isAssigned, ?_⟩
  rw [isAssigned, Option.getD_some]

/-- The rows are those of the observations, one by one. -/
theorem makePointsSampled_eq (minimumValueVar : ℚ) (some : observations ≠ [])
    (wellFormed : ∀ observation ∈ observations, WellFormedObservation experiment observation) :
    makePointsSampled logarithm minimumValueVar experiment observations observations.length =
      .ok {
        points := observations.map fun observation => (rowOf logarithm minimumValueVar experiment observation).point
        values := observations.map fun observation =>
          (rowOf logarithm minimumValueVar experiment observation).values
        valueVars := observations.map fun observation =>
          (rowOf logarithm minimumValueVar experiment observation).valueVars
        failures := observations.map fun observation =>
          (rowOf logarithm minimumValueVar experiment observation).failure
        taskCosts :=
          if experiment.metrics.isMultitask then
            .some (observations.map fun observation =>
              (rowOf logarithm minimumValueVar experiment observation).taskCost)
          else
            none } := by
  have rows : observations.mapM (sampledRow logarithm minimumValueVar experiment) =
      .ok (observations.map (rowOf logarithm minimumValueVar experiment)) :=
    mapM_eq_map fun observation member => sampledRow_eq logarithm minimumValueVar (wellFormed observation member)
  have counted : observations.length = observations.length - 1 + 1 :=
    (Nat.sub_add_cancel (List.length_pos_of_ne_nil some)).symm
  simp only [makePointsSampled, bind_eq_ok, raiseIf_eq_ok, not_not]
  refine ⟨_, rows, (), counted, ?_⟩
  simp only [List.map_map]
  rfl

end Arrays

/-! ### Back again -/

section Inverse

variable {K : Type} [Field K] [LinearOrder K] [IsStrictOrderedRing K] [FloorRing K] (logarithm : Logarithm K)
  {parameter : ExperimentParameter}

/-- An integer rounds to itself. -/
theorem roundHalfEven_intCast (number : ℤ) : roundHalfEven (number : K) = number := by
  have noRest : (number : K) - (number : K) < 1 / 2 := by
    rw [sub_self]
    exact one_half_pos
  rw [roundHalfEven, Int.floor_intCast, if_pos noRest]

/-- The values of an integer and of a categorical parameter are integers. -/
theorem exists_integer {value : ℚ} (valid : ValidValue parameter value)
    (rounded : (parameter.isInteger || parameter.isCategorical) = true) : ∃ number : ℤ, value = number := by
  unfold ValidValue at valid
  cases isType : parameter.paramType with
  | categorical =>
      rw [isType] at valid
      obtain ⟨category, _, isValue⟩ := valid
      exact ⟨category.enumIndex, isValue.symm.trans (Int.cast_natCast _).symm⟩
  | int =>
      rw [isType] at valid
      exact ⟨value.num, ((Rat.den_eq_one_iff value).mp valid.1).symm⟩
  | double => simp [ExperimentParameter.isInteger, ExperimentParameter.isCategorical, isType] at rounded

theorem valueAt_coordinate {value : ℚ} (valid : ValidValue parameter value)
    (positive : parameter.transformation = .log → 0 < value) :
    valueAt logarithm parameter (coordinate logarithm parameter (value : K)) = value := by
  have unscaled : (if parameter.hasLogTransformation then
      logarithm.pow10 (coordinate logarithm parameter (value : K))
        else coordinate logarithm parameter (value : K)) = value := by
    cases isLog : parameter.hasLogTransformation with
    | true =>
        rw [if_pos rfl, coordinate, if_pos isLog]
        exact logarithm.pow10_log10 _ (Rat.cast_pos.mpr (positive (of_decide_eq_true isLog)))
    | false => simp [coordinate, isLog]
  rw [valueAt, unscaled]
  cases rounded : parameter.isInteger || parameter.isCategorical with
  | true =>
      obtain ⟨number, rfl⟩ := exists_integer valid rounded
      rw [Rat.cast_intCast]
      simp only [if_true, roundHalfEven_intCast]
  | false => rfl

omit [IsStrictOrderedRing K] in
/-- The loop over the coordinates assigns its value to every name that a parameter has. -/
theorem foldl_assign {assignments : AssignmentsMap} {scaled : ExperimentParameter → K}
    {parameters : List ExperimentParameter}
    (returns : ∀ parameter ∈ parameters, ∃ value : ℚ, assignments parameter.name = some value ∧
      valueAt logarithm parameter (scaled parameter) = (value : K)) (start : String → Option K) (name : String) :
    ((parameters.map scaled).zip parameters).foldl
        (fun (assigned : String → Option K) (entry : K × ExperimentParameter) =>
          Function.update assigned entry.2.name (some (valueAt logarithm entry.2 entry.1))) start name =
      if name ∈ parameters.map (·.name) then (assignments name).map Rat.cast else start name := by
  induction parameters generalizing start with
  | nil => rfl
  | cons parameter parameters inductionHypothesis =>
      rw [List.forall_mem_cons] at returns
      obtain ⟨⟨value, isAssigned, isValue⟩, returnsOthers⟩ := returns
      rw [List.map_cons, List.zip_cons_cons, List.foldl_cons, inductionHypothesis returnsOthers, isValue]
      by_cases later : name ∈ parameters.map (·.name)
      · rw [if_pos later, if_pos (by rw [List.map_cons]; exact List.mem_cons_of_mem _ later)]
      · rw [if_neg later]
        by_cases here : name = parameter.name
        · rw [here, Function.update_self, if_pos (by simp), isAssigned]
          rfl
        · rw [Function.update_of_ne here, if_neg (by simp_all)]

theorem assignCoordinates_eq {experiment : ExperimentMeta} {assignments : AssignmentsMap}
    (active : AssignsActive experiment assignments) :
    assignCoordinates logarithm (allParameters experiment)
        (extractArrayForComputationFromAssignments logarithm assignments (allParameters experiment)) =
      fun name => (assignments name).map fun value : ℚ => (value : K) := by
  have returns : ∀ parameter ∈ allParameters experiment, ∃ value : ℚ, assignments parameter.name = some value ∧
      valueAt logarithm parameter (coordinate logarithm parameter
        (((filledValues assignments (allParameters experiment) parameter.name).getD 0 : ℚ) : K)) = (value : K) := by
    intro parameter isActive
    obtain ⟨value, isAssigned, valid, positive⟩ := active.values parameter isActive
    refine ⟨value, isAssigned, ?_⟩
    rw [filledValues_eq, isAssigned, Option.some_or, Option.getD_some]
    exact valueAt_coordinate logarithm valid positive
  funext name
  rw [assignCoordinates, extractArrayForComputationFromAssignments, foldl_assign logarithm returns]
  by_cases isActive : name ∈ (allParameters experiment).map (·.name)
  · rw [if_pos isActive]
  · rw [if_neg isActive]
    cases isAssigned : assignments name with
    | none => rfl
    | some value => exact absurd (active.only name (by simp [isAssigned])) isActive

theorem getTaskByCost_ok {experiment : MetricsExperiment} {taskCost : ℚ}
    (known : ∃ task ∈ experiment.tasks, task.cost = taskCost) : ∃ task, getTaskByCost experiment taskCost = .ok task := by
  obtain ⟨task, isTask, sameCost⟩ := known
  have found : (experiment.tasks.find? fun task => task.cost = taskCost).isSome := by
    rw [List.find?_isSome]
    exact ⟨task, isTask, decide_eq_true sameCost⟩
  obtain ⟨matchingTask, isFound⟩ := Option.isSome_iff_exists.mp found
  refine ⟨matchingTask, ?_⟩
  rw [getTaskByCost, isFound]
  rfl

/-- What is made of a point and the cost that comes with it. -/
def suggestionOf (experiment : OptimizedExperiment) (entry : List K × Option ℚ) :
    Except ConstraintError (SuggestionData K) := do
  let task ← match entry.2 with
    | some taskCost => (getTaskByCost experiment.metrics taskCost).map some
    | none => pure none
  pure {
    assignmentsMap := assignCoordinates logarithm (allParameters experiment.experimentMeta) entry.1
    task := task }

theorem suggestionOf_ok {experiment : OptimizedExperiment} {assignments : AssignmentsMap} {cost : Option ℚ}
    (active : AssignsActive experiment.experimentMeta assignments)
    (known : ∀ taskCost ∈ cost, ∃ task ∈ experiment.metrics.tasks, task.cost = taskCost) :
    ∃ suggestion, suggestionOf logarithm experiment (extractArrayForComputationFromAssignments logarithm assignments
        (allParameters experiment.experimentMeta), cost) = .ok suggestion ∧
      suggestion.assignmentsMap = fun name => (assignments name).map fun value : ℚ => (value : K) := by
  cases cost with
  | none =>
      refine ⟨_, rfl, ?_⟩
      exact assignCoordinates_eq logarithm active
  | some taskCost =>
      obtain ⟨task, isTask⟩ := getTaskByCost_ok (known taskCost rfl)
      refine ⟨{ assignmentsMap := fun name => (assignments name).map fun value : ℚ => (value : K), task := some task },
        ?_, rfl⟩
      simp only [suggestionOf, isTask, assignCoordinates_eq logarithm active]
      rfl

theorem suggestions_of_costs {experiment : OptimizedExperiment} {rows : List AssignmentsMap} {costs : List (Option ℚ)}
    (sameLength : costs.length = rows.length)
    (active : ∀ assignments ∈ rows, AssignsActive experiment.experimentMeta assignments)
    (known : ∀ cost ∈ costs, ∀ taskCost ∈ cost, ∃ task ∈ experiment.metrics.tasks, task.cost = taskCost) :
    ∃ suggestions, ((rows.map fun assignments => extractArrayForComputationFromAssignments logarithm assignments
        (allParameters experiment.experimentMeta)).zip costs).mapM (suggestionOf logarithm experiment) =
          .ok suggestions ∧
      List.Forall₂ (fun assignments suggestion =>
        suggestion.assignmentsMap = fun name => (assignments name).map fun value : ℚ => (value : K)) rows suggestions := by
  induction rows generalizing costs with
  | nil => exact ⟨[], rfl, .nil⟩
  | cons assignments rows inductionHypothesis =>
      cases costs with
      | nil => simp at sameLength
      | cons cost costs =>
          rw [List.forall_mem_cons] at active known
          obtain ⟨suggestion, made, restored⟩ := suggestionOf_ok logarithm active.1 known.1
          obtain ⟨suggestions, madeOthers, restoredOthers⟩ :=
            inductionHypothesis (by simpa using sameLength) active.2 known.2
          refine ⟨suggestion :: suggestions, ?_, .cons restored restoredOthers⟩
          rw [List.map_cons, List.zip_cons_cons, List.mapM_cons, made, madeOthers]
          rfl

/-- The points of the assignments are turned back into the assignments, one by one. -/
theorem columns_invert (experiment : OptimizedExperiment) : ColumnsInvert logarithm experiment := by
  intro rows taskCosts active known
  match taskCosts with
  | some (taskCost :: others) =>
      obtain ⟨sameLength, areTasks⟩ := known _ rfl
      apply suggestions_of_costs logarithm (by rw [List.length_map, sameLength]) active
      intro cost isCost given isGiven
      obtain ⟨listed, isListed, rfl⟩ := List.mem_map.mp isCost
      obtain rfl := Option.some.inj isGiven
      exact areTasks listed isListed
  | some [] | none =>
      apply suggestions_of_costs logarithm (by simp) active
      intro cost isCost given isGiven
      rw [List.eq_of_mem_replicate isCost] at isGiven
      cases isGiven

end Inverse

/-! ### Over all updates -/

section Runs

variable {sections : OtherSections} {maxVariables : ℕ} {findInteriorPoint : List Halfspace → Bool} {className : String}
  {body : JsonObject} {created : ExperimentMeta} {updates : List (JsonObject × ExperimentMeta)}

/-- The constraints are those of the creation, and so are the parameters where there are constraints. -/
def ConstrainsAs (created experiment : ExperimentMeta) : Prop :=
  experiment.constraints = created.constraints ∧
    (created.constraints ≠ [] → experiment.allParametersUnsorted = created.allParametersUnsorted)

/-- An update leaves constraints as they were, and the parameters of a constrained experiment. -/
theorem ConstrainsAs.step {sections : OtherSections} {before after : ExperimentMeta} (kept : ConstrainsAs created before)
    (updated : updateExperiment sections before body = .ok after) : ConstrainsAs created after := by
  obtain ⟨sameConstraints, sameParameters⟩ := kept
  obtain ⟨constraintsStay, parametersStay⟩ := updateExperiment_constraints updated
  rw [sameConstraints] at constraintsStay parametersStay
  exact ⟨constraintsStay, fun constrained => (parametersStay constrained).trans (sameParameters constrained)⟩

/-- No update gets at the parameters of a constraint, so that the functions that are made at the creation stay. -/
theorem encoded_of_run
    (accepted : createExperiment (constrainedSections sections maxVariables findInteriorPoint) className body =
      .ok created)
    (run : AcceptedUpdates (constrainedSections sections maxVariables findInteriorPoint) created updates) :
    ∀ experiment ∈ Trace.reached created updates,
      ∃ functions, parseExperimentConstraintsToFuncList experiment = .ok functions := by
  have kept : ∀ experiment ∈ Trace.reached created updates, ConstrainsAs created experiment :=
    Trace.every_invariant (fun _ _ _ kept updated => kept.step updated) ⟨rfl, fun _ => rfl⟩ run
  intro experiment isReached
  obtain ⟨sameConstraints, sameParameters⟩ := kept experiment isReached
  rw [parseExperimentConstraintsToFuncList, sameConstraints]
  by_cases constrained : created.constraints = []
  · rw [constrained]
    exact ⟨[], rfl⟩
  · obtain ⟨functions, _, encoded, _⟩ := constraintsAgree_created accepted
    refine ⟨functions, ?_⟩
    rw [allParameters, sameParameters constrained]
    exact encoded

end Runs

/-- A request with a number on a logarithmic scale and an integer, not in order of their names. -/
def requestTuning : JsonObject :=
  [("name", .string "an experiment"),
    ("parameters", .array [
      .object [("name", .string "rate"), ("type", .string "double"), ("transformation", .string "log"),
        ("bounds", .object [("min", .number (1 / 1024)), ("max", .number 1)])],
      .object [("name", .string "layers"), ("type", .string "int"),
        ("bounds", .object [("min", .number 1), ("max", .number 5)])]])]

/-- The experiment with two metrics, which are not in order of their names either. -/
def experimentTuning : OptimizedExperiment where
  experimentMeta := {
    allParametersUnsorted :=
      [{ name := "rate", bounds := ⟨1 / 1024, 1⟩, transformation := .log },
        { name := "layers", paramType := .int, bounds := ⟨1, 5⟩ }] }
  metrics := {
    metrics := [{ name := "loss", objective := .minimize },
      { name := "cost", objective := .minimize, strategy := .constraint, threshold := some 10 }] }

/-- One observation with both values. -/
def observationTuning : Observation where
  data := {
    values := [{ name := "loss", value := some (1 / 2) }, { name := "cost", value := some 7 }]
    assignmentsMap := [("rate", 1 / 128), ("layers", 3)] }

end Zigopt.SigoptCompute
