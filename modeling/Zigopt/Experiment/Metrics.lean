/-
Module: Zigopt.Experiment.Metrics
Layer: Experiment
Purpose: The metrics of a request that creates an experiment, as `get_metric_list_from_json` stores
  them. A metric is given as its name or as an object.
Main exports: MetricEntry, metricEntries, getMetricListFromJson, MetricsRead, getMetricListFromJson_ok
-/
import Zigopt.Experiment.Names
import Zigopt.Observations.Data

namespace Zigopt.Experiment

open Raising
open Zigopt.Observations (ExperimentMetric MetricObjective MetricStrategy)

/-- An item of `metrics`: a string or an object. -/
abbrev MetricEntry := String ⊕ JsonObject

def maxOptimizedMetrics : Nat := 2
def maxConstraintMetrics : Nat := 4
def maxMetricsAnyStrategy : Nat := 50

def metricObjectiveNamed : String → Option MetricObjective
  | "maximize" => some .maximize
  | "minimize" => some .minimize
  | _ => none

def metricStrategyNamed : String → Option MetricStrategy
  | "optimize" => some .optimize
  | "store" => some .store
  | "constraint" => some .constraint
  | _ => none

def validateMetricName (name : String) : Except ValidationError String :=
  validateNameLength .metric name

def validateMetricObjective : Option String → Except ValidationError (Option MetricObjective)
  | none => pure none
  | some name =>
      match metricObjectiveNamed name with
      | some objective => pure (some objective)
      | none => .error (.sigoptValidation
          (s!"Unrecognized objective type: {name} " ++
            "(If provided, must be one of ('maximize', 'minimize'))"))

def validateMetricStrategy : Option String → Except ValidationError (Option MetricStrategy)
  | none => pure none
  | some name =>
      match metricStrategyNamed name with
      | some strategy => pure (some strategy)
      | none => .error (.sigoptValidation
          (s!"Unrecognized strategy: {name}. " ++
            "If provided, must be one of ('optimize', 'store', 'constraint')"))

def getMetricObjective (metric : JsonObject) : Except ValidationError (Option MetricObjective) := do
  let objective ← getOptWithValidation metric "objective" .string
  raiseIf (metric.hasKey "objective" ∧ objective = none) (.invalidValue
    "Objective field, if specified, must be one of ('maximize', 'minimize')")
  validateMetricObjective objective

def getMetricName (metric : JsonObject) (seenNames : List (Option String)) (numMetrics : Nat) :
    Except ValidationError (Option String) := do
  let name ← getOptWithValidation metric "name" .string
  raiseIf (name = none ∧ numMetrics > 1)
    (.sigoptValidation "Multimetric experiments do not support unnamed metrics")
  let shown := name.getD "None"
  raiseIf (name ∈ seenNames) (.invalidValue s!"Duplicate metric name: {shown}")
  pure name

def checkThreshold (threshold : Option ℚ) (numOptimizedMetrics : Nat) :
    MetricStrategy → Except ValidationError Unit
  | .optimize => raiseIf (numOptimizedMetrics = 1 ∧ threshold ≠ none) (.sigoptValidation
      ("Thresholds are only supported for experiments with more than one optimized metric." ++
        " Try an All-Constraint experiment instead by setting `strategy` to `constraint`."))
  | .constraint => raiseIf (threshold = none)
      (.sigoptValidation "Constraint metrics must have the threshold field defined")
  | .store => raiseIf (threshold ≠ none)
      (.sigoptValidation "Thresholds cannot be specified on stored metrics")

def getMetricThreshold (metric : JsonObject) (numOptimizedMetrics : Nat)
    (metricStrategy : Option MetricStrategy) : Except ValidationError (Option ℚ) := do
  let threshold ← getOptWithValidation metric "threshold" .number
  checkThreshold threshold numOptimizedMetrics (metricStrategy.getD .optimize)
  pure threshold

def getMetricStrategy (metric : JsonObject) : Except ValidationError (Option MetricStrategy) := do
  let metricStrategy ← getOptWithValidation metric "strategy" .string
  raiseIf (metric.hasKey "strategy" ∧ metricStrategy = none) (.invalidValue
    "Metric strategy field, if specified, must be one of ('optimize', 'store', 'constraint')")
  validateMetricStrategy metricStrategy

/-- Whether `group_metric_strategies_from_json` puts the metric under the strategy. -/
def groupedUnder (strategy : String) : MetricEntry → Bool
  | .inl _ => strategy = "optimize"
  | .inr metric =>
      if metric.hasKey "strategy" then
        ValidationType.string.read (metric.get "strategy") = some strategy
      else
        strategy = "optimize"

def napply {α β : Type} (value : Option α) (function : α → Except ValidationError β) :
    Except ValidationError (Option β) :=
  match value with
  | none => pure none
  | some given => (function given).map some

/-- `ExperimentMetric(name=…)`, where null leaves the default of the field. -/
def experimentMetric (name : Option String) (objective : Option MetricObjective)
    (strategy : Option MetricStrategy) (threshold : Option ℚ) : ExperimentMetric where
  name := name.getD ""
  objective := objective.getD .maximize
  threshold := threshold
  strategy := strategy.getD .optimize

/-- One round of the loop, with the names seen so far as they stand in the request. A plain string is
    not looked up among them. -/
def readMetric (numMetrics numOptimizedMetrics : Nat)
    (state : List (Option String) × List ExperimentMetric) :
    MetricEntry → Except ValidationError (List (Option String) × List ExperimentMetric)
  | .inl name => do
      let stored ← validateMetricName name
      pure (state.1 ++ [some name], state.2 ++ [experimentMetric (some stored) none none none])
  | .inr metric => do
      let name ← getMetricName metric state.1 numMetrics
      let objective ← getMetricObjective metric
      let strategy ← getMetricStrategy metric
      let threshold ← getMetricThreshold metric numOptimizedMetrics strategy
      let stored ← napply name validateMetricName
      pure (state.1 ++ [name], state.2 ++ [experimentMetric stored objective strategy threshold])

/-- `get_metric_list_from_json`: the limits on each strategy come before the metrics are read. -/
def getMetricListFromJson (userFacingClassName : String) (json : JsonObject) :
    Except ValidationError (List ExperimentMetric) := do
  match ← getOptWithValidation json "metrics" (.arrayOf (.oneOf .string .object)) with
  | none => pure [{}]
  | some metrics =>
      raiseIf (metrics = []) (.invalidValue "The `metrics` list must contain a metric")
      raiseIf (metrics.length > maxMetricsAnyStrategy)
        (.invalidValue s!"Cannot have more then {maxMetricsAnyStrategy} metrics")
      let numOptimizedMetrics := metrics.countP (groupedUnder "optimize")
      raiseIf (numOptimizedMetrics > maxOptimizedMetrics) (.invalidValue
        s!"{userFacingClassName}s must have at most {maxOptimizedMetrics} optimized metrics")
      raiseIf (metrics.countP (groupedUnder "constraint") > maxConstraintMetrics) (.invalidValue
        s!"{userFacingClassName}s must have at most {maxConstraintMetrics} constraint metrics")
      let read ← metrics.foldlM (readMetric metrics.length numOptimizedMetrics) ([], [])
      pure read.2

/-! ### What the loop has read -/

/-- The name of an item as the request has it. -/
def rawName : MetricEntry → Option String
  | .inl name => some name
  | .inr metric => ValidationType.string.read (metric.get "name")

/-- The name that is stored for it; the name of an unnamed metric reads as empty. -/
def storedName (entry : MetricEntry) : String :=
  ((rawName entry).map strip).getD ""

/-- What holds of the items already done, the names seen and the metrics read. -/
structure MetricsRead (numMetrics : Nat) (done : List MetricEntry)
    (state : List (Option String) × List ExperimentMetric) : Prop where
  seenNames : state.1 = done.map rawName
  names : state.2.map (·.name) = done.map storedName
  named : ∀ entry ∈ done, 1 < numMetrics → storedName entry ≠ ""
  objectsNew : done.Pairwise fun earlier later => later.isRight → rawName earlier ≠ rawName later

theorem napply_validateMetricName_ok {name stored : Option String}
    (validated : napply name validateMetricName = .ok stored) :
    stored = name.map strip ∧ (name ≠ none → stored.getD "" ≠ "") := by
  cases name with
  | none =>
      rw [napply, pure_eq_ok] at validated
      exact ⟨validated.symm, fun given => absurd rfl given⟩
  | some given =>
      rw [napply, map_eq_ok] at validated
      obtain ⟨name, validName, rfl⟩ := validated
      obtain ⟨_, notBlank, _, rfl⟩ := validateNameLength_eq_ok.mp validName
      exact ⟨rfl, fun _ => notBlank⟩

/-- One round of the loop. -/
theorem readMetric_ok {numMetrics numOptimizedMetrics : Nat} {entry : MetricEntry}
    {state next : List (Option String) × List ExperimentMetric}
    (accepted : readMetric numMetrics numOptimizedMetrics state entry = .ok next) :
    (∃ metric, metric.name = storedName entry ∧ next = (state.1 ++ [rawName entry], state.2 ++ [metric])) ∧
      (1 < numMetrics → storedName entry ≠ "") ∧ (entry.isRight → rawName entry ∉ state.1) := by
  cases entry with
  | inl name =>
      simp only [readMetric, bind_eq_ok, pure_eq_ok] at accepted
      obtain ⟨stored, validated, rfl⟩ := accepted
      obtain ⟨_, notBlank, _, rfl⟩ := validateNameLength_eq_ok.mp validated
      refine ⟨⟨_, rfl, rfl⟩, fun _ => notBlank, ?_⟩
      intro isMetric
      cases isMetric
  | inr metric =>
      simp only [readMetric, getMetricName, bind_eq_ok, raiseIf_eq_ok, pure_eq_ok] at accepted
      obtain ⟨name, ⟨given, read, _, named, _, unseen, rfl⟩, objective, _, strategy, _, threshold, _, stored,
        validated, rfl⟩ := accepted
      have raw : rawName (.inr metric) = given := getOptWithValidation_eq_read rfl read
      obtain ⟨rfl, notBlank⟩ := napply_validateMetricName_ok validated
      refine ⟨⟨_, ?_, by rw [raw]⟩, ?_, fun _ => raw ▸ unseen⟩
      · rw [storedName, raw]
        rfl
      · intro several
        rw [storedName, raw]
        exact notBlank fun unnamed => named ⟨unnamed, several⟩

/-- One more metric is read after those before it. -/
theorem MetricsRead.step {numMetrics numOptimizedMetrics : Nat} {done : List MetricEntry} {entry : MetricEntry}
    {state next : List (Option String) × List ExperimentMetric} (readSoFar : MetricsRead numMetrics done state)
    (accepted : readMetric numMetrics numOptimizedMetrics state entry = .ok next) :
    MetricsRead numMetrics (done ++ [entry]) next := by
  obtain ⟨⟨metric, name, rfl⟩, notBlank, unseen⟩ := readMetric_ok accepted
  constructor
  · rw [List.map_append, readSoFar.seenNames]
    rfl
  · rw [List.map_append, List.map_append, readSoFar.names, List.map_singleton, name]
    rfl
  · intro other member several
    rcases List.mem_append.mp member with earlier | last
    · exact readSoFar.named other earlier several
    · rw [List.mem_singleton] at last
      exact last ▸ notBlank several
  · rw [List.pairwise_append]
    refine ⟨readSoFar.objectsNew, List.pairwise_singleton _ _, ?_⟩
    intro earlier member last isLast isObject same
    rw [List.mem_singleton] at isLast
    subst isLast
    rw [readSoFar.seenNames] at unseen
    exact unseen isObject (same ▸ List.mem_map_of_mem member)

/-- The items of `metrics`, none if the request has no metrics. -/
def metricEntries (json : JsonObject) : List MetricEntry :=
  ((ValidationType.arrayOf (.oneOf .string .object)).read (json.get "metrics")).getD []

/-- The metrics of an accepted request: without `metrics` a single unnamed one, and otherwise one for each
    item. -/
theorem getMetricListFromJson_ok {userFacingClassName : String} {json : JsonObject}
    {metrics : List ExperimentMetric} (accepted : getMetricListFromJson userFacingClassName json = .ok metrics) :
    (metricEntries json = [] ∧ metrics = [{}]) ∨
      (metricEntries json ≠ [] ∧
        ∃ seenNames, MetricsRead (metricEntries json).length (metricEntries json) (seenNames, metrics)) := by
  simp only [getMetricListFromJson, bind_eq_ok] at accepted
  obtain ⟨given, read, accepted⟩ := accepted
  have entries : metricEntries json = given.getD [] := by
    rw [metricEntries, getOptWithValidation_eq_read rfl read]
  cases given with
  | none =>
      rw [pure_eq_ok] at accepted
      exact .inl ⟨entries, accepted.symm⟩
  | some items =>
      rw [Option.getD_some] at entries
      simp only [bind_eq_ok, raiseIf_eq_ok, pure_eq_ok] at accepted
      obtain ⟨_, someItems, _, _, _, _, _, _, state, finished, rfl⟩ := accepted
      rw [entries]
      refine .inr ⟨someItems, state.1, ?_⟩
      have noneRead : MetricsRead items.length [] ([], []) :=
        ⟨rfl, rfl, fun _ member => absurd member List.not_mem_nil, List.Pairwise.nil⟩
      refine foldlM_induction (MetricsRead items.length) ?_ noneRead finished
      intro done state entry next readSoFar stepped
      exact readSoFar.step stepped

end Zigopt.Experiment
