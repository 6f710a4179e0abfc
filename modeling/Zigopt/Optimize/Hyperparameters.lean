/-
Module: Zigopt.Optimize.Hyperparameters
Layer: Optimize
Purpose: The hyperparameters of the Gaussian processes as `optimize/sources/categorical.py` keeps them: the dictionaries
  of the optimizer, one for each metric, made into a protobuf and read from it again.
Main exports: HyperparameterDict, MultimetricHyperparameters, CategoricalOptimizationSource,
  buildMmHyperparameterProtobufFromDict, extractHyperparameterDict
-/
import Mathlib.Algebra.GroupWithZero.Nat
import Zigopt.Assignments.Validate
import Zigopt.Observations.Data

namespace Zigopt.Optimize

open Assignments Experiment Observations Raising

/-! ### Dictionaries and protobufs -/

/-- The hyperparameters of one metric, with a list of lengths for each parameter. -/
structure HyperparameterDict where
  alpha : ℚ
  lengthScales : List (List (Option ℚ))
  tikhonov : Option ℚ
  taskLength : Option ℚ
deriving DecidableEq, Repr

structure CategoricalHyperparameterLengths where
  parameterName : String
  lengthList : List ℚ
deriving DecidableEq, Repr

structure CategoricalHyperparameters where
  hyperparameterAlpha : Option ℚ := none
  hyperparameterLengths : List CategoricalHyperparameterLengths := []
  hyperparameterTikhonov : Option ℚ := none
  taskLength : Option ℚ := none
deriving DecidableEq, Repr

structure MultimetricHyperparameterValue where
  metricName : String
  categoricalHyperparameters : CategoricalHyperparameters
deriving DecidableEq, Repr

/-- The protobuf that is stored: the hyperparameters of each metric by its name. -/
abbrev MultimetricHyperparameters := List MultimetricHyperparameterValue

inductive HyperparameterError where
  | indexError
  | valueError
deriving DecidableEq, Repr

/-! ### The source -/

/-- The classes that share the conversions. -/
inductive SourceClass where
  | categorical
  | conditional
  | search
deriving DecidableEq, Repr

/-- The constants of the optimizer's library. -/
structure HyperparameterDefaults where
  alpha : ℚ
  tikhonov : ℚ
  taskLength : ℚ
deriving DecidableEq, Repr

/-- What the source reads: the experiment, its metrics, and libsigopt's defaults. -/
structure CategoricalOptimizationSource where
  sourceClass : SourceClass := .categorical
  experimentMeta : ExperimentMeta
  metrics : MetricsExperiment
  defaults : HyperparameterDefaults
deriving DecidableEq, Repr

structure OptimizationArgs where
  observationCount : ℕ
  failureCount : ℕ
  oldHyperparameters : Option MultimetricHyperparameters
deriving DecidableEq, Repr

/-- `DEFAULT_AUTO_NOISE_ACTIVATED`. -/
def defaultAutoNoiseActivated : Bool := false

/-- `MINIMUM_INTEGER_LENGTH_SCALE`. -/
def minimumIntegerLengthScale : ℚ := 1 / 2

namespace CategoricalOptimizationSource

variable (source : CategoricalOptimizationSource)

/-- The parameters that the source experiment shows. -/
def parameters : List ExperimentParameter := allParameters source.experimentMeta

def hyperOptDimension : ℕ :=
  (source.parameters.map fun parameter =>
    if parameter.isCategorical then parameter.activeCategoricalValues.length else 1).sum

def useAutoNoise (_ : CategoricalOptimizationSource) : Bool := defaultAutoNoiseActivated

def shouldHaveTaskLength : Bool :=
  match source.sourceClass with
  | .search => false
  | .categorical | .conditional => source.metrics.isMultitask

/-- `_default_hyperparameter`: there is no largest step of a grid with a single value. -/
def defaultHyperparameter (parameter : ExperimentParameter) : Except HyperparameterError (Option ℚ) :=
  if parameter.isCategorical then
    pure none
  else if parameter.isGrid then
    match (List.zipWith (fun next value => next - value) parameter.gridValues.tail parameter.gridValues).max? with
    | some largest => pure (some largest)
    | none => .error .valueError
  else
    let edgeLength := parameter.bounds.maximum - parameter.bounds.minimum
    let default := 1 / 10 * edgeLength
    pure (some (if parameter.isInteger then max default minimumIntegerLengthScale else default))

def defaultCatHyperparameterDict : Except HyperparameterError HyperparameterDict := do
  let lengthScales ← source.parameters.mapM fun parameter => do pure [← defaultHyperparameter parameter]
  pure {
    alpha := source.defaults.alpha
    lengthScales := lengthScales
    tikhonov := if source.useAutoNoise then some source.defaults.tikhonov else none
    taskLength := if source.shouldHaveTaskLength then some source.defaults.taskLength else none }

def defaultHyperparameterDict : Except HyperparameterError (List HyperparameterDict) :=
  source.metrics.allMetrics.mapM fun _ => source.defaultCatHyperparameterDict

/-! ### From the protobuf -/

/-- `should_force_default_hyperparameters`, for hyperparameters that are there. -/
def shouldForceDefaultHyperparameters (args : OptimizationArgs) : Bool :=
  (args.observationCount : ℤ) - args.failureCount ≤ 2 * source.hyperOptDimension

/-- `length_scale_map.get(name)`: of two lists for one name the map has the later one. -/
def storedLengths (hyperparameters : CategoricalHyperparameters) (name : String) : Option (List ℚ) :=
  (hyperparameters.hyperparameterLengths.reverse.find? fun lengths => lengths.parameterName = name).map (·.lengthList)

/-- One round of the loop over the parameters. -/
def extractLengthScale (hyperparameters : CategoricalHyperparameters) (parameter : ExperimentParameter) :
    Except HyperparameterError (List (Option ℚ)) :=
  let stored := (storedLengths hyperparameters parameter.name).getD []
  if stored = [] ∨ (parameter.isCategorical = true ∧ stored.length ≠ parameter.allCategoricalValues.length) then do
    pure [← defaultHyperparameter parameter]
  else
    pure (stored.map some)

/-- `_extract_cat_hyperparameter_dict`. -/
def extractStoredHyperparameterDict (hyperparameters : CategoricalHyperparameters) (useAutoNoise : Bool) :
    Except HyperparameterError HyperparameterDict := do
  let alpha := hyperparameters.hyperparameterAlpha.getD source.defaults.alpha
  let lengthScales ← source.parameters.mapM (extractLengthScale hyperparameters)
  let tikhonov :=
    if useAutoNoise then some (hyperparameters.hyperparameterTikhonov.getD source.defaults.tikhonov) else none
  let taskLength :=
    if source.shouldHaveTaskLength then some (hyperparameters.taskLength.getD source.defaults.taskLength) else none
  pure { alpha := alpha, lengthScales := lengthScales, tikhonov := tikhonov, taskLength := taskLength }

def extractCatHyperparameterDict (args : OptimizationArgs) (hyperparameters : CategoricalHyperparameters) :
    Except HyperparameterError HyperparameterDict :=
  if source.shouldForceDefaultHyperparameters args then
    source.defaultCatHyperparameterDict
  else
    source.extractStoredHyperparameterDict hyperparameters source.useAutoNoise

/-- `extract_hyperparameter_dict`: the stored values sorted by metric name, or the defaults. -/
def extractHyperparameterDict (args : OptimizationArgs) : Except HyperparameterError (List HyperparameterDict) :=
  match args.oldHyperparameters with
  | none => source.defaultHyperparameterDict
  | some multimetricHyperparameters =>
      let sorted := multimetricHyperparameters.insertionSort fun first second => first.metricName ≤ second.metricName
      sorted.mapM fun value => source.extractCatHyperparameterDict args value.categoricalHyperparameters

/-! ### To the protobuf -/

/-- A number is stored if it is true, so that neither None nor zero is. -/
def truthy (number : Option ℚ) : Option ℚ := number.filter fun value => value ≠ 0

instance lawfulBEq_length : LawfulBEq (Option ℚ) := inferInstance

/-- The lengths are stored unless there is a None among them. -/
def lengthsOf (lengthScales : List (Option ℚ)) (parameter : ExperimentParameter) : CategoricalHyperparameterLengths :=
  { parameterName := parameter.name
    lengthList := if none ∈ lengthScales then [] else lengthScales.reduceOption }

def buildCatHyperparameterProtobufFromDict (hyperparameterDict : HyperparameterDict) : CategoricalHyperparameters where
  hyperparameterAlpha := some hyperparameterDict.alpha
  hyperparameterLengths := List.zipWith lengthsOf hyperparameterDict.lengthScales source.parameters
  hyperparameterTikhonov := truthy hyperparameterDict.tikhonov
  taskLength := truthy hyperparameterDict.taskLength

/-- `build_mm_hyperparameter_protobuf_from_dict`: the dicts are taken by the position of the metric. -/
def buildMmHyperparameterProtobufFromDict (hyperparameterDict : List HyperparameterDict) :
    Except HyperparameterError MultimetricHyperparameters :=
  source.metrics.allMetrics.zipIdx.mapM fun entry =>
    match hyperparameterDict[entry.2]? with
    | some ofMetric => pure {
        metricName := entry.1.name
        categoricalHyperparameters := source.buildCatHyperparameterProtobufFromDict ofMetric }
    | none => .error .indexError

end CategoricalOptimizationSource

end Zigopt.Optimize
