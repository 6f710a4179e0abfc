/-
Module: Zigopt.Optimize.HyperparametersKept
Layer: Optimize
Purpose: The lengths and alpha of every metric come back from the protobuf, also after categorical values have been
  deleted. The Tikhonov parameter never does, as the noise is not automatic, and a task length only with tasks.
Main exports: OptimizerDict, afterDeletion, storedDict, hyperparameters_kept
-/
import Mathlib.Data.List.ReduceOption
import Zigopt.Optimize.Hyperparameters

namespace Zigopt.Optimize

open Assignments Experiment Observations Raising CategoricalOptimizationSource

/-! ### What the optimizer answers with -/

/-- A number has lengths, and a categorical parameter one for each of its values, deleted or not, or just None. -/
def LengthsFit (parameter : ExperimentParameter) (lengths : List (Option ℚ)) : Prop :=
  (parameter.isCategorical = true ∧ lengths = [none]) ∨
    (none ∉ lengths ∧ lengths ≠ [] ∧
      (parameter.isCategorical = true → lengths.length = parameter.allCategoricalValues.length))

/-- The lengths are told by the names of the active parameters, in their order. -/
structure OptimizerDict (source : CategoricalOptimizationSource) (dict : HyperparameterDict) : Prop where
  named : ∃ lengths : String → List (Option ℚ),
    dict.lengthScales = source.parameters.map fun parameter => lengths parameter.name
  fits : List.Forall₂ LengthsFit source.parameters dict.lengthScales

/-- Some categorical values are deleted. -/
def deleteValues (isDeleted : String → String → Bool) (parameter : ExperimentParameter) : ExperimentParameter :=
  { parameter with
    allCategoricalValues := parameter.allCategoricalValues.map fun value =>
      if isDeleted parameter.name value.name then { value with deleted := true } else value }

/-- The source, once the experiment has fewer categorical values. -/
def CategoricalOptimizationSource.afterDeletion (source : CategoricalOptimizationSource)
    (isDeleted : String → String → Bool) : CategoricalOptimizationSource :=
  { source with
    experimentMeta := { source.experimentMeta with
      allParametersUnsorted := source.experimentMeta.allParametersUnsorted.map (deleteValues isDeleted) } }

/-- What is kept of a dictionary. -/
def CategoricalOptimizationSource.storedDict (source : CategoricalOptimizationSource) (dict : HyperparameterDict) :
    HyperparameterDict :=
  { dict with
    tikhonov := none
    taskLength :=
      if source.shouldHaveTaskLength then some (dict.taskLength.getD source.defaults.taskLength) else none }

/-! ### The lengths -/

section Lengths

variable {parameters : List ExperimentParameter} {parameter : ExperimentParameter} {lengths : List (Option ℚ)}

/-- The lengths that are stored under a name. -/
def keptLengths (lengths : List (Option ℚ)) : List ℚ := if none ∈ lengths then [] else lengths.reduceOption

theorem map_some_reduceOption (noNone : none ∉ lengths) : lengths.reduceOption.map some = lengths := by
  induction lengths with
  | nil => rfl
  | cons first rest inductionHypothesis =>
      rw [List.mem_cons, not_or] at noNone
      cases first with
      | none => exact absurd rfl noNone.1
      | some length => rw [List.reduceOption_cons_of_some, List.map_cons, inductionHypothesis noNone.2]

/-- Whichever list of a name is the last one, its lengths are those of the name. -/
theorem storedLengths_of_named {hyperparameters : CategoricalHyperparameters} {named : String → List (Option ℚ)}
    (stored : hyperparameters.hyperparameterLengths =
      parameters.map fun parameter => lengthsOf (named parameter.name) parameter)
    (isParameter : parameter ∈ parameters) :
    storedLengths hyperparameters parameter.name = some (keptLengths (named parameter.name)) := by
  have found : (hyperparameters.hyperparameterLengths.reverse.find? fun lengths =>
      lengths.parameterName = parameter.name).isSome := by
    rw [List.find?_isSome, stored]
    exact ⟨lengthsOf (named parameter.name) parameter,
      List.mem_reverse.mpr (List.mem_map_of_mem isParameter), decide_eq_true rfl⟩
  obtain ⟨lengths, isFound⟩ := Option.isSome_iff_exists.mp found
  have sameName : lengths.parameterName = parameter.name := by simpa using List.find?_some isFound
  have member := List.mem_reverse.mp (List.mem_of_find?_eq_some isFound)
  rw [stored] at member
  obtain ⟨other, _, rfl⟩ := List.mem_map.mp member
  have isOther : other.name = parameter.name := sameName
  rw [storedLengths, isFound, Option.map_some, ← isOther]
  rfl

/-- The lengths are read for a parameter that has the same name and type and as many values. -/
theorem extractLengthScale_eq {hyperparameters : CategoricalHyperparameters} {reader : ExperimentParameter}
    (sameType : reader.paramType = parameter.paramType)
    (sameCount : reader.allCategoricalValues.length = parameter.allCategoricalValues.length)
    (stored : storedLengths hyperparameters reader.name = some (keptLengths lengths)) (fits : LengthsFit parameter lengths) :
    extractLengthScale hyperparameters reader = .ok lengths := by
  have sameKind : reader.isCategorical = parameter.isCategorical := by
    rw [ExperimentParameter.isCategorical, ExperimentParameter.isCategorical, sameType]
  unfold extractLengthScale
  rw [stored, Option.getD_some]
  rcases fits with ⟨isCategorical, rfl⟩ | ⟨noNone, some, asMany⟩
  · have nothing : keptLengths [none] = [] := rfl
    rw [if_pos (Or.inl nothing), defaultHyperparameter, if_pos (sameKind.trans isCategorical)]
    rfl
  · have kept : keptLengths lengths = lengths.reduceOption := if_neg noNone
    have sameLength : lengths.reduceOption.length = lengths.length := by
      conv_rhs => rw [← map_some_reduceOption noNone, List.length_map]
    have notDefault : ¬(keptLengths lengths = [] ∨
        (reader.isCategorical = true ∧ (keptLengths lengths).length ≠ reader.allCategoricalValues.length)) := by
      rw [kept, not_or, ← List.length_eq_zero_iff, sameLength, List.length_eq_zero_iff]
      refine ⟨some, ?_⟩
      intro ⟨isCategorical, otherLength⟩
      exact otherLength (by rw [asMany (sameKind.symm.trans isCategorical), sameCount])
    rw [if_neg notDefault, kept, map_some_reduceOption noNone]
    rfl

end Lengths

/-! ### The deletion -/

section Deletion

variable (source : CategoricalOptimizationSource) (isDeleted : String → String → Bool)

theorem deleteValues_count (parameter : ExperimentParameter) :
    (deleteValues isDeleted parameter).allCategoricalValues.length = parameter.allCategoricalValues.length :=
  List.length_map _

/-- The same parameters are active, in the same order. -/
theorem parameters_afterDeletion :
    (source.afterDeletion isDeleted).parameters = source.parameters.map (deleteValues isDeleted) := by
  have sorted := List.map_insertionSort (fun first second : ExperimentParameter => first.name ≤ second.name)
    (fun first second : ExperimentParameter => first.name ≤ second.name) (deleteValues isDeleted)
    (source.experimentMeta.allParametersUnsorted.filter fun parameter => !parameter.deleted) fun _ _ _ _ => Iff.rfl
  rw [CategoricalOptimizationSource.parameters, CategoricalOptimizationSource.parameters, allParameters, allParameters,
    sorted]
  congr 1
  exact List.filter_map

end Deletion

/-! ### The dictionaries -/

section Dictionaries

variable {source : CategoricalOptimizationSource} {isDeleted : String → String → Bool} {dict : HyperparameterDict}

theorem truthy_of_nonzero {number : Option ℚ} (nonzero : number ≠ some 0) : truthy number = number := by
  cases number with
  | none => rfl
  | some value =>
      have isTrue : value ≠ 0 := fun isZero => nonzero (congrArg some isZero)
      simp [truthy, isTrue]

theorem extractLengthScales_eq (produced : OptimizerDict source dict) :
    (source.afterDeletion isDeleted).parameters.mapM
        (extractLengthScale (source.buildCatHyperparameterProtobufFromDict dict)) = .ok dict.lengthScales := by
  obtain ⟨⟨lengths, areLengths⟩, fits⟩ := produced
  have stored : (source.buildCatHyperparameterProtobufFromDict dict).hyperparameterLengths =
      source.parameters.map fun parameter => lengthsOf (lengths parameter.name) parameter := by
    rw [buildCatHyperparameterProtobufFromDict, areLengths, List.zipWith_map_left, List.zipWith_self]
  rw [areLengths, List.forall₂_map_right_iff, List.forall₂_same] at fits
  rw [parameters_afterDeletion, areLengths, mapM_eq_ok, List.forall₂_map_left_iff, List.forall₂_map_right_iff,
    List.forall₂_same]
  intro parameter isParameter
  have sameCount := deleteValues_count isDeleted parameter
  have isStored := storedLengths_of_named stored isParameter
  exact @extractLengthScale_eq parameter _ _ (deleteValues isDeleted parameter) rfl sameCount isStored
    (fits parameter isParameter)

theorem extractStoredHyperparameterDict_eq (produced : OptimizerDict source dict) (nonzero : dict.taskLength ≠ some 0) :
    (source.afterDeletion isDeleted).extractStoredHyperparameterDict
        (source.buildCatHyperparameterProtobufFromDict dict) defaultAutoNoiseActivated = .ok (source.storedDict dict) := by
  simp only [extractStoredHyperparameterDict, bind_eq_ok]
  refine ⟨_, extractLengthScales_eq produced, ?_⟩
  have taskLength : (source.buildCatHyperparameterProtobufFromDict dict).taskLength = dict.taskLength :=
    truthy_of_nonzero nonzero
  rw [taskLength]
  rfl

theorem buildMm_eq_ok {dicts : List HyperparameterDict} (oneForEach : dicts.length = source.metrics.allMetrics.length) :
    source.buildMmHyperparameterProtobufFromDict dicts =
      .ok (List.zipWith (fun (metric : ExperimentMetric) dict => {
        metricName := metric.name
        categoricalHyperparameters := source.buildCatHyperparameterProtobufFromDict dict })
          source.metrics.allMetrics dicts) := by
  rw [buildMmHyperparameterProtobufFromDict, mapM_eq_ok]
  apply List.forall₂_iff_get.mpr
  constructor
  · simp [oneForEach]
  · intro index inMetrics inDicts
    simp only [List.length_zipIdx, List.length_zipWith] at inMetrics inDicts
    have isDict : dicts[index]? = some (dicts.get ⟨index, by omega⟩) := List.getElem?_eq_getElem (by omega)
    simp [isDict]

/-- The protobuf is in order of the names, as the metrics are. -/
theorem sorted_built {dicts : List HyperparameterDict} :
    (List.zipWith (fun (metric : ExperimentMetric) dict => ({
        metricName := metric.name
        categoricalHyperparameters := source.buildCatHyperparameterProtobufFromDict dict } :
          MultimetricHyperparameterValue)) source.metrics.allMetrics dicts).Pairwise
      fun first second => first.metricName ≤ second.metricName := by
  have ordered : source.metrics.allMetrics.Pairwise fun first second => first.name ≤ second.name :=
    List.pairwise_insertionSort _ _
  generalize source.metrics.allMetrics = metrics at ordered
  induction metrics generalizing dicts with
  | nil => exact List.Pairwise.nil
  | cons metric metrics inductionHypothesis =>
      cases dicts with
      | nil => exact List.Pairwise.nil
      | cons dict dicts =>
          rw [List.pairwise_cons] at ordered
          rw [List.zipWith_cons_cons, List.pairwise_cons]
          refine ⟨?_, inductionHypothesis ordered.2⟩
          intro value member
          obtain ⟨index, inRange, rfl⟩ := List.getElem_of_mem member
          rw [List.getElem_zipWith]
          exact ordered.1 _ (List.getElem_mem _)

end Dictionaries

/-- Where the stored hyperparameters are used at all, those of every metric come back as they are kept. -/
theorem hyperparameters_kept {source : CategoricalOptimizationSource} {dicts : List HyperparameterDict}
    (oneForEach : dicts.length = source.metrics.allMetrics.length)
    (produced : ∀ dict ∈ dicts, OptimizerDict source dict) (nonzero : ∀ dict ∈ dicts, dict.taskLength ≠ some 0)
    (isDeleted : String → String → Bool) {observationCount failureCount : ℕ}
    (enough : 2 * ((source.afterDeletion isDeleted).hyperOptDimension : ℤ) < observationCount - failureCount) :
    ∃ protobuf, source.buildMmHyperparameterProtobufFromDict dicts = .ok protobuf ∧
      (source.afterDeletion isDeleted).extractHyperparameterDict ⟨observationCount, failureCount, some protobuf⟩ =
        .ok (dicts.map source.storedDict) := by
  refine ⟨_, buildMm_eq_ok oneForEach, ?_⟩
  have unforced : ∀ protobuf, (source.afterDeletion isDeleted).shouldForceDefaultHyperparameters
      ⟨observationCount, failureCount, protobuf⟩ = false :=
    fun _ => decide_eq_false (not_le.mpr enough)
  simp only [extractHyperparameterDict, extractCatHyperparameterDict, unforced, Bool.false_eq_true, if_false]
  rw [sorted_built.insertionSort_eq, mapM_eq_ok, List.forall₂_iff_get]
  constructor
  · simp [oneForEach]
  · intro index inBuilt inDicts
    have isDict : index < dicts.length := by simpa using inDicts
    have member := List.getElem_mem isDict
    simp only [List.get_eq_getElem, List.getElem_zipWith, List.getElem_map]
    exact extractStoredHyperparameterDict_eq (produced _ member) (nonzero _ member)

def parameterC : ExperimentParameter where
  name := "c"
  paramType := .categorical
  allCategoricalValues := [⟨"a", 1, false⟩, ⟨"b", 2, false⟩]

def parameterX : ExperimentParameter where
  name := "x"
  bounds := ⟨0, 1⟩

/-- A source with a number, a categorical parameter with two values, and two tasks. -/
def twoTasks : CategoricalOptimizationSource where
  experimentMeta := { allParametersUnsorted := [parameterX, parameterC] }
  metrics := { metrics := [{ name := "loss" }], tasks := [{ name := "cheap", cost := 1 / 10 }, { name := "whole" }] }
  defaults := { alpha := 1, tikhonov := 1 / 1000, taskLength := 1 / 3 }

/-- The lengths of both values of `c`, and that of `x`. -/
def dictWith (tikhonov taskLength : Option ℚ) : HyperparameterDict where
  alpha := 2
  lengthScales := [[some (1 / 2), some (1 / 4)], [some 3]]
  tikhonov := tikhonov
  taskLength := taskLength

theorem optimizerDict_dictWith (tikhonov taskLength : Option ℚ) :
    OptimizerDict twoTasks (dictWith tikhonov taskLength) := by
  have parametersAre : twoTasks.parameters = [parameterC, parameterX] := by decide +kernel
  constructor
  · refine ⟨fun name => if name = "c" then [some (1 / 2), some (1 / 4)] else [some 3], ?_⟩
    rw [parametersAre]
    rfl
  · rw [parametersAre]
    exact .cons (.inr ⟨by simp, by simp, fun _ => rfl⟩) (.cons (.inr ⟨by simp, by simp, nofun⟩) .nil)

/-- One of the values is deleted. -/
theorem hyperparameters_kept_twoTasks :
    ∃ protobuf, twoTasks.buildMmHyperparameterProtobufFromDict [dictWith none (some (1 / 2))] = .ok protobuf ∧
      (twoTasks.afterDeletion fun _ value => value = "a").extractHyperparameterDict ⟨10, 0, some protobuf⟩ =
        .ok [dictWith none (some (1 / 2))] :=
  hyperparameters_kept (by decide) (List.forall_mem_singleton.mpr (optimizerDict_dictWith _ _))
    (List.forall_mem_singleton.mpr (by decide +kernel)) _ (by decide)

/-- A Tikhonov parameter does not come back. -/
theorem tikhonov_dropped :
    ¬∀ (source : CategoricalOptimizationSource) (dicts : List HyperparameterDict),
      dicts.length = source.metrics.allMetrics.length → (∀ dict ∈ dicts, OptimizerDict source dict) →
        ∀ observationCount failureCount : ℕ,
          2 * (source.hyperOptDimension : ℤ) < observationCount - failureCount →
            ∃ protobuf, source.buildMmHyperparameterProtobufFromDict dicts = .ok protobuf ∧
              source.extractHyperparameterDict ⟨observationCount, failureCount, some protobuf⟩ = .ok dicts := by
  intro supposed
  obtain ⟨protobuf, built, extracted⟩ := supposed twoTasks [dictWith (some (1 / 10)) (some (1 / 2))] (by decide)
    (List.forall_mem_singleton.mpr (optimizerDict_dictWith _ _)) 10 0 (by decide)
  have isBuilt : protobuf = [{
      metricName := "loss"
      categoricalHyperparameters :=
        twoTasks.buildCatHyperparameterProtobufFromDict (dictWith (some (1 / 10)) (some (1 / 2))) }] :=
    (Except.ok.inj built).symm
  rw [isBuilt] at extracted
  exact absurd extracted (by decide +kernel)

end Zigopt.Optimize
