/-
Module: Zigopt.Assignments.Unconditioned
Layer: Assignments
Purpose: The unconditioned view of an experiment with conditionals (`conditionals/util.py`), the array of values that is
  built over its parameters, and what that array has for a name: what is stored, or else the replacement value of the
  first parameter of the name.
Main exports: convertToUnconditionedExperiment, makeExperimentAssignmentValueArray, ViewsAgree, ReplacementsKept
-/
import Zigopt.Suggestion.UnseenCombination

namespace Zigopt.Assignments

open Experiment Raising Suggestion

/-! ### The unconditioned experiment -/

/-- What Python raises for the last item of an empty list. -/
inductive ConversionError where
  | indexError
deriving DecidableEq, Repr

def convertConditionalToCategoricalParameter (conditional : ExperimentConditional) : ExperimentParameter where
  name := conditional.name
  paramType := .categorical
  allCategoricalValues := conditional.values.map fun value => { name := value.name, enumIndex := value.enumIndex }

/-- The last of the values of a parameter. -/
def lastValue (parameter : ExperimentParameter) : Option ℚ :=
  if parameter.isCategorical then
    parameter.allCategoricalValues.getLast?.map fun value => (value.enumIndex : ℚ)
  else if parameter.isGrid then
    parameter.gridValues.getLast?
  else
    some parameter.bounds.maximum

/-- `not p.replacement_value_if_missing`: Python reads 0 where nothing is set. -/
def replacementIsFalsy (parameter : ExperimentParameter) : Bool :=
  parameter.replacementValueIfMissing.getD 0 = 0

/-- One round of the loop over all parameters, the deleted ones not left out. -/
def unconditionedParameter (parameter : ExperimentParameter) : Except ConversionError ExperimentParameter :=
  if parameter.conditions ≠ [] ∧ replacementIsFalsy parameter = true then
    match lastValue parameter with
    | some value => .ok { parameter with replacementValueIfMissing := some value }
    | none => .error .indexError
  else
    .ok parameter

/-- `convert_to_unconditioned_experiment`: each conditional becomes a categorical parameter after the others. -/
def convertToUnconditionedExperiment (experiment : ExperimentMeta) : Except ConversionError ExperimentMeta := do
  let parameters ← experiment.allParametersUnsorted.mapM unconditionedParameter
  pure { experiment with
    conditionals := []
    allParametersUnsorted := parameters ++ experiment.conditionals.map convertConditionalToCategoricalParameter }

/-! ### The array of values -/

/-- `values_dict` after the loop over the parameters. -/
def filledValues (row : AssignmentsMap) (parameters : List ExperimentParameter) : AssignmentsMap :=
  parameters.foldl replaceMissing row

/-- A map of doubles has 0 where nothing is stored. -/
def makeExperimentAssignmentValueArray (row : AssignmentsMap) (parameters : List ExperimentParameter) : List ℚ :=
  parameters.map fun parameter => (filledValues row parameters parameter.name).getD 0

/-- The array has this entry for a parameter of this name. -/
def HasEntry (row : AssignmentsMap) (parameters : List ExperimentParameter) (name : String) (value : ℚ) : Prop :=
  ∃ (position : Nat) (parameter : ExperimentParameter), parameters[position]? = some parameter ∧
    parameter.name = name ∧ (makeExperimentAssignmentValueArray row parameters)[position]? = some value

/-! ### What the array is to hold -/

/-- The array over the parameters of the unconditioned experiment: it has an entry for every active parameter and every
    conditional, none of them for want of a value, and these are the assignments of the conditional experiment and
    the replacement values of the parameters that are not assigned. -/
structure ArrayAgrees (experiment unconditioned : ExperimentMeta) (row : AssignmentsMap) : Prop where
  covers : ∀ name, name ∈ experiment.activeParameterNames ∨ name ∈ experiment.conditionalNames →
    (filledValues row (allParameters unconditioned) name).isSome = true ∧
      ∃ value, HasEntry row (allParameters unconditioned) name value
  assigned : ∀ name value, getAssignments experiment row name = some value →
    ∀ entry, HasEntry row (allParameters unconditioned) name entry → entry = value
  replaced : ∀ parameter ∈ allParameters experiment, row parameter.name = none →
    ∀ replacement, parameter.replacementValueIfMissing = some replacement →
      ∀ entry, HasEntry row (allParameters unconditioned) parameter.name entry → entry = replacement

/-- Just the conditionals and the parameters whose conditions hold are kept, with their values. -/
structure KeepsSatisfied (experiment : ExperimentMeta) (row : AssignmentsMap) : Prop where
  kept : ∀ name, (getAssignments experiment row name).isSome = true ↔ name ∈ experiment.conditionalNames ∨
    ∃ parameter ∈ allParameters experiment, parameter.name = name ∧ parameterConditionsSatisfied parameter row = true
  same : ∀ name value, getAssignments experiment row name = some value → row name = some value

/-- The unconditioned view of the experiment agrees with the conditional one on a row. -/
structure ViewsAgree (experiment : ExperimentMeta) (row : AssignmentsMap) : Prop where
  array : ∃ unconditioned, convertToUnconditionedExperiment experiment = .ok unconditioned ∧
    ArrayAgrees experiment unconditioned row
  keeps : KeepsSatisfied experiment row
  idempotent : getAssignments experiment (getAssignments experiment row) = getAssignments experiment row
  validated : validateAssignmentsMap (getAssignments experiment row) experiment = .ok ()

/-- The value that stands in for a parameter: its own replacement value if that is not 0, else the last of its values. -/
def StandsIn (parameter : ExperimentParameter) (value : ℚ) : Prop :=
  if replacementIsFalsy parameter = true then lastValue parameter = some value
  else parameter.replacementValueIfMissing = some value

/-- The replacement value of a parameter that is not assigned stands in for the first active parameter of its name. With
    distinct names this is the parameter itself, and only a replacement value of 0 can be lost. -/
def ReplacementsKept (experiment : ExperimentMeta) (row : AssignmentsMap) : Prop :=
  ∀ parameter ∈ allParameters experiment, row parameter.name = none →
    ∀ replacement, parameter.replacementValueIfMissing = some replacement →
      ∀ first, ((allParameters experiment).find? fun other => other.name = parameter.name) = some first →
        StandsIn first replacement

/-! ### What is filled in -/

section Filled

variable {row : AssignmentsMap} {parameters : List ExperimentParameter} {name : String}

/-- The first replacement value that is set for a name. -/
def replacementFor (parameters : List ExperimentParameter) (name : String) : Option ℚ :=
  parameters.findSome? fun parameter => if parameter.name = name then parameter.replacementValueIfMissing else none

theorem replaceMissing_eq (parameter : ExperimentParameter) : replaceMissing row parameter name =
    (row name).or (if parameter.name = name then parameter.replacementValueIfMissing else none) := by
  cases assigned : row name with
  | some value => rw [replaceMissing_of_some assigned, Option.some_or]
  | none =>
      rw [Option.none_or]
      unfold replaceMissing
      by_cases isName : parameter.name = name
      · rw [if_pos isName, isName, assigned]
        cases parameter.replacementValueIfMissing with
        | none => exact assigned
        | some replacement => exact AssignmentsMap.set_same row name replacement
      · rw [if_neg isName]
        cases row parameter.name with
        | some value => exact assigned
        | none =>
            cases parameter.replacementValueIfMissing with
            | none => exact assigned
            | some replacement => exact (AssignmentsMap.set_other row replacement (Ne.symm isName)).trans assigned

/-- What the array has for a name is stored, or the first replacement value of the name. -/
theorem filledValues_eq : filledValues row parameters name = (row name).or (replacementFor parameters name) := by
  induction parameters generalizing row with
  | nil => rw [replacementFor, List.findSome?_nil, Option.or_none]; rfl
  | cons parameter rest inductionHypothesis =>
      have later : filledValues row (parameter :: rest) name = filledValues (replaceMissing row parameter) rest name := rfl
      rw [later, inductionHypothesis, replaceMissing_eq, Option.or_assoc, replacementFor, replacementFor,
        List.findSome?_cons]
      congr 1
      cases (if parameter.name = name then parameter.replacementValueIfMissing else none) with
      | none => rfl
      | some replacement => rfl

/-- The first parameter of a name decides, where it has a replacement value. -/
theorem replacementFor_of_first {first : ExperimentParameter} {replacement : ℚ}
    (found : (parameters.find? fun other => other.name = name) = some first)
    (set : first.replacementValueIfMissing = some replacement) : replacementFor parameters name = some replacement := by
  induction parameters with
  | nil => cases found
  | cons parameter rest inductionHypothesis =>
      rw [replacementFor, List.findSome?_cons]
      by_cases isName : parameter.name = name
      · rw [List.find?_cons, decide_eq_true isName, Option.some.injEq] at found
        rw [if_pos isName, found, set]
      · rw [List.find?_cons, decide_eq_false isName] at found
        rw [if_neg isName]
        exact inductionHypothesis found

/-- All entries of a name are the value that is filled in. -/
theorem hasEntry_iff {value : ℚ} : HasEntry row parameters name value ↔
    (∃ parameter ∈ parameters, parameter.name = name) ∧ (filledValues row parameters name).getD 0 = value := by
  constructor
  · rintro ⟨position, parameter, there, rfl, isEntry⟩
    rw [makeExperimentAssignmentValueArray, List.getElem?_map, there, Option.map_some, Option.some.injEq] at isEntry
    exact ⟨⟨parameter, List.mem_of_getElem? there, rfl⟩, isEntry⟩
  · rintro ⟨⟨parameter, isParameter, rfl⟩, isValue⟩
    obtain ⟨position, there⟩ := List.mem_iff_getElem?.mp isParameter
    refine ⟨position, parameter, there, rfl, ?_⟩
    rw [makeExperimentAssignmentValueArray, List.getElem?_map, there, Option.map_some, isValue]

end Filled

end Zigopt.Assignments
