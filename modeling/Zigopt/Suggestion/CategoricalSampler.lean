/-
Module: Zigopt.Suggestion.CategoricalSampler
Layer: Suggestion
Purpose: The sampler of experiments whose parameters are all categorical. It lists the combinations of active values,
  takes away those that the open suggestions and the observations have, and draws from the rest at random; when nothing
  is left it draws from all of them.
Main exports: getAssignments, allCategoricalValueCombos, Sampling, fetchBestSuggestions, IsCombination, ServesUnseen
-/
import Zigopt.Experiment.Conditionals
import Zigopt.Lib.Drawing

namespace Zigopt.Suggestion

open Experiment Assignments

/-! ### Reading the assignments of a row -/

/-- A missing value is replaced by the default of the parameter. -/
def replaceMissing (assignments : AssignmentsMap) (parameter : ExperimentParameter) : AssignmentsMap :=
  match assignments parameter.name, parameter.replacementValueIfMissing with
  | none, some replacement => assignments.set parameter.name replacement
  | _, _ => assignments

/-- `make_experiment_assignment_value_array`. A map of doubles has 0 where nothing is stored. -/
def parameterValue (experiment : ExperimentMeta) (row : AssignmentsMap) (name : String) : ℚ :=
  ((allParameters experiment).foldl replaceMissing row name).getD 0

/-- `values_as_map` of `get_assignments`. -/
def valuesAsMap (experiment : ExperimentMeta) (row : AssignmentsMap) : AssignmentsMap := fun name =>
  if name ∈ (allParameters experiment).map (·.name) ++ experiment.conditionalNames then
    some (parameterValue experiment row name)
  else
    none

/-- `get_assignments` of a suggestion or an observation; the conditionals are read a second time. -/
def getAssignments (experiment : ExperimentMeta) (row : AssignmentsMap) : AssignmentsMap := fun name =>
  if name ∈ experiment.conditionalNames then
    some ((row name).getD 0)
  else if (allParameters experiment).any fun parameter =>
      parameter.name = name && parameterConditionsSatisfied parameter (valuesAsMap experiment row) then
    some (parameterValue experiment row name)
  else
    none

/-! ### The sampler -/

/-- A frozenset of items of a dict. -/
abbrev Combo := Finset (String × ℚ)

/-- `frozenset(assignments.items())`. -/
def frozenItems (experiment : ExperimentMeta) (assignments : AssignmentsMap) : Combo :=
  (((allParameters experiment).map (·.name) ++ experiment.conditionalNames).filterMap
    fun name => (assignments name).map (name, ·)).toFinset

/-- `_all_combos`. -/
def allCombos {α : Type} : List (List α) → List (List α)
  | [] => [[]]
  | thesePossibilities :: rest =>
      (allCombos rest).flatMap fun sub => thesePossibilities.map fun possibility => possibility :: sub

/-- The enum indices of the values that are not deleted. -/
def activeIndices (parameter : ExperimentParameter) : List Nat :=
  parameter.activeCategoricalValues.map (·.enumIndex)

def valuesForParameter (parameter : ExperimentParameter) : List (String × ℚ) :=
  (activeIndices parameter).map fun (enumIndex : Nat) => (parameter.name, (enumIndex : ℚ))

/-- `all_categorical_value_combos`: the product of the parameters' items, each combination as a frozenset. -/
def allCategoricalValueCombos (parameters : List ExperimentParameter) : List Combo :=
  (allCombos (parameters.map valuesForParameter)).map List.toFinset

/-- The combinations that no row has. -/
def unsampled (experiment : ExperimentMeta) (rows : List AssignmentsMap) : Finset Combo :=
  (allCategoricalValueCombos (allParameters experiment)).toFinset \
    (rows.map fun row => frozenItems experiment (getAssignments experiment row)).toFinset

/-- What `random.sample` and `random.choice` came up with. -/
abbrev Sampling (experiment : ExperimentMeta) (rows : List AssignmentsMap) (limit : Nat) :=
  Drawing (unsampled experiment rows) (allCategoricalValueCombos (allParameters experiment)) limit

/-- The order in which Python goes through a set; it depends on the hashes of a process. -/
structure SetOrder where
  toList : Combo → List (String × ℚ)
  nodup : ∀ combo, (toList combo).Nodup
  toFinset_toList : ∀ combo, (toList combo).toFinset = combo

/-- `dict(combo)`: of two items with one name the later one stays. -/
def assignmentsOfItems (items : List (String × ℚ)) : AssignmentsMap :=
  items.foldl (fun assignments item => assignments.set item.1 item.2) .empty

/-- `fetch_best_suggestions`, given the order in which Python happens to walk each frozenset. -/
def fetchBestSuggestions {experiment : ExperimentMeta} {rows : List AssignmentsMap} {limit : Nat}
    (sampling : Sampling experiment rows limit) (order : SetOrder) : List AssignmentsMap :=
  sampling.items.map fun combo => assignmentsOfItems (order.toList combo)

/-! ### What a suggestion is to assign -/

/-- Each conditional has one of its values, each parameter whose conditions hold has one of its active values, and
    nothing else is assigned. -/
structure IsCombination (experiment : ExperimentMeta) (assignments : AssignmentsMap) : Prop where
  conditionals : Combination experiment.conditionals assignments
  satisfied : ∀ parameter ∈ allParameters experiment, parameterConditionsSatisfied parameter assignments = true →
    ∃ enumIndex : Nat, enumIndex ∈ activeIndices parameter ∧ assignments parameter.name = some (enumIndex : ℚ)
  unsatisfied : ∀ parameter ∈ allParameters experiment, parameterConditionsSatisfied parameter assignments = false →
    assignments parameter.name = none
  onlyNames : ∀ name, name ∉ (allParameters experiment).map (·.name) → name ∉ experiment.conditionalNames →
    assignments name = none

/-- No row uses the assignments. -/
def Unused (experiment : ExperimentMeta) (rows : List AssignmentsMap) (assignments : AssignmentsMap) : Prop :=
  ∀ row ∈ rows, getAssignments experiment row ≠ assignments

/-- Whatever the open suggestions and the observations are, every assignment that is served is a combination; and while
    there is one that no row uses and that was not served before it, it is such a one itself. -/
def ServesUnseen (experiment : ExperimentMeta) : Prop :=
  ∀ (openSuggestions observations : List AssignmentsMap) (limit : Nat)
    (sampling : Sampling experiment (openSuggestions ++ observations) limit) (order : SetOrder)
    (before after : List AssignmentsMap) (assignments : AssignmentsMap),
    fetchBestSuggestions sampling order = before ++ assignments :: after →
    IsCombination experiment assignments ∧
      ((∃ other, IsCombination experiment other ∧ Unused experiment (openSuggestions ++ observations) other ∧
          other ∉ before) →
        Unused experiment (openSuggestions ++ observations) assignments ∧ assignments ∉ before)

/-- The names of the active parameters are distinct, and there are no conditionals; or else each conditional has the name
    of a parameter, and the values of this one are values of the conditional and satisfy all conditions on it. -/
structure CombosFit (experiment : ExperimentMeta) : Prop where
  distinctNames : ((allParameters experiment).map (·.name)).Nodup
  conditionalsNamed : ∀ conditional ∈ experiment.conditionals, ∃ parameter ∈ allParameters experiment,
    parameter.name = conditional.name ∧
      ∀ enumIndex : Nat, enumIndex ∈ activeIndices parameter →
        ∃ value ∈ conditional.values, value.enumIndex = enumIndex
  conditionsMet : ∀ parameter ∈ allParameters experiment, ∀ condition ∈ parameter.conditions,
    ∀ other ∈ allParameters experiment, other.name = condition.name →
      ∀ enumIndex : Nat, enumIndex ∈ activeIndices other → (enumIndex : ℚ) ∈ condition.values

end Zigopt.Suggestion
