/-
Module: Zigopt.GridSearch.Indexing
Layer: GridSearch
Purpose: The suggestions of a grid experiment, numbered below its budget, are the points of the grid, each of them
  once exactly if no stored grid has a value twice. The numbers of a request are compared before they are stored as
  doubles, so two of them can become one value. No update changes the parameters.
Main exports: GridIndexed, getSuggestion_bijOn_iff, gridExperiment_of_created, grid_indexing_iff, grid_not_indexed
-/
import Mathlib.Data.Set.Function
import Mathlib.Order.Interval.Set.Defs
import Zigopt.Experiment.Conditionals
import Zigopt.GridSearch.Coverage

namespace Zigopt.GridSearch

open Raising Experiment Assignments

/-! ### Numbers and points -/

/-- The numbers below the budget are mapped one to one to the points of the grid. -/
def GridIndexed (experiment : ExperimentMeta) : Prop :=
  ∃ grid : GridExperiment, grid.experiment = experiment ∧ experiment.observationBudget = some (gridSize grid) ∧
    Set.BijOn (getSuggestion grid) (Set.Iio (gridSize grid)) {assignments | IsGridPoint grid assignments}

/-- Below the number of points, the suggestions are the points of the grid, and each of them once exactly if no grid
    has a value twice. -/
theorem getSuggestion_bijOn_iff (grid : GridExperiment) :
    Set.BijOn (getSuggestion grid) (Set.Iio (gridSize grid)) {assignments | IsGridPoint grid assignments} ↔
      DistinctValues grid := by
  constructor
  · intro bijection parameter isParameter
    apply Grid.nodup_of_point_injective (gridAxes_nonempty grid) _ _ (List.mem_map_of_mem isParameter)
    intro first firstBelow second secondBelow same
    rw [← gridSize_eq] at firstBelow secondBelow
    exact bijection.injOn firstBelow secondBelow (getSuggestion_congr same)
  · intro distinct
    refine ⟨?_, ?_, ?_⟩
    · intro index _
      exact getSuggestion_isGridPoint grid index
    · intro first firstBelow second secondBelow same
      exact (getSuggestion_cycle distinct).injective first firstBelow second secondBelow same
    · intro assignments isPoint
      exact exists_getSuggestion_below isPoint

/-! ### The grids of an experiment that was accepted -/

theorem gridFromJson_ok {parameter : ExperimentParameter} {json : JsonObject} {gridValues : List ℚ}
    (accepted : gridFromJson parameter json = .ok gridValues) : 2 ≤ gridValues.length := by
  simp only [gridFromJson, bind_eq_ok, raiseIf_eq_ok, pure_eq_ok] at accepted
  rcases accepted with ⟨_, _, _, _, _, _, grid, _, _, _, _, long, _, _, rfl⟩
  rw [List.length_map]
  exact not_lt.mp long

/-- In an experiment of type grid every parameter gets a grid. -/
theorem setExperimentParameterFromJson_grid {json : JsonObject} {conditionals : List ExperimentConditional}
    {result : ExperimentParameter} (accepted : setExperimentParameterFromJson json .grid conditionals = .ok result) :
    2 ≤ result.gridValues.length := by
  unfold setExperimentParameterFromJson at accepted
  simp only [bind_eq_ok] at accepted
  rcases accepted with ⟨name, _, _, typed, _, transformed, _, bounded, _, priorSet, _, valuesSet, _, gridSet, _,
    defaultSet, conditionsSet⟩
  rcases setDefaultValueFromJson_ok defaultSet with ⟨_, rfl⟩
  rcases setParameterConditionsFromJson_ok conditionsSet with ⟨_, rfl⟩
  rw [maybeSetGridValues, decide_true, Bool.or_true, if_pos rfl] at gridSet
  simp only [setGridValuesFromJson, bind_eq_ok, pure_eq_ok] at gridSet
  rcases gridSet with ⟨gridValues, read, rfl⟩
  exact gridFromJson_ok read

/-- A grid experiment has no conditionals and the product of its grids for a budget. -/
theorem createExperiment_grid {sections : OtherSections} {className : String} {body : JsonObject}
    {experiment : ExperimentMeta} (accepted : createExperiment sections className body = .ok experiment)
    (isGrid : experiment.experimentType = .grid) : experiment.conditionals = [] ∧
      experiment.observationBudget = some (observationBudgetFromExperimentMeta experiment.allParametersUnsorted) := by
  simp only [createExperiment, makeExperimentMetaFromJson, bind_eq_ok, pure_eq_ok] at accepted
  rcases accepted with ⟨_, _, _, ⟨_, _, experimentType, _, conditionals, _, _, _, _, _, budget, budgeted, _, _, rfl⟩, _,
    _, rfl⟩
  rw [budgetOfType, if_pos isGrid, gridExperimentBudget] at budgeted
  simp only [bind_eq_ok, raiseIf_eq_ok, pure_eq_ok] at budgeted
  obtain ⟨_, unconditional, _, _, rfl⟩ := budgeted
  refine ⟨?_, rfl⟩
  by_contra nonempty
  exact unconditional (List.length_pos_of_ne_nil nonempty)

/-- The parameters that are created for a grid experiment have distinct names, and all of them have grids. -/
theorem gridExperiment_of_created {sections : OtherSections} {className : String} {body : JsonObject}
    {created : ExperimentMeta} (accepted : createExperiment sections className body = .ok created)
    (isGrid : created.experimentType = .grid) : ∃ grid : GridExperiment, grid.experiment = created := by
  have noConditionals := (createExperiment_grid accepted isGrid).1
  have listed := createExperiment_ok accepted
  rw [isGrid] at listed
  have parametersCreated := setExperimentParameterListFromJson_ok listed
  have eachCreated : ∀ parameter ∈ allParameters created, ∃ json,
      setExperimentParameterFromJson json .grid created.conditionals = .ok parameter := by
    intro parameter member
    rcases exists_item parametersCreated.created (mem_allParameters.mp member).1 with ⟨json, _, read⟩
    exact ⟨json, read⟩
  refine ⟨⟨created, noConditionals, ?_, ?_, ?_⟩, rfl⟩
  · have perm : (allParameters created).Perm
        (created.allParametersUnsorted.filter fun parameter => !parameter.deleted) := List.perm_insertionSort _ _
    rw [(perm.map _).nodup_iff]
    exact parametersCreated.distinct.sublist (List.filter_sublist.map _)
  · intro parameter member empty
    rcases eachCreated parameter member with ⟨json, read⟩
    have long := setExperimentParameterFromJson_grid read
    rw [empty] at long
    exact absurd long (by decide)
  · intro parameter member
    rcases eachCreated parameter member with ⟨json, read⟩
    have conditionsKnown := setExperimentParameterFromJson_conditions read
    apply List.eq_nil_iff_forall_not_mem.mpr
    intro condition isCondition
    rcases conditionsKnown.known condition isCondition with ⟨conditional, known, _⟩
    rw [noConditionals] at known
    cases known

/-- All parameters count for the budget, and there is no deleted one among them. -/
theorem budget_of_created {sections : OtherSections} {className : String} {body : JsonObject}
    {created : ExperimentMeta} (accepted : createExperiment sections className body = .ok created)
    (isGrid : created.experimentType = .grid) {grid : GridExperiment} (isCreated : grid.experiment = created) :
    observationBudgetFromExperimentMeta created.allParametersUnsorted = gridSize grid := by
  have listed := createExperiment_ok accepted
  rw [isGrid] at listed
  have parametersCreated := setExperimentParameterListFromJson_ok listed
  have allGrids : (created.allParametersUnsorted.filter fun parameter => parameter.isGrid) =
      created.allParametersUnsorted := by
    apply List.filter_eq_self.mpr
    intro parameter member
    rcases exists_item parametersCreated.created member with ⟨json, _, read⟩
    have long := setExperimentParameterFromJson_grid read
    exact decide_eq_true (Nat.lt_of_lt_of_le Nat.zero_lt_two long)
  have noneDeleted : (created.allParametersUnsorted.filter fun parameter => !parameter.deleted) =
      created.allParametersUnsorted := by
    apply List.filter_eq_self.mpr
    intro parameter member
    rcases exists_item parametersCreated.created member with ⟨json, _, read⟩
    rcases setExperimentParameterFromJson_ok read with ⟨_, _, _, notDeleted, _⟩
    rw [notDeleted]
    rfl
  have perm : (allParameters grid.experiment).Perm created.allParametersUnsorted := by
    rw [allParameters, isCreated, noneDeleted]
    exact List.perm_insertionSort _ _
  rw [observationBudgetFromExperimentMeta, allGrids, gridSize, ← List.prod_eq_foldl]
  exact (perm.map _).prod_eq.symm

/-- No update of a grid experiment sends parameters. -/
theorem updateExperiment_grid {sections : OtherSections} {experiment updated : ExperimentMeta} {body : JsonObject}
    (accepted : updateExperiment sections experiment body = .ok updated) (isGrid : experiment.experimentType = .grid) :
    updated = experiment := by
  simp only [updateExperiment, bind_eq_ok, pure_eq_ok] at accepted
  rcases accepted with ⟨_, _, _, _, parameters, parametersSet, _, _, _, _, rfl⟩
  unfold maybeSetParameters at parametersSet
  split at parametersSet
  · simp only [bind_eq_ok, raiseIf_eq_ok] at parametersSet
    rcases parametersSet with ⟨_, notGrid, _⟩
    exact absurd isGrid notGrid
  · rw [← pure_eq_ok.mp parametersSet]

/-- Updates leave a grid experiment as it was created. -/
theorem reached_grid {sections : OtherSections} {created : ExperimentMeta} (isGrid : created.experimentType = .grid)
    {updates : List (JsonObject × ExperimentMeta)} (updated : AcceptedUpdates sections created updates) :
    ∀ experiment ∈ Trace.reached created updates, experiment = created := by
  have step : ∀ before body after, created = before → updateExperiment sections before body = .ok after →
      created = after := by
    intro before body after same accepted
    rw [← same] at accepted
    exact (updateExperiment_grid accepted isGrid).symm
  intro experiment member
  exact (Trace.every_invariant step rfl updated experiment member).symm

theorem created_indexed_iff {sections : OtherSections} {className : String} {body : JsonObject}
    {created : ExperimentMeta} (accepted : createExperiment sections className body = .ok created)
    (isGrid : created.experimentType = .grid) :
    GridIndexed created ↔ ∀ parameter ∈ allParameters created, parameter.gridValues.Nodup := by
  constructor
  · rintro ⟨grid, isCreated, _, bijection⟩
    rw [← isCreated]
    exact (getSuggestion_bijOn_iff grid).mp bijection
  · intro distinct
    obtain ⟨grid, isCreated⟩ := gridExperiment_of_created accepted isGrid
    refine ⟨grid, isCreated, ?_, (getSuggestion_bijOn_iff grid).mpr ?_⟩
    · rw [(createExperiment_grid accepted isGrid).2, budget_of_created accepted isGrid isCreated]
    · rw [← isCreated] at distinct
      exact distinct

/-- Whatever updates a grid experiment has seen, the numbers below its budget are mapped one to one to the points of
    the grid exactly if no two values of a stored grid are the same double. -/
theorem grid_indexing_iff {sections : OtherSections} {className : String} {body : JsonObject} {created : ExperimentMeta}
    (accepted : createExperiment sections className body = .ok created) (isGrid : created.experimentType = .grid)
    {updates : List (JsonObject × ExperimentMeta)} (updated : AcceptedUpdates sections created updates) :
    ∀ experiment ∈ Trace.reached created updates,
      GridIndexed experiment ↔ ∀ parameter ∈ allParameters created, parameter.gridValues.Nodup := by
  intro experiment member
  rw [reached_grid isGrid updated experiment member]
  exact created_indexed_iff accepted isGrid

/-- Two categories `x`, and three numbers `y` that are given in another order. -/
def sixPointsJson : JsonObject :=
  [("type", .string "grid"),
    ("parameters", .array [
      .object [("name", .string "x"), ("type", .string "categorical"),
        ("categorical_values", .array [.string "a", .string "b"])],
      .object [("name", .string "y"), ("type", .string "int"), ("grid", .array [.number 4, .number 2, .number 8])]])]

def sixPoints : ExperimentMeta where
  experimentType := .grid
  allParametersUnsorted := [
    { name := "x", paramType := .categorical, allCategoricalValues := [⟨"a", 1, false⟩, ⟨"b", 2, false⟩],
      gridValues := [1, 2] },
    { name := "y", paramType := .int, bounds := ⟨2, 8⟩, gridValues := [2, 4, 8] }]
  observationBudget := some 6

/-- A grid of six points is indexed. -/
theorem grid_indexing_six :
    createExperiment permissiveSections "Experiment" sixPointsJson = .ok sixPoints ∧ GridIndexed sixPoints := by
  have accepted : createExperiment permissiveSections "Experiment" sixPointsJson = .ok sixPoints := by decide +kernel
  have updated : AcceptedUpdates permissiveSections sixPoints [] := trivial
  have indexed := grid_indexing_iff accepted rfl updated sixPoints (List.mem_singleton_self _)
  exact ⟨accepted, indexed.mpr (by decide +kernel)⟩

/-- An integer grid with a number that no double is. -/
def roundedGridJson : JsonObject :=
  [("type", .string "grid"),
    ("parameters", .array [
      .object [("name", .string "x"), ("type", .string "int"),
        ("grid", .array [.number 0, .number (2 ^ 53), .number (2 ^ 53 + 1)])]])]

def roundedGrid : ExperimentMeta where
  experimentType := .grid
  allParametersUnsorted :=
    [{ name := "x", paramType := .int, bounds := ⟨0, 2 ^ 53⟩, gridValues := [0, 2 ^ 53, 2 ^ 53] }]
  observationBudget := some 3

/-- The last two numbers of the grid are stored as one double, and two suggestions of the three are the same. -/
theorem grid_not_indexed : ∃ body created,
    createExperiment permissiveSections "Experiment" body = .ok created ∧ created.experimentType = .grid ∧
      ¬GridIndexed created := by
  have accepted : createExperiment permissiveSections "Experiment" roundedGridJson = .ok roundedGrid := by
    decide +kernel
  refine ⟨roundedGridJson, roundedGrid, accepted, rfl, ?_⟩
  rw [created_indexed_iff accepted rfl]
  decide +kernel

end Zigopt.GridSearch
