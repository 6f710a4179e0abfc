/-
Module: Zigopt.GridSearch.Sampler
Layer: GridSearch
Purpose: Grid experiments: the suggestion that the grid sampler makes of a number, the number it takes from
  the counts of observations and open suggestions, and the requests that change these counts.
Main exports: GridExperiment, getSuggestion, GridState, Operation, perform
-/
import Mathlib.Algebra.Group.Nat.Defs
import Zigopt.Assignments.Validate

namespace Zigopt.GridSearch

open Raising Experiment Assignments

/-- A grid experiment as it is created: names are distinct, conditionals are refused, and each parameter has a
    grid. -/
structure GridExperiment where
  experiment : ExperimentMeta
  noConditionals : experiment.conditionals = []
  distinctNames : ((allParameters experiment).map (·.name)).Nodup
  hasGrid : ∀ parameter ∈ allParameters experiment, parameter.gridValues ≠ []
  unconditional : ∀ parameter ∈ allParameters experiment, parameter.conditions = []

/-- No two values of a stored grid are the same double. -/
def DistinctValues (grid : GridExperiment) : Prop :=
  ∀ parameter ∈ allParameters grid.experiment, parameter.gridValues.Nodup

/-- The product of the numbers of grid values. -/
def gridSize (grid : GridExperiment) : Nat :=
  ((allParameters grid.experiment).map fun parameter => parameter.gridValues.length).prod

/-- The loop of `get_suggestion`. -/
def assignGridValues : List ExperimentParameter → Nat → AssignmentsMap → AssignmentsMap
  | [], _, assignments => assignments
  | parameter :: rest, index, assignments =>
      assignGridValues rest (index / parameter.gridValues.length)
        (assignments.set parameter.name
          (parameter.gridValues.getD (index % parameter.gridValues.length) default))

/-- The point that `GridSampler` serves at an index: the digits of the index in mixed base, one for each parameter. -/
def getSuggestion (grid : GridExperiment) (index : Nat) : AssignmentsMap :=
  assignGridValues (allParameters grid.experiment) index .empty

structure SuggestionRow where
  assignmentsMap : AssignmentsMap
  deleted : Bool := false

/-- An observation as the sampler sees it. -/
structure ObservationRow where
  processedSuggestionId : Option Nat
  assignmentsMap : AssignmentsMap
  deleted : Bool := false

/-- The rows of the experiment; a suggestion's id is its position, and observations refer to suggestions that
    exist. -/
structure GridState where
  suggestions : List SuggestionRow := []
  observations : List ObservationRow := []
  references : ∀ observation ∈ observations, ∀ id ∈ observation.processedSuggestionId, id < suggestions.length

def GridState.empty : GridState where
  references := fun _ member => absurd member List.not_mem_nil

namespace GridState

/-- Not deleted, and no observation of it is stored, not even a deleted one. -/
def isOpen (state : GridState) (suggestion : SuggestionRow × Nat) : Bool :=
  !suggestion.1.deleted &&
    state.observations.all fun observation => observation.processedSuggestionId ≠ some suggestion.2

def openSuggestions (state : GridState) : List (SuggestionRow × Nat) :=
  state.suggestions.zipIdx.filter state.isOpen

def observationCount (state : GridState) : Nat :=
  (state.observations.filter fun observation => !observation.deleted).length

/-- The number of the next grid suggestion. -/
def startIndex (state : GridState) : Nat :=
  state.observationCount + state.openSuggestions.length

end GridState

/-- The requests on a grid experiment; `manual` is an observation of the given assignments. -/
inductive Operation where
  | serve
  | report (suggestionId : Nat)
  | deleteSuggestion (suggestionId : Nat)
  | deleteObservation (position : Nat)
  | manual (assignmentsJson : JsonObject)

section Perform

variable (grid : GridExperiment) (state : GridState)

def addSuggestion (suggestion : SuggestionRow) : GridState where
  suggestions := state.suggestions ++ [suggestion]
  observations := state.observations
  references := by
    intro observation member id isId
    rw [List.length_append]
    exact Nat.lt_add_right _ (state.references observation member id isId)

def addObservation (observation : ObservationRow)
    (known : ∀ id ∈ observation.processedSuggestionId, id < state.suggestions.length) : GridState where
  suggestions := state.suggestions
  observations := state.observations ++ [observation]
  references := by
    intro other member id isId
    rcases List.mem_append.mp member with earlier | last
    · exact state.references other earlier id isId
    · rw [List.mem_singleton.mp last] at isId
      exact known id isId

/-- The flag of a suggestion is set; the observations still point to it. -/
def setSuggestionDeleted (suggestionId : Nat) : GridState where
  suggestions := state.suggestions.modify suggestionId fun suggestion => { suggestion with deleted := true }
  observations := state.observations
  references := by
    intro observation member id isId
    rw [List.length_modify]
    exact state.references observation member id isId

def setObservationDeleted (position : Nat) : GridState where
  suggestions := state.suggestions
  observations := state.observations.modify position fun observation => { observation with deleted := true }
  references := by
    intro observation member id isId
    rcases List.getElem_of_mem member with ⟨other, inRange, isOther⟩
    rw [List.length_modify] at inRange
    have sameId : observation.processedSuggestionId = state.observations[other].processedSuggestionId := by
      rw [← isOther, List.getElem_modify]
      split <;> rfl
    rw [sameId] at isId
    exact state.references _ (List.getElem_mem inRange) id isId

/-- `find_by_id` does not find deleted suggestions. -/
def reportSuggestion (suggestionId : Nat) : Except ValidationError GridState :=
  if inRange : suggestionId < state.suggestions.length then
    if state.suggestions[suggestionId].deleted then
      .error (.invalidValue s!"No suggestion: {suggestionId} for experiment")
    else
      pure (addObservation state
        { processedSuggestionId := some suggestionId
          assignmentsMap := state.suggestions[suggestionId].assignmentsMap }
        fun _ isId => by
          rw [← Option.mem_some_iff.mp isId]
          exact inRange)
  else
    .error (.invalidValue s!"No suggestion: {suggestionId} for experiment")

def reportAssignments (assignmentsJson : JsonObject) : Except ValidationError GridState := do
  let assignments ← setAssignmentsMapFromJson grid.experiment .empty assignmentsJson
  validateAssignmentsMap assignments grid.experiment
  pure (addObservation state { processedSuggestionId := none, assignmentsMap := assignments }
    fun _ isId => absurd isId (Option.not_mem_none _))

/-- One request of a grid experiment's history: serving, reporting, or deleting a suggestion or an observation. -/
def perform : Operation → Except ValidationError GridState
  | .serve => pure (addSuggestion state { assignmentsMap := getSuggestion grid state.startIndex })
  | .report suggestionId => reportSuggestion state suggestionId
  | .deleteSuggestion suggestionId =>
      if state.suggestions[suggestionId]?.any (!·.deleted) then
        pure (setSuggestionDeleted state suggestionId)
      else
        .error (.sigoptValidation s!"No suggestion {suggestionId} for experiment")
  | .deleteObservation position =>
      if state.observations[position]?.any (!·.deleted) then
        pure (setObservationDeleted state position)
      else
        .error (.sigoptValidation s!"No observation {position} for experiment")
  | .manual assignmentsJson => reportAssignments grid state assignmentsJson

end Perform

end Zigopt.GridSearch
