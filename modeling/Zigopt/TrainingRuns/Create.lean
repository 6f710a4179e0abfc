/-
Module: Zigopt.TrainingRuns.Create
Layer: Model
Purpose: The other requests on the runs of an AI experiment: the creation of a run
  (`handlers/aiexperiments/training_runs/create.py`), which gets a suggestion or, if it is already finished, an
  observation; the deletion of a run; and the deletion of an experiment with all of its runs.
Main exports: CreateCalls, createHandle, deleteHandle, deleteExperimentHandle, Operation, perform
-/
import Zigopt.TrainingRuns.Update

namespace Zigopt.TrainingRuns

open Raising Observations

/-! ### Calls -/

/-- What the broker has before it processes a suggestion. -/
structure UnprocessedSuggestion where
  id : Nat
  assignmentsMap : List (String × ℚ)
  task : Option Task := none

/-- What the creation calls beside: the rendering of assignments, and the broker for the next suggestion or
    for one with the assignments of the request. Of several attempts of the broker the parameter gives the last. -/
structure CreateCalls extends Calls where
  assignmentsJson : Experiment → List (String × ℚ) → JsonObject
  nextSuggestion : Experiment → Store → Except RunError UnprocessedSuggestion
  explicitSuggestion : Experiment → JsonObject → Store → Except RunError UnprocessedSuggestion

/-! ### `AiExperimentHandler.find_objects` -/

def findAiExperiment (experimentId : Nat) : RunProcess Experiment := do
  match ← .read .plain fun store => store.findExperiment experimentId with
  | some experiment =>
      if experiment.runsOnly then pure experiment
      else .raised (.notFound s!"The AiExperiment {experimentId} does not exist")
  | none => .raised (.notFound s!"No experiment {experimentId}")

/-! ### Creation -/

section Create

variable (calls : CreateCalls) (now : Int)

def processedRow (experiment : Experiment) (unprocessed : UnprocessedSuggestion) : ProcessedSuggestion where
  suggestionId := unprocessed.id
  experimentId := experiment.id
  automatic := true
  assignmentsMap := unprocessed.assignmentsMap
  task := unprocessed.task

def isProcessed (store : Store) (suggestionId : Nat) : Bool :=
  store.processedSuggestions.any fun suggestion => suggestion.suggestionId = suggestionId

def Store.insertProcessedSuggestion (store : Store) (suggestion : ProcessedSuggestion) : Store :=
  { store with processedSuggestions := store.processedSuggestions ++ [suggestion] }

/-- The primary key of the table refuses a suggestion that is already processed. -/
def processSuggestion (experiment : Experiment) (unprocessed : UnprocessedSuggestion) :
    RunProcess ProcessedSuggestion :=
  .statement .plain
    (fun store =>
      if isProcessed store unprocessed.id then store
      else store.insertProcessedSuggestion (processedRow experiment unprocessed))
    fun store =>
      if isProcessed store unprocessed.id then
        .raised (.suggestion
          s!"Race condition processing suggestion {unprocessed.id} for experiment {experiment.id}.")
      else .returned (processedRow experiment unprocessed)

def relevantAssignments (experiment : Experiment) (params : TrainingRunRequestParams) : JsonObject :=
  experiment.parameterNames.filterMap fun name =>
    ((membersOf params.trainingRunDataJson "a").lookup name).map fun value => (name, value)

def serveSuggestion (experiment : Experiment) : RunProcess (Option ProcessedSuggestion) := do
  let unprocessed ← .read .plain fun store => calls.nextSuggestion experiment store
  let unprocessed ← .ofExcept unprocessed
  let suggestion ← processSuggestion experiment unprocessed
  pure (some suggestion)

/-- Assignments that the experiment does not accept make a run without a suggestion. -/
def maybeCreateExplicitSuggestion (experiment : Experiment) (assignments : JsonObject) :
    RunProcess (Option ProcessedSuggestion) := do
  match ← .read .plain fun store => calls.explicitSuggestion experiment assignments store with
  | .ok unprocessed => do
      let suggestion ← processSuggestion experiment unprocessed
      pure (some suggestion)
  | .error (.validation _) => pure none
  | .error failure => .raised failure

def maybeCreateSuggestion (experiment : Experiment) (params : TrainingRunRequestParams) :
    RunProcess (Option ProcessedSuggestion) :=
  let assignments := relevantAssignments experiment params
  if assignments = [] then serveSuggestion calls experiment
  else maybeCreateExplicitSuggestion calls experiment assignments

def createJsonOf (assignments : JsonObject) (values : Option (List JsonObject)) (failed : Bool) : JsonObject :=
  [("assignments", .object assignments),
    ("values", (values.map fun given => Json.array (given.map .object)).getD .null),
    ("failed", .boolean failed)]

/-- The values of a run that is created, or none if it counts as failed. -/
def createdValues (experiment : Experiment) (data : JsonObject) :
    Except RunError (Option (List JsonObject) × Bool) :=
  if stateOf data = .failed then pure (none, true)
  else do
    let values ← getObservationValues calls.toCalls data experiment.allMetrics.allMetrics
    if values.length = experiment.allMetrics.allMetrics.length then pure (some values, false)
    else pure (none, true)

/-- An observation that the checks refuse makes a run without one. -/
def maybeCreateObservation (experiment : Experiment) (params : TrainingRunRequestParams) :
    RunProcess (Option (Nat × Observation)) := do
  let (values, failed) ← .ofExcept (createdValues calls experiment params.trainingRunDataJson)
  let json := createJsonOf (relevantAssignments experiment params) values failed
  match ← .read .plain fun store =>
      createObservation (observationSections calls.toCalls experiment store) experiment.allMetrics json with
  | .ok observation => do
      let observationId ← addObservation now .plain experiment observation
      pure (some (observationId, observation))
  | .error _ => pure none

/-- The suggestion or the observation of a new run, and the assignments of either. -/
structure CreatedFor where
  suggestion : Option ProcessedSuggestion := none
  observationId : Option Nat := none
  assignmentsMap : Option (List (String × ℚ)) := none

def maybeCreateSuggestionAndObservation (experiment : Experiment) (params : TrainingRunRequestParams) :
    RunProcess CreatedFor :=
  if isCompletedState (stateOf params.trainingRunDataJson) then do
    let created ← maybeCreateObservation calls now experiment params
    pure {
      observationId := created.map Prod.fst
      assignmentsMap := created.map fun observation => observation.2.data.assignmentsMap }
  else do
    let suggestion ← maybeCreateSuggestion calls experiment params
    pure { suggestion := suggestion, assignmentsMap := suggestion.map ProcessedSuggestion.assignmentsMap }

/-- `assignments_struct.update`. -/
def updateAssignmentsStruct (data assignments : JsonObject) : JsonObject :=
  if assignments = [] then data
  else setMember data "a" (.object (JsonObject.merge (membersOf data "a") assignments))

/-- The source of an assignment that comes from the suggestion. -/
def markAssignment (data : JsonObject) (name : String) : JsonObject :=
  let assignmentsMeta := membersOf data "am"
  setMember data "am" (.object (setMember assignmentsMeta name
    (.object (setMember (membersOf assignmentsMeta name) "s" (.string optimizedAssignmentSource)))))

def markSource (data assignments : JsonObject) : JsonObject :=
  let marked := (assignments.map Prod.fst).foldl markAssignment data
  let sources := membersOf marked "as"
  let source := setMember (membersOf sources optimizedAssignmentSource) "s" (.number 1)
  setMember marked "as" (.object (setMember sources optimizedAssignmentSource
    (.object (setMember source "d" (.boolean true)))))

/-- `parse_request`: the checks of a creation. -/
def checkCreateRequest (params : TrainingRunRequestParams) : Except ValidationError Unit := do
  raiseIf (params.trainingRunDataJson.get "n" matches .null | .string "") (.missingParam "name" "")
  raiseIf (params.isExplicitlyNull "s" = true) (.sigoptValidation "state cannot be `null`")
  raiseIf (params.projectField.isSome = true)
    (.sigoptValidation "`project` is not a valid JSON key for this endpoint.")
  validateAssignmentsMeta (membersOf params.trainingRunDataJson "a") (membersOf params.trainingRunDataJson "am") none

def newTrainingRun (experiment : Experiment) (projectId : Nat) (created : CreatedFor) (data : JsonObject)
    (id : Nat) : TrainingRun where
  id := id
  clientId := experiment.clientId
  projectId := projectId
  experimentId := some experiment.id
  suggestionId := created.suggestion.map ProcessedSuggestion.suggestionId
  observationId := created.observationId
  updated := now
  completed := if isCompletedState (stateOf data) then some now else none
  trainingRunData := data

/-- The id comes from the sequence of the table. -/
def Store.insertTrainingRun (store : Store) (rowOf : Nat → TrainingRun) : Store :=
  { store with
    trainingRuns := store.trainingRuns ++ [rowOf store.nextTrainingRunId]
    nextTrainingRunId := store.nextTrainingRunId + 1 }

/-- `handle` of the create endpoint of an AI experiment, whose checks come in the source's order. -/
def createHandle (experimentId : Nat) (params : TrainingRunRequestParams) :
    RunProcess (TrainingRun × Project) := do
  let experiment ← findAiExperiment experimentId
  .ofExcept (check (checkCreateRequest params))
  .ofExcept (check (raiseIf (experiment.deleted = true)
    (.sigoptValidation s!"Cannot create training runs for deleted experiment {experiment.id}")))
  match ← .read .plain fun store => experiment.projectId.bind fun id => store.findProject experiment.clientId id with
  | none => .raised (.forbidden
      s!"Experiment {experiment.id} must belong to a project in order to create training runs")
  | some project => do
      let created ← maybeCreateSuggestionAndObservation calls now experiment params
      let assignments := (created.assignmentsMap.map (calls.assignmentsJson experiment)).getD []
      let data := updateAssignmentsStruct (stripMembers params.trainingRunDataJson) assignments
      .ofExcept (check (validateAssignmentsMeta (membersOf data "a") (membersOf data "am") none))
      let data := if created.suggestion.isSome then markSource data assignments else data
      let rowOf := newTrainingRun now experiment project.id created data
      let run ← .statement .plain (fun store => store.insertTrainingRun rowOf)
        fun store => .returned (rowOf store.nextTrainingRunId)
      .write .plain fun store => store.markExperimentAsUpdated experiment.id now
      pure (run, project)

end Create

/-! ### Deletion -/

/-- `TrainingRunsDeleteHandler`. -/
def deleteHandle (now : Int) (trainingRunId : Nat) : RunProcess (TrainingRun × Project) := do
  let run ← findTrainingRun trainingRunId (.notFound s!"Training run {trainingRunId} not found")
  let project ← findProject run
  findClient run
  setDeleted now run.id true
  pure ({ run with deleted := true }, project)

namespace Store

variable (store : Store)

def deleteTrainingRuns (experimentId : Nat) : Store :=
  { store with
    trainingRuns := Rows.update (fun run => run.experimentId = some experimentId)
      (fun run => { run with deleted := true }) store.trainingRuns }

def deleteSuggestions (experimentId : Nat) : Store :=
  { store with
    processedSuggestions := Rows.update (fun suggestion => suggestion.experimentId = experimentId)
      (fun suggestion => { suggestion with deleted := true }) store.processedSuggestions }

def deleteExperiment (experimentId : Nat) (now : Int) : Store :=
  { store with
    experiments := Rows.update (fun experiment => experiment.id = experimentId)
      (fun experiment => { experiment with deleted := true, dateUpdated := now }) store.experiments }

end Store

/-- `ObservationService.delete_all_for_experiment`. -/
def deleteObservations (now : Int) (experiment : Experiment) : RunProcess Unit := do
  let old ← .read .plain fun store =>
    store.observations.filter fun row => row.experimentId = experiment.id && !row.deleted
  .write .plain fun store => store.updateObservations (old.map fun row => row.setDeleted true now)
  .write .plain fun store => store.markExperimentAsUpdated experiment.id now

def deleteRunsInExperiment (now : Int) (experiment : Experiment) : RunProcess Unit := do
  .write .plain fun store => store.deleteTrainingRuns experiment.id
  .write .plain fun store => store.deleteSuggestions experiment.id
  deleteObservations now experiment

/-- `ExperimentsDeleteHandler`. -/
def deleteExperimentHandle (now : Int) (experimentId : Nat) (includeRuns : Bool) : RunProcess Unit := do
  let experiment ← findAiExperiment experimentId
  if includeRuns then deleteRunsInExperiment now experiment else pure ()
  .write .plain fun store => store.deleteExperiment experiment.id now

/-! ### Requests one after the other -/

/-- The requests that reach a training run over its life. -/
inductive Operation where
  | create (experimentId : Nat) (params : TrainingRunRequestParams)
  | update (trainingRunId : Nat) (mergeObjects : Bool) (params : TrainingRunRequestParams)
  | delete (trainingRunId : Nat)
  | deleteExperiment (experimentId : Nat) (includeRuns : Bool)

/-- The store after a request, whether it is answered or rejected. -/
def perform (calls : CreateCalls) (store : Store) (request : Int × Operation) : Store :=
  match request.2 with
  | .create experimentId params => ((createHandle calls request.1 experimentId params).run store).2
  | .update trainingRunId mergeObjects params =>
      ((handle calls.toCalls request.1 trainingRunId mergeObjects params).run store).2
  | .delete trainingRunId => ((deleteHandle request.1 trainingRunId).run store).2
  | .deleteExperiment experimentId includeRuns =>
      ((deleteExperimentHandle request.1 experimentId includeRuns).run store).2

end Zigopt.TrainingRuns
