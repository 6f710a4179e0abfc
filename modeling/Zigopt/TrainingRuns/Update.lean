/-
Module: Zigopt.TrainingRuns.Update
Layer: Model
Purpose: The PUT and MERGE of a training run (`handlers/training_runs/update.py`), statement by statement,
  with the observation that a run gets when it is completed or has failed, and the deletion of a run
  (`training_run/service.py`), which its suggestion and observation follow.
Main exports: TrainingRunRequestParams, Calls, setDeleted, createObservationFromSuggestion,
  ensureObservationExists, handle
-/
import Zigopt.TrainingRuns.Data

namespace Zigopt.TrainingRuns

open Raising Observations

/-! ### The request -/

/-- The parsed request. Of `deleted` and `project`, a field that is explicitly null differs from one that
    is missing. -/
structure TrainingRunRequestParams where
  deletedField : Option (Option Bool) := none
  projectField : Option (Option String) := none
  trainingRunDataJson : JsonObject := []
  deriving Repr

namespace TrainingRunRequestParams

/-- The flag that the request sets, if it sets it. -/
def deleted (params : TrainingRunRequestParams) : Option Bool :=
  params.deletedField.map fun value => value.getD false

/-- The project that the request names, if it names one. -/
def project (params : TrainingRunRequestParams) : Option String := params.projectField.join

/-- `field_is_explicitly_null` of a field of the training run data, by its JSON name. -/
def isExplicitlyNull (params : TrainingRunRequestParams) (jsonName : String) : Bool :=
  params.trainingRunDataJson.hasKey jsonName && !params.trainingRunDataJson.isPresent jsonName

end TrainingRunRequestParams

/-- What the handlers call of other parts, and of Python: `math.sqrt` of a number that is not negative,
    the reading of assignments and of client provided data for an observation, and the check of a project
    against the authorization of the request. -/
structure Calls where
  sqrt : ℚ → ℚ
  sqrt_nonneg : ∀ value, 0 ≤ sqrt value
  assignmentsFromJson : Experiment → JsonObject → Except ValidationError (List (String × ℚ))
  validateClientProvidedData : JsonObject → Except ValidationError Unit
  canActOnProject : Project → Bool

def ensureFieldCannotBeRemoved (removed : Bool) (userName : String) : Except ValidationError Unit :=
  raiseIf (removed = true) (.sigoptValidation s!"Cannot remove {userName} from a run")

def ensureFieldsCannotBeRemoved (params : TrainingRunRequestParams) : Except ValidationError Unit := do
  ensureFieldCannotBeRemoved (params.isExplicitlyNull "s") "state"
  ensureFieldCannotBeRemoved (params.isExplicitlyNull "n") "name"
  ensureFieldCannotBeRemoved (params.projectField = some none) "project"

def optimizedAssignmentSource : String := "SigOpt"

/-- `meta.source`. -/
def sourceOf : Json → String
  | .object members =>
      match JsonObject.get members "s" with
      | .string source => source
      | _ => ""
  | _ => ""

def validateAssignmentsMeta (inputParams inputParamsMeta : JsonObject) (trainingRun : Option TrainingRun) :
    Except ValidationError Unit := do
  let stored := (trainingRun.map fun run => membersOf run.trainingRunData "a").getD []
  let params := inputParams.map Prod.fst ++ stored.map Prod.fst
  raiseIf (optimizedAssignmentSource ∈ inputParamsMeta.map fun member => sourceOf member.2)
    (.sigoptValidation s!" {optimizedAssignmentSource} source is reserved and set automatically.")
  let metasWithoutParam := (inputParamsMeta.map Prod.fst).filter fun key => key ∉ params
  raiseIf (metasWithoutParam ≠ []) (.sigoptValidation
    s!" Parameter meta exist for {metasWithoutParam} but there is no corresponding parameter.")

/-- The columns that an update sets, beside the time of the update. -/
structure UpdateClause where
  projectId : Option Nat := none
  trainingRunData : Option (Bool × JsonObject) := none
  completes : Bool := false

namespace UpdateClause

/-- Whether a clause would change nothing. -/
def isEmpty (clause : UpdateClause) : Bool :=
  clause.projectId.isNone && clause.trainingRunData.isNone && !clause.completes

/-- The row as the clause leaves it. -/
def apply (clause : UpdateClause) (now : Int) (run : TrainingRun) : TrainingRun :=
  { run with
    projectId := clause.projectId.getD run.projectId
    trainingRunData :=
      match clause.trainingRunData with
      | some (mergeObjects, json) => createUpdateClause mergeObjects json run.trainingRunData
      | none => run.trainingRunData
    completed := if clause.completes then some (run.completed.getD now) else run.completed
    updated := now }

end UpdateClause

def updateClause (mergeObjects : Bool) (params : TrainingRunRequestParams) (newProject : Option Project) :
    UpdateClause where
  projectId := newProject.map Project.id
  trainingRunData :=
    if params.trainingRunDataJson = [] then none else some (mergeObjects, params.trainingRunDataJson)
  completes := isCompletedState (stateOf params.trainingRunDataJson)

/-! ### `TrainingRunService.set_deleted` -/

/-- The suggestion of the run takes the flag, where the run has one. -/
def setSuggestionDeleted (experiment : Experiment) (deleted : Bool) : Option Nat → RunProcess Unit
  | some suggestionId =>
      .write .plain fun store => store.setSuggestionDeleted experiment.id suggestionId deleted
  | none => pure ()

/-- `ObservationService.set_delete`: the data are written back as they were read, with another flag. -/
def setObservationDeleted (now : Int) (experiment : Experiment) (deleted : Bool) :
    Option Nat → RunProcess Unit
  | some observationId => do
      match ← .read .plain fun store => store.findObservation observationId with
      | some row => do
          .write .plain fun store => store.updateObservations [row.setDeleted deleted now]
          .write .plain fun store => store.markExperimentAsUpdated experiment.id now
      | none => pure ()
  | none => pure ()

/-- The experiment of the run, where it has one. -/
def findExperiment : Option Nat → RunProcess (Option Experiment)
  | some experimentId => .read .plain fun store => store.findExperiment experimentId
  | none => pure none

/-- `set_deleted`: the suggestion and the observation of the run take the flag before the run does. -/
def setDeleted (now : Int) (trainingRunId : Nat) (deleted : Bool) : RunProcess Unit := do
  match ← .read .plain fun store => store.findTrainingRun trainingRunId with
  | none => pure ()
  | some run => do
      match ← findExperiment run.experimentId with
      | some experiment => do
          setSuggestionDeleted experiment deleted run.suggestionId
          setObservationDeleted now experiment deleted run.observationId
      | none => pure ()
      .write .plain fun store => store.updateTrainingRun trainingRunId fun run => { run with deleted := deleted }

/-! ### The observation of a run -/

section Observation

variable (calls : Calls) (now : Int)

def mathSqrt (value : ℚ) : Except RunError ℚ :=
  if value < 0 then .error (.valueError "math domain error") else .ok (calls.sqrt value)

/-- `get_observation_values`: of the metrics that the run has a value for. -/
def getObservationValues (data : JsonObject) : List ExperimentMetric → Except RunError (List JsonObject)
  | [] => pure []
  | metric :: rest =>
      match valueNamed data metric.name with
      | none => getObservationValues data rest
      | some value => do
          let deviation ← mathSqrt calls value.valueVar
          let others ← getObservationValues data rest
          pure ([("name", .string metric.name), ("value", .number value.value),
            ("value_stddev", .number deviation)] :: others)

/-- The values to report, and whether the run counts as failed. -/
def reportedValues (experiment : Experiment) (data : JsonObject) : Except RunError (List JsonObject × Bool) :=
  if stateOf data = .failed then
    pure ([], true)
  else do
    let values ← getObservationValues calls data experiment.allMetrics.allMetrics
    if values.length = experiment.allMetrics.allMetrics.length then pure (values, false) else pure ([], true)

def observationJsonOf (suggestionId : Nat) (reported : List JsonObject × Bool) : JsonObject :=
  [("suggestion", .number suggestionId), ("values", .array (reported.1.map .object)),
    ("failed", .boolean reported.2)]

def servedSuggestion (suggestion : ProcessedSuggestion) : ServedSuggestion where
  id := suggestion.suggestionId
  assignmentsMap := suggestion.assignmentsMap
  task := suggestion.task

/-- `suggestion_service.find_by_id`, and the check that the suggestion is one of the experiment. -/
def findSuggestionOf (experiment : Experiment) (store : Store) (suggestionJson : ℤ) : Option ServedSuggestion :=
  if suggestionJson < 0 then none
  else
    match store.findSuggestion suggestionJson.toNat with
    | some suggestion =>
        if suggestion.experimentId = experiment.id then some (servedSuggestion suggestion) else none
    | none => none

def observationSections (experiment : Experiment) (store : Store) : ObservationSections where
  findSuggestion := findSuggestionOf experiment store
  assignmentsFromJson := calls.assignmentsFromJson experiment
  validateClientProvidedData := calls.validateClientProvidedData

/-- The observation for a run that is completed or has failed, as it is going to be inserted. -/
def observationOfRun (experiment : Experiment) (data : JsonObject) (suggestionId : Nat) (store : Store) :
    Except RunError Observation := do
  let reported ← reportedValues calls experiment data
  check (createObservation (observationSections calls experiment store) experiment.allMetrics
    (observationJsonOf suggestionId reported))

/-- `add_observations`; the optimization that it enqueues is no part of the store. -/
def addObservation (label : Statement) (experiment : Experiment) (observation : Observation) :
    RunProcess Nat :=
  .statement label
    (fun store => store.insertObservation experiment.id now observation)
    fun store => .returned store.nextObservationId

/-- `create_observation_from_suggestion`: the observation is inserted, then written back to the run. -/
def createObservationFromSuggestion (experiment : Experiment) (run : TrainingRun) (suggestionId : Nat) :
    RunProcess Unit := do
  let created ← .read .plain fun store =>
    observationOfRun calls experiment run.trainingRunData suggestionId store
  let observation ← .ofExcept created
  let observationId ← addObservation now (.insertsObservation run.id) experiment observation
  .write (.writesBack run.id observationId) fun store =>
    store.updateTrainingRun run.id fun run => { run with observationId := some observationId }

/-- The suggestion whose observation a run lacks. -/
def awaitedSuggestion (run : TrainingRun) : Option Nat :=
  if run.observationId.isSome then none else run.suggestionId

/-- `ensure_observation_exists`: a run that awaits an observation gets one where its suggestion is automatic. -/
def ensureObservationExists (experiment : Option Experiment) (run : TrainingRun) : RunProcess Unit :=
  match experiment, awaitedSuggestion run with
  | some experiment, some suggestionId => do
      match ← .read .plain fun store => store.findSuggestion suggestionId with
      | some suggestion =>
          if suggestion.automatic then createObservationFromSuggestion calls now experiment run suggestionId
          else pure ()
      | none => pure ()
  | _, _ => pure ()

end Observation

/-! ### `TrainingRunsUpdateHandler` -/

section Handler

variable (calls : Calls) (now : Int)

/-- The run of an id, or the error that its absence raises. -/
def findTrainingRun (trainingRunId : Nat) (missing : RunError) : RunProcess TrainingRun := do
  match ← .read .plain fun store => store.findTrainingRun trainingRunId with
  | some run => pure run
  | none => .raised missing

def findProject (run : TrainingRun) : RunProcess Project := do
  match ← .read .plain fun store => store.findProject run.clientId run.projectId with
  | some project => pure project
  | none => .raised (.notFound s!"Training run {run.id} not found")

/-- `_find_client`, which every update asks for first. -/
def findClient (run : TrainingRun) : RunProcess Unit := do
  match ← .read .plain fun store => store.clients.find? fun id => id = run.clientId with
  | some _ => pure ()
  | none => .raised (.notFound s!"Client {run.clientId} not found")

/-- The project that the request moves the run to. -/
def findNewProject (run : TrainingRun) : Option String → RunProcess (Option Project)
  | none => pure none
  | some "" => pure none
  | some referenceId => do
      match ← .read .plain fun store => store.findProjectByReferenceId run.clientId referenceId with
      | some project =>
          if calls.canActOnProject project then pure (some project)
          else .raised (.validation (.invalidValue s!"Unknown project ID: {referenceId}"))
      | none => .raised (.validation (.invalidValue s!"Unknown project ID: {referenceId}"))

/-- What the handler knows before its first write. -/
structure Checked where
  run : TrainingRun
  project : Project
  experiment : Option Experiment
  newProject : Option Project

/-- `find_objects`, and the checks of the handler up to its first write. -/
def checkRequest (trainingRunId : Nat) (params : TrainingRunRequestParams) : RunProcess Checked := do
  let run ← findTrainingRun trainingRunId (.notFound s!"Training run {trainingRunId} not found")
  let project ← findProject run
  findClient run
  .ofExcept (check (ensureFieldsCannotBeRemoved params))
  let experiment ← findExperiment run.experimentId
  .ofExcept (check (validateAssignmentsMeta (membersOf params.trainingRunDataJson "a")
    (membersOf params.trainingRunDataJson "am") (some run)))
  let newProject ← findNewProject calls run params.project
  pure { run := run, project := project, experiment := experiment, newProject := newProject }

/-- The cascade of a changed deleted flag. -/
def updateDeleted (run : TrainingRun) (params : TrainingRunRequestParams) : RunProcess Unit :=
  if params.deleted.getD run.deleted ≠ run.deleted then
    setDeleted now run.id (params.deleted.getD run.deleted)
  else
    pure ()

def emitUpdate (run : TrainingRun) (clause : UpdateClause) : RunProcess Unit :=
  if clause.isEmpty then pure ()
  else .write .plain fun store => store.updateTrainingRun run.id (clause.apply now)

def ensureObservationIfCompleted (experiment : Option Experiment) (run : TrainingRun) :
    RunProcess TrainingRun :=
  if isCompletedState (stateOf run.trainingRunData) then do
    ensureObservationExists calls now experiment run
    findTrainingRun run.id .assertion
  else
    pure run

/-- The run and the project that the response is built from; the count of the checkpoints is not
    modelled. -/
def handle (trainingRunId : Nat) (mergeObjects : Bool) (params : TrainingRunRequestParams) :
    RunProcess (TrainingRun × Project) := do
  let checked ← checkRequest calls trainingRunId params
  updateDeleted now checked.run params
  emitUpdate now checked.run (updateClause mergeObjects params checked.newProject)
  let run ← findTrainingRun trainingRunId .assertion
  let run ← ensureObservationIfCompleted calls now checked.experiment run
  pure (run, checked.newProject.getD checked.project)

end Handler

end Zigopt.TrainingRuns
