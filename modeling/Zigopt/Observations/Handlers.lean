/-
Module: Zigopt.Observations.Handlers
Layer: Observations
Purpose: Creating and updating observations: the checks on `failed` and `values`, which for an update are
  made on the request completed by what is stored, and what is stored in the end.
Main exports: ObservationSections, createObservation, updateObservation, Operation, perform
-/
import Zigopt.Observations.Values

namespace Zigopt.Observations

open Raising

/-- A served suggestion, as far as an observation of it copies it. -/
structure ServedSuggestion where
  id : Nat
  assignmentsMap : List (String × ℚ)
  task : Option Task
deriving DecidableEq, Repr

/-- What the handlers call for the other sections of a request. -/
structure ObservationSections where
  /-- `find_by_id`, restricted to the suggestions of the experiment. -/
  findSuggestion : ℤ → Option ServedSuggestion
  /-- `set_assignments_map_from_json` and `validate_assignments_map`. -/
  assignmentsFromJson : JsonObject → Except ValidationError (List (String × ℚ))
  /-- `validate_client_provided_data`, of a metadata object that is given. -/
  validateClientProvidedData : JsonObject → Except ValidationError Unit

/-- `ValidationType.id`: an integer, or a string that reads as one. -/
def idType : ValidationType ℤ where
  name := "id"
  read
    | .number value => if value.den = 1 then some value.num else none
    | .string text => text.toInt?
    | _ => none

def taskType : ValidationType (JsonObject ⊕ String) := .oneOf .object .string

/-! ### `observation_schema` -/

def isStringOrNull : Json → Bool
  | .null | .string _ => true
  | _ => false

/-- The schema of one item of `values`. -/
def valueItemAccepted : Json → Bool
  | .object members =>
      members.all (fun member => member.1 ∈ ["value", "value_stddev", "name"]) &&
        (ValidationType.number.read (JsonObject.get members "value")).isSome &&
        (match JsonObject.get members "value_stddev" with
          | .null => true
          | .number deviation => 0 ≤ deviation
          | _ => false) &&
        isStringOrNull (JsonObject.get members "name")
  | _ => false

/-- The schema of the member under a key. -/
def memberAccepted : String × Json → Bool
  | ("values", .null) => true
  | ("values", .array items) => items.all valueItemAccepted
  | ("failed", .null) | ("failed", .boolean _) => true
  | ("metadata", .null) | ("metadata", .object _) => true
  | ("task", .null) | ("task", .object _) | ("task", .string _) => true
  | ("suggestion", _) | ("assignments", _) | ("no_optimize", _) => true
  | _ => false

def validateObservationSchema (json : JsonObject) : Except ValidationError Unit :=
  raiseIf (json.all memberAccepted = false) (.sigoptValidation "The request does not match its schema")

/-! ### Checks of a create -/

/-- `values`, as the handlers read it; the schema has checked that the items are objects. -/
def readValues (json : JsonObject) : Except ValidationError (Option (List JsonObject)) :=
  getOptWithValidation json "values" (.arrayOf .object)

/-- `values` of a request that is a list of objects is read as such. -/
theorem readValues_eq_some {json : JsonObject} {values : List JsonObject} :
    readValues json = .ok (some values) ↔ json.get "values" = .array (values.map .object) := by
  rw [readValues, getOptWithValidation_eq_some rfl]
  cases json.get "values" with
  | array items => simp only [ValidationType.arrayOf, readObjects_eq_some, Json.array.injEq]
  | null => simp [ValidationType.arrayOf]
  | boolean _ => simp [ValidationType.arrayOf]
  | number _ => simp [ValidationType.arrayOf]
  | string _ => simp [ValidationType.arrayOf]
  | object _ => simp [ValidationType.arrayOf]

def validateObservationJsonDictForCreate (json : JsonObject) : Except ValidationError Unit := do
  validateObservationSchema json
  let failed ← getOptWithValidation json "failed" .boolean
  let values ← readValues json
  raiseIf (failed = some true ∧ values.getD [] ≠ [])
    (.sigoptValidation "Cannot provide `values` if observation has failed")
  raiseIf (json.isPresent "suggestion" = true ∧ json.isPresent "assignments" = true)
    (.sigoptValidation "Cannot specify `suggestion` and `assignments`.")
  raiseIf (¬(json.hasKey "suggestion" = true ∨ json.hasKey "assignments" = true))
    (.sigoptValidation "Must provide exactly one of `suggestion`, `assignments`")
  -- the schema has refused a `value`
  raiseIf (failed ≠ some true ∧ values.getD [] = []) (.missingJsonKey "value")

/-! ### Checks of an update -/

/-- Exactly one of the suggestion and the assignments is left after the update. -/
def checkSuggestionOrAssignments (json : JsonObject) (observation : Observation) :
    Except ValidationError Unit :=
  let suggestionGiven :=
    if json.hasKey "suggestion" then json.isPresent "suggestion" else observation.processedSuggestionId.isSome
  let assignmentsGiven :=
    if json.hasKey "assignments" then json.isPresent "assignments"
    else observation.processedSuggestionId.isNone
  raiseIf (suggestionGiven = assignmentsGiven)
    (.sigoptValidation "Must provide exactly one of `suggestion`, `assignments`")

/-- `failed` of the request, or of the observation if the request has no such key. -/
def failedOfUpdate (json : JsonObject) (observation : Observation) : Option Bool :=
  if json.hasKey "failed" then
    ValidationType.boolean.read (json.get "failed")
  else
    some observation.data.reportedFailure

/-- With multiple metrics: the measurements of the observation are a list, if an empty one for a failed
    observation, and so never None. -/
def measurementsGiven (json : JsonObject) : Bool :=
  if json.hasKey "values" then json.isPresent "values" else true

/-- With a single metric. -/
def valueGiven (experiment : MetricsExperiment) (json : JsonObject) (observation : Observation) : Bool :=
  if json.hasKey "values" then
    json.isPresent "values"
  else if json.hasKey "value" then
    json.isPresent "value"
  else
    ((experiment.allMetrics.head?).bind fun metric =>
      observation.data.metricValue experiment metric.name).isSome

def checkFailedAndValues (experiment : MetricsExperiment) (json : JsonObject) (observation : Observation) :
    Except ValidationError Unit :=
  let failed := failedOfUpdate json observation
  if experiment.hasMultipleMetrics then do
    raiseIf (measurementsGiven json = true ∧ failed = some true)
      (.sigoptValidation "Multimetric observations with values cannot have failed == true")
    raiseIf (measurementsGiven json = false ∧ failed ≠ some true)
      (.sigoptValidation "Multimetric observations must either have values or failed == true")
  else do
    raiseIf (valueGiven experiment json observation = true ∧ failed = some true)
      (.sigoptValidation "Observations with a value cannot have failed == true")
    raiseIf (valueGiven experiment json observation = false ∧ failed ≠ some true)
      (.sigoptValidation "Observations must either have a value or failed == true")

/-- `extract_task_from_json` in a multitask experiment. -/
def extractTask (experiment : MetricsExperiment) (json : JsonObject) : Except ValidationError Task := do
  let taskField ← getOptWithValidation json "task" taskType
  let taskName ← (match taskField with
    | some (.inl members) => getOptWithValidation members "name" .string
    | some (.inr name) => pure (some name)
    | none => pure none)
  match taskName with
  | none => .error (.invalidKey "name"
      (some "A task name must be defined when creating suggestions for a multitask experiment."))
  | some name =>
      match experiment.tasks.find? fun task => task.name = name with
      | some task => pure task
      | none => .error (.sigoptValidation s!"No task {name}")

def extractTaskFromJson (experiment : MetricsExperiment) (json : JsonObject) :
    Except ValidationError (Option Task) :=
  if experiment.isMultitask then
    (extractTask experiment json).map some
  else
    pure none

def validateTask (experiment : MetricsExperiment) (json : JsonObject) : Except ValidationError Unit :=
  if json.hasKey "task" then do
    raiseIf (experiment.isMultitask = false)
      (.sigoptValidation "Only multitask experiments should have a task present.")
    if json.isPresent "task" then do
      let _ ← extractTaskFromJson experiment json
      pure ()
    else
      pure ()
  else
    pure ()

/-! ### Suggestion, assignments and task -/

section Assignments

variable (sections : ObservationSections) (experiment : MetricsExperiment)

/-- `set_observation_suggestion_from_json`. -/
def setObservationSuggestion (data : ObservationData) (suggestionJson : ℤ) :
    Except ValidationError Observation :=
  match sections.findSuggestion suggestionJson with
  | none => .error (.invalidValue s!"No suggestion: {suggestionJson} for experiment")
  | some suggestion => pure {
      processedSuggestionId := some suggestion.id
      data := { data with
        assignmentsMap := suggestion.assignmentsMap
        task := if experiment.isMultitask then suggestion.task else data.task } }

/-- `set_observation_data_assignments_map_from_json`. -/
def setObservationAssignmentsMap (data : ObservationData) (json : JsonObject) :
    Except ValidationError ObservationData := do
  let assignmentsJson ← getOptWithValidation json "assignments" .object
  raiseIf (assignmentsJson.getD [] = []) (.sigoptValidation "Cannot provide null or empty `assignments`")
  pure { data with assignmentsMap := ← sections.assignmentsFromJson (assignmentsJson.getD []) }

def setObservationDataTaskFromJson (data : ObservationData) (json : JsonObject) :
    Except ValidationError ObservationData := do
  match ← extractTaskFromJson experiment json with
  | some task => pure { data with task := some task }
  | none => pure data

/-- The task that a create takes from the request, for an observation with assignments. -/
def setTaskOfCreate (data : ObservationData) (json : JsonObject) : Except ValidationError ObservationData :=
  if experiment.isMultitask then do
    raiseIf (json.hasKey "task" = false) (.sigoptValidation
      "Must provide `assignments` and `task` when creating observations manually")
    setObservationDataTaskFromJson experiment data json
  else
    pure data

def setObservationDataAssignmentsTaskFromJson (data : ObservationData) (_ : Observation) (json : JsonObject) :
    Except ValidationError Observation := do
  let assignmentsJson ← getOptWithValidation json "assignments" .object
  let suggestionJson ← getOptWithValidation json "suggestion" idType
  match suggestionJson, assignmentsJson with
  | none, none => .error (.sigoptValidation
      (if experiment.isMultitask then
        "Either `suggestion` or `assignments`+`task` must be provided when creating an observation"
      else
        "Must provide values for one of `suggestion` or `assignments`"))
  | some _, some _ => .error (.sigoptValidation
      "Cannot provide values for both `suggestion` and `assignments`")
  | some suggestion, none => do
      raiseIf (json.hasKey "task" = true)
        (.sigoptValidation "Cannot provide/update `task` when `suggestion` is provided")
      setObservationSuggestion sections experiment data suggestion
  | none, some _ => do
      let data ← setObservationAssignmentsMap sections data json
      let data ← setTaskOfCreate experiment data json
      pure { data := data }

/-- `_check_suggestion_assignments_update`, by the keys that the request has. -/
def checkSuggestionAssignmentsUpdate (observation : Observation) (json : JsonObject)
    (suggestionJson : Option ℤ) (assignmentsJson : Option JsonObject) : Except ValidationError Unit :=
  let hasSuggestion := observation.processedSuggestionId.isSome
  match json.hasKey "suggestion", json.hasKey "assignments" with
  | true, true => do
      raiseIf (suggestionJson = none ∧ assignmentsJson.isNone = true)
        (.sigoptValidation "Cannot provide null for both `suggestion` and `assignments`")
      raiseIf (suggestionJson ≠ none ∧ assignmentsJson.isSome = true)
        (.sigoptValidation "Cannot set values for both `suggestion` and `assignments`")
  | true, false => do
      raiseIf (hasSuggestion = true ∧ suggestionJson = none)
        (.sigoptValidation "Cannot provide null for `suggestion` without providing `assignments`")
      raiseIf (hasSuggestion = false ∧ suggestionJson ≠ none)
        (.sigoptValidation "Cannot provide `suggestion` without providing null for `assignments`")
  | false, true => do
      raiseIf (hasSuggestion = false ∧ assignmentsJson.isNone = true)
        (.sigoptValidation "Cannot provide null for `assignments` without providing `suggestion`")
      raiseIf (hasSuggestion = true ∧ assignmentsJson.isSome = true)
        (.sigoptValidation "Cannot provide `assignments` without providing null not `suggestion`")
  | false, false => pure ()

def checkTaskUpdate (observation : Observation) (json : JsonObject) (suggestionJson : Option ℤ)
    (assignmentsJson : Option JsonObject) : Except ValidationError Unit :=
  let hasSuggestion := observation.processedSuggestionId.isSome
  if experiment.isMultitask then
    if json.hasKey "task" then do
      raiseIf (assignmentsJson.isNone = true ∧ json.isPresent "task" = true ∧ suggestionJson = none ∧
          hasSuggestion = true)
        (.sigoptValidation
          "Cannot provide `task` for observation update for observation with associated suggestion")
      raiseIf (assignmentsJson.isNone = true ∧ json.isPresent "task" = true ∧ suggestionJson ≠ none)
        (.sigoptValidation
          "Cannot provide `task` when updating observation to change associated suggestion")
    else
      raiseIf (hasSuggestion = true ∧ suggestionJson = none ∧ assignmentsJson.isSome = true)
        (.sigoptValidation
          "Most provide both `task` and `assignments` when updating observation to remove suggestion")
  else
    raiseIf (json.hasKey "task" = true)
      (.sigoptValidation "Cannot provide `task` for experiment which is not multitask")

/-- The assignments of an update that sends no suggestion. -/
def updateAssignments (data : ObservationData) (observation : Observation) (json : JsonObject)
    (assignmentsJson : Option JsonObject) : Except ValidationError Observation :=
  if assignmentsJson.isSome && json.hasKey "assignments" &&
      (json.hasKey "suggestion" || observation.processedSuggestionId.isNone) then do
    pure { processedSuggestionId := none, data := ← setObservationAssignmentsMap sections data json }
  else
    pure { observation with data := data }

/-- The task of an update that sends no suggestion. -/
def updateTask (observation : Observation) (json : JsonObject) : Except ValidationError Observation :=
  if json.hasKey "task" then do
    pure { observation with data := ← setObservationDataTaskFromJson experiment observation.data json }
  else
    pure observation

def updateObservationDataAssignmentsTaskFromJson (data : ObservationData) (observation : Observation)
    (json : JsonObject) : Except ValidationError Observation := do
  let assignmentsJson ← getOptWithValidation json "assignments" .object
  let suggestionJson ← getOptWithValidation json "suggestion" idType
  checkSuggestionAssignmentsUpdate observation json suggestionJson assignmentsJson
  checkTaskUpdate experiment observation json suggestionJson assignmentsJson
  match suggestionJson with
  | some suggestion =>
      if (json.hasKey "assignments" && assignmentsJson.isNone) ||
          (!json.hasKey "assignments" && observation.processedSuggestionId.isSome) then
        setObservationSuggestion sections experiment data suggestion
      else
        pure { observation with data := data }
  | none => do
      let updated ← updateAssignments sections data observation json assignmentsJson
      updateTask experiment updated json

/-! ### The handlers -/

/-- `get_client_provided_data`. -/
def readClientProvidedData (json : JsonObject) : Except ValidationError Unit := do
  match ← getOptWithValidation json "metadata" .object with
  | some metadata => sections.validateClientProvidedData metadata
  | none => pure ()

/-- `failed` of a request, which an observation that has failed and gets no values keeps. -/
def failedOrKept (failed : Option Bool) (values : Option (List JsonObject)) (observation : Observation) :
    Option Bool :=
  if failed = none ∧ observation.data.reportedFailure = true ∧ values.getD [] = [] then some true else failed

/-- `observation_from_json`, with its two handlers. -/
def observationFromJson (json : JsonObject) (observation : Observation) (data : ObservationData)
    (dataHandler : ObservationData → Option (List JsonObject) → MetricsExperiment → Option Bool →
      Except ValidationError ObservationData)
    (assignmentsHandler : ObservationData → Observation → JsonObject → Except ValidationError Observation) :
    Except ValidationError Observation := do
  let failed ← getOptWithValidation json "failed" .boolean
  let values ← readValues json
  let data ← dataHandler data values experiment (failedOrKept failed values observation)
  readClientProvidedData sections json
  assignmentsHandler data observation json

/-- The create handler: checks of the request, the sections that other modules parse, then the values. -/
def createObservation (json : JsonObject) : Except ValidationError Observation := do
  validateObservationJsonDictForCreate json
  observationFromJson sections experiment json {} {} createObservationData
    (setObservationDataAssignmentsTaskFromJson sections experiment)

/-- An update with some check of `failed` and `values`. -/
def updateObservationChecking
    (check : MetricsExperiment → JsonObject → Observation → Except ValidationError Unit)
    (observation : Observation) (json : JsonObject) : Except ValidationError Observation := do
  validateObservationSchema json
  checkSuggestionOrAssignments json observation
  check experiment json observation
  validateTask experiment json
  let _ ← getOptWithValidation json "no_optimize" .boolean
  observationFromJson sections experiment json observation observation.data updateObservationData
    (updateObservationDataAssignmentsTaskFromJson sections experiment)

/-- The update handler with the check of `failed` against `values` as the source makes it. -/
def updateObservation (observation : Observation) (json : JsonObject) :
    Except ValidationError Observation :=
  updateObservationChecking sections experiment checkFailedAndValues observation json

/-- The request of a single create, after its own type checks, without its nulls. -/
def observationJson (params : JsonObject) : Except ValidationError JsonObject := do
  let _ ← getOptWithValidation params "failed" .boolean
  let _ ← readValues params
  let _ ← getOptWithValidation params "suggestion" idType
  let _ ← getOptWithValidation params "metadata" .object
  let _ ← getOptWithValidation params "assignments" .object
  let _ ← getOptWithValidation params "value" .number
  let _ ← getOptWithValidation params "value_stddev" .number
  let _ ← getOptWithValidation params "task" taskType
  let _ ← getOptWithValidation params "no_optimize" .boolean
  let keys := ["failed", "values", "suggestion", "metadata", "assignments", "value", "value_stddev", "task",
    "no_optimize"]
  raiseIf (∃ member ∈ params, member.1 ∉ keys)
    (.invalidKey "Unknown keys were provided for observation create" none)
  pure (params.filter fun member => JsonObject.isPresent params member.1)

/-- The requests that change the observations of an experiment. -/
inductive Operation where
  | create (params : JsonObject)
  | createMulti (observations : List JsonObject)
  | update (position : Nat) (json : JsonObject)

/-- One request on the observations of an experiment; a batch that fails stores none of its observations. -/
def perform (observations : List Observation) : Operation → Except ValidationError (List Observation)
  | .create params => do
      let json ← observationJson params
      pure (observations ++ [← createObservation sections experiment json])
  | .createMulti bodies => do
      pure (observations ++ (← bodies.mapM (createObservation sections experiment)))
  | .update position json =>
      match observations[position]? with
      | none => .error (.sigoptValidation s!"No observation {position} for experiment")
      | some observation => do
          pure (observations.set position (← updateObservation sections experiment observation json))

end Assignments

end Zigopt.Observations
