/-
Module: Zigopt.TrainingRuns.Data
Layer: Model
Purpose: Training runs as they are stored, with their data as the JSON document of the column, beside the
  processed suggestions and observations of their experiments; and the statements that change these tables.
Main exports: TrainingRun, ProcessedSuggestion, ObservationRow, Store, stateOf, jsonPathKeys, createUpdateClause
-/
import Zigopt.Db.JsonPath
import Zigopt.Lib.Process
import Zigopt.Lib.Rows
import Zigopt.Observations.Handlers

namespace Zigopt.TrainingRuns

open Raising Observations

inductive TrainingRunState where
  | active
  | completed
  | failed
  deriving DecidableEq, Repr

def isCompletedState : TrainingRunState → Bool
  | .active => false
  | .completed => true
  | .failed => true

/-! ### Training run data

`training_run_data.proto` names the members of the document: `a` is `assignments_struct`, `am`
`assignments_meta`, `n` `name`, `s` `state` and `v` `values_map`. -/

/-- A member of message type, as its members; a missing message has none. -/
def membersOf (data : JsonObject) (key : String) : JsonObject :=
  match data.get key with
  | .object members => members
  | _ => []

/-- A member of a number type; a missing number reads as 0. -/
def numberOf (data : JsonObject) (key : String) : ℚ :=
  match data.get key with
  | .number value => value
  | _ => 0

/-- The state of a run as its document stores it: a number, whose absence means active. -/
def stateOf (data : JsonObject) : TrainingRunState :=
  if numberOf data "s" = 1 then .completed else if numberOf data "s" = 2 then .failed else .active

structure TrainingRunValue where
  value : ℚ
  valueVar : ℚ
  deriving DecidableEq, Repr

/-- `values_map.get(name)`. -/
def valueNamed (data : JsonObject) (name : String) : Option TrainingRunValue :=
  match (membersOf data "v").lookup name with
  | some (.object members) => some { value := numberOf members "v", valueVar := numberOf members "r" }
  | _ => none

/-! ### Rows -/

/-- A row of training runs; the ids link it to its experiment, suggestion and observation. -/
structure TrainingRun where
  id : Nat
  clientId : Nat
  projectId : Nat
  experimentId : Option Nat := none
  suggestionId : Option Nat := none
  observationId : Option Nat := none
  updated : Int
  deleted : Bool := false
  completed : Option Int := none
  trainingRunData : JsonObject
  deriving Repr

/-- A row of `suggestions_processed`, with what an observation of it copies. -/
structure ProcessedSuggestion where
  suggestionId : Nat
  experimentId : Nat
  deleted : Bool := false
  automatic : Bool := false
  assignmentsMap : List (String × ℚ)
  task : Option Task := none
  deriving DecidableEq, Repr

/-- An observation as the store holds it, with the experiment that it belongs to. -/
structure ObservationRow where
  id : Nat
  experimentId : Nat
  timestamp : Int
  observation : Observation
  deriving DecidableEq, Repr

/-- The flag of the observation's data. -/
def ObservationRow.deleted (row : ObservationRow) : Bool := row.observation.data.deleted

/-- The suggestion that the observation reports on. -/
def ObservationRow.processedSuggestionId (row : ObservationRow) : Option Nat :=
  row.observation.processedSuggestionId

structure Project where
  id : Nat
  clientId : Nat
  referenceId : String
  deriving DecidableEq, Repr

/-- What the endpoints of training runs read of an experiment. -/
structure Experiment where
  id : Nat
  clientId : Nat
  projectId : Option Nat
  deleted : Bool := false
  runsOnly : Bool := true
  dateUpdated : Int
  parameterNames : List String := []
  allMetrics : MetricsExperiment
  deriving DecidableEq, Repr

/-- Of the clients there are the ids of those that are not deleted. -/
structure Store where
  clients : List Nat := []
  experiments : List Experiment := []
  projects : List Project := []
  trainingRuns : List TrainingRun := []
  processedSuggestions : List ProcessedSuggestion := []
  observations : List ObservationRow := []
  nextTrainingRunId : Nat := 1
  nextObservationId : Nat := 1
  deriving Repr

namespace Store

variable (store : Store)

def findTrainingRun (id : Nat) : Option TrainingRun :=
  store.trainingRuns.find? fun run => run.id = id

/-- `experiment_service.find_by_id(id, include_deleted=True)`. -/
def findExperiment (id : Nat) : Option Experiment :=
  store.experiments.find? fun experiment => experiment.id = id

/-- `suggestion_service.find_by_id`: a deleted suggestion is not found. -/
def findSuggestion (id : Nat) : Option ProcessedSuggestion :=
  store.processedSuggestions.find? fun suggestion => decide (suggestion.suggestionId = id) && !suggestion.deleted

/-- `observation_service.find_by_id(id, include_deleted=True)`. -/
def findObservation (id : Nat) : Option ObservationRow :=
  store.observations.find? fun row => row.id = id

def findProject (clientId id : Nat) : Option Project :=
  store.projects.find? fun project => project.clientId = clientId && project.id = id

def findProjectByReferenceId (clientId : Nat) (referenceId : String) : Option Project :=
  store.projects.find? fun project => project.clientId = clientId && project.referenceId = referenceId

/-- An UPDATE of the run of an id. -/
def updateTrainingRun (id : Nat) (change : TrainingRun → TrainingRun) : Store :=
  { store with trainingRuns := Rows.update (fun run => run.id = id) change store.trainingRuns }

/-- `set_delete_by_ids` of one id. -/
def setSuggestionDeleted (experimentId suggestionId : Nat) (deleted : Bool) : Store :=
  { store with
    processedSuggestions := Rows.update
      (fun suggestion => suggestion.experimentId = experimentId ∧ suggestion.suggestionId = suggestionId)
      (fun suggestion => { suggestion with deleted := deleted }) store.processedSuggestions }

end Store

/-- New data of an observation with another deleted flag. -/
def ObservationRow.setDeleted (row : ObservationRow) (deleted : Bool) (now : Int) : ObservationRow :=
  { row with
    timestamp := now
    observation := { row.observation with data := { row.observation.data with deleted := deleted } } }

/-- The row with the data of another one. -/
def ObservationRow.withData (row other : ObservationRow) : ObservationRow :=
  { row with
    timestamp := other.timestamp
    observation := { row.observation with data := other.observation.data } }

namespace Store

variable (store : Store)

/-- `update_all`: the data of the rows, by primary key. -/
def updateObservations (updated : List ObservationRow) : Store :=
  { store with
    observations := Rows.writeBack ObservationRow.id ObservationRow.withData updated store.observations }

/-- `mark_as_updated`. -/
def markExperimentAsUpdated (experimentId : Nat) (now : Int) : Store :=
  { store with
    experiments := Rows.update
      (fun experiment => experiment.id = experimentId ∧ experiment.dateUpdated < now)
      (fun experiment => { experiment with dateUpdated := now }) store.experiments }

/-- The id comes from the sequence of the table. -/
def insertObservation (experimentId : Nat) (timestamp : Int) (observation : Observation) : Store :=
  { store with
    observations := store.observations ++
      [{ id := store.nextObservationId, experimentId := experimentId, timestamp := timestamp,
         observation := observation }]
    nextObservationId := store.nextObservationId + 1 }

end Store

/-! ### Errors and statements -/

/-- What the endpoints of training runs raise. -/
inductive RunError where
  | validation (failure : ValidationError)
  | notFound (msg : String)
  | forbidden (msg : String)
  | suggestion (msg : String)
  | valueError (msg : String)
  | assertion
  deriving DecidableEq, Repr

/-- A statement, as far as the order of requests depends on it: the insertion of the observation of a run, and
    the update that makes the run refer to it. -/
inductive Statement where
  | plain
  | insertsObservation (trainingRunId : Nat)
  | writesBack (trainingRunId observationId : Nat)
  deriving DecidableEq, Repr

/-- A request's statements, each labelled with what matters to the requests beside it. -/
abbrev RunProcess (α : Type) := Process Statement Store RunError α

/-- A validation error as the endpoint raises it. -/
def check (result : Except ValidationError α) : Except RunError α :=
  match result with
  | .ok value => .ok value
  | .error failure => .error (.validation failure)

/-! ### `create_update_clause`: jsonb functions over the document -/

def setMember (object : JsonObject) (key : String) (value : Json) : JsonObject :=
  if object.hasKey key then
    object.map fun member => if member.1 = key then (key, value) else member
  else
    object ++ [(key, value)]

/-- `jsonb_set` in an object: parents that are missing, or no objects, are not created. -/
def jsonbSet : Json → List String → Json → Json
  | .object members, [key], value => .object (setMember members key value)
  | .object members, key :: rest, value =>
      match members.lookup key with
      | some child => .object (setMember members key (jsonbSet child rest value))
      | none => .object members
  | document, _, _ => document

mutual

/-- `jsonb_strip_nulls`. -/
def jsonbStripNulls : Json → Json
  | .object members => .object (stripMembers members)
  | .array items => .array (stripItems items)
  | .null => .null
  | .boolean value => .boolean value
  | .number value => .number value
  | .string text => .string text

def stripMembers : List (String × Json) → List (String × Json)
  | [] => []
  | (_, .null) :: rest => stripMembers rest
  | (key, value) :: rest => (key, jsonbStripNulls value) :: stripMembers rest

def stripItems : List Json → List Json
  | [] => []
  | item :: rest => jsonbStripNulls item :: stripItems rest

end

/-- `attribute[field_name]` of the stored document. -/
def storedAt (stored : Option Json) (fieldName : String) : Option Json :=
  match stored with
  | some (.object members) => members.lookup fieldName
  | _ => none

mutual

/-- `get_json_paths_and_values`: what a merge sets, parents first. -/
def getJsonPathsAndValues (mergeObjects : Bool) (path : List String) (stored : Option Json) :
    Json → List (List String × Json)
  | .object members =>
      if mergeObjects then
        (path, stored.getD (.object [])) :: getMembersPathsAndValues mergeObjects path stored members
      else
        [(path, .object members)]
  | .null => [(path, .null)]
  | .boolean value => [(path, .boolean value)]
  | .number value => [(path, .number value)]
  | .string text => [(path, .string text)]
  | .array items => [(path, .array items)]

def getMembersPathsAndValues (mergeObjects : Bool) (path : List String) (stored : Option Json) :
    List (String × Json) → List (List String × Json)
  | [] => []
  | (fieldName, value) :: rest =>
      getJsonPathsAndValues mergeObjects (path ++ [fieldName]) (storedAt stored fieldName) value ++
        getMembersPathsAndValues mergeObjects path stored rest

end

/-- The keys that the database reads in the literal that `JsonPath` renders for the path. -/
def jsonPathKeys (path : List String) : List String :=
  path.map fun key => Db.readText (.name key)

theorem parse_jsonPath_names (path : List String) :
    TextArray.parse (Db.jsonPath (path.map .name)) = some ((jsonPathKeys path).map some) := by
  rw [Db.parse_jsonPath, jsonPathKeys, List.map_map, List.map_map]
  rfl

/-- The document that an update with the data of a request leaves. The value that a merge keeps is looked up under the
    keys of the request, but written to the path that is rendered for them. -/
def createUpdateClause (mergeObjects : Bool) (trainingRunDataJson data : JsonObject) : JsonObject :=
  let settings := getMembersPathsAndValues mergeObjects [] (some (.object data)) trainingRunDataJson
  match settings.foldl (fun document setting => jsonbSet document (jsonPathKeys setting.1) setting.2) (.object data) with
  | .object members => stripMembers members
  | _ => data

end Zigopt.TrainingRuns
