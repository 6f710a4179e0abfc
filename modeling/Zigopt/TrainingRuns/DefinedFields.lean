/-
Module: Zigopt.TrainingRuns.DefinedFields
Layer: Model
Purpose: The fields that the training runs of a query define, each with the number of runs that store it: the
  counting queries, the keys that are glued together from their answers, and the names that are shown.
Main exports: FieldDetails, trainingRunApiFields, StoredRun, extractInfo, sanitizeDefinedFields, readableName,
  getDefinedFields
-/
import Zigopt.Lib.DottedText
import Zigopt.Lib.Protobuf
import Zigopt.TrainingRuns.Data

namespace Zigopt.TrainingRuns

open DottedText

inductive FieldApiType where
  | id
  | timestamp
  | numeric
  | string
  | object
  | unknown
  | boolean
  deriving DecidableEq, Repr

/-- `PROTOBUF_FIELD_TYPE_TO_FIELD_API_TYPE.get(subfield.type, FieldApiType.unknown)`. -/
def protobufFieldApiType : Protobuf.Kind → FieldApiType
  | .scalar .double _ => .numeric
  | .scalar .string _ => .string
  | _ => .unknown

structure DefinedField where
  apiType : FieldApiType
  fieldCount : ℕ
  key : String
  name : String
  sortable : Bool
  deriving DecidableEq, Repr

/-! ### The fields that can be asked for -/

/-- The columns of `training_runs` that have a field of their own. -/
inductive PrimitiveColumn where
  | id
  | experimentId
  | suggestionId
  | observationId
  | createdBy
  | created
  | updated
  | completed
  | deleted
  deriving DecidableEq, Repr

/-- How a field is stored: in a column, or under a JSON name of the data column. -/
inductive FieldType where
  | primitive (column : PrimitiveColumn)
  | protobufPrimitive (jsonName : String)
  | protobufStruct (jsonName : String)
  | protobufObject (jsonName : String) (subFields : List Protobuf.Field)
  | protobufMapOfObject (jsonName : String) (subFields : List Protobuf.Field)
  deriving DecidableEq, Repr

/-- What the API tells of a field of training runs besides the number of runs that have it. -/
structure FieldDetails where
  apiName : String
  type : FieldType
  apiType : FieldApiType
  readableName : Option String := none
  sortable : Bool := false
  deriving DecidableEq, Repr

def subFieldNamed (subFields : List Protobuf.Field) (jsonName : String) : Option Protobuf.Field :=
  subFields.find? fun subField => decide (subField.jsonName = jsonName)

def textField (name jsonName : String) : Protobuf.Field :=
  { name := name, jsonName := jsonName, label := .singular, kind := .scalar .string none }

def doubleField (name jsonName : String) : Protobuf.Field :=
  { name := name, jsonName := jsonName, label := .singular, kind := .scalar .double none }

/-- `TRAINING_RUN_API_FIELDS`. -/
def trainingRunApiFields : List FieldDetails :=
  [{ apiName := "id", type := .primitive .id, apiType := .id, sortable := true, readableName := some "ID" },
   { apiName := "experiment", type := .primitive .experimentId, apiType := .id, sortable := true,
     readableName := some "Experiment" },
   { apiName := "suggestion", type := .primitive .suggestionId, apiType := .id, sortable := true,
     readableName := some "Suggestion" },
   { apiName := "observation", type := .primitive .observationId, apiType := .id, sortable := true,
     readableName := some "Observation" },
   { apiName := "user", type := .primitive .createdBy, apiType := .id, sortable := true,
     readableName := some "Created By" },
   { apiName := "created", type := .primitive .created, apiType := .timestamp, sortable := true,
     readableName := some "Created" },
   { apiName := "updated", type := .primitive .updated, apiType := .timestamp, sortable := true,
     readableName := some "Updated" },
   { apiName := "completed", type := .primitive .completed, apiType := .timestamp, sortable := true,
     readableName := some "Completed" },
   { apiName := "deleted", type := .primitive .deleted, apiType := .boolean, sortable := true,
     readableName := some "Archived" },
   { apiName := "name", type := .protobufPrimitive "n", apiType := .string, sortable := true,
     readableName := some "Name" },
   { apiName := "favorite", type := .protobufPrimitive "f", apiType := .boolean, sortable := true,
     readableName := some "Favorite" },
   { apiName := "assignments", type := .protobufStruct "a", apiType := .object, sortable := true },
   { apiName := "metadata", type := .protobufStruct "m", apiType := .object, sortable := true },
   { apiName := "source_code", type := .protobufObject "c" [textField "content" "c", textField "hash" "g"],
     apiType := .object, sortable := true },
   { apiName := "model", type := .protobufObject "o" [textField "type" "t"], apiType := .object, sortable := true },
   { apiName := "datasets", type := .protobufMapOfObject "d" [], apiType := .object, sortable := true },
   { apiName := "logs", type := .protobufMapOfObject "l" [textField "content" "c"], apiType := .object,
     sortable := true },
   { apiName := "values", type := .protobufMapOfObject "v" [doubleField "value" "v", doubleField "value_var" "r"],
     apiType := .object, sortable := true }]

/-! ### The rows -/

/-- A missing value, or an object with these values under distinct keys. -/
def IsObjectOf (Fits : Json → Prop) : Option Json → Prop
  | none => True
  | some (.object members) => (members.map Prod.fst).Nodup ∧ ∀ member ∈ members, Fits member.2
  | some _ => False

/-- What the data column holds for the field: a message is an object, and a map of messages one of objects. -/
def FieldType.Fits (data : JsonObject) : FieldType → Prop
  | .protobufStruct jsonName => IsObjectOf (fun _ => True) (data.lookup jsonName)
  | .protobufMapOfObject jsonName _ =>
      IsObjectOf (fun value => IsObjectOf (fun _ => True) (some value)) (data.lookup jsonName)
  | _ => True

/-- A row of `training_runs`, whose data has been written through its protobuf column. -/
structure StoredRun extends TrainingRun where
  createdBy : Option ℕ := none
  created : ℤ
  fits : ∀ field ∈ trainingRunApiFields, field.type.Fits trainingRunData

structure ClientRow where
  id : ℕ
  organizationId : ℕ
  deriving DecidableEq, Repr

def PrimitiveColumn.isNotNull (run : StoredRun) : PrimitiveColumn → Bool
  | .id => true
  | .experimentId => run.experimentId.isSome
  | .suggestionId => run.suggestionId.isSome
  | .observationId => run.observationId.isSome
  | .createdBy => run.createdBy.isSome
  | .created => true
  | .updated => true
  | .completed => run.completed.isSome
  | .deleted => true

/-! ### The counting queries -/

inductive FieldsError where
  | multipleResultsFound
  | notAnObject
  | keyError
  | indexError
  | assertion
  deriving DecidableEq, Repr

/-- `document -> key`, which is null where there is no such member. -/
def jsonItem (document : Option Json) (key : String) : Option Json :=
  match document with
  | some (.object members) => members.lookup key
  | _ => none

/-- `jsonb_each`, which has no rows for null. -/
def jsonbEach : Option Json → Except FieldsError JsonObject
  | none => .ok []
  | some (.object members) => .ok members
  | some _ => .error .notAnObject

def jsonbObjectKeys : Json → Except FieldsError (List String)
  | .object members => .ok (members.map Prod.fst)
  | _ => .error .notAnObject

/-- The tuples that count a field; the parts that a tuple is too short for are missing. -/
structure FieldKeys where
  apiName : String
  secondary : Option String := none
  tertiary : Option String := none
  deriving DecidableEq, Repr

/-- What is counted of a field in one query, with whether a run has a value for it. -/
def selectablesOf (field : FieldDetails) : List (FieldKeys × (StoredRun → Bool)) :=
  match field.type with
  | .primitive column => [({ apiName := field.apiName }, fun run => column.isNotNull run)]
  | .protobufPrimitive jsonName =>
      [({ apiName := field.apiName }, fun run => (run.trainingRunData.lookup jsonName).isSome)]
  | .protobufObject jsonName subFields =>
      subFields.map fun subField =>
        ({ apiName := field.apiName, secondary := some subField.jsonName },
          fun run => (jsonItem (run.trainingRunData.lookup jsonName) subField.jsonName).isSome)
  | _ => []

def oneOrNone {α : Type} : List α → Except FieldsError (Option α)
  | [] => .ok none
  | [row] => .ok (some row)
  | _ => .error .multipleResultsFound

/-- `GROUP BY` of the client, or of the organization of the joined client. -/
def groupsOf (clients : List ClientRow) (byOrganization : Bool) (runs : List StoredRun) : List (List StoredRun) :=
  if byOrganization then
    let joined := runs.flatMap fun run =>
      (clients.filter fun client => client.id = run.clientId).map fun client => (client.organizationId, run)
    (Rows.groupBy Prod.fst joined).map fun group => group.2.map Prod.snd
  else
    (Rows.groupBy (fun run => run.clientId) runs).map Prod.snd

/-- `_count_primitive_fields`. -/
def countPrimitiveFields (fields : List FieldDetails) (clients : List ClientRow) (byOrganization : Bool)
    (runs : List StoredRun) : Except FieldsError (List (FieldKeys × ℕ)) := do
  let selectables := fields.flatMap selectablesOf
  if selectables.isEmpty then
    return []
  let counts ← oneOrNone ((groupsOf clients byOrganization runs).map fun group =>
    selectables.map fun selectable => group.countP selectable.2)
  return (selectables.map Prod.fst).zip (counts.getD (List.replicate selectables.length 0))

/-- The rows of the lateral join of one run: the keys of the field, and for a map of objects the keys of each. -/
def userDefinedRows (type : FieldType) (run : StoredRun) : Except FieldsError (List (String × Option String)) :=
  match type with
  | .protobufStruct jsonName => do
      let members ← jsonbEach (run.trainingRunData.lookup jsonName)
      return members.map fun member => (member.1, none)
  | .protobufMapOfObject jsonName _ => do
      let members ← jsonbEach (run.trainingRunData.lookup jsonName)
      let rows ← members.mapM fun member => do
        let keys ← jsonbObjectKeys member.2
        return keys.map fun key => (member.1, some key)
      return rows.flatten
  | _ => .ok []

/-- `_get_user_defined_field_counts`. -/
def getUserDefinedFieldCounts (field : FieldDetails) (runs : List StoredRun) :
    Except FieldsError (List (FieldKeys × ℕ)) := do
  let rows ← runs.mapM (userDefinedRows field.type)
  return (Rows.groupBy (fun row => row) rows.flatten).map fun group =>
    ({ apiName := field.apiName, secondary := some group.1.1, tertiary := group.1.2 }, group.2.length)

def FieldType.isUserDefined : FieldType → Bool
  | .protobufStruct _ => true
  | .protobufMapOfObject _ _ => true
  | _ => false

/-- `_count_user_defined_fields`. -/
def countUserDefinedFields (fields : List FieldDetails) (runs : List StoredRun) :
    Except FieldsError (List (FieldKeys × ℕ)) := do
  let counts ← (fields.filter fun field => field.type.isUserDefined).mapM fun field =>
    getUserDefinedFieldCounts field runs
  return counts.flatten

/-! ### Keys and names -/

/-- `remove_nones_sequence(field_keys)`. -/
def FieldKeys.parts (keys : FieldKeys) : List String :=
  keys.apiName :: (keys.secondary.toList ++ keys.tertiary.toList)

/-- The field with the keys glued together; it goes by the key if it has no name. -/
def definedFieldOf (details : FieldDetails) (apiType : FieldApiType) (keys : FieldKeys) (name : Option String)
    (count : ℕ) : DefinedField :=
  let key := joinDots keys.parts
  { apiType := apiType
    fieldCount := count
    key := key
    name := if name.getD "" = "" then key else name.getD ""
    sortable := details.sortable }

/-- One step of `extract_info`; a sub-field that the message does not have is left out. -/
def extractField (fields : List FieldDetails) (counted : FieldKeys × ℕ) :
    Except FieldsError (Option DefinedField) :=
  match fields.reverse.find? fun field => decide (field.apiName = counted.1.apiName) with
  | none => .error .keyError
  | some details =>
      match details.type with
      | .protobufObject _ subFields =>
          .ok ((counted.1.secondary.bind (subFieldNamed subFields)).map fun subField =>
            definedFieldOf details (protobufFieldApiType subField.kind)
              { apiName := counted.1.apiName, secondary := some subField.name } none counted.2)
      | .protobufMapOfObject _ subFields =>
          .ok ((counted.1.tertiary.bind (subFieldNamed subFields)).map fun subField =>
            definedFieldOf details (protobufFieldApiType subField.kind)
              { counted.1 with tertiary := some subField.name } none counted.2)
      | .protobufStruct _ => .ok (some (definedFieldOf details .unknown counted.1 counted.1.tertiary counted.2))
      | _ => .ok (some (definedFieldOf details details.apiType counted.1 details.readableName counted.2))

/-- `extract_info`: the primitive fields and the fields of the users, each with its count. -/
def extractInfo (fields : List FieldDetails) (clients : List ClientRow) (byOrganization : Bool)
    (runs : List StoredRun) : Except FieldsError (List DefinedField) := do
  let primitive ← countPrimitiveFields fields clients byOrganization runs
  let userDefined ← countUserDefinedFields fields runs
  let extracted ← (primitive ++ userDefined).mapM (extractField fields)
  return extracted.reduceOption

def customFields (idCount : ℕ) : List DefinedField :=
  [{ apiType := .string, fieldCount := idCount, key := "state", name := "State", sortable := true },
   { apiType := .numeric, fieldCount := idCount, key := "checkpoint_count", name := "Checkpoint Count",
     sortable := false },
   { apiType := .boolean, fieldCount := idCount, key := "optimized_suggestion", name := "Optimized Suggestion",
     sortable := true }]

def insertCustomFields (fields : List DefinedField) : Except FieldsError (List DefinedField) :=
  match fields.find? fun field => decide (field.key = "id") with
  | none => .error .assertion
  | some idField => .ok (fields ++ customFields idField.fieldCount)

/-- The text of a sanitized key, if the key is one of those that change. -/
def sanitizedKey (key : String) : Option String :=
  let nameParts := splitDots key
  if nameParts[0]? = some "values" ∧ nameParts[2]? = some "value_var" then
    some (joinDots (nameParts.set 2 "value_stddev"))
  else
    none

/-- `_sanitize_defined_fields`. -/
def sanitizeDefinedFields (fields : List DefinedField) : List DefinedField :=
  fields.map fun field =>
    match sanitizedKey field.key with
    | some text => { field with key := text, name := text }
    | none => field

/-- `parts[index]`. -/
def partAt (parts : List String) (index : ℕ) : Except FieldsError String :=
  match parts[index]? with
  | some part => .ok part
  | none => .error .indexError

def knownReadableNames : List (String × String) :=
  [("logs.stdout.content", "Output Logs"),
   ("logs.stderr.content", "Error Logs"),
   ("source_code.hash", "Source Hash"),
   ("source_code.content", "Source Code"),
   ("model.type", "Model Type")]

/-- `_readable_name`. -/
def readableName (field : DefinedField) : Except FieldsError String :=
  if IsUndotted field.name then
    .ok field.name
  else
    match knownReadableNames.lookup field.name with
    | some readable => .ok readable
    | none =>
        let nameParts := splitDots field.name
        match nameParts[0]? with
        | some "datasets" => do
            let datasetName ← partAt nameParts 1
            match nameParts[2]? with
            | some "type" => return datasetName ++ " Type"
            | some "version" => return datasetName ++ " Version"
            | _ => return field.name
        | some "assignments" => partAt nameParts 1
        | some "metadata" => partAt nameParts 1
        | some "values" => do
            let valueName ← partAt nameParts 1
            let shown ← partAt nameParts 2
            return if shown = "value_stddev" then valueName ++ " Std. Dev" else valueName
        | _ => .ok field.name

/-- `_insert_readable_names`: only if no two fields would have the same name. -/
def insertReadableNames (fields : List DefinedField) : Except FieldsError (List DefinedField) := do
  let names ← fields.mapM readableName
  let readableNames := names.eraseDups
  if readableNames.length = fields.length then
    return fields.zipWith (fun field readable => { field with name := readable }) readableNames
  else
    return fields

/-- `get_defined_fields`: what was extracted, the custom fields, and the readable names. -/
def getDefinedFields (clients : List ClientRow) (byOrganization : Bool) (runs : List StoredRun) :
    Except FieldsError (List DefinedField) := do
  let fields ← extractInfo trainingRunApiFields clients byOrganization runs
  let withCustom ← insertCustomFields fields
  insertReadableNames (sanitizeDefinedFields withCustom)

end Zigopt.TrainingRuns
