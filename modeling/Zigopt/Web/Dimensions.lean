/-
Module: Zigopt.Web.Dimensions
Layer: Web
Purpose: The dimensions that the plots of a dashboard use (`pages/project/data/dimensions.js`): one for each defined
  field, filled from the runs, with a type that is guessed in several passes over the runs.
Main exports: Field, Dimension, createDimensionsFromRuns
-/
import Zigopt.TrainingRuns.DefinedFields
import Zigopt.Web.Values

namespace Zigopt.Web

open TrainingRuns DottedText

/-! ### Fields and dimensions -/

/-- A defined field. The key is glued together from the names on the way to the value, which may have dots themselves. -/
structure Field where
  parts : List String
  name : String
  type : FieldApiType
deriving DecidableEq, Repr

/-- The key of a field in the web client's table. -/
def Field.key (field : Field) : String := joinDots field.parts

inductive DimensionGroupType where
  | parameter
  | metric
  | metadata
  | other
deriving DecidableEq, Repr

/-- `DIMENSION_VALUE_TYPES`, and the types that are assumed until all values have been seen. -/
inductive DimensionValueType where
  | categorical
  | string
  | id
  | numeric
  | boolean
  | timestamp
  | assumedNumeric
  | assumedCategorical
deriving DecidableEq, Repr

/-- A dimension of the plots, with one value for each run. -/
structure Dimension where
  displayName : String
  label : String
  key : String
  valueType : DimensionValueType
  groupType : DimensionGroupType
  values : List Value := []
  count : ℕ := 0
  categoricalValues : Option (List Value) := none
  tickvals : Option (List ℕ) := none
  ticktext : Option (List String) := none
  plotlyValues : Option (List ℤ) := none
deriving DecidableEq, Repr

def createEmptyDimension (key displayName : String) (valueType : DimensionValueType) : Dimension :=
  let dimGroupTest := (splitDots key).headD ""
  { displayName := displayName
    label := displayName
    key := key
    valueType := valueType
    groupType :=
      if dimGroupTest = "assignments" then .parameter
      else if dimGroupTest = "values" then .metric
      else if dimGroupTest = "metadata" then .metadata
      else .other }

/-- `DIMENSION_VALUE_TYPES[field.type.toUpperCase()]`; `OBJECT` and `UNKNOWN` are not in it. -/
def dimensionValueType : FieldApiType → Option DimensionValueType
  | .id => some .id
  | .timestamp => some .timestamp
  | .numeric => some .numeric
  | .string => some .string
  | .boolean => some .boolean
  | .object => none
  | .unknown => none

def getValueTypeFromField (field : Field) : DimensionValueType :=
  if field.key = "experiment" then
    .assumedCategorical
  else
    match dimensionValueType field.type with
    | none => .assumedNumeric
    | some .string => .assumedCategorical
    | some valueType => valueType

def createEmptyDimensionsFromDefinedFields (definedFields : List Field) : List Dimension :=
  definedFields.map fun field => createEmptyDimension field.key field.name (getValueTypeFromField field)

/-! ### The passes -/

section Passes

-- what is found in a run under a key
variable (get : Value → String → Value)

def fillDimension (dimension : Dimension) (run : Value) : Dimension :=
  let value := get run dimension.key
  { dimension with
    count := dimension.count + if value.isDefinedAndNotNull then 1 else 0
    values := dimension.values ++ [value] }

/-- The rounds of two nested loops, of which the inner one goes through the dimensions. -/
def eachRun (change : Dimension → Value → Dimension) (dimensions : List Dimension) (runs : List Value) :
    List Dimension :=
  runs.foldl (fun dimensions run => dimensions.map fun dimension => change dimension run) dimensions

def fillDimensions (emptyDimensions : List Dimension) (runs : List Value) : List Dimension :=
  eachRun (fillDimension get) emptyDimensions runs

/-- The loop over the dimensions of one type; these come first afterwards. -/
def changeType (valueType : DimensionValueType) (change : List Dimension → List Dimension)
    (dimensions : List Dimension) : List Dimension :=
  change (dimensions.filter fun dimension => dimension.valueType = valueType) ++
    dimensions.filter fun dimension => !decide (dimension.valueType = valueType)

def noteNumber (dimension : Dimension) (run : Value) : Dimension :=
  let value := get run dimension.key
  if value.isNumber = false ∧ value.isDefinedAndNotNull = true then
    { dimension with valueType := .assumedCategorical, categoricalValues := some [] }
  else
    dimension

def handleAssumedNumeric (dimensions : List Dimension) (runs : List Value) : List Dimension :=
  changeType .assumedNumeric (fun assumed => eachRun (noteNumber get) assumed runs) dimensions

def maxCategoricalValues : ℕ := 20

def noteCategory (dimension : Dimension) (run : Value) : Dimension :=
  let value := get run dimension.key
  let noted :=
    match dimension.valueType, dimension.categoricalValues with
    | .assumedCategorical, some values =>
        if value ∈ values then dimension else { dimension with categoricalValues := some (values ++ [value]) }
    | _, _ => dimension
  if (noted.categoricalValues.getD []).length > maxCategoricalValues then
    { noted with valueType := .string, categoricalValues := none }
  else
    noted

def handleAssumedCategorical (dimensions : List Dimension) (runs : List Value) : List Dimension :=
  changeType .assumedCategorical
    (fun assumed => eachRun (noteCategory get)
      (assumed.map fun dimension => { dimension with categoricalValues := some [] }) runs)
    dimensions

end Passes

def makeDimensionTypeConcrete (dimension : Dimension) : Dimension :=
  { dimension with
    valueType :=
      match dimension.valueType with
      | .assumedNumeric => .numeric
      | .assumedCategorical => .categorical
      | valueType => valueType }

/-- Nulls, then texts in descending order, then what JavaScript can make a number of; booleans and null are such. -/
def sortDimCategoricalValues (realm : Realm) (values : List Value) : List Value :=
  let numbers := values.filter fun value => (realm.toNumber value).isSome
  let rest := values.filter fun value => !(realm.toNumber value).isSome
  let strings := rest.filter Value.isDefinedAndNotNull
  let nulls := rest.filter fun value => !value.isDefinedAndNotNull
  let sortedNumbers := numbers.mergeSort fun first second =>
    (realm.toNumber first).getD 0 ≤ (realm.toNumber second).getD 0
  let sortedStrings := (strings.mergeSort fun first second =>
    utf16 (realm.toText first) ≤ utf16 (realm.toText second)).reverse
  nulls ++ sortedStrings ++ sortedNumbers

/-- `array.indexOf(value)`. -/
def indexOf (values : List Value) (value : Value) : ℤ :=
  match values.findIdx? fun other => other = value with
  | some position => position
  | none => -1

inductive JsError where
  | typeError
deriving DecidableEq, Repr

/-- The ticks of a categorical dimension. It must have categories, or reading their number throws. -/
def fillTickVal (realm : Realm) (dimension : Dimension) : Except JsError Dimension :=
  match dimension.categoricalValues with
  | none => .error .typeError
  | some categoricalValues =>
      let dimValues := sortDimCategoricalValues realm categoricalValues
      .ok { dimension with
        tickvals := some (List.range categoricalValues.length)
        ticktext := some (dimValues.map realm.toText)
        plotlyValues := some (dimension.values.map (indexOf dimValues)) }

def fillTickVals (realm : Realm) (dimensions : List Dimension) : Except JsError (List Dimension) := do
  let categorical ← (dimensions.filter fun dimension => dimension.valueType = .categorical).mapM (fillTickVal realm)
  pure (categorical ++ dimensions.filter fun dimension => !decide (dimension.valueType = .categorical))

def removedColumnsKeys : List String :=
  ["favorite", "logs.stdout.content", "logs.stderr.content", "source_code.content"]

def filterOutUnplottableDimensions (dimensions : List Dimension) : List Dimension :=
  dimensions.filter fun dimension => dimension.key ∉ removedColumnsKeys && dimension.count > 0

/-! ### The result -/

/-- `idIndexMap`: of two runs with one id the later one stays. -/
def idIndexMapOf (ids : List String) : String → Option ℕ :=
  ids.zipIdx.foldl (fun map entry => Function.update map entry.1 (some entry.2)) fun _ => none

/-- `_.invert(idIndexMap)`. -/
def indexIdMapOf (ids : List String) : ℕ → Option String := fun index =>
  ids.find? fun id => idIndexMapOf ids id = some index

structure RunDimensions where
  dimensions : String → Option Dimension
  idIndexMap : String → Option ℕ
  indexIdMap : ℕ → Option String

/-- The id of a run as it is used as the name of a property. -/
def runId (realm : Realm) (run : Value) : String :=
  realm.toText ((realm.property run "id").getD .undefined)

/-- `createDimensionsFromRuns`, in the order of the source's passes. -/
def createDimensionsFromRuns (realm : Realm) (castPath : String → List String) (definedFields : List Field)
    (runs : List Value) : Except JsError RunDimensions := do
  let get := realm.lodashGet castPath
  let emptyDimensions := createEmptyDimensionsFromDefinedFields definedFields
  let filledDimensions := fillDimensions get emptyDimensions runs
  let validDimensions := filterOutUnplottableDimensions filledDimensions
  let dimensionsWithAssumedNumericRemoved := handleAssumedNumeric get validDimensions runs
  let dimensionsWithCorrectAssumedTypes := handleAssumedCategorical get dimensionsWithAssumedNumericRemoved runs
  let dimensionsWithCorrectTypes := dimensionsWithCorrectAssumedTypes.map makeDimensionTypeConcrete
  let dimensionsWithTickVals ← fillTickVals realm dimensionsWithCorrectTypes
  let ids := runs.map (runId realm)
  pure {
    -- `_.indexBy`: of two dimensions with one key the later one stays
    dimensions := fun key => dimensionsWithTickVals.reverse.find? fun dimension => dimension.key = key
    idIndexMap := idIndexMapOf ids
    indexIdMap := indexIdMapOf ids }

end Zigopt.Web
