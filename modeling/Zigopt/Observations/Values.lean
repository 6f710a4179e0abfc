/-
Module: Zigopt.Observations.Values
Layer: Observations
Purpose: How the `values` and `failed` of a request change what an observation stores, as
  `observation/data.py` does.
Main exports: getFormattedValues, createObservationData, updateObservationData
-/
import Zigopt.Handlers.ValidateDict
import Zigopt.Observations.Data

namespace Zigopt.Observations

open Raising

def valueFromJson (json : JsonObject) (default : Option ℚ) : Except ValidationError (Option ℚ) :=
  if json.hasKey "value" then
    getOptWithValidation json "value" .number
  else
    pure default

def valueVarFromJson (json : JsonObject) (default : Option ℚ) : Except ValidationError (Option ℚ) :=
  if json.hasKey "value_stddev" then do
    let valueStddev ← getOptWithValidation json "value_stddev" .number
    pure (valueStddev.map fun deviation => deviation * deviation)
  else if json.hasKey "value_var" then
    getOptWithValidation json "value_var" .number
  else
    pure default

/-- `v.get("name")`, which the schema has checked to be a string or null. -/
def valueName (json : JsonObject) : Option String :=
  ValidationType.string.read (json.get "name")

/-- `compact_sequence` drops null and empty names. -/
def nonEmptyNames (names : List (Option String)) : List (Option String) :=
  names.filter fun name => name ≠ none && name ≠ some ""

def validateMetricNames (values : List JsonObject) (experiment : MetricsExperiment) :
    Except ValidationError Unit := do
  let names := values.map valueName
  let repeated := (names.find? fun name => names.count name ≥ 2).join.getD "None"
  raiseIf (¬names.Nodup) (.invalidKey "name" (some s!"Duplicate name: {repeated}"))
  raiseIf (names.length ≥ 2 ∧ names.length > (nonEmptyNames names).length)
    (.invalidKey "A name must be specified for all values." none)
  let experimentMetrics := experiment.allMetrics.map (·.name)
  raiseIf (experimentMetrics = [] ∧ nonEmptyNames names ≠ []) (.sigoptValidation
    ("value names should match experiment metric names. " ++
      "Names should not be specified for unnamed metrics."))
  -- one unnamed value is accepted for one metric, whether or not the metric has a name
  if names.length = 1 ∧ (nonEmptyNames names).length = 0 ∧ experimentMetrics.eraseDups.length ≤ 1 then
    pure ()
  else
    raiseIf (∃ metric ∈ experimentMetrics, some metric ∉ names) (.sigoptValidation
      s!"values must have metric names defined in experiment: {experimentMetrics}")

/-- One round of the loop: what the request leaves out is taken from the old value of that name. -/
def formattedValue (oldValues : List ObservationValue) (json : JsonObject) :
    Except ValidationError ObservationValue := do
  let name ← getOptWithValidation json "name" .string
  let oldValue := oldValues.reverse.find? fun old => old.name = name.getD ""
  let shown := name.getD "None"
  raiseIf (oldValues ≠ [] ∧ oldValue = none) (.sigoptValidation s!"Invalid metric name {shown}")
  let value ← valueFromJson json (oldValue.bind (·.value))
  let valueVar ← valueVarFromJson json (oldValue.bind (·.valueVar))
  match value with
  | some number => pure { name := name.getD "", value := some number, valueVar := valueVar }
  | none => .error (.sigoptValidation
      (match name with
      | none | some "" => "A value should be specified for all entries in the 'values' list."
      | some metric => s!"Missing value for: {metric}"))

/-- `get_formatted_values`: as many values as metrics, each name known, then one formatted value for each. -/
def getFormattedValues (values : List JsonObject) (experiment : MetricsExperiment)
    (oldValues : List ObservationValue) : Except ValidationError (List ObservationValue) := do
  raiseIf (experiment.allMetrics.length ≠ values.length) (.sigoptValidation
    (if experiment.hasUserDefinedMetric then
      "The number of observation values and experiment metrics must be equal."
    else
      "Experiments without a defined `metrics` do not support multiple values."))
  validateMetricNames values experiment
  values.mapM (formattedValue oldValues)

/-- `create_observation_data`: the values that come with a failure are dropped. -/
def createObservationData (data : ObservationData) (values : Option (List JsonObject))
    (experiment : MetricsExperiment) (failed : Option Bool) : Except ValidationError ObservationData :=
  match failed, values with
  | some true, _ => pure { data with reportedFailure := true }
  | _, none => pure { data with reportedFailure := false }
  | _, some given => do
      let formatted ← getFormattedValues given experiment []
      pure { data with reportedFailure := false, values := data.values ++ formatted }

/-- The value without its number. -/
def ObservationValue.clear (value : ObservationValue) : ObservationValue :=
  { value with value := none, valueVar := none }

/-- `update_observation_data`: a report of a failure clears the stored values, but keeps their names. -/
def updateObservationData (data : ObservationData) (values : Option (List JsonObject))
    (experiment : MetricsExperiment) (failed : Option Bool) : Except ValidationError ObservationData :=
  match failed, values with
  | some true, _ => pure { data with reportedFailure := true, values := data.values.map (·.clear) }
  | _, none => pure { data with reportedFailure := false }
  | _, some given => do
      let formatted ← getFormattedValues given experiment data.values
      pure { data with reportedFailure := false, values := formatted }

end Zigopt.Observations
