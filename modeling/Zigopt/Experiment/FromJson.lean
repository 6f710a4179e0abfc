/-
Module: Zigopt.Experiment.FromJson
Layer: Experiment
Purpose: Reading the parameters and conditionals of a request body, as `parameters/from_json.py` and
  `conditionals/from_json.py` do. A setter of the source that fills in one field is here the function
  that computes the field, and the assignment of it. The numbers of a request are compared as they are, and
  stored as doubles.
Main exports: setExperimentParameterFromJson, setExperimentParameterListFromJson,
  setExperimentConditionalsListFromJson
-/
import Mathlib.Data.List.Sort
import Zigopt.Experiment.Meta
import Zigopt.Experiment.Names
import Zigopt.Lib.Binary64

namespace Zigopt.Experiment

open Raising

/-- `GridError`. -/
def gridError (parameter : ExperimentParameter) (msg : String) : ValidationError :=
  .sigoptValidation (s!"`grid` provided for parameter {parameter.name} is invalid. " ++ msg)

def parameterTypeNamed : String → Option ExperimentParameterType
  | "double" => some .double
  | "int" => some .int
  | "categorical" => some .categorical
  | _ => none

def transformationNamed : String → Option Transformation
  | "none" => some .none
  | "log" => some .log
  | _ => none

def nameFromJson (json : JsonObject) : Except ValidationError String := do
  validateParameterName (← getWithValidation json "name" .string)

def setParameterTypeFromJson (parameter : ExperimentParameter) (json : JsonObject) :
    Except ValidationError ExperimentParameter := do
  let paramTypeString ← getWithValidation json "type" .string
  match parameterTypeNamed paramTypeString with
  | some paramType => pure { parameter with paramType := paramType }
  | none => .error (.invalidValue
      s!"Invalid param_type: {paramTypeString} must be one of ['double', 'int', 'categorical']")

def transformationFromJson (parameter : ExperimentParameter) (json : JsonObject) :
    Except ValidationError Transformation := do
  raiseIf (parameter.paramType ≠ .double ∧ json.isPresent "transformation")
    (.sigoptValidation "Transformation is only valid for parameters of type `double`")
  match ← getOptWithValidation json "transformation" .string with
  | none | some "" => pure parameter.transformation
  | some name =>
      match transformationNamed name with
      | some transformation => pure transformation
      | none => .error (.invalidValue
          s!"Invalid parameter transformation: {name} must be one of ['none', 'log']")

def setTransformationFromJson (parameter : ExperimentParameter) (json : JsonObject) :
    Except ValidationError ExperimentParameter := do
  pure { parameter with transformation := ← transformationFromJson parameter json }

/-- `1e-8`. -/
def minimumDomainEdgeLength : ℚ := Binary64.round (1 / 100000000)

/-- Bounds as they are stored. -/
def storedBounds (minimum maximum : ℚ) : Bounds := ⟨Binary64.round minimum, Binary64.round maximum⟩

/-- The bounds given for a numerical parameter, either by its grid or as `bounds`. -/
def givenBounds (parameter : ExperimentParameter) (json : JsonObject) (gridValues : List ℚ) :
    Except ValidationError Bounds := do
  let boundsJson ← getOptWithValidation json "bounds" .object
  match gridValues.min?, gridValues.max?, boundsJson.getD [] with
  | some minimum, some maximum, _ => pure (storedBounds minimum maximum)
  | _, _, [] => .error (.invalidKey "bounds" (some s!"Parameter {parameter.name} must have `bounds`"))
  | _, _, members =>
      let validationType : ValidationType ℚ := if parameter.isInteger then .integer else .number
      let minimum ← getWithValidation members "min" validationType
      let maximum ← getWithValidation members "max" validationType
      pure (storedBounds minimum maximum)

def checkBounds (parameter : ExperimentParameter) (bounds : Bounds) : Except ValidationError Unit := do
  raiseIf (bounds.maximum < bounds.minimum)
    (.sigoptValidation "Invalid bounds: max must be greater than min")
  raiseIf (Binary64.round (bounds.maximum - bounds.minimum) < minimumDomainEdgeLength)
    (.sigoptValidation
      s!"Invalid bounds: {bounds.minimum} {bounds.maximum} does not exceed min length: 1e-08")
  raiseIf (parameter.transformation = .log ∧ bounds.minimum ≤ 0)
    (.sigoptValidation "Invalid bounds for log-transformation: bounds must be positive")

def boundsFromJson (parameter : ExperimentParameter) (json : JsonObject) :
    Except ValidationError Bounds := do
  let gridValues ← getOptWithValidation json "grid" (.arrayOf .number)
  raiseIf (gridValues.getD [] ≠ [] ∧ json.isPresent "bounds")
    (.invalidKey ("Parameters with grid cannot have bounds on parameters. They are inferred from the " ++
      "supplied grid.") none)
  match parameter.paramType with
  | .categorical =>
      raiseIf (json.isPresent "bounds")
        (.invalidKey "bounds" (some s!"Categorical parameter {parameter.name} cannot have `bounds`"))
      pure parameter.bounds
  | .int | .double =>
      let bounds ← givenBounds parameter json (gridValues.getD [])
      checkBounds parameter bounds
      pure bounds

def setBoundsFromJson (parameter : ExperimentParameter) (json : JsonObject) :
    Except ValidationError ExperimentParameter := do
  pure { parameter with bounds := ← boundsFromJson parameter json }

def checkPrior (parameter : ExperimentParameter) (json : JsonObject) : Except ValidationError Unit := do
  raiseIf (parameter.paramType ≠ .double)
    (.invalidKey "Currently only continuous parameters can have `prior`" none)
  raiseIf (parameter.transformation = .log)
    (.invalidKey "Currently, parameters with a log transformation cannot have priors" none)
  raiseIf (json.isPresent "grid") (gridError parameter "Grid parameters cannot have priors.")

def normalPriorFromJson (parameter : ExperimentParameter) (priorJson : JsonObject) :
    Except ValidationError Prior := do
  let mean := Binary64.round (← getWithValidation priorJson "mean" .number)
  raiseIf (mean > parameter.bounds.maximum ∨ mean < parameter.bounds.minimum)
    (.invalidValue "`mean` must be within the bounds of the parameter.")
  let scale := Binary64.round (← getWithValidation priorJson "scale" .number)
  raiseIf (scale ≤ 0) (.invalidValue "`scale` must be positive.")
  pure (.normal mean scale)

def betaPriorFromJson (priorJson : JsonObject) : Except ValidationError Prior := do
  let shapeA := Binary64.round (← getWithValidation priorJson "shape_a" .number)
  let shapeB := Binary64.round (← getWithValidation priorJson "shape_b" .number)
  raiseIf (shapeA ≤ 0 ∨ shapeB ≤ 0) (.invalidValue "shape parameters for beta must be positive.")
  pure (.beta shapeA shapeB)

def givenPrior (parameter : ExperimentParameter) (json : JsonObject) : Except ValidationError Prior := do
  checkPrior parameter json
  let priorJson ← getWithValidation json "prior" .object
  match ← getWithValidation priorJson "name" .string with
  | "normal" => normalPriorFromJson parameter priorJson
  | "beta" => betaPriorFromJson priorJson
  | priorName => .error (.invalidValue
      s!"Invalid prior type: {priorName} must be one of ['normal', 'beta'].")

def setPriorFromJson (parameter : ExperimentParameter) (json : JsonObject) :
    Except ValidationError ExperimentParameter :=
  if json.isPresent "prior" then do
    pure { parameter with prior := some (← givenPrior parameter json) }
  else
    pure parameter

/-- The array of categorical values of a request: each is an object or just a name. -/
def categoricalValuesType : ValidationType (List (JsonObject ⊕ String)) :=
  .arrayOf (.oneOf .object .string)

/-- The name a request gives to a categorical value, before validation. -/
def categoricalValueRawName : JsonObject ⊕ String → Except ValidationError String
  | .inl members => getWithValidation members "name" .string
  | .inr name => pure name

def checkNotDeleted (name : String) : JsonObject ⊕ String → Except ValidationError Unit
  | .inl members => do
      let deleted ← getOptWithValidation members "deleted" .boolean
      raiseIf (deleted = some true)
        (.sigoptValidation s!"Categorical value {name} cannot be deleted at creation time.")
  | .inr _ => pure ()

def setCategoricalValueFromJson (valueJson : JsonObject ⊕ String) (enumIndex : Nat) :
    Except ValidationError ExperimentCategoricalValue := do
  let rawName ← categoricalValueRawName valueJson
  checkNotDeleted rawName valueJson
  let name ← validateCategoricalValue rawName
  pure { name := name, enumIndex := enumIndex }

/-- One round of the loop over the values; the names seen are those of the values so far, and enumerate
    counts from 1. -/
def addCategoricalValue (values : List ExperimentCategoricalValue) (valueJson : JsonObject ⊕ String) :
    Except ValidationError (List ExperimentCategoricalValue) := do
  let value ← setCategoricalValueFromJson valueJson (values.length + 1)
  raiseIf (value.name ∈ values.map (·.name))
    (.invalidValue s!"Duplicate categorical value name: {value.name}")
  pure (values ++ [value])

def givenCategoricalValues (parameter : ExperimentParameter) (json : JsonObject) :
    Except ValidationError (List ExperimentCategoricalValue) := do
  let valuesJson ← getWithValidation json "categorical_values" categoricalValuesType
  let values ← valuesJson.foldlM addCategoricalValue parameter.allCategoricalValues
  raiseIf (values = []) (.sigoptValidation
    s!"No categorical values provided for categorical parameter {parameter.name}")
  raiseIf (values.length = 1) (.missingParam "parameter.name"
    s!"Categorical parameter {parameter.name} should have at least 2 categorical values.")
  pure values

def categoricalValuesFromJson (parameter : ExperimentParameter) (json : JsonObject) :
    Except ValidationError (List ExperimentCategoricalValue) :=
  match parameter.paramType with
  | .categorical => givenCategoricalValues parameter json
  | .int | .double => do
      raiseIf (json.isPresent "categorical_values") (.invalidKey "categorical_values"
        (some s!"Numerical parameter {parameter.name} cannot have `categorical_values`"))
      pure parameter.allCategoricalValues

def setCategoricalValuesFromJson (parameter : ExperimentParameter) (json : JsonObject) :
    Except ValidationError ExperimentParameter := do
  pure { parameter with allCategoricalValues := ← categoricalValuesFromJson parameter json }

/-- The grid of a parameter by its type, numbers sorted. -/
def gridOfType (parameter : ExperimentParameter) (json : JsonObject) : Except ValidationError (List ℚ) :=
  match parameter.paramType with
  | .categorical => pure (parameter.allCategoricalValues.map fun value => (value.enumIndex : ℚ))
  | .double => do
      let grid ← getWithValidation json "grid" (.arrayOf .number)
      pure (grid.insertionSort (· ≤ ·))
  | .int => do
      let grid ← getWithValidation json "grid" (.arrayOf .integer)
      pure (grid.insertionSort (· ≤ ·))

/-- The checks are of the numbers of the request; two of them may be stored as one double. -/
def gridFromJson (parameter : ExperimentParameter) (json : JsonObject) :
    Except ValidationError (List ℚ) := do
  let given ← getOptWithValidation json "grid" (.arrayOf .assignment)
  raiseIf (parameter.paramType = .categorical ∧ given.getD [] ≠ []) (gridError parameter
    "Categorical parameters cannot have a grid specified. `categorical_values` will be used as a grid.")
  raiseIf (parameter.paramType ≠ .categorical ∧ given.getD [] = [])
    (gridError parameter "Cannot be an empty list.")
  let grid ← gridOfType parameter json
  raiseIf (¬grid.Nodup) (gridError parameter "Cannot have duplicate values in grid.")
  raiseIf (grid.length < 2) (gridError parameter "Must have 2 or more values in grid")
  raiseIf (parameter.paramType ≠ .categorical ∧ parameter.transformation = .log ∧ ∃ value ∈ grid, value ≤ 0)
    (gridError parameter "Values must be greater than zero when transformation log is specified")
  pure (grid.map Binary64.round)

def setGridValuesFromJson (parameter : ExperimentParameter) (json : JsonObject) :
    Except ValidationError ExperimentParameter := do
  pure { parameter with gridValues := ← gridFromJson parameter json }

/-- `assignment in param.grid_values`: a string is equal to no number. -/
def Assignment.inGrid (gridValues : List ℚ) : Assignment → Bool
  | .text _ => false
  | .number value => value ∈ gridValues

def getCategoricalAssignment (parameter : ExperimentParameter) :
    Assignment → Except ValidationError ℚ
  | .number _ => .error (.invalidType ValidationType.string.name (some parameter.name))
  | .text name =>
      match parameter.categoricalValueNamed name with
      | none => .error (.invalidValue s!"Invalid value for categorical parameter {parameter.name}: {name}")
      | some value => do
          raiseIf (value.deleted = true) (.sigoptValidation
            s!"Cannot report deleted categorical value {name} for parameter {parameter.name}")
          pure value.enumIndex

def getNumericalAssignment (parameter : ExperimentParameter) : Assignment → Except ValidationError ℚ
  | .text _ => .error (.invalidType
      (if parameter.isInteger then ValidationType.integer.name else ValidationType.number.name)
      (some parameter.name))
  | .number value => do
      raiseIf (parameter.isInteger = true ∧ value.den ≠ 1)
        (.invalidType ValidationType.integer.name (some parameter.name))
      pure value

/-- `get_assignment` of a value that is not None. -/
def getAssignment (parameter : ExperimentParameter) (assignment : Assignment) :
    Except ValidationError ℚ := do
  raiseIf (parameter.isGrid = true ∧ Assignment.inGrid parameter.gridValues assignment = false)
    (.invalidValue (s!"Invalid value for grid parameter {parameter.name}: {assignment.toText}." ++
      s!" Valid values for this parameter are: {parameter.gridValues}"))
  if parameter.isCategorical then
    getCategoricalAssignment parameter assignment
  else
    getNumericalAssignment parameter assignment

def givenDefaultValue (parameter : ExperimentParameter) (defaultValue : Assignment) :
    Except ValidationError ℚ := do
  let value := Binary64.round (← getAssignment parameter defaultValue)
  raiseIf (parameter.transformation = .log ∧ value ≤ 0) (.sigoptValidation
    "Invalid default_value for log-transformation: default_value must be positive")
  pure value

def defaultValueFromJson (parameter : ExperimentParameter) (json : JsonObject) :
    Except ValidationError (Option ℚ) := do
  match ← getOptWithValidation json "default_value" .assignment with
  | none => pure parameter.replacementValueIfMissing
  | some defaultValue => pure (some (← givenDefaultValue parameter defaultValue))

def setDefaultValueFromJson (parameter : ExperimentParameter) (json : JsonObject) :
    Except ValidationError ExperimentParameter := do
  pure { parameter with replacementValueIfMissing := ← defaultValueFromJson parameter json }

/-- The enum index of a value that a condition names. -/
def conditionValueIndex (parameterName : String) (conditional : ExperimentConditional) (valueJson : String) :
    Except ValidationError ℚ :=
  match conditional.values.find? fun value => value.name = valueJson with
  | some value => pure value.enumIndex
  | none => .error (.sigoptValidation
      s!"Conditional {conditional.name} on parameter {parameterName} attempted to use non-existent value {valueJson}")

def conditionFromJson (parameterName : String) (conditionals : List ExperimentConditional)
    (member : String × (List String ⊕ String)) : Except ValidationError ParameterCondition := do
  let valuesJson := member.2.elim id fun value => if value = "" then [] else [value]
  match conditionals.reverse.find? fun conditional => conditional.name = member.1 with
  | none => .error (.sigoptValidation
      s!"Parameter {parameterName} attempted to use non-existent conditional {member.1}")
  | some conditional => do
      raiseIf (valuesJson = []) (.sigoptValidation
        s!"When providing condition for {member.1} on parameter {parameterName}, must provide at least one value")
      pure { name := member.1, values := ← valuesJson.mapM (conditionValueIndex parameterName conditional) }

def conditionsFromJson (parameter : ExperimentParameter) (json : JsonObject)
    (conditionals : List ExperimentConditional) : Except ValidationError (List ParameterCondition) := do
  let conditionsJson ← getOptWithValidation json "conditions" (.objectOf (.oneOf (.arrayOf .string) .string))
  let conditions ← (conditionsJson.getD []).mapM (conditionFromJson parameter.name conditionals)
  pure (parameter.conditions ++ conditions)

def setParameterConditionsFromJson (parameter : ExperimentParameter) (json : JsonObject)
    (conditionals : List ExperimentConditional) : Except ValidationError ExperimentParameter := do
  pure { parameter with conditions := ← conditionsFromJson parameter json conditionals }

/-- The grid is read if the request mentions one, or always in a grid experiment. -/
def maybeSetGridValues (parameter : ExperimentParameter) (json : JsonObject) (always : Bool) :
    Except ValidationError ExperimentParameter :=
  if json.hasKey "grid" || always then
    setGridValuesFromJson parameter json
  else
    pure parameter

/-- `set_experiment_parameter_from_json`, in the source's order of the fields. -/
def setExperimentParameterFromJson (json : JsonObject) (experimentType : ExperimentType)
    (conditionals : List ExperimentConditional) : Except ValidationError ExperimentParameter := do
  let name ← nameFromJson json
  let parameter ← setParameterTypeFromJson { name := name } json
  let parameter ← setTransformationFromJson parameter json
  let parameter ← setBoundsFromJson parameter json
  let parameter ← setPriorFromJson parameter json
  let parameter ← setCategoricalValuesFromJson parameter json
  let parameter ← maybeSetGridValues parameter json (experimentType = .grid)
  let parameter ← setDefaultValueFromJson parameter json
  setParameterConditionsFromJson parameter json conditionals

/-- One round of the loop over the parameters; the names seen are those of the parameters so far. -/
def addExperimentParameter (experimentType : ExperimentType) (conditionals : List ExperimentConditional)
    (parameters : List ExperimentParameter) (json : JsonObject) :
    Except ValidationError (List ExperimentParameter) := do
  let parameter ← setExperimentParameterFromJson json experimentType conditionals
  raiseIf (parameter.name ∈ parameters.map (·.name))
    (.invalidValue s!"Duplicate parameter name: {parameter.name}")
  raiseIf (parameter.name ∈ conditionals.map (·.name))
    (.invalidValue s!"Cannot have parameter and conditional both named {parameter.name}")
  pure (parameters ++ [parameter])

/-- `set_experiment_parameter_list_from_json`: at least one parameter, each added to those before it. -/
def setExperimentParameterListFromJson (experimentType : ExperimentType)
    (conditionals : List ExperimentConditional) (experimentJson : JsonObject)
    (userFacingClassName : String) : Except ValidationError (List ExperimentParameter) := do
  let parametersJson ← getOptWithValidation experimentJson "parameters" (.arrayOf .object)
  raiseIf (parametersJson.getD [] = [])
    (.invalidValue s!"{userFacingClassName}s must have at least one parameter.")
  (parametersJson.getD []).foldlM (addExperimentParameter experimentType conditionals) []

def addConditionalValue (conditionalName : String) (values : List ExperimentConditionalValue)
    (valueJson : String) : Except ValidationError (List ExperimentConditionalValue) := do
  let name ← validateConditionalValue valueJson
  raiseIf (name ∈ values.map (·.name)) (.invalidValue
    s!"Duplicate conditional value {name} for conditional named {conditionalName}")
  pure (values ++ [{ name := name, enumIndex := values.length + 1 }])

def setConditionalFromJson (conditionalJson : JsonObject) :
    Except ValidationError ExperimentConditional := do
  let name ← nameFromJson conditionalJson
  let valuesJson ← getWithValidation conditionalJson "values" (.arrayOf .string)
  let values ← valuesJson.foldlM (addConditionalValue name) []
  raiseIf (values = []) (.missingParam name s!"No values provided for conditional {name}")
  raiseIf (values.length < 2) (.missingParam name s!"Conditional {name} must have at least 2 values")
  pure { name := name, values := values }

def addConditional (conditionals : List ExperimentConditional) (conditionalJson : JsonObject) :
    Except ValidationError (List ExperimentConditional) := do
  let conditional ← setConditionalFromJson conditionalJson
  raiseIf (conditional.name ∈ conditionals.map (·.name))
    (.invalidKey conditional.name (some s!"Duplicate conditional name {conditional.name}"))
  pure (conditionals ++ [conditional])

/-- `set_experiment_conditionals_list_from_json`; an experiment needs no conditionals. -/
def setExperimentConditionalsListFromJson (experimentJson : JsonObject) :
    Except ValidationError (List ExperimentConditional) := do
  let conditionalsJson ← getOptWithValidation experimentJson "conditionals" (.arrayOf .object)
  (conditionalsJson.getD []).foldlM addConditional []

end Zigopt.Experiment
