/-
Module: Zigopt.Experiment.Update
Layer: Experiment
Purpose: Creating an experiment and updating it, as far as its parameters go. An update matches every
  requested parameter with a stored one by the name in the request, and the values of a categorical
  parameter in the same way; what the request does not mention is marked as deleted.
Main exports: OtherSections, createExperiment, updateExperiment, updateParameters, updateParam
-/
import Zigopt.Experiment.FromJson
import Zigopt.Lib.Registry

namespace Zigopt.Experiment

open Raising

/-- The sections of a request that leave names, values and conditionals alone: the JSON schemas, the
    constraints, which only read the parameters, everything else that can refuse a request (metrics,
    budget, solutions, tasks, metadata, project, state), and `verify_experiment_acceptability`. -/
structure OtherSections where
  validateJsonParamsForCreate : JsonObject → Except ValidationError Unit
  validateJsonParamsForUpdate : JsonObject → Except ValidationError Unit
  getConstraintsFromJson :
    JsonObject → List ExperimentParameter → Except ValidationError (List ExperimentConstraint)
  readOnCreate : JsonObject → ExperimentMeta → Except ValidationError Unit
  readOnUpdate : JsonObject → ExperimentMeta → Except ValidationError Unit
  verifyExperimentAcceptability : ExperimentMeta → Except ValidationError Unit

def experimentTypeNamed : Option String → Except ValidationError ExperimentType
  | none => pure .offline
  | some "grid" => pure .grid
  | some "offline" => pure .offline
  | some "random" => pure .random
  | some name => .error (.invalidValue s!"Invalid experiment type: {name}")

/-- `observation_budget_from_experiment_meta`, over deleted parameters too, as far as they have a grid. -/
def observationBudgetFromExperimentMeta (parameters : List ExperimentParameter) : Nat :=
  ((parameters.filter fun parameter => parameter.isGrid).map
    fun parameter => parameter.gridValues.length).foldl (· * ·) 1

/-- `_check_and_set_grid_experiment_budget`, as far as the request gives no budget. The field is an `int32`. -/
def gridExperimentBudget (conditionals : List ExperimentConditional) (parameters : List ExperimentParameter) :
    Except ValidationError (Option Nat) := do
  raiseIf (conditionals.length > 0)
    (.sigoptValidation "Grid search experiments do not support conditional parameters currently.")
  let budget := observationBudgetFromExperimentMeta parameters
  raiseIf (budget ≥ 2 ^ 31) (.valueError s!"Value out of range: {budget}")
  pure (some budget)

/-- The budget that the type of an experiment determines. -/
def budgetOfType (experimentType : ExperimentType) (conditionals : List ExperimentConditional)
    (parameters : List ExperimentParameter) : Except ValidationError (Option Nat) :=
  if experimentType = .grid then gridExperimentBudget conditionals parameters else pure none

def makeExperimentMetaFromJson (sections : OtherSections) (json : JsonObject)
    (userFacingClassName : String) : Except ValidationError ExperimentMeta := do
  let experimentType ← experimentTypeNamed (← getOptWithValidation json "type" .string)
  let conditionals ← setExperimentConditionalsListFromJson json
  let parameters ← setExperimentParameterListFromJson experimentType conditionals json userFacingClassName
  let constraints ← sections.getConstraintsFromJson json parameters
  let observationBudget ← budgetOfType experimentType conditionals parameters
  let experiment : ExperimentMeta :=
    { experimentType := experimentType, allParametersUnsorted := parameters, conditionals := conditionals,
      constraints := constraints, observationBudget := observationBudget }
  sections.readOnCreate json experiment
  pure experiment

/-- The create handler: keys of the request, the experiment's own sections, then the check of the whole. -/
def createExperiment (sections : OtherSections) (userFacingClassName : String) (json : JsonObject) :
    Except ValidationError ExperimentMeta := do
  sections.validateJsonParamsForCreate json
  let experiment ← makeExperimentMetaFromJson sections json userFacingClassName
  sections.verifyExperimentAcceptability experiment
  pure experiment

/-- `_maybe_set_parameter_type`. -/
def checkParameterType (parameter : ExperimentParameter) (json : JsonObject) : Except ValidationError Unit :=
  if json.hasKey "type" then do
    let requested ← setParameterTypeFromJson parameter json
    raiseIf (requested.paramType ≠ parameter.paramType) (.sigoptValidation
      s!"`type` attribute on parameter {parameter.name} must remain {parameter.paramType.text}")
  else
    pure ()

def maybeSetParameterBounds (parameter : ExperimentParameter) (json : JsonObject) :
    Except ValidationError ExperimentParameter :=
  if json.hasKey "bounds" || json.hasKey "grid" then
    setBoundsFromJson parameter json
  else
    pure parameter

/-- The loop over the requested values has a round for each of them: the values so far, the next enum
    index, and the names seen. -/
structure CategoricalLoop where
  values : List ExperimentCategoricalValue
  enumIndex : Nat
  seenNames : List String := []

/-- One round. The values are looked up in the map of the stored ones, by the name in the request. -/
def CategoricalLoop.next (parameterName : String) (storedNames : List String) (loop : CategoricalLoop)
    (valueJson : JsonObject ⊕ String) : Except ValidationError CategoricalLoop := do
  let rawName ← categoricalValueRawName valueJson
  match Registry.lastIndexOf rawName storedNames with
  | some position => do
      raiseIf (rawName ∈ loop.seenNames) (.invalidValue
        s!"Duplicate categorical value {rawName} for parameter {parameterName}")
      pure { loop with
        values := loop.values.modify position fun value => { value with deleted := false }
        seenNames := rawName :: loop.seenNames }
  | none => do
      let value ← setCategoricalValueFromJson valueJson loop.enumIndex
      raiseIf (value.name ∈ loop.seenNames) (.invalidValue
        s!"Duplicate categorical value {value.name} for parameter {parameterName}")
      pure {
        values := loop.values ++ [value]
        enumIndex := loop.enumIndex + 1
        seenNames := value.name :: loop.seenNames }

/-- One more than the largest enum index of the stored values, or 1 if there are none. -/
def nextEnumIndex (values : List ExperimentCategoricalValue) : Nat :=
  match (values.map (·.enumIndex)).max? with
  | some largest => largest + 1
  | none => 1

/-- `_maybe_set_parameter_categorical_values`, for values that are given. -/
def updateCategoricalValues (parameter : ExperimentParameter) (valuesJson : List (JsonObject ⊕ String)) :
    Except ValidationError (List ExperimentCategoricalValue) := do
  let loop ← valuesJson.foldlM (CategoricalLoop.next parameter.name parameter.valueNames)
    { values := parameter.allCategoricalValues, enumIndex := nextEnumIndex parameter.allCategoricalValues }
  let values := loop.values.map fun value =>
    if value.name ∈ loop.seenNames then value else { value with deleted := true }
  raiseIf ((values.filter fun value => !value.deleted).length < 2) (.invalidValue
    s!"Parameters {parameter.name} must have 2 or more active (not deleted) categorical values")
  pure values

def categoricalValuesForUpdate (parameter : ExperimentParameter) (json : JsonObject) :
    Except ValidationError (List ExperimentCategoricalValue) := do
  match ← getOptWithValidation json "categorical_values" categoricalValuesType with
  | none => pure parameter.allCategoricalValues
  | some valuesJson => updateCategoricalValues parameter valuesJson

def maybeSetParameterCategoricalValues (parameter : ExperimentParameter) (json : JsonObject) :
    Except ValidationError ExperimentParameter := do
  pure { parameter with allCategoricalValues := ← categoricalValuesForUpdate parameter json }

def maybeSetParameterDefaultValue (parameter : ExperimentParameter) (json : JsonObject) :
    Except ValidationError ExperimentParameter :=
  if json.hasKey "default_value" then
    setDefaultValueFromJson parameter json
  else
    pure parameter

def maybeSetParameterPrior (parameter : ExperimentParameter) (json : JsonObject) :
    Except ValidationError ExperimentParameter :=
  if json.hasKey "prior" then
    if json.isPresent "prior" then
      setPriorFromJson parameter json
    else
      pure { parameter with prior := none }
  else
    pure parameter

/-- `_maybe_set_parameter_transformation`; `update_param` makes the same check twice. -/
def checkParameterTransformation (parameter : ExperimentParameter) (json : JsonObject) :
    Except ValidationError Unit :=
  if json.hasKey "transformation" then do
    let requested ← transformationFromJson parameter json
    raiseIf (requested ≠ parameter.transformation) (.sigoptValidation
      s!"`transformation` attribute on parameter {parameter.name} must remain {parameter.transformation.text}")
  else
    pure ()

/-- `update_param`: the type may be sent, but not changed. -/
def updateParam (parameter : ExperimentParameter) (json : JsonObject) :
    Except ValidationError ExperimentParameter := do
  raiseIf (json.hasKey "conditions" = true)
    (.sigoptValidation "Conditions cannot be updated for parameters")
  checkParameterType parameter json
  let parameter ← maybeSetParameterBounds parameter json
  let parameter ← maybeSetGridValues parameter json false
  let parameter ← maybeSetParameterCategoricalValues parameter json
  let parameter ← maybeSetParameterDefaultValue parameter json
  let parameter ← maybeSetParameterPrior parameter json
  checkParameterTransformation parameter json
  checkParameterTransformation parameter json
  pure { parameter with deleted := false }

/-- The message for a default value that is no valid assignment. -/
def invalidDefaultValue (parameter : ExperimentParameter) : ValidationError :=
  .sigoptValidation (s!"`default_value` for parameter {parameter.name} is invalid - must be " ++
    (if parameter.isCategorical then "a valid categorical value."
    else if parameter.isGrid then "a valid grid value."
    else s!"between {parameter.bounds.minimum} and {parameter.bounds.maximum}"))

def validateDefaultValue (parameter : ExperimentParameter) (isNew : Bool) : Except ValidationError Unit :=
  match parameter.replacementValueIfMissing with
  | none => raiseIf (isNew = true) (.sigoptValidation ("New parameters must have default values." ++
      " Please add a default_value field to the new parameter(s)." ++
      " Or if you are using the web dashboard fill out the Default Value field."))
  | some defaultValue => raiseIf (parameter.validAssignment defaultValue = false)
      (invalidDefaultValue parameter)

/-- The loop over the requested parameters: the parameters so far, and the names seen. -/
structure ParameterLoop where
  parameters : List ExperimentParameter
  seenNames : List String := []

/-- What a requested parameter makes of a stored one. -/
def revisedParameter (parameter : ExperimentParameter) (json : JsonObject) :
    Except ValidationError ExperimentParameter := do
  let revised ← updateParam parameter json
  validateDefaultValue revised parameter.deleted
  pure revised

/-- What a requested parameter is if no stored one has its name. -/
def newParameter (json : JsonObject) (experimentType : ExperimentType)
    (conditionals : List ExperimentConditional) : Except ValidationError ExperimentParameter := do
  let parameter ← setExperimentParameterFromJson json experimentType conditionals
  validateDefaultValue parameter true
  pure parameter

/-- One round. The parameter is looked up in the map of the stored ones, by the name in the request. -/
def ParameterLoop.next (experiment : ExperimentMeta) (loop : ParameterLoop) (json : JsonObject) :
    Except ValidationError ParameterLoop := do
  let rawName ← getWithValidation json "name" .string
  let parameters ← (match Registry.lastIndexOf rawName experiment.parameterNames with
    | some position => do
        let revised ← revisedParameter (loop.parameters.getD position {}) json
        pure (loop.parameters.set position revised)
    | none => do
        let parameter ← newParameter json experiment.experimentType experiment.conditionals
        pure (loop.parameters ++ [parameter]))
  raiseIf (rawName ∈ loop.seenNames) (.invalidValue s!"Duplicate parameter name: {rawName}")
  pure { parameters := parameters, seenNames := rawName :: loop.seenNames }

/-- `update_parameters`: a parameter that the request does not name is deleted. -/
def updateParameters (experiment : ExperimentMeta) (parametersJson : List JsonObject) :
    Except ValidationError (List ExperimentParameter) := do
  let loop ← parametersJson.foldlM (ParameterLoop.next experiment)
    { parameters := experiment.allParametersUnsorted }
  pure (loop.parameters.map fun parameter =>
    if parameter.name ∈ loop.seenNames then parameter else { parameter with deleted := true })

/-- The name that a request gives to a parameter, before validation. -/
def rawName? (json : JsonObject) : Option String :=
  ValidationType.string.read (json.get "name")

/-- The names of a request as `name_counts` counts them. -/
def countedNames (parametersJson : List JsonObject) : List String :=
  parametersJson.filterMap rawName?

/-- `_maybe_set_parameters`. -/
def maybeSetParameters (experiment : ExperimentMeta) (json : JsonObject) :
    Except ValidationError (List ExperimentParameter) :=
  if json.hasKey "parameters" then do
    raiseIf (experiment.experimentType = .grid)
      (.sigoptValidation "Parameters cannot be updated for experiments of type `grid`.")
    raiseIf (experiment.constraints ≠ [])
      (.sigoptValidation "Parameters cannot be updated for experiments with constraints")
    let parametersJson ← getWithValidation json "parameters" (.arrayOf .object)
    raiseIf (parametersJson = []) (.sigoptValidation "Experiments must have at least one parameter.")
    let nameCounts := countedNames parametersJson
    let duplicates := (nameCounts.filter fun name => nameCounts.count name > 1).eraseDups
    raiseIf (duplicates.length > 0) (.invalidValue s!"Duplicate parameter names: {duplicates}")
    updateParameters experiment parametersJson
  else
    pure experiment.allParametersUnsorted

def checkUnsupportedUpdates (json : JsonObject) : Except ValidationError Unit := do
  raiseIf (json.hasKey "constraints" = true)
    (.sigoptValidation "Constraints cannot be updated for an experiment")
  raiseIf (json.hasKey "num_solutions" = true)
    (.sigoptValidation "Number of solutions cannot be updated for an experiment")
  raiseIf (json.hasKey "conditionals" = true)
    (.sigoptValidation "Conditionals cannot be updated for an experiment")
  raiseIf (json.hasKey "tasks" = true)
    (.sigoptValidation "The tasks of a multitask experiment cannot be updated after creation")

/-- The update handler: the parameters, what the other sections read, then the check of the whole. -/
def updateExperiment (sections : OtherSections) (experiment : ExperimentMeta) (json : JsonObject) :
    Except ValidationError ExperimentMeta := do
  sections.validateJsonParamsForUpdate json
  checkUnsupportedUpdates json
  let parameters ← maybeSetParameters experiment json
  let updated := { experiment with allParametersUnsorted := parameters }
  sections.readOnUpdate json updated
  sections.verifyExperimentAcceptability updated
  pure updated

end Zigopt.Experiment
