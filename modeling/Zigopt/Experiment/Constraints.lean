/-
Module: Zigopt.Experiment.Constraints
Layer: Experiment
Purpose: Linear constraints as a create request sends them, and the two encodings of what is stored: one function over
  all parameters for the optimizer, and one matrix of halfspaces over the constrained ones.
Main exports: getConstraintsFromJson, parseExperimentConstraintsToFuncList, parseConstraintsToHalfspaces,
  hasFeasibleConstraints, constrainedSections
-/
import Zigopt.Assignments.Validate
import Zigopt.Experiment.Conditionals
import Zigopt.Lib.LinearForm

namespace Zigopt.Experiment

open Raising Assignments

/-! ### The schema -/

/-- A name of the schema `opt_name`. -/
def isOptName : Json → Bool
  | .null => true
  | .string name => 1 ≤ name.length && name.length ≤ 100
  | _ => false

def isNumberJson : Json → Bool
  | .number _ => true
  | _ => false

/-- An object that a schema accepts. -/
def isObjectJson (accepts : JsonObject → Bool) : Json → Bool
  | .object members => accepts members
  | _ => false

/-- `additionalProperties: False`. -/
def hasOnly (keys : List String) (object : JsonObject) : Bool :=
  object.all fun member => decide (member.1 ∈ keys)

/-- `definitions/term` of `experiment_create_schema`. -/
def isTerm (term : JsonObject) : Bool :=
  term.hasKey "name" && isOptName (term.get "name") && isNumberJson (term.get "weight") &&
    hasOnly ["name", "weight"] term

def isConstraintType : Json → Bool
  | .string type => type ∈ ["greater_than", "less_than"]
  | _ => false

def isArrayJson (accepts : Json → Bool) : Json → Bool
  | .array items => items.all accepts
  | _ => false

/-- `definitions/constraints/linear_ineq`. -/
def isLinearIneq (constraint : JsonObject) : Bool :=
  isConstraintType (constraint.get "type") && isArrayJson (isObjectJson isTerm) (constraint.get "terms") &&
    isNumberJson (constraint.get "threshold") && hasOnly ["type", "terms", "threshold"] constraint

/-- The part of the schema that is about constraints; the error is that of `libsigopt`. -/
def checkConstraintsSchema (json : JsonObject) : Except ValidationError Unit :=
  match json.get "linear_constraints" with
  | .null => pure ()
  | .array constraints =>
      raiseIf (constraints.all (isObjectJson isLinearIneq) = false) (.invalidKey "linear_constraints" none)
  | _ => .error (.invalidKey "linear_constraints" none)

/-! ### Reading constraints -/

/-- The lists of names that `_extract_parameter_info` fills. -/
structure ParameterInfo where
  parameterNames : List String
  gridParamNames : List String
  doubleParamsNames : List String
  integerParamsNames : List String
  unconditionedParamsNames : List String
  logTransformParamsNames : List String
  deriving DecidableEq, Repr

def isNumerical (parameter : ExperimentParameter) : Bool :=
  parameter.paramType = .double || parameter.paramType = .int

def namesWhere (property : ExperimentParameter → Bool) (parameters : List ExperimentParameter) : List String :=
  (parameters.filter property).map (·.name)

/-- `_extract_parameter_info` of all parameters. -/
def extractParameterInfo (parameters : List ExperimentParameter) : ParameterInfo where
  parameterNames := parameters.map (·.name)
  gridParamNames := namesWhere (fun parameter => parameter.gridValues ≠ []) parameters
  doubleParamsNames := namesWhere (fun parameter => parameter.paramType = .double) parameters
  integerParamsNames := namesWhere (fun parameter => parameter.paramType = .int) parameters
  unconditionedParamsNames := namesWhere (fun parameter => isNumerical parameter && parameter.conditions = []) parameters
  logTransformParamsNames :=
    namesWhere (fun parameter => isNumerical parameter && parameter.transformation = .log) parameters

/-- `validate_variable_name`. -/
def validateVariableName : Option String → Except ValidationError String
  | none => .error (.invalidValue "Invalid name: cannot be null")
  | some name => validateNameLength .variable name

/-- The loop over the terms of a constraint: the terms so far with their names, and the integer parameters of all
    constraints so far. -/
structure TermLoop where
  termList : List Term := []
  constraintVarSet : List String := []
  constrainedIntegerVariables : List String
  deriving DecidableEq, Repr

/-- `set.add`. -/
def addToSet (names : List String) (name : String) : List String :=
  if name ∈ names then names else names ++ [name]

/-- The checks of the name of a term, in order. -/
def checkTermName (maxNumIntConstraintVariables : ℕ) (info : ParameterInfo) (constrainedIntegerVariables : List String)
    (constraintVarSet : List String) (name : String) : Except ValidationError Unit := do
  raiseIf (constrainedIntegerVariables.length > maxNumIntConstraintVariables) (.invalidValue
    s!"SigOpt allows no more than {maxNumIntConstraintVariables} integer constraint variables")
  raiseIf (name ∉ info.parameterNames) (.invalidValue s!"Variable {name} is not a known parameter")
  raiseIf (name ∉ info.doubleParamsNames ∧ name ∉ info.integerParamsNames)
    (.invalidValue s!"Variable {name} is not a parameter of type `double` or type `int`")
  raiseIf (name ∉ info.unconditionedParamsNames)
    (.invalidValue s!"Constraint cannot be defined on a conditioned parameter {name}")
  raiseIf (name ∈ info.logTransformParamsNames)
    (.invalidValue s!"Constraint cannot be defined on a log-transformed parameter {name}")
  raiseIf (name ∈ info.gridParamNames)
    (.invalidValue s!"Constraint cannot be defined on a grid parameter {name}")
  raiseIf (name ∈ constraintVarSet) (.invalidValue s!"Duplicate variable name: {name}")

/-- `_add_constraint_term`: a term of weight 0 is left out before its name is looked at. -/
def addConstraintTerm (maxNumIntConstraintVariables : ℕ) (info : ParameterInfo) (loop : TermLoop)
    (term : JsonObject) : Except ValidationError TermLoop := do
  let coeff ← getOptWithValidation term "weight" .number
  if coeff = some 0 then
    pure loop
  else do
    let name ← validateVariableName (← getOptWithValidation term "name" .string)
    let constrainedIntegerVariables :=
      if name ∈ info.integerParamsNames then addToSet loop.constrainedIntegerVariables name
      else loop.constrainedIntegerVariables
    checkTermName maxNumIntConstraintVariables info constrainedIntegerVariables loop.constraintVarSet name
    pure { termList := loop.termList ++ [{ name := name, coeff := coeff.getD 0 }]
           constraintVarSet := addToSet loop.constraintVarSet name
           constrainedIntegerVariables := constrainedIntegerVariables }

/-- `term["name"] in double_params_names`: the name as the request has it. -/
def isDoubleTerm (info : ParameterInfo) (term : JsonObject) : Bool :=
  match term.get "name" with
  | .string rawName => rawName ∈ info.doubleParamsNames
  | _ => false

/-- One round of `get_constraints_from_json`; the schema has required the terms. -/
def addConstraint (maxNumIntConstraintVariables : ℕ) (info : ParameterInfo)
    (state : List ExperimentConstraint × List String) (json : JsonObject) :
    Except ValidationError (List ExperimentConstraint × List String) := do
  let constraintType ← getOptWithValidation json "type" .string
  let terms ← getOptWithValidation json "terms" (.arrayOf .object)
  let rhs ← getOptWithValidation json "threshold" .number
  raiseIf ((terms.getD []).length < 1) (.invalidValue "Constraint must have at least one term")
  raiseIf (((terms.getD []).map (isDoubleTerm info)).dedup.length > 1)
    (.invalidValue "Constraint functions cannot mix integers and doubles. One or the other only.")
  let loop ← (terms.getD []).foldlM (addConstraintTerm maxNumIntConstraintVariables info)
    { constrainedIntegerVariables := state.2 }
  pure (state.1 ++ [{ type := constraintType.getD "", terms := loop.termList, rhs := rhs.getD 0 }],
    loop.constrainedIntegerVariables)

/-- `get_constraints_from_json`: the constraints in the order of the request. -/
def getConstraintsFromJson (maxNumIntConstraintVariables : ℕ) (json : JsonObject)
    (parameters : List ExperimentParameter) : Except ValidationError (List ExperimentConstraint) := do
  let constraints ← getOptWithValidation json "linear_constraints" (.arrayOf .object)
  let state ← (constraints.getD []).foldlM
    (addConstraint maxNumIntConstraintVariables (extractParameterInfo parameters)) ([], [])
  pure state.1

/-! ### The encodings -/

inductive ConstraintError where
  | valueError (msg : String)
  | assertion
  deriving DecidableEq, Repr

/-- `nonzero_coef_map.get(name)`. -/
def coefficientOf (terms : List Term) (name : String) : Option ℚ :=
  (terms.reverse.find? fun term => decide (term.name = name)).map (·.coeff)

/-- The sign that turns a `less_than` constraint around. -/
def signOf (constraint : ExperimentConstraint) : Except ConstraintError ℚ :=
  if constraint.type = "less_than" then .ok (-1)
  else if constraint.type = "greater_than" then .ok 1
  else .error .assertion

structure ConstraintFunction where
  weights : List ℚ
  rhs : ℚ
  varType : Option ExperimentParameterType
  deriving DecidableEq, Repr

/-- The type of the last parameter that the terms name. -/
def varTypeOf (terms : List Term) (parameters : List ExperimentParameter) :
    Except ConstraintError (Option ExperimentParameterType) :=
  parameters.foldlM
    (fun varType parameter =>
      if (coefficientOf terms parameter.name).isSome then
        match parameter.paramType with
        | .categorical => .error (.valueError "Constraint must have \"var_type\" set to either \"int\" or \"double\"")
        | .double => .ok (some .double)
        | .int => .ok (some .int)
      else
        .ok varType)
    none

def constraintFunction (parameters : List ExperimentParameter) (constraint : ExperimentConstraint) :
    Except ConstraintError ConstraintFunction := do
  let varType ← varTypeOf constraint.terms parameters
  let sign ← signOf constraint
  let constraintVec := parameters.map fun parameter => (coefficientOf constraint.terms parameter.name).getD 0
  pure { weights := constraintVec.map (sign * ·), rhs := sign * constraint.rhs, varType := varType }

/-- `parse_experiment_constraints_to_func_list`: one function for each constraint. -/
def parseExperimentConstraintsToFuncList (experiment : ExperimentMeta) :
    Except ConstraintError (List ConstraintFunction) :=
  experiment.constraints.mapM (constraintFunction (allParameters experiment))

/-- A row of the matrix: its columns but the last one, and the last one. -/
structure Halfspace where
  weights : List ℚ
  offset : ℚ
  deriving DecidableEq, Repr

def constrainedParameterNames (constraints : List ExperimentConstraint) : List String :=
  constraints.flatMap fun constraint => constraint.terms.map (·.name)

def constrainedParameters (constraints : List ExperimentConstraint) (parameters : List ExperimentParameter) :
    List ExperimentParameter :=
  parameters.filter fun parameter => parameter.name ∈ constrainedParameterNames constraints

def constraintHalfspace (constrained : List ExperimentParameter) (constraint : ExperimentConstraint) :
    Except ConstraintError Halfspace := do
  let sign ← signOf constraint
  pure { weights := constrained.map fun parameter => -sign * (coefficientOf constraint.terms parameter.name).getD 0
         offset := sign * constraint.rhs }

/-- The rows `imin` and `imax` of a column. -/
def boundsHalfspaces (dim index : ℕ) (parameter : ExperimentParameter) : List Halfspace :=
  [{ weights := (List.replicate dim 0).set index (-1), offset := parameter.bounds.minimum },
   { weights := (List.replicate dim 0).set index 1, offset := -parameter.bounds.maximum }]

/-- `parse_constraints_to_halfspaces`: a row for each constraint, then two for the bounds of each constrained
    parameter. -/
def parseConstraintsToHalfspaces (constraints : List ExperimentConstraint) (parameters : List ExperimentParameter) :
    Except ConstraintError (List Halfspace) := do
  let constrained := constrainedParameters constraints parameters
  let rows ← constraints.mapM (constraintHalfspace constrained)
  pure (rows ++ constrained.zipIdx.flatMap fun column => boundsHalfspaces constrained.length column.2 column.1)

/-- `has_feasible_constraints`, over the search of `libsigopt` for an interior point. The matrix is made when the
    experiment is; the schema has required one of the two types. -/
def hasFeasibleConstraints (findInteriorPoint : List Halfspace → Bool) (experiment : ExperimentMeta) :
    Except ValidationError Unit :=
  if experiment.constraints = [] then
    pure ()
  else
    match parseConstraintsToHalfspaces experiment.constraints (allParameters experiment) with
    | .error _ => .error (.sigoptValidation "Invalid constraint type")
    | .ok halfspaces => do
        experiment.constraints.forM fun constraint =>
          raiseIf ((constraint.terms.filter fun term => term.coeff ≠ 0).length < 2)
            (.sigoptValidation "Constraints should affect at least two parameters")
        raiseIf (findInteriorPoint halfspaces = false) (.sigoptValidation "Infeasible constraints or empty set")

/-- The other sections of a request, with the constraints as they are read and checked. -/
def constrainedSections (sections : OtherSections) (maxNumIntConstraintVariables : ℕ)
    (findInteriorPoint : List Halfspace → Bool) : OtherSections :=
  { checkedSections sections (hasFeasibleConstraints findInteriorPoint) with
    validateJsonParamsForCreate := fun json => do
      checkConstraintsSchema json
      sections.validateJsonParamsForCreate json
    getConstraintsFromJson := getConstraintsFromJson maxNumIntConstraintVariables }

end Zigopt.Experiment
