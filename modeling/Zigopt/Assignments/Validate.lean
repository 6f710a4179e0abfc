/-
Module: Zigopt.Assignments.Validate
Layer: Assignments
Purpose: Assignments as they are stored, their reading from a request, and the validation of a whole map
  against the experiment.
Main exports: AssignmentsMap, setAssignmentsMapFromJson, parameterConditionsSatisfied, validateAssignmentsMap
-/
import Mathlib.Data.List.Sort
import Zigopt.Experiment.FromJson

namespace Zigopt.Assignments

open Raising Experiment

/-- `map<string, double>`. -/
abbrev AssignmentsMap := String → Option ℚ

/-- The map of a protobuf without assignments. -/
def AssignmentsMap.empty : AssignmentsMap := fun _ => none

/-- A member of the map is written. -/
def AssignmentsMap.set (assignments : AssignmentsMap) (name : String) (value : ℚ) : AssignmentsMap :=
  Function.update assignments name (some value)

/-- `all_parameters`: not deleted, sorted by name. -/
def allParameters (experiment : ExperimentMeta) : List ExperimentParameter :=
  (experiment.allParametersUnsorted.filter fun parameter => !parameter.deleted).insertionSort
    fun first second => first.name ≤ second.name

/-- The parameters are the stored ones that are not deleted. -/
theorem mem_allParameters {experiment : ExperimentMeta} {parameter : ExperimentParameter} :
    parameter ∈ allParameters experiment ↔
      parameter ∈ experiment.allParametersUnsorted ∧ parameter.deleted = false := by
  rw [allParameters, List.mem_insertionSort, List.mem_filter, Bool.not_eq_true']

theorem allParameters_distinct {experiment : ExperimentMeta}
    (distinct : (experiment.allParametersUnsorted.map (·.name)).Nodup) :
    ((allParameters experiment).map (·.name)).Nodup := by
  rw [allParameters, ((List.perm_insertionSort _ _).map _).nodup_iff]
  exact distinct.sublist (List.filter_sublist.map _)

/-- Sorting by name leaves the parameters of one name in their order. -/
theorem filter_insertionSort (parameters : List ExperimentParameter) (name : String) :
    ((parameters.insertionSort fun first second => first.name ≤ second.name).filter
        fun parameter => parameter.name = name) =
      parameters.filter fun parameter => parameter.name = name := by
  have sameName : (parameters.filter fun parameter => parameter.name = name).Pairwise
      fun first second => first.name ≤ second.name := by
    apply List.pairwise_of_forall_mem_list
    intro first isFirst second isSecond
    have firstNamed : first.name = name := by simpa using (List.mem_filter.mp isFirst).2
    have secondNamed : second.name = name := by simpa using (List.mem_filter.mp isSecond).2
    simp only [firstNamed, secondNamed]
    exact String.le_refl name
  have kept := (List.sublist_insertionSort sameName List.filter_sublist).filter fun parameter => parameter.name = name
  rw [List.filter_filter] at kept
  simp only [Bool.and_self] at kept
  have sameLength := ((List.perm_insertionSort (fun first second : ExperimentParameter => first.name ≤ second.name)
    parameters).filter fun parameter => parameter.name = name).length_eq
  exact (kept.eq_of_length sameLength.symm).symm

/-- `all_parameters_map.get(name)`; of two parameters with one name the map has the later one. -/
def parameterNamed (experiment : ExperimentMeta) (name : String) : Option ExperimentParameter :=
  (allParameters experiment).reverse.find? fun parameter => parameter.name = name

/-- `conditionals_map.get(name)`. -/
def conditionalNamed (experiment : ExperimentMeta) (name : String) : Option ExperimentConditional :=
  experiment.conditionals.reverse.find? fun conditional => conditional.name = name

/-! ### Reading -/

/-- `assignment in param.grid_values`, where Python takes booleans for 0 and 1. -/
def jsonInGrid (gridValues : List ℚ) : Json → Bool
  | .number value => value ∈ gridValues
  | .boolean value => (if value then 1 else 0) ∈ gridValues
  | _ => false

/-- The type that the assignment of a parameter must have. -/
def assignmentTypeName (parameter : ExperimentParameter) : String :=
  if parameter.isCategorical then
    ValidationType.string.name
  else if parameter.isInteger then
    ValidationType.integer.name
  else
    ValidationType.number.name

/-- `get_assignment` of a JSON value. -/
def getJsonAssignment (parameter : ExperimentParameter) (assignmentJson : Json) : Except ValidationError ℚ :=
  match assignmentJson with
  | .null => .error (.missingParam parameter.name s!"Missing assignment for parameter: {parameter.name}")
  | .string text => getAssignment parameter (.text text)
  | .number value => getAssignment parameter (.number value)
  | other => do
      raiseIf (parameter.isGrid = true ∧ jsonInGrid parameter.gridValues other = false)
        (.invalidValue s!"Invalid value for grid parameter {parameter.name}")
      .error (.invalidType (assignmentTypeName parameter) (some parameter.name))

/-- `find(conditional.values, lambda c: c.name == assignment_json)`: a name is equal to strings only. -/
def conditionalValueNamed (conditional : ExperimentConditional) :
    Json → Option ExperimentConditionalValue
  | .string text => conditional.values.find? fun value => value.name = text
  | _ => none

/-- The stored value of a conditional: the index of the value that the request names. -/
def conditionalAssignment (conditional : ExperimentConditional) (assignmentJson : Json) :
    Except ValidationError ℚ :=
  match conditionalValueNamed conditional assignmentJson with
  | some value => pure value.enumIndex
  | none => .error (.sigoptValidation s!"Invalid assignment for conditional {conditional.name}")

/-- One member of the request. -/
def setAssignmentFromJson (experiment : ExperimentMeta) (assignments : AssignmentsMap)
    (member : String × Json) : Except ValidationError AssignmentsMap :=
  match conditionalNamed experiment member.1, parameterNamed experiment member.1 with
  | some conditional, _ => do
      pure (assignments.set conditional.name (← conditionalAssignment conditional member.2))
  | none, some parameter => do
      pure (assignments.set parameter.name (← getJsonAssignment parameter member.2))
  | none, none =>
      .error (.sigoptValidation s!"Invalid assignment, parameter does not exist: \"{member.1}\"")

/-- `set_assignments_map_from_json`, one member of the request after the other. -/
def setAssignmentsMapFromJson (experiment : ExperimentMeta) (assignments : AssignmentsMap)
    (assignmentsJson : JsonObject) : Except ValidationError AssignmentsMap :=
  assignmentsJson.foldlM (setAssignmentFromJson experiment) assignments

/-! ### Validation -/

/-- A condition counts as satisfied where its conditional is not assigned. -/
def parameterConditionsSatisfied (parameter : ExperimentParameter) (assignments : AssignmentsMap) : Bool :=
  parameter.conditions.all fun condition =>
    match assignments condition.name with
    | some assignment => assignment ∈ condition.values
    | none => true

/-- The sum of the terms of a constraint, or the name of one that is not assigned. -/
def constraintSum (assignments : AssignmentsMap) (terms : List Term) : Except String ℚ :=
  terms.foldlM
    (fun sum term =>
      match assignments term.name with
      | some value => .ok (sum + term.coeff * value)
      | none => .error term.name)
    0

def constraintSatisfied (constraint : ExperimentConstraint) (assignments : AssignmentsMap) :
    Except ValidationError Unit :=
  match constraintSum assignments constraint.terms with
  | .error name =>
      .error (.sigoptValidation s!"Term {name} is present in constraints, but no assignment was provided")
  | .ok lhs =>
      if constraint.type = "greater_than" then
        raiseIf (¬constraint.rhs ≤ lhs) (.sigoptValidation "Assignments do not satisfy constraint")
      else if constraint.type = "less_than" then
        raiseIf (¬lhs ≤ constraint.rhs) (.sigoptValidation "Assignments do not satisfy constraint")
      else
        .error (.sigoptValidation s!"Cannot validate assignments for constraint type: {constraint.type}")

def transformationSatisfied (parameter : ExperimentParameter) (assignment : ℚ) : Except ValidationError Unit :=
  raiseIf (parameter.transformation = .log ∧ assignment ≤ 0)
    (.sigoptValidation s!"Assignment must be positive for log-transformed parameter {parameter.name}")

def validateConditional (assignments : AssignmentsMap) (conditional : ExperimentConditional) :
    Except ValidationError Unit :=
  raiseIf (assignments conditional.name = none)
    (.missingParam s!"Missing assignment for conditional: \"{conditional.name}\"" "")

def validateParameter (assignments : AssignmentsMap) (parameter : ExperimentParameter) :
    Except ValidationError Unit :=
  match assignments parameter.name with
  | none =>
      raiseIf (parameterConditionsSatisfied parameter assignments = true)
        (.missingParam parameter.name s!"Missing assignment for parameter: \"{parameter.name}\"")
  | some assignment => do
      raiseIf (parameterConditionsSatisfied parameter assignments = false) (.sigoptValidation
        s!"Do not provide assignment for unsatisfied parameter: \"{parameter.name}\"")
      transformationSatisfied parameter assignment

/-- `validate_assignments_map`: conditionals, parameters and constraints, in this order. -/
def validateAssignmentsMap (assignments : AssignmentsMap) (experiment : ExperimentMeta) :
    Except ValidationError Unit := do
  experiment.conditionals.forM (validateConditional assignments)
  (allParameters experiment).forM (validateParameter assignments)
  experiment.constraints.forM fun constraint => constraintSatisfied constraint assignments

end Zigopt.Assignments
