/-
Module: Zigopt.Assignments.Render
Layer: Assignments
Purpose: Rendering a stored assignments map to the JSON of the API, as `json/assignments.py` and
  `json/render.py` do: indices become names, integers are truncated, and a parameter whose conditions are
  not satisfied becomes null.
Main exports: AssignmentsDict, renderParamValue, renderConditionalValue, assignmentsJson
-/
import Zigopt.Assignments.Validate

namespace Zigopt.Assignments

open Raising Experiment

/-- The items of a map of assignments, in some order. -/
structure AssignmentsDict where
  items : List (String × ℚ)
  distinct : (items.map Prod.fst).Nodup

def AssignmentsDict.toMap (assignments : AssignmentsDict) : AssignmentsMap :=
  fun name => assignments.items.lookup name

inductive RenderError where
  | paramRender (parameter msg : String)
  | conditionalParamRender (msg : String)
  | unknownKeys (msg : String)
  deriving DecidableEq, Repr

/-- `all_parameters_including_deleted_map.get(name)`. -/
def parameterIncludingDeletedNamed (experiment : ExperimentMeta) (name : String) : Option ExperimentParameter :=
  experiment.allParametersUnsorted.reverse.find? fun parameter => parameter.name = name

/-- `all_categorical_values_map_by_index.get(assignment)`. -/
def categoricalValueIndexed (parameter : ExperimentParameter) (assignment : ℚ) :
    Option ExperimentCategoricalValue :=
  parameter.allCategoricalValues.reverse.find? fun value => (value.enumIndex : ℚ) = assignment

/-- Python's `int` of a number. -/
def truncated (value : ℚ) : ℚ := value.num.tdiv value.den

/-- `render_param_value`: a category is shown by its name, an integer is truncated. -/
def renderParamValue (parameter : ExperimentParameter) (assignment : ℚ) : Except RenderError Json :=
  match parameter.paramType with
  | .categorical =>
      match categoricalValueIndexed parameter assignment with
      | some value => pure (.string value.name)
      | none => .error (.paramRender parameter.name (s!"Exception rendering assignment for parameter " ++
          s!"{parameter.name}: Unknown categorical assignment, enum_index: {assignment}"))
  | .int => pure (.number (truncated assignment))
  | .double => pure (.number assignment)

/-- `render_conditional_value`, which fails on a value that the conditional does not have. -/
def renderConditionalValue (conditional : ExperimentConditional) (assignment : ℚ) : Except RenderError Json :=
  match conditional.values.find? fun value => (value.enumIndex : ℚ) = assignment with
  | some value => pure (.string value.name)
  | none => .error (.conditionalParamRender
      s!"Conditional {conditional.name} attempting to render unknown value {assignment}")

def conditionallyRenderParamValue (parameter : ExperimentParameter) (assignment : ℚ)
    (assignments : AssignmentsMap) : Except RenderError Json :=
  if parameterConditionsSatisfied parameter assignments then
    renderParamValue parameter assignment
  else
    pure .null

/-- The members of the items that a table has an entry for. -/
def renderItems {α : Type} (entry : String → Option α) (render : α → ℚ → Except RenderError Json) :
    List (String × ℚ) → Except RenderError JsonObject
  | [] => pure []
  | (name, assignment) :: rest =>
      match entry name with
      | none => renderItems entry render rest
      | some found => do
          let value ← render found assignment
          let members ← renderItems entry render rest
          pure ((name, value) :: members)

/-- `assignments_json`: the conditionals first, then the parameters, deleted ones included, over them. -/
def assignmentsJson (experiment : ExperimentMeta) (assignments : AssignmentsDict) :
    Except RenderError JsonObject := do
  let conditionalMembers ←
    renderItems (conditionalNamed experiment) renderConditionalValue assignments.items
  let parameterMembers ←
    renderItems (parameterIncludingDeletedNamed experiment)
      (fun parameter assignment => conditionallyRenderParamValue parameter assignment assignments.toMap)
      assignments.items
  let json := JsonObject.merge conditionalMembers parameterMembers
  raiseIf (∃ name ∈ assignments.items.map Prod.fst, name ∉ json.map Prod.fst)
    (.unknownKeys "Attempting to render assignments, unknown keys")
  pure json

/-- The JSON of an assignments map is accepted again, and gives the same map. -/
def RoundTrips (experiment : ExperimentMeta) (assignments : AssignmentsDict) : Prop :=
  ∃ json, assignmentsJson experiment assignments = .ok json ∧
    setAssignmentsMapFromJson experiment .empty json = .ok assignments.toMap ∧
      validateAssignmentsMap assignments.toMap experiment = .ok ()

end Zigopt.Assignments
