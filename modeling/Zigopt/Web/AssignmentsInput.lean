/-
Module: Zigopt.Web.AssignmentsInput
Layer: Web
Purpose: The check of assignments in the forms of a page (`experiment/ui.js`) over an experiment as the API renders it,
  beside the server's rule about which parameters are assigned. A parameter with unsatisfied conditions is looked up
  under `parameter[name]`, where `name` is not a variable of the module but `window.name`.
Main exports: validateAssignmentsInput, validatePresences, SameAssignments, assignmentsInput_agrees_iff
-/
import Zigopt.Assignments.Validate
import Zigopt.Experiment.Identity
import Zigopt.Experiment.TwoValues
import Zigopt.Lib.Rows
import Zigopt.Web.Dimensions

namespace Zigopt.Web

open Assignments Experiment Raising

/-! ### The experiment as the API renders it -/

structure RenderedConditional where
  name : String
  values : List String
deriving DecidableEq, Repr

/-- `memberText` is what `parameter[member]` is as a key, for a member other than the name. -/
structure RenderedParameter where
  name : String
  conditions : List (String × List String)
  memberText : String → String

structure RenderedExperiment where
  conditionals : List RenderedConditional
  parameters : List RenderedParameter

/-- `all_conditional_values_map_by_index[value].name`; an unknown index is a `KeyError`. -/
def conditionalValueName (conditionName : String) (conditional : ExperimentConditional) (value : ℚ) :
    Except String String :=
  match conditional.values.reverse.find? fun other => (other.enumIndex : ℚ) = value with
  | some conditionalValue => pure conditionalValue.name
  | none => .error s!"Error serializing condition {conditionName} to json"

/-- A condition under its name, with the names of its values. -/
def conditionJson (experiment : ExperimentMeta) (condition : ParameterCondition) :
    Except String (String × List String) :=
  match conditionalNamed experiment condition.name with
  | some conditional => do
      pure (condition.name, ← condition.values.mapM (conditionalValueName condition.name conditional))
  | none => .error s!"Error serializing condition {condition.name} to json"

/-- `conditions_json`; the conditions of a stored parameter have distinct names. -/
def conditionsJson (experiment : ExperimentMeta) (conditions : List ParameterCondition) :
    Except String (List (String × List String)) :=
  conditions.mapM (conditionJson experiment)

def parameterJson (memberText : ExperimentParameter → String → String) (experiment : ExperimentMeta)
    (parameter : ExperimentParameter) : Except String RenderedParameter := do
  pure {
    name := parameter.name
    conditions := ← conditionsJson experiment parameter.conditions
    memberText := memberText parameter }

def conditionalJson (conditional : ExperimentConditional) : RenderedConditional where
  name := conditional.name
  values := conditional.values.map (·.name)

def experimentJson (memberText : ExperimentParameter → String → String) (experiment : ExperimentMeta) :
    Except String RenderedExperiment := do
  pure {
    conditionals := experiment.conditionals.map conditionalJson
    parameters := ← (allParameters experiment).mapM (parameterJson memberText experiment) }

/-! ### The check of the page -/

/-- The check shows an alert, or something is thrown. -/
inductive InputRefusal where
  | alert (text : String)
  | thrown (error : JsError)
deriving DecidableEq, Repr

/-- What `assignments[key]` is. -/
abbrev AssignmentsInput := String → Value

/-- `_.contains` of names. -/
def containsValue (names : List String) : Value → Bool
  | .string text => text ∈ names
  | _ => false

def isEmptyInputValue (value : Value) : Bool :=
  !value.isDefinedAndNotNull || value = .string ""

/-- One condition of a parameter; reading the values of no conditional throws. -/
def conditionAccepts (experiment : RenderedExperiment) (assignments : AssignmentsInput)
    (condition : String × List String) : Except InputRefusal Bool :=
  match experiment.conditionals.find? fun conditional => conditional.name = condition.1 with
  | none => .error (.thrown .typeError)
  | some conditional =>
      let conditionAssignment := assignments condition.1
      if containsValue conditional.values conditionAssignment then
        .ok (containsValue condition.2 conditionAssignment)
      else
        .ok true

def parameterEnabled (experiment : RenderedExperiment) (assignments : AssignmentsInput) (parameterName : String) :
    Except InputRefusal Bool :=
  match experiment.parameters.find? fun parameter => parameter.name = parameterName with
  | none => .error (.thrown .typeError)
  | some parameter =>
      if parameter.conditions = [] then
        .ok true
      else do
        let accepted ← parameter.conditions.mapM (conditionAccepts experiment assignments)
        pure (accepted.all id)

/-- `parameter[name]` as a key, with the name of the window. -/
def keyRead (windowName : String) (parameter : RenderedParameter) : String :=
  if windowName = "name" then parameter.name else parameter.memberText windowName

def validateParameterInput (windowName : String) (experiment : RenderedExperiment) (assignments : AssignmentsInput)
    (parameter : RenderedParameter) : Except InputRefusal Unit := do
  if ← parameterEnabled experiment assignments parameter.name then
    raiseIf (isEmptyInputValue (assignments parameter.name) = true)
      (.alert s!"The value for parameter '{parameter.name}' is required")
  else
    raiseIf (isEmptyInputValue (assignments (keyRead windowName parameter)) = false) (.alert
      s!"The parameter '{parameter.name}' does not have its conditions satisfied and should be empty")

/-- `_.every` stops at the first parameter that is refused. -/
def validateAssignmentsInput (windowName : String) (experiment : RenderedExperiment)
    (assignments : AssignmentsInput) : Except InputRefusal Unit :=
  experiment.parameters.forM (validateParameterInput windowName experiment assignments)

/-! ### The rule of the server -/

/-- Of the validation of a parameter, what is about its presence. -/
def validatePresence (assignments : AssignmentsMap) (parameter : ExperimentParameter) : Except ValidationError Unit :=
  match assignments parameter.name with
  | none =>
      raiseIf (parameterConditionsSatisfied parameter assignments = true)
        (.missingParam parameter.name s!"Missing assignment for parameter: \"{parameter.name}\"")
  | some _ =>
      raiseIf (parameterConditionsSatisfied parameter assignments = false) (.sigoptValidation
        s!"Do not provide assignment for unsatisfied parameter: \"{parameter.name}\"")

/-- The part of the API's check that asks for values: each parameter has one, or its conditions fail. -/
def validatePresences (assignments : AssignmentsMap) (experiment : ExperimentMeta) : Except ValidationError Unit :=
  (allParameters experiment).forM (validatePresence assignments)

/-! ### Inputs and assignments -/

/-- An input that is a value of the parameter's own type, and the assignment it stands for. -/
inductive IsValueOf (parameter : ExperimentParameter) : Value → ℚ → Prop
  | category {value : ExperimentCategoricalValue} (isCategorical : parameter.isCategorical = true)
      (isActive : value ∈ parameter.activeCategoricalValues) : IsValueOf parameter (.string value.name) value.enumIndex
  | number {value : ℚ} (notCategorical : parameter.isCategorical = false)
      (integer : parameter.isInteger = true → value.den = 1) : IsValueOf parameter (.number value) value

/-- The page and the server have the same assignments: a listed value for each conditional, and for each parameter
    nothing or a value of its type. -/
structure SameAssignments (experiment : ExperimentMeta) (inputs : AssignmentsInput) (row : AssignmentsMap) : Prop where
  conditionals : ∀ conditional ∈ experiment.conditionals, ∃ value ∈ conditional.values,
    inputs conditional.name = .string value.name ∧ row conditional.name = some (value.enumIndex : ℚ)
  parameters : ∀ parameter ∈ allParameters experiment,
    (isEmptyInputValue (inputs parameter.name) = true ∧ row parameter.name = none) ∨
      (isEmptyInputValue (inputs parameter.name) = false ∧
        ∃ value, IsValueOf parameter (inputs parameter.name) value ∧ row parameter.name = some value)

/-- The page and the server accept or refuse alike. -/
def ChecksAgree (windowName : String) (memberText : ExperimentParameter → String → String)
    (experiment : ExperimentMeta) (inputs : AssignmentsInput) (row : AssignmentsMap) : Prop :=
  ∃ rendered, experimentJson memberText experiment = .ok rendered ∧
    (validateAssignmentsInput windowName rendered inputs = .ok () ↔ validatePresences row experiment = .ok ())

/-- The first active parameter of the name has its conditions satisfied. -/
def FirstSatisfied (experiment : ExperimentMeta) (row : AssignmentsMap) (name : String) : Prop :=
  ∃ first, ((allParameters experiment).find? fun parameter => parameter.name = name) = some first ∧
    parameterConditionsSatisfied first row = true

/-- `parameter[name]` as a key, for a stored parameter. -/
def storedKeyRead (windowName : String) (memberText : ExperimentParameter → String → String)
    (parameter : ExperimentParameter) : String :=
  if windowName = "name" then parameter.name else memberText parameter windowName

/-- The parameter is empty although its conditions are satisfied, or filled although they are not. -/
def AgainstConditions (inputs : AssignmentsInput) (row : AssignmentsMap) (parameter : ExperimentParameter) : Prop :=
  parameterConditionsSatisfied parameter row = isEmptyInputValue (inputs parameter.name)

/-- A satisfied parameter is empty; or the parameters that go against their conditions show under the keys that are
    read. -/
def ConflictsSeen (windowName : String) (memberText : ExperimentParameter → String → String)
    (experiment : ExperimentMeta) (inputs : AssignmentsInput) (row : AssignmentsMap) : Prop :=
  (∃ parameter ∈ allParameters experiment,
    FirstSatisfied experiment row parameter.name ∧ isEmptyInputValue (inputs parameter.name) = true) ∨
  ((∃ parameter ∈ allParameters experiment, AgainstConditions inputs row parameter) ↔
    ∃ parameter ∈ allParameters experiment, ¬FirstSatisfied experiment row parameter.name ∧
      isEmptyInputValue (inputs (storedKeyRead windowName memberText parameter)) = false)

/-- The same for parameters with distinct names. -/
def UnsatisfiedSeen (windowName : String) (memberText : ExperimentParameter → String → String)
    (experiment : ExperimentMeta) (inputs : AssignmentsInput) (row : AssignmentsMap) : Prop :=
  (∃ parameter ∈ allParameters experiment,
    parameterConditionsSatisfied parameter row = true ∧ isEmptyInputValue (inputs parameter.name) = true) ∨
  ((∃ parameter ∈ allParameters experiment,
      parameterConditionsSatisfied parameter row = false ∧ isEmptyInputValue (inputs parameter.name) = false) ↔
    ∃ parameter ∈ allParameters experiment, parameterConditionsSatisfied parameter row = false ∧
      isEmptyInputValue (inputs (storedKeyRead windowName memberText parameter)) = false)

/-! ### Rendering -/

section Rendering

variable {experiment : ExperimentMeta} {memberText : ExperimentParameter → String → String}

theorem conditionalNamed_of_mem (identified : Identified experiment) {conditional : ExperimentConditional}
    (member : conditional ∈ experiment.conditionals) :
    conditionalNamed experiment conditional.name = some conditional :=
  (Rows.findKey_iff (Rows.keyed_reverse identified.conditionals)).mpr ⟨List.mem_reverse.mpr member, rfl⟩

theorem conditionalValueName_of_mem {conditionName : String} {conditional : ExperimentConditional}
    (distinct : ValuesDistinct conditional) {value : ExperimentConditionalValue} (member : value ∈ conditional.values) :
    conditionalValueName conditionName conditional value.enumIndex = .ok value.name := by
  have keyed : Rows.Keyed (fun other : ExperimentConditionalValue => (other.enumIndex : ℚ)) conditional.values := by
    have cast : (conditional.values.map (·.enumIndex)).map (fun index : ℕ => (index : ℚ)) =
        conditional.values.map fun other => (other.enumIndex : ℚ) := List.map_map
    rw [Rows.Keyed, ← cast]
    exact distinct.2.map Nat.cast_injective
  rw [conditionalValueName, (Rows.findKey_iff (Rows.keyed_reverse keyed)).mpr ⟨List.mem_reverse.mpr member, rfl⟩]
  rfl

/-- A condition is rendered with the names of its values. -/
structure ConditionRendered (experiment : ExperimentMeta) (condition : ParameterCondition)
    (rendered : String × List String) : Prop where
  name : rendered.1 = condition.name
  values : ∀ conditional ∈ experiment.conditionals, conditional.name = condition.name →
    ∀ value ∈ conditional.values, value.name ∈ rendered.2 ↔ (value.enumIndex : ℚ) ∈ condition.values

theorem exists_conditionJson (identified : Identified experiment) {parameter : ExperimentParameter}
    (known : ConditionsKnown experiment.conditionals parameter) {condition : ParameterCondition}
    (isCondition : condition ∈ parameter.conditions) :
    ∃ rendered, conditionJson experiment condition = .ok rendered ∧ ConditionRendered experiment condition rendered := by
  obtain ⟨conditional, isConditional, named, listed⟩ := known.known condition isCondition
  have distinct := identified.values conditional isConditional
  have found := conditionalNamed_of_mem identified isConditional
  have eachNamed : ∀ value ∈ condition.values, ∃ name, conditionalValueName condition.name conditional value = .ok name ∧
      ∃ other ∈ conditional.values, value = (other.enumIndex : ℚ) ∧ name = other.name := by
    intro value isValue
    obtain ⟨other, isOther, rfl⟩ := listed value isValue
    exact ⟨other.name, conditionalValueName_of_mem distinct isOther, other, isOther, rfl, rfl⟩
  obtain ⟨names, read, each⟩ := mapM_of_each eachNamed
  refine ⟨(condition.name, names), ?_, rfl, ?_⟩
  · rw [named] at found
    rw [conditionJson, found]
    dsimp only
    rw [read]
    rfl
  · intro sameNamed isSameNamed same value isValue
    rw [List.inj_on_of_nodup_map identified.conditionals isSameNamed isConditional (same.trans named.symm)] at isValue
    constructor
    · intro isName
      obtain ⟨index, isIndex, other, isOther, rfl, sameName⟩ := exists_item each isName
      rw [List.inj_on_of_nodup_map distinct.1 isValue isOther sameName]
      exact isIndex
    · intro isIndex
      obtain ⟨name, isName, other, isOther, sameIndex, rfl⟩ := exists_answer each isIndex
      rw [List.inj_on_of_nodup_map distinct.2 isValue isOther (Nat.cast_injective sameIndex)]
      exact isName

/-- A parameter is rendered with its name and its conditions. -/
structure ParameterRendered (memberText : ExperimentParameter → String → String) (experiment : ExperimentMeta)
    (parameter : ExperimentParameter) (rendered : RenderedParameter) : Prop where
  name : rendered.name = parameter.name
  conditions : List.Forall₂ (ConditionRendered experiment) parameter.conditions rendered.conditions
  memberText : rendered.memberText = memberText parameter

/-- An experiment of a run can be rendered. -/
theorem exists_experimentJson (identified : Identified experiment) (kept : CategoricalKept experiment) :
    ∃ rendered, experimentJson memberText experiment = .ok rendered ∧
      rendered.conditionals = experiment.conditionals.map conditionalJson ∧
      List.Forall₂ (ParameterRendered memberText experiment) (allParameters experiment) rendered.parameters := by
  have eachRendered : ∀ parameter ∈ allParameters experiment, ∃ rendered,
      parameterJson memberText experiment parameter = .ok rendered ∧
        ParameterRendered memberText experiment parameter rendered := by
    intro parameter isParameter
    have known := kept.conditionsKnown parameter (mem_allParameters.mp isParameter).1
    have eachCondition : ∀ condition ∈ parameter.conditions, ∃ rendered,
        conditionJson experiment condition = .ok rendered ∧ ConditionRendered experiment condition rendered :=
      fun condition isCondition => exists_conditionJson identified known isCondition
    obtain ⟨conditions, conditionsRead, rendered⟩ := mapM_of_each eachCondition
    refine ⟨⟨parameter.name, conditions, memberText parameter⟩, ?_, rfl, rendered, rfl⟩
    rw [parameterJson, conditionsJson, conditionsRead]
    rfl
  obtain ⟨parameters, read, each⟩ := mapM_of_each eachRendered
  refine ⟨⟨experiment.conditionals.map conditionalJson, parameters⟩, ?_, rfl, each⟩
  rw [experimentJson, read]
  rfl

end Rendering

/-! ### The checks -/

section Checks

variable {experiment : ExperimentMeta} {memberText : ExperimentParameter → String → String}
  {rendered : RenderedExperiment} {inputs : AssignmentsInput} {row : AssignmentsMap}

/-- The first rendered parameter of a name is the first active one. -/
theorem find_rendered {parameters : List ExperimentParameter} {renderedParameters : List RenderedParameter}
    (each : List.Forall₂ (ParameterRendered memberText experiment) parameters renderedParameters) {name : String}
    {first : ExperimentParameter} (found : (parameters.find? fun parameter => parameter.name = name) = some first) :
    ∃ renderedFirst, (renderedParameters.find? fun parameter => parameter.name = name) = some renderedFirst ∧
      ParameterRendered memberText experiment first renderedFirst := by
  induction each with
  | nil => cases found
  | @cons parameter renderedParameter _ _ isRendered _ inductionHypothesis =>
      by_cases named : parameter.name = name
      · rw [List.find?_cons_of_pos (by simpa using named), Option.some.injEq] at found
        subst found
        exact ⟨renderedParameter, List.find?_cons_of_pos (by simpa [isRendered.name] using named), isRendered⟩
      · rw [List.find?_cons_of_neg (by simpa using named)] at found
        obtain ⟨renderedFirst, renderedFound, isFirst⟩ := inductionHypothesis found
        refine ⟨renderedFirst, ?_, isFirst⟩
        rw [List.find?_cons_of_neg (by simpa [isRendered.name] using named)]
        exact renderedFound

variable (sameConditionals : rendered.conditionals = experiment.conditionals.map conditionalJson)
  (same : SameAssignments experiment inputs row)

include sameConditionals same in
/-- On the listed value that is picked, the page and the server find the same about a condition. -/
theorem conditionAccepts_eq (identified : Identified experiment) {parameter : ExperimentParameter}
    (known : ConditionsKnown experiment.conditionals parameter) {condition : ParameterCondition}
    (isCondition : condition ∈ parameter.conditions) {renderedCondition : String × List String}
    (isRendered : ConditionRendered experiment condition renderedCondition) :
    ∃ value, row condition.name = some value ∧
      conditionAccepts rendered inputs renderedCondition = .ok (decide (value ∈ condition.values)) := by
  obtain ⟨conditional, isConditional, named, _⟩ := known.known condition isCondition
  obtain ⟨value, isValue, entered, assigned⟩ := same.conditionals conditional isConditional
  have found : (rendered.conditionals.find? fun other => other.name = renderedCondition.1) =
      some (conditionalJson conditional) := by
    have keyed : Rows.Keyed (·.name) rendered.conditionals := by
      rw [sameConditionals, Rows.Keyed, List.map_map]
      exact identified.conditionals
    refine (Rows.findKey_iff keyed).mpr ⟨?_, named.trans isRendered.name.symm⟩
    rw [sameConditionals]
    exact List.mem_map_of_mem isConditional
  have listed : value.name ∈ (conditionalJson conditional).values := List.mem_map_of_mem isValue
  have accepted := isRendered.values conditional isConditional named value isValue
  refine ⟨value.enumIndex, named ▸ assigned, ?_⟩
  rw [named, ← isRendered.name] at entered
  rw [conditionAccepts, found]
  simp [entered, containsValue, listed, accepted]

/-- All conditions together, where each is found the same. -/
theorem conditions_accepted {conditions : List ParameterCondition} {renderedConditions : List (String × List String)}
    (each : List.Forall₂ (fun (condition : ParameterCondition) renderedCondition =>
      ∃ value, row condition.name = some value ∧
        conditionAccepts rendered inputs renderedCondition = .ok (decide (value ∈ condition.values)))
      conditions renderedConditions) :
    ∃ answers, renderedConditions.mapM (conditionAccepts rendered inputs) = .ok answers ∧
      answers.all id = conditions.all fun condition =>
        match row condition.name with
        | some assignment => assignment ∈ condition.values
        | none => true := by
  induction each with
  | nil => exact ⟨[], rfl, rfl⟩
  | @cons condition _ _ _ first _ inductionHypothesis =>
      obtain ⟨value, assigned, answer⟩ := first
      obtain ⟨answers, read, all⟩ := inductionHypothesis
      refine ⟨decide (value ∈ condition.values) :: answers, ?_, ?_⟩
      · rw [List.mapM_cons, answer, ok_bind, read]
        rfl
      · rw [List.all_cons, List.all_cons, all, assigned, id]

include sameConditionals same in
theorem parameterEnabled_eq (identified : Identified experiment) (kept : CategoricalKept experiment)
    (each : List.Forall₂ (ParameterRendered memberText experiment) (allParameters experiment) rendered.parameters)
    {name : String} {first : ExperimentParameter}
    (found : ((allParameters experiment).find? fun parameter => parameter.name = name) = some first) :
    parameterEnabled rendered inputs name = .ok (parameterConditionsSatisfied first row) := by
  obtain ⟨renderedFirst, renderedFound, isRendered⟩ := find_rendered each found
  have known := kept.conditionsKnown first (mem_allParameters.mp (List.mem_of_find?_eq_some found)).1
  have eachAccepted := List.forall₂_iff_get.mp isRendered.conditions
  obtain ⟨answers, read, all⟩ := conditions_accepted (List.forall₂_iff_get.mpr ⟨eachAccepted.1, fun index below there =>
    conditionAccepts_eq sameConditionals same identified known (List.get_mem _ _) (eachAccepted.2 index below there)⟩)
  have satisfied : parameterConditionsSatisfied first row = answers.all id := all.symm
  rw [parameterEnabled, renderedFound, satisfied]
  dsimp only
  split
  · rename_i empty
    rw [empty] at read
    rw [← Except.ok.inj read]
    rfl
  · rw [read]
    rfl

include sameConditionals same in
theorem validateParameterInput_eq_ok (identified : Identified experiment) (kept : CategoricalKept experiment)
    (each : List.Forall₂ (ParameterRendered memberText experiment) (allParameters experiment) rendered.parameters)
    {windowName : String} {parameter : ExperimentParameter} (isParameter : parameter ∈ allParameters experiment)
    {renderedParameter : RenderedParameter}
    (isRendered : ParameterRendered memberText experiment parameter renderedParameter) :
    validateParameterInput windowName rendered inputs renderedParameter = .ok () ↔
      (FirstSatisfied experiment row parameter.name → isEmptyInputValue (inputs parameter.name) = false) ∧
      (¬FirstSatisfied experiment row parameter.name →
        isEmptyInputValue (inputs (storedKeyRead windowName memberText parameter)) = true) := by
  have isFound : ((allParameters experiment).find? fun other => other.name = parameter.name).isSome :=
    List.find?_isSome.mpr ⟨parameter, isParameter, decide_eq_true rfl⟩
  obtain ⟨first, found⟩ := Option.isSome_iff_exists.mp isFound
  have enabled := parameterEnabled_eq sameConditionals same identified kept each found
  have sameKey : keyRead windowName renderedParameter = storedKeyRead windowName memberText parameter := by
    rw [keyRead, storedKeyRead, isRendered.name, isRendered.memberText]
  rw [validateParameterInput, isRendered.name, enabled, ok_bind, sameKey]
  cases satisfied : parameterConditionsSatisfied first row with
  | true =>
      have isFirst : FirstSatisfied experiment row parameter.name := ⟨first, found, satisfied⟩
      simp [isFirst]
  | false =>
      have notFirst : ¬FirstSatisfied experiment row parameter.name := by
        rintro ⟨other, otherFound, otherSatisfied⟩
        rw [found, Option.some.injEq] at otherFound
        rw [← otherFound, satisfied] at otherSatisfied
        cases otherSatisfied
      simp [notFirst]

include same in
theorem validatePresence_eq_ok {parameter : ExperimentParameter} (isParameter : parameter ∈ allParameters experiment) :
    validatePresence row parameter = .ok () ↔ ¬AgainstConditions inputs row parameter := by
  rw [validatePresence, AgainstConditions]
  rcases same.parameters parameter isParameter with ⟨empty, absent⟩ | ⟨filled, value, _, assigned⟩
  · simp [empty, absent]
  · simp [filled, assigned]

/-- An empty parameter whose first namesake is satisfied goes against conditions: those of the namesake. -/
theorem exists_against {parameter : ExperimentParameter}
    (satisfied : FirstSatisfied experiment row parameter.name)
    (empty : isEmptyInputValue (inputs parameter.name) = true) :
    ∃ other ∈ allParameters experiment, AgainstConditions inputs row other := by
  obtain ⟨first, found, firstSatisfied⟩ := satisfied
  have sameName : first.name = parameter.name := by simpa using List.find?_some found
  refine ⟨first, List.mem_of_find?_eq_some found, ?_⟩
  rw [AgainstConditions, firstSatisfied, sameName, empty]

theorem firstSatisfied_iff (distinct : ((allParameters experiment).map (·.name)).Nodup)
    {parameter : ExperimentParameter} (isParameter : parameter ∈ allParameters experiment) :
    FirstSatisfied experiment row parameter.name ↔ parameterConditionsSatisfied parameter row = true := by
  have found : ((allParameters experiment).find? fun other => other.name = parameter.name) = some parameter :=
    (Rows.findKey_iff distinct).mpr ⟨isParameter, rfl⟩
  rw [FirstSatisfied, found]
  simp

/-- With distinct names, each parameter is looked at with its own conditions. -/
theorem conflictsSeen_iff_of_distinct (distinct : ((allParameters experiment).map (·.name)).Nodup)
    {windowName : String} :
    ConflictsSeen windowName memberText experiment inputs row ↔
      UnsatisfiedSeen windowName memberText experiment inputs row := by
  have own : ∀ parameter ∈ allParameters experiment,
      (FirstSatisfied experiment row parameter.name ↔ parameterConditionsSatisfied parameter row = true) :=
    fun parameter isParameter => firstSatisfied_iff distinct isParameter
  have missing : (∃ parameter ∈ allParameters experiment,
        FirstSatisfied experiment row parameter.name ∧ isEmptyInputValue (inputs parameter.name) = true) ↔
      ∃ parameter ∈ allParameters experiment,
        parameterConditionsSatisfied parameter row = true ∧ isEmptyInputValue (inputs parameter.name) = true := by
    apply exists_congr
    intro parameter
    exact and_congr_right fun isParameter => by rw [own parameter isParameter]
  have seen : (∃ parameter ∈ allParameters experiment, ¬FirstSatisfied experiment row parameter.name ∧
        isEmptyInputValue (inputs (storedKeyRead windowName memberText parameter)) = false) ↔
      ∃ parameter ∈ allParameters experiment, parameterConditionsSatisfied parameter row = false ∧
        isEmptyInputValue (inputs (storedKeyRead windowName memberText parameter)) = false := by
    apply exists_congr
    intro parameter
    exact and_congr_right fun isParameter => by rw [own parameter isParameter, Bool.not_eq_true]
  have against : (∃ parameter ∈ allParameters experiment, AgainstConditions inputs row parameter) ↔
      (∃ parameter ∈ allParameters experiment,
        parameterConditionsSatisfied parameter row = true ∧ isEmptyInputValue (inputs parameter.name) = true) ∨
      ∃ parameter ∈ allParameters experiment,
        parameterConditionsSatisfied parameter row = false ∧ isEmptyInputValue (inputs parameter.name) = false := by
    rw [← exists_or]
    apply exists_congr
    intro parameter
    rw [← and_or_left, AgainstConditions]
    cases parameterConditionsSatisfied parameter row <;> cases isEmptyInputValue (inputs parameter.name) <;> simp
  rw [ConflictsSeen, UnsatisfiedSeen, missing, seen, against]
  constructor
  · rintro (isMissing | alike)
    · exact Or.inl isMissing
    · by_cases isMissing : ∃ parameter ∈ allParameters experiment,
        parameterConditionsSatisfied parameter row = true ∧ isEmptyInputValue (inputs parameter.name) = true
      · exact Or.inl isMissing
      · exact Or.inr (by rwa [or_iff_right isMissing] at alike)
  · rintro (isMissing | alike)
    · exact Or.inl isMissing
    · by_cases isMissing : ∃ parameter ∈ allParameters experiment,
        parameterConditionsSatisfied parameter row = true ∧ isEmptyInputValue (inputs parameter.name) = true
      · exact Or.inl isMissing
      · exact Or.inr (by rwa [or_iff_right isMissing])

end Checks

/-- For every experiment that an accepted create and accepted updates lead to, and the same choice of values and
    inputs on both sides: the page accepts or refuses as the server does exactly if the conflicts are seen. -/
theorem assignmentsInput_agrees_iff {sections : OtherSections} {className : String} {body : JsonObject}
    {created : ExperimentMeta} (accepted : createExperiment sections className body = .ok created)
    {updates : List (JsonObject × ExperimentMeta)} (run : AcceptedUpdates sections created updates)
    {experiment : ExperimentMeta} (reached : experiment ∈ Trace.reached created updates)
    (windowName : String) (memberText : ExperimentParameter → String → String) {inputs : AssignmentsInput}
    {row : AssignmentsMap} (same : SameAssignments experiment inputs row) :
    (ChecksAgree windowName memberText experiment inputs row ↔
      ConflictsSeen windowName memberText experiment inputs row) ∧
    (((allParameters experiment).map (·.name)).Nodup →
      (ConflictsSeen windowName memberText experiment inputs row ↔
        UnsatisfiedSeen windowName memberText experiment inputs row)) := by
  have identified := identified_of_run accepted run experiment reached
  have kept : CategoricalKept experiment :=
    Trace.every_invariant (fun _ _ _ before step => before.step step) (create_categoricalKept accepted) run
      experiment reached
  refine ⟨?_, fun distinct => conflictsSeen_iff_of_distinct distinct⟩
  obtain ⟨rendered, isRendered, sameConditionals, each⟩ := @exists_experimentJson experiment memberText identified kept
  have pageAccepts : validateAssignmentsInput windowName rendered inputs = .ok () ↔
      ∀ parameter ∈ allParameters experiment,
        (FirstSatisfied experiment row parameter.name → isEmptyInputValue (inputs parameter.name) = false) ∧
        (¬FirstSatisfied experiment row parameter.name →
          isEmptyInputValue (inputs (storedKeyRead windowName memberText parameter)) = true) := by
    rw [validateAssignmentsInput, forM_eq_ok]
    constructor
    · intro passed parameter isParameter
      obtain ⟨renderedParameter, member, isTheRendered⟩ := exists_answer each isParameter
      exact (validateParameterInput_eq_ok sameConditionals same identified kept each isParameter isTheRendered).mp
        (passed renderedParameter member)
    · intro all renderedParameter member
      obtain ⟨parameter, isParameter, isTheRendered⟩ := exists_item each member
      exact (validateParameterInput_eq_ok sameConditionals same identified kept each isParameter isTheRendered).mpr
        (all parameter isParameter)
  have serverAccepts : validatePresences row experiment = .ok () ↔
      ∀ parameter ∈ allParameters experiment, ¬AgainstConditions inputs row parameter := by
    rw [validatePresences, forM_eq_ok]
    exact forall₂_congr fun parameter isParameter => validatePresence_eq_ok same isParameter
  have agree : ChecksAgree windowName memberText experiment inputs row ↔
      (¬validateAssignmentsInput windowName rendered inputs = .ok () ↔ ¬validatePresences row experiment = .ok ()) := by
    rw [not_iff_not]
    constructor
    · rintro ⟨other, isOther, alike⟩
      rw [isRendered, Except.ok.injEq] at isOther
      exact isOther ▸ alike
    · intro alike
      exact ⟨rendered, isRendered, alike⟩
  have pageRefuses : ¬validateAssignmentsInput windowName rendered inputs = .ok () ↔
      (∃ parameter ∈ allParameters experiment,
        FirstSatisfied experiment row parameter.name ∧ isEmptyInputValue (inputs parameter.name) = true) ∨
      ∃ parameter ∈ allParameters experiment, ¬FirstSatisfied experiment row parameter.name ∧
        isEmptyInputValue (inputs (storedKeyRead windowName memberText parameter)) = false := by
    rw [pageAccepts]
    simp only [not_forall, exists_prop, not_and_or, Bool.not_eq_true, Bool.not_eq_false, and_or_left, exists_or]
  have serverRefuses : ¬validatePresences row experiment = .ok () ↔
      ∃ parameter ∈ allParameters experiment, AgainstConditions inputs row parameter := by
    rw [serverAccepts]
    simp only [not_forall, exists_prop, not_not]
  rw [agree, pageRefuses, serverRefuses, ConflictsSeen]
  by_cases isMissing : ∃ parameter ∈ allParameters experiment,
      FirstSatisfied experiment row parameter.name ∧ isEmptyInputValue (inputs parameter.name) = true
  · have isAgainst : ∃ parameter ∈ allParameters experiment, AgainstConditions inputs row parameter := by
      obtain ⟨_, _, satisfied, empty⟩ := isMissing
      exact exists_against satisfied empty
    exact iff_of_true (iff_of_true (Or.inl isMissing) isAgainst) (Or.inl isMissing)
  · rw [or_iff_right isMissing, or_iff_right isMissing]
    exact iff_comm

/-- A conditional `c`, and a number `x` under its value `a`. -/
def experimentWithChoice : JsonObject :=
  [("name", .string "an experiment"),
    ("conditionals", .array [.object [("name", .string "c"), ("values", .array [.string "a", .string "b"])]]),
    ("parameters", .array [.object [("name", .string "x"), ("type", .string "int"),
      ("bounds", .object [("min", .number 0), ("max", .number 9)]), ("conditions", .object [("c", .string "a")])]])]

def choiceMeta : ExperimentMeta where
  conditionals := [⟨"c", [⟨"a", 1⟩, ⟨"b", 2⟩]⟩]
  allParametersUnsorted := [{ name := "x", paramType := .int, bounds := ⟨0, 9⟩, conditions := [⟨"c", [1]⟩] }]

theorem experimentWithChoice_created :
    createExperiment permissiveSections "Experiment" experimentWithChoice = .ok choiceMeta := by
  decide +kernel

/-- The choice and the number as they are entered. -/
def inputsOf (choice : String) (x : Value) : AssignmentsInput := fun key =>
  if key = "c" then .string choice else if key = "x" then x else .undefined

def rowOf (choice : ℚ) (x : Option ℚ) : AssignmentsMap := fun name =>
  if name = "c" then some choice else if name = "x" then x else none

theorem sameAssignments_three {choice : String} {index : ℕ}
    (listed : (⟨choice, index⟩ : ExperimentConditionalValue) ∈ [⟨"a", 1⟩, ⟨"b", 2⟩]) :
    SameAssignments choiceMeta (inputsOf choice (.number 3)) (rowOf index (some 3)) where
  conditionals := by
    intro conditional isConditional
    rw [List.mem_singleton.mp isConditional]
    exact ⟨⟨choice, index⟩, listed, rfl, rfl⟩
  parameters := by
    intro parameter isParameter
    rw [List.mem_singleton.mp (mem_allParameters.mp isParameter).1]
    exact Or.inr ⟨rfl, 3, .number rfl fun _ => rfl, rfl⟩

/-- With the value `a` the number is accepted by both. -/
theorem assignmentsInput_agrees_satisfied :
    ChecksAgree "" (fun _ _ => "undefined") choiceMeta (inputsOf "a" (.number 3)) (rowOf 1 (some 3)) := by
  have run : AcceptedUpdates permissiveSections choiceMeta [] := trivial
  have same : SameAssignments choiceMeta (inputsOf "a" (.number 3)) (rowOf 1 (some 3)) :=
    @sameAssignments_three "a" 1 (by decide)
  have alike := assignmentsInput_agrees_iff experimentWithChoice_created run List.mem_cons_self ""
    (fun _ _ => "undefined") same
  refine alike.1.mpr ((alike.2 (by decide)).mpr (Or.inr ?_))
  decide +kernel

/-- With the value `b` the number must not be there, which the page looks up under `undefined`. -/
theorem assignmentsInput_accepted_unsatisfied : ∃ body created inputs row,
    createExperiment permissiveSections "Experiment" body = .ok created ∧ SameAssignments created inputs row ∧
      ¬ChecksAgree "" (fun _ _ => "undefined") created inputs row := by
  refine ⟨experimentWithChoice, choiceMeta, inputsOf "b" (.number 3), rowOf 2 (some 3), experimentWithChoice_created,
    sameAssignments_three (by decide), ?_⟩
  rintro ⟨rendered, isRendered, alike⟩
  have isPage : experimentJson (fun _ _ => "undefined") choiceMeta = .ok ⟨[⟨"c", ["a", "b"]⟩],
      [⟨"x", [("c", ["a"])], fun _ => "undefined"⟩]⟩ := rfl
  rw [isPage, Except.ok.injEq] at isRendered
  subst isRendered
  exact absurd (alike.mp (by decide +kernel)) (by decide +kernel)

end Zigopt.Web
