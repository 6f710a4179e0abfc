/-
Module: Zigopt.Suggestion.Feasible
Layer: Suggestion
Purpose: What the assignments of a suggestion are to be: each conditional has one of its values, each parameter whose
  conditions hold has a value of its domain, and nothing else is assigned. Such assignments are accepted; and they are
  what is read of a row that assigns everything, whatever it assigns to the parameters whose conditions fail.
Main exports: Feasible, Sound, Feasible.accepted, Feasible.isValid, feasible_read, feasible_of_full, feasible_of_isValid
-/
import Zigopt.Assignments.UnconditionedView
import Zigopt.Experiment.ConsistencyKept
import Zigopt.Suggestion.Samplers

namespace Zigopt.Suggestion

open Raising Experiment Assignments

/-- Assignments that the experiment could be asked to run: the conditionals take one of their values, a parameter is
    set within its domain exactly where its conditions hold, and nothing else is set. -/
structure Feasible (experiment : ExperimentMeta) (assignments : AssignmentsMap) : Prop where
  conditionals : Combination experiment.conditionals assignments
  satisfied : ∀ parameter ∈ allParameters experiment, parameterConditionsSatisfied parameter assignments = true →
    ∃ value, assignments parameter.name = some value ∧ InDomain parameter value
  unsatisfied : ∀ parameter ∈ allParameters experiment, parameterConditionsSatisfied parameter assignments = false →
    assignments parameter.name = none
  onlyNames : ∀ name, name ∉ (allParameters experiment).map (·.name) → name ∉ experiment.conditionalNames →
    assignments name = none

/-- What holds of the parameters and conditionals of an experiment: its active parameters have domains and consistent
    definitions, and no two of them have one name, nor one and a conditional. -/
structure Sound (experiment : ExperimentMeta) : Prop where
  kept : CategoricalKept experiment
  domains : ∀ parameter ∈ allParameters experiment, ValidDomain parameter
  ends : ∀ parameter ∈ allParameters experiment, (parameter.isCategorical || parameter.isGrid) = false →
    EndsMeet parameter
  consistent : ∀ parameter ∈ allParameters experiment, SelfConsistent parameter
  integerGrids : ∀ parameter ∈ allParameters experiment, parameter.isInteger = true →
    ∀ value ∈ parameter.gridValues, ∃ integer : ℤ, value = integer
  categoricalGrids : ∀ parameter ∈ allParameters experiment, parameter.isCategorical = true →
    ∀ value ∈ parameter.gridValues, InDomain parameter value
  names : ((allParameters experiment).map (·.name) ++ experiment.conditionalNames).Nodup
  grid : experiment.experimentType = .grid → experiment.conditionals = []
  conditionalValues : ∀ conditional ∈ experiment.conditionals, conditional.values ≠ [] ∧
    (conditional.values.map (·.enumIndex)).Nodup

section Reading

variable {experiment : ExperimentMeta} {row assignments : AssignmentsMap}

theorem Sound.parameterNames (sound : Sound experiment) : ((allParameters experiment).map (·.name)).Nodup :=
  (List.nodup_append.mp sound.names).1

/-- No parameter has the name of a conditional. -/
theorem Sound.apart (sound : Sound experiment) {name : String}
    (isParameter : name ∈ (allParameters experiment).map (·.name)) : name ∉ experiment.conditionalNames :=
  fun isConditional => (List.nodup_append.mp sound.names).2.2 name isParameter name isConditional rfl

theorem noConditions_of_unconditional (sound : Sound experiment) (unconditional : experiment.conditionals = [])
    {parameter : ExperimentParameter} (isParameter : parameter ∈ allParameters experiment) :
    parameter.conditions = [] := by
  apply List.eq_nil_iff_forall_not_mem.mpr
  intro condition isCondition
  obtain ⟨conditional, isConditional, _⟩ :=
    (sound.kept.conditionsKnown parameter (mem_allParameters.mp isParameter).1).known condition isCondition
  rw [unconditional] at isConditional
  exact List.not_mem_nil isConditional

theorem foldl_replaceMissing_of_notMem {parameters : List ExperimentParameter} {name : String}
    (isOther : name ∉ parameters.map (·.name)) : parameters.foldl replaceMissing row name = row name := by
  induction parameters generalizing row with
  | nil => rfl
  | cons parameter rest inductionHypothesis =>
      rw [List.map_cons, List.mem_cons, not_or] at isOther
      rw [List.foldl_cons, inductionHypothesis isOther.2, replaceMissing_eq, if_neg (Ne.symm isOther.1), Option.or_none]

theorem read_conditional {name : String} (isConditional : name ∈ experiment.conditionalNames) :
    getAssignments experiment row name = some ((row name).getD 0) := if_pos isConditional

/-- The conditionals are the same whether they are read with the parameters or by themselves. -/
theorem sameConditions (sound : Sound experiment) {parameter : ExperimentParameter}
    (isParameter : parameter ∈ allParameters experiment) :
    parameterConditionsSatisfied parameter (valuesAsMap experiment row) =
      parameterConditionsSatisfied parameter (getAssignments experiment row) := by
  apply conditionsSatisfied_congr sound.kept _ isParameter
  intro name isConditional
  have notParameter : name ∉ (allParameters experiment).map (·.name) :=
    fun isParameterName => sound.apart isParameterName isConditional
  rw [read_conditional isConditional, valuesAsMap, if_pos (List.mem_append_right _ isConditional), parameterValue,
    foldl_replaceMissing_of_notMem notParameter]

/-- A parameter is read with its value if its conditions hold, and left out otherwise. -/
theorem read_parameter (sound : Sound experiment) {parameter : ExperimentParameter}
    (isParameter : parameter ∈ allParameters experiment) :
    getAssignments experiment row parameter.name =
      if parameterConditionsSatisfied parameter (getAssignments experiment row) then
        some (parameterValue experiment row parameter.name)
      else none := by
  have isName : parameter.name ∈ (allParameters experiment).map (·.name) := List.mem_map_of_mem isParameter
  have anyIs : ((allParameters experiment).any fun other => other.name = parameter.name &&
      parameterConditionsSatisfied other (valuesAsMap experiment row)) =
      parameterConditionsSatisfied parameter (getAssignments experiment row) := by
    rw [Bool.eq_iff_iff, List.any_eq_true, ← sameConditions sound isParameter]
    constructor
    · rintro ⟨other, isOther, holds⟩
      rw [Bool.and_eq_true, decide_eq_true_eq] at holds
      rw [← List.inj_on_of_nodup_map sound.parameterNames isOther isParameter holds.1]
      exact holds.2
    · intro satisfied
      refine ⟨parameter, isParameter, ?_⟩
      rw [Bool.and_eq_true, decide_eq_true_eq]
      exact ⟨rfl, satisfied⟩
  conv_lhs => rw [getAssignments]
  rw [if_neg (sound.apart isName), anyIs]

/-- What is read is feasible if the conditionals have values and the parameters whose conditions hold have values of
    their domains. -/
theorem feasible_read (sound : Sound experiment) (conditionals : Combination experiment.conditionals row)
    (values : ∀ parameter ∈ allParameters experiment,
      parameterConditionsSatisfied parameter (getAssignments experiment row) = true →
        InDomain parameter (parameterValue experiment row parameter.name)) :
    Feasible experiment (getAssignments experiment row) where
  conditionals conditional isConditional := by
    obtain ⟨value, isValue, assigned⟩ := conditionals conditional isConditional
    refine ⟨value, isValue, ?_⟩
    rw [read_conditional (List.mem_map_of_mem isConditional), assigned, Option.getD_some]
  satisfied parameter isParameter satisfied := by
    refine ⟨_, ?_, values parameter isParameter satisfied⟩
    rw [read_parameter sound isParameter, if_pos satisfied]
  unsatisfied parameter isParameter unsatisfied := by
    rw [read_parameter sound isParameter, if_neg (by rw [unsatisfied]; exact Bool.false_ne_true)]
  onlyNames := getAssignments_supported row

/-- A row with a value for every conditional and, whether its conditions hold or not, for every parameter. -/
structure Full (experiment : ExperimentMeta) (row : AssignmentsMap) : Prop where
  conditionals : Combination experiment.conditionals row
  parameters : ∀ parameter ∈ allParameters experiment, ∃ value, row parameter.name = some value ∧ InDomain parameter value

/-- A row that assigns every parameter is feasible once the parameters whose conditions fail are left out. -/
theorem feasible_of_full (sound : Sound experiment) (full : Full experiment row) :
    Feasible experiment (getAssignments experiment row) := by
  apply feasible_read sound full.conditionals
  intro parameter isParameter _
  obtain ⟨value, assigned, inDomain⟩ := full.parameters parameter isParameter
  rw [parameterValue_of_some assigned]
  exact inDomain

/-- Feasible assignments are read as they are. -/
theorem Feasible.read (sound : Sound experiment) (feasible : Feasible experiment assignments) :
    getAssignments experiment assignments = assignments := by
  have sameConditionals : ∀ name ∈ experiment.conditionalNames, getAssignments experiment assignments name =
      assignments name := by
    intro name isConditional
    obtain ⟨conditional, isMember, rfl⟩ := List.mem_map.mp isConditional
    obtain ⟨value, _, assigned⟩ := feasible.conditionals conditional isMember
    rw [read_conditional isConditional, assigned, Option.getD_some]
  funext name
  by_cases isConditional : name ∈ experiment.conditionalNames
  · exact sameConditionals name isConditional
  by_cases isName : name ∈ (allParameters experiment).map (·.name)
  · obtain ⟨parameter, isParameter, rfl⟩ := List.mem_map.mp isName
    rw [read_parameter sound isParameter, conditionsSatisfied_congr sound.kept sameConditionals isParameter]
    cases satisfied : parameterConditionsSatisfied parameter assignments with
    | true =>
        obtain ⟨value, assigned, _⟩ := feasible.satisfied parameter isParameter satisfied
        rw [if_pos rfl, parameterValue_of_some assigned, assigned]
    | false =>
        rw [if_neg Bool.false_ne_true, feasible.unsatisfied parameter isParameter satisfied]
  · rw [getAssignments_supported assignments name isName isConditional, feasible.onlyNames name isName isConditional]

end Reading

/-! ### What is accepted -/

section Accepting

variable {experiment : ExperimentMeta} {row assignments : AssignmentsMap}

/-- The values of a parameter on a logarithmic scale are positive. -/
theorem positive_of_inDomain {parameter : ExperimentParameter} (valid : ValidDomain parameter)
    (consistent : SelfConsistent parameter) (isLog : parameter.transformation = .log) {value : ℚ}
    (inDomain : InDomain parameter value) : 0 < value := by
  have lower := consistent.logBounds isLog
  have isDouble := (valid.log (decide_eq_true isLog)).1
  have notCategorical : parameter.isCategorical = false := by
    have isType : parameter.paramType = .double := of_decide_eq_true isDouble
    rw [ExperimentParameter.isCategorical, isType]
    rfl
  rw [InDomain, if_neg (by rw [notCategorical]; exact Bool.false_ne_true)] at inDomain
  by_cases isGrid : parameter.isGrid = true
  · rw [if_pos isGrid] at inDomain
    obtain ⟨gridValue, isGridValue, rfl⟩ := inDomain
    have spanned := consistent.grid notCategorical isGrid
    exact lower.trans_le (spanned.minimum.2 isGridValue)
  · rw [if_neg isGrid] at inDomain
    exact lower.trans_le inDomain.1.1

/-- Feasible assignments pass validation unless they violate a constraint. -/
theorem Feasible.accepted (sound : Sound experiment) (feasible : Feasible experiment assignments) :
    validateAssignmentsMap assignments experiment = .ok () ↔
      ∀ constraint ∈ experiment.constraints, constraintSatisfied constraint assignments = .ok () := by
  rw [validated_iff]
  constructor
  · exact fun validated => validated.constraints
  intro constraints
  constructor
  · intro name isConditional
    obtain ⟨conditional, isMember, rfl⟩ := List.mem_map.mp isConditional
    obtain ⟨value, _, assigned⟩ := feasible.conditionals conditional isMember
    rw [assigned, Option.isSome_some]
  · intro parameter isParameter
    cases satisfied : parameterConditionsSatisfied parameter assignments with
    | true =>
        obtain ⟨value, assigned, inDomain⟩ := feasible.satisfied parameter isParameter satisfied
        rw [assigned]
        refine ⟨rfl, ?_⟩
        rintro assignment isAssignment
        obtain rfl := Option.some.inj isAssignment
        rw [transformationSatisfied, raiseIf_eq_ok, not_and, not_le]
        exact fun isLog => positive_of_inDomain (sound.domains parameter isParameter)
          (sound.consistent parameter isParameter) isLog inDomain
    | false =>
        rw [feasible.unsatisfied parameter isParameter satisfied]
        exact ⟨rfl, fun _ impossible => by cases impossible⟩
  · exact constraints

theorem validAssignment_of_inDomain {parameter : ExperimentParameter} {value : ℚ} (inDomain : InDomain parameter value) :
    validAssignment parameter value = true := by
  rw [InDomain] at inDomain
  unfold validAssignment
  split
  · rename_i categorical
    rw [if_pos categorical] at inDomain
    obtain ⟨category, isActive, isValue⟩ := inDomain
    exact List.any_eq_true.mpr ⟨category.enumIndex, List.mem_map_of_mem isActive, decide_eq_true isValue⟩
  · rename_i notCategorical
    rw [if_neg notCategorical] at inDomain
    split
    · rename_i grid
      rw [if_pos grid] at inDomain
      obtain ⟨gridValue, isGridValue, rfl⟩ := inDomain
      exact decide_eq_true isGridValue
    · rename_i notGrid
      rw [if_neg notGrid] at inDomain
      exact decide_eq_true inDomain.1

/-- A valid assignment is a value of the domain, if it is an integer where the parameter is one. -/
theorem inDomain_of_validAssignment {parameter : ExperimentParameter} {value : ℚ}
    (valid : validAssignment parameter value = true)
    (integer : parameter.isInteger = true → ∃ integer : ℤ, value = integer) : InDomain parameter value := by
  unfold validAssignment at valid
  rw [InDomain]
  split
  · rename_i categorical
    rw [if_pos categorical] at valid
    obtain ⟨enumIndex, isActive, isValue⟩ := List.any_eq_true.mp valid
    obtain ⟨category, isCategory, rfl⟩ := List.mem_map.mp isActive
    exact ⟨category, isCategory, of_decide_eq_true isValue⟩
  · rename_i notCategorical
    rw [if_neg notCategorical] at valid
    split
    · rename_i grid
      rw [if_pos grid] at valid
      exact ⟨value, of_decide_eq_true valid, rfl⟩
    · rename_i notGrid
      rw [if_neg notGrid] at valid
      exact ⟨of_decide_eq_true valid, integer⟩

theorem find_reverse_of_nodup {α : Type} {items : List α} {key : α → String} (distinct : (items.map key).Nodup) {item : α}
    (isItem : item ∈ items) : (items.reverse.find? fun other => key other = key item) = some item := by
  have isSome : (items.reverse.find? fun other => key other = key item).isSome = true :=
    List.find?_isSome.mpr ⟨item, List.mem_reverse.mpr isItem, decide_eq_true rfl⟩
  obtain ⟨other, found⟩ := Option.isSome_iff_exists.mp isSome
  have sameKey : key other = key item := by simpa using List.find?_some found
  have isOther := List.mem_reverse.mp (List.mem_of_find?_eq_some found)
  rw [found, List.inj_on_of_nodup_map distinct isOther isItem sameKey]

/-- A row is valid exactly if every parameter that is read has a valid assignment. -/
theorem isValid_iff (sound : Sound experiment) :
    isValid experiment row = true ↔ ∀ parameter ∈ allParameters experiment,
      ∀ value, getAssignments experiment row parameter.name = some value → validAssignment parameter value = true := by
  rw [isValid, List.all_eq_true]
  constructor
  · intro valid parameter isParameter value isRead
    have holds := valid parameter.name (List.mem_append_left _ (List.mem_map_of_mem isParameter))
    rw [isRead] at holds
    dsimp only at holds
    rw [parameterNamed, find_reverse_of_nodup sound.parameterNames isParameter] at holds
    exact holds
  · intro valid name isName
    cases isRead : getAssignments experiment row name with
    | none => rfl
    | some value =>
        dsimp only
        rcases List.mem_append.mp isName with isParameterName | isConditional
        · obtain ⟨parameter, isParameter, rfl⟩ := List.mem_map.mp isParameterName
          rw [parameterNamed, find_reverse_of_nodup sound.parameterNames isParameter]
          exact valid parameter isParameter value isRead
        · have notParameter : parameterNamed experiment name = none := by
            rw [parameterNamed, List.find?_eq_none]
            intro parameter isParameter named
            apply sound.apart _ isConditional
            rw [← of_decide_eq_true named]
            exact List.mem_map_of_mem (List.mem_reverse.mp isParameter)
          rw [notParameter]
          obtain ⟨conditional, isMember, rfl⟩ := List.mem_map.mp isConditional
          exact List.find?_isSome.mpr ⟨conditional, List.mem_reverse.mpr isMember, decide_eq_true rfl⟩

/-- What is feasible passes the check of a suggestion that is made before it is served. -/
theorem Feasible.isValid (sound : Sound experiment) (feasible : Feasible experiment (getAssignments experiment row)) :
    Suggestion.isValid experiment row = true := by
  rw [isValid_iff sound]
  intro parameter isParameter value isRead
  cases satisfied : parameterConditionsSatisfied parameter (getAssignments experiment row) with
  | true =>
      obtain ⟨other, assigned, inDomain⟩ := feasible.satisfied parameter isParameter satisfied
      obtain rfl := Option.some.inj (assigned.symm.trans isRead)
      exact validAssignment_of_inDomain inDomain
  | false =>
      rw [feasible.unsatisfied parameter isParameter satisfied] at isRead
      cases isRead

/-- What is read of a stored row that is still valid is feasible, if its conditionals have values and its integer
    parameters are read as integers. -/
theorem feasible_of_isValid (sound : Sound experiment) (conditionals : Combination experiment.conditionals row)
    (integers : ∀ parameter ∈ allParameters experiment, parameter.isInteger = true →
      ∃ integer : ℤ, parameterValue experiment row parameter.name = integer)
    (valid : Suggestion.isValid experiment row = true) : Feasible experiment (getAssignments experiment row) := by
  apply feasible_read sound conditionals
  intro parameter isParameter satisfied
  apply inDomain_of_validAssignment _ (integers parameter isParameter)
  apply (isValid_iff sound).mp valid parameter isParameter
  rw [read_parameter sound isParameter, if_pos satisfied]

end Accepting

end Zigopt.Suggestion
