/-
Module: Zigopt.Assignments.UnconditionedView
Layer: Assignments
Purpose: The unconditioned view of an experiment agrees with the conditional one on every validated row exactly if the
  replacement values stand in for what is not assigned: one that is 0 is taken for one that is not set.
Main exports: Convertible, convertible_of_run, getAssignments_of_validated, unconditioned_agrees_iff
-/
import Zigopt.Assignments.Unconditioned
import Zigopt.Experiment.ConstraintMeaning

namespace Zigopt.Assignments

open Experiment Raising Suggestion

/-! ### What is kept of an experiment -/

/-- The terms of the constraints are active parameters without conditions. -/
def ConstraintsPlain (experiment : ExperimentMeta) : Prop :=
  ∀ constraint ∈ experiment.constraints, ∀ term ∈ constraint.terms,
    ∃ parameter ∈ allParameters experiment, parameter.name = term.name ∧ parameter.conditions = []

/-- The last value of every parameter is there, conditions are on conditionals, and constraints on parameters that are
    always assigned. -/
structure Convertible (experiment : ExperimentMeta) : Prop where
  categorical : CategoricalKept experiment
  constraints : ConstraintsPlain experiment

section Kept

variable {sections : OtherSections} {maxVariables : ℕ} {findInteriorPoint : List Halfspace → Bool} {className : String}
  {body : JsonObject} {created before after : ExperimentMeta}

theorem create_constraintsPlain
    (accepted : createExperiment (constrainedSections sections maxVariables findInteriorPoint) className body =
      .ok created) : ConstraintsPlain created := by
  have parameters := setExperimentParameterListFromJson_ok (createExperiment_ok accepted)
  have reads := getConstraintsFromJson_ok (createExperiment_constraints accepted).1
  intro constraint isConstraint term isTerm
  obtain ⟨json, _, constraintRead⟩ := exists_item reads isConstraint
  obtain ⟨parameter, isParameter, named⟩ := known_of_read constraintRead term isTerm
  have plain := plain_of_read parameters.distinct constraintRead parameter isParameter
    (named ▸ List.mem_map_of_mem isTerm)
  exact ⟨parameter, (mem_allParameters_created parameters).mpr isParameter, named, plain.2.2.1⟩

/-- An update leaves the constraints alone, and the parameters as well where there are constraints. -/
theorem updateExperiment_constraints {sections : OtherSections}
    (accepted : updateExperiment sections before body = .ok after) :
    after.constraints = before.constraints ∧
      (before.constraints ≠ [] → after.allParametersUnsorted = before.allParametersUnsorted) := by
  simp only [updateExperiment, bind_eq_ok, pure_eq_ok] at accepted
  rcases accepted with ⟨_, _, _, _, parameters, parametersSet, _, _, _, _, rfl⟩
  refine ⟨rfl, ?_⟩
  intro constrained
  unfold maybeSetParameters at parametersSet
  split at parametersSet
  · simp only [bind_eq_ok, raiseIf_eq_ok] at parametersSet
    rcases parametersSet with ⟨_, _, _, unconstrained, _⟩
    exact absurd constrained unconstrained
  · rw [pure_eq_ok] at parametersSet
    exact parametersSet.symm

/-- An update keeps the constraints on plain parameters. -/
theorem ConstraintsPlain.step {sections : OtherSections} (plain : ConstraintsPlain before)
    (accepted : updateExperiment sections before body = .ok after) : ConstraintsPlain after := by
  obtain ⟨sameConstraints, sameParameters⟩ := updateExperiment_constraints accepted
  intro constraint isConstraint term isTerm
  rw [sameConstraints] at isConstraint
  obtain ⟨parameter, isParameter, holds⟩ := plain constraint isConstraint term isTerm
  refine ⟨parameter, ?_, holds⟩
  rw [mem_allParameters, sameParameters (List.ne_nil_of_mem isConstraint)]
  exact mem_allParameters.mp isParameter

/-- Every experiment that a run reaches can be converted. -/
theorem convertible_of_run
    (accepted : createExperiment (constrainedSections sections maxVariables findInteriorPoint) className body =
      .ok created)
    {updates : List (JsonObject × ExperimentMeta)}
    (run : AcceptedUpdates (constrainedSections sections maxVariables findInteriorPoint) created updates) :
    ∀ experiment ∈ Trace.reached created updates, Convertible experiment := by
  have keeps : ∀ before input after, Convertible before →
      updateExperiment (constrainedSections sections maxVariables findInteriorPoint) before input = .ok after →
        Convertible after :=
    fun _ _ _ convertible step => ⟨convertible.categorical.step step, convertible.constraints.step step⟩
  exact Trace.every_invariant keeps ⟨create_categoricalKept accepted, create_constraintsPlain accepted⟩ run

end Kept

/-! ### What the validation says -/

section Validated

variable {experiment : ExperimentMeta} {row other : AssignmentsMap}

theorem validateParameter_ok {parameter : ExperimentParameter} : validateParameter row parameter = .ok () ↔
    (row parameter.name).isSome = parameterConditionsSatisfied parameter row ∧
      ∀ assignment, row parameter.name = some assignment → transformationSatisfied parameter assignment = .ok () := by
  unfold validateParameter
  cases row parameter.name with
  | none => simp
  | some assignment =>
      rw [bind_eq_ok]
      cases parameterConditionsSatisfied parameter row with
      | false => simp
      | true => simp

/-- What a row has that passes the validation. -/
structure Validated (experiment : ExperimentMeta) (row : AssignmentsMap) : Prop where
  conditionals : ∀ name ∈ experiment.conditionalNames, (row name).isSome = true
  parameters : ∀ parameter ∈ allParameters experiment,
    (row parameter.name).isSome = parameterConditionsSatisfied parameter row ∧
      ∀ assignment, row parameter.name = some assignment → transformationSatisfied parameter assignment = .ok ()
  constraints : ∀ constraint ∈ experiment.constraints, constraintSatisfied constraint row = .ok ()

theorem validated_iff : validateAssignmentsMap row experiment = .ok () ↔ Validated experiment row := by
  have conditionalOk : ∀ conditional, validateConditional row conditional = .ok () ↔
      (row conditional.name).isSome = true := by
    intro conditional
    rw [validateConditional, raiseIf_eq_ok, Option.isSome_iff_ne_none]
  simp only [validateAssignmentsMap, bind_eq_ok]
  constructor
  · rintro ⟨⟨⟩, conditionals, ⟨⟩, parameters, constraints⟩
    constructor
    · intro name isName
      obtain ⟨conditional, isConditional, rfl⟩ := List.mem_map.mp isName
      exact (conditionalOk conditional).mp (forM_eq_ok.mp conditionals conditional isConditional)
    · intro parameter isParameter
      exact validateParameter_ok.mp (forM_eq_ok.mp parameters parameter isParameter)
    · exact forM_eq_ok.mp constraints
  · intro validated
    refine ⟨(), forM_eq_ok.mpr ?_, (), forM_eq_ok.mpr ?_, forM_eq_ok.mpr validated.constraints⟩
    · intro conditional isConditional
      exact (conditionalOk conditional).mpr (validated.conditionals _ (List.mem_map_of_mem isConditional))
    · intro parameter isParameter
      exact validateParameter_ok.mpr (validated.parameters parameter isParameter)

/-- Conditions are on conditionals, so they hold for all rows that agree on these. -/
theorem conditionsSatisfied_congr (kept : CategoricalKept experiment)
    (same : ∀ name ∈ experiment.conditionalNames, row name = other name) {parameter : ExperimentParameter}
    (isParameter : parameter ∈ allParameters experiment) :
    parameterConditionsSatisfied parameter row = parameterConditionsSatisfied parameter other := by
  rw [Bool.eq_iff_iff, conditionsSatisfied_iff, conditionsSatisfied_iff]
  apply forall₂_congr
  intro condition isCondition
  obtain ⟨conditional, isConditional, named, _⟩ :=
    (kept.conditionsKnown parameter (mem_allParameters.mp isParameter).1).known condition isCondition
  rw [← named, same conditional.name (List.mem_map_of_mem isConditional)]

theorem constraintSatisfied_congr {constraint : ExperimentConstraint}
    (same : ∀ term ∈ constraint.terms, row term.name = other term.name) :
    constraintSatisfied constraint row = constraintSatisfied constraint other := by
  have sameSum : constraintSum row constraint.terms = constraintSum other constraint.terms := by
    unfold constraintSum
    generalize (0 : ℚ) = start
    generalize constraint.terms = terms at same
    induction terms generalizing start with
    | nil => rfl
    | cons term terms inductionHypothesis =>
        rw [List.forall_mem_cons] at same
        rw [List.foldlM_cons, List.foldlM_cons, same.1]
        congr 1
        funext next
        exact inductionHypothesis next same.2
  unfold constraintSatisfied
  rw [sameSum]

/-! ### The assignments of a validated row -/

/-- The name is that of a conditional, or of a parameter whose conditions hold. -/
def Kept (experiment : ExperimentMeta) (row : AssignmentsMap) (name : String) : Prop :=
  name ∈ experiment.conditionalNames ∨
    ∃ parameter ∈ allParameters experiment, parameter.name = name ∧ parameterConditionsSatisfied parameter row = true

theorem Validated.isSome_of_kept (validated : Validated experiment row) {name : String}
    (isKept : Kept experiment row name) : (row name).isSome = true := by
  rcases isKept with isConditional | ⟨parameter, isParameter, rfl, satisfied⟩
  · exact validated.conditionals name isConditional
  · rw [(validated.parameters parameter isParameter).1, satisfied]

theorem valuesAsMap_of_conditional (validated : Validated experiment row) {name : String}
    (isConditional : name ∈ experiment.conditionalNames) : valuesAsMap experiment row name = row name := by
  obtain ⟨value, assigned⟩ := Option.isSome_iff_exists.mp (validated.conditionals name isConditional)
  rw [valuesAsMap, if_pos (List.mem_append_right _ isConditional), parameterValue_of_some assigned, assigned]

/-- `get_assignments` keeps the row on the names that are kept, and drops all others. -/
theorem getAssignments_of_validated (kept : CategoricalKept experiment) (validated : Validated experiment row)
    (name : String) :
    (Kept experiment row name → getAssignments experiment row name = row name) ∧
      (¬Kept experiment row name → getAssignments experiment row name = none) := by
  have sameConditions : ∀ parameter ∈ allParameters experiment,
      parameterConditionsSatisfied parameter (valuesAsMap experiment row) = parameterConditionsSatisfied parameter row :=
    fun parameter isParameter => conditionsSatisfied_congr kept
      (fun name isConditional => valuesAsMap_of_conditional validated isConditional) isParameter
  have found : ((allParameters experiment).any fun parameter => parameter.name = name &&
      parameterConditionsSatisfied parameter (valuesAsMap experiment row)) = true ↔
      ∃ parameter ∈ allParameters experiment, parameter.name = name ∧
        parameterConditionsSatisfied parameter row = true := by
    rw [List.any_eq_true]
    apply exists_congr
    intro parameter
    apply and_congr_right
    intro isParameter
    rw [Bool.and_eq_true, decide_eq_true_eq, sameConditions parameter isParameter]
  constructor
  · intro isKept
    obtain ⟨value, assigned⟩ := Option.isSome_iff_exists.mp (validated.isSome_of_kept isKept)
    rw [getAssignments, assigned, parameterValue_of_some assigned, Option.getD_some]
    rcases isKept with isConditional | satisfied
    · rw [if_pos isConditional]
    · rw [if_pos (found.mpr satisfied), ite_self]
  · intro notKept
    rw [Kept, not_or] at notKept
    rw [getAssignments, if_neg notKept.1, if_neg (mt found.mp notKept.2)]

theorem kept_congr (kept : CategoricalKept experiment)
    (same : ∀ name ∈ experiment.conditionalNames, row name = other name) {name : String} :
    Kept experiment row name ↔ Kept experiment other name := by
  apply or_congr_right
  apply exists_congr
  intro parameter
  apply and_congr_right
  intro isParameter
  rw [conditionsSatisfied_congr kept same isParameter]

theorem getAssignments_conditional (kept : CategoricalKept experiment) (validated : Validated experiment row)
    {name : String} (isConditional : name ∈ experiment.conditionalNames) :
    getAssignments experiment row name = row name :=
  (getAssignments_of_validated kept validated name).1 (Or.inl isConditional)

theorem keepsSatisfied_of_validated (kept : CategoricalKept experiment) (validated : Validated experiment row) :
    KeepsSatisfied experiment row := by
  constructor
  · intro name
    have read := getAssignments_of_validated kept validated name
    by_cases isKept : Kept experiment row name
    · rw [read.1 isKept, validated.isSome_of_kept isKept]
      exact iff_of_true rfl isKept
    · rw [read.2 isKept]
      exact iff_of_false Bool.false_ne_true isKept
  · intro name value assigned
    have read := getAssignments_of_validated kept validated name
    by_cases isKept : Kept experiment row name
    · rw [← read.1 isKept]
      exact assigned
    · rw [read.2 isKept] at assigned
      cases assigned

/-- What is read of a validated row is a validated row. -/
theorem Validated.reread (convertible : Convertible experiment) (validated : Validated experiment row) :
    Validated experiment (getAssignments experiment row) := by
  have kept := convertible.categorical
  have read := getAssignments_of_validated kept validated
  have sameConditions : ∀ parameter ∈ allParameters experiment,
      parameterConditionsSatisfied parameter (getAssignments experiment row) =
        parameterConditionsSatisfied parameter row :=
    fun _ isParameter => conditionsSatisfied_congr kept
      (fun _ isConditional => getAssignments_conditional kept validated isConditional) isParameter
  constructor
  · intro name isConditional
    rw [getAssignments_conditional kept validated isConditional]
    exact validated.conditionals name isConditional
  · intro parameter isParameter
    obtain ⟨assignedIff, transformed⟩ := validated.parameters parameter isParameter
    rw [sameConditions parameter isParameter]
    by_cases isKept : Kept experiment row parameter.name
    · rw [(read parameter.name).1 isKept]
      exact ⟨assignedIff, transformed⟩
    · rw [(read parameter.name).2 isKept]
      refine ⟨?_, fun _ impossible => nomatch impossible⟩
      cases satisfied : parameterConditionsSatisfied parameter row with
      | false => rfl
      | true => exact absurd (Or.inr ⟨parameter, isParameter, rfl, satisfied⟩) isKept
  · intro constraint isConstraint
    have same : ∀ term ∈ constraint.terms, getAssignments experiment row term.name = row term.name := by
      intro term isTerm
      obtain ⟨parameter, isParameter, named, plain⟩ := convertible.constraints constraint isConstraint term isTerm
      apply (read term.name).1
      refine Or.inr ⟨parameter, isParameter, named, ?_⟩
      rw [parameterConditionsSatisfied, plain, List.all_nil]
    rw [constraintSatisfied_congr same]
    exact validated.constraints constraint isConstraint

theorem getAssignments_idempotent (convertible : Convertible experiment) (validated : Validated experiment row) :
    getAssignments experiment (getAssignments experiment row) = getAssignments experiment row := by
  have kept := convertible.categorical
  funext name
  have again := getAssignments_of_validated kept (validated.reread convertible) name
  have sameKept : Kept experiment (getAssignments experiment row) name ↔ Kept experiment row name :=
    kept_congr kept fun _ isConditional => getAssignments_conditional kept validated isConditional
  by_cases isKept : Kept experiment row name
  · exact again.1 (sameKept.mpr isKept)
  · rw [again.2 (mt sameKept.mp isKept), (getAssignments_of_validated kept validated name).2 isKept]

end Validated

/-! ### The array over the unconditioned experiment -/

section Array

variable {experiment unconditioned : ExperimentMeta} {row : AssignmentsMap}

theorem exists_lastValue {parameter : ExperimentParameter} (twoValues : TwoValues parameter) :
    ∃ value, lastValue parameter = some value := by
  unfold lastValue
  by_cases categorical : parameter.isCategorical = true
  · rw [if_pos categorical]
    have notEmpty : parameter.allCategoricalValues ≠ [] := by
      intro empty
      have two := twoValues.two categorical
      rw [ExperimentParameter.activeCategoricalValues, empty] at two
      exact absurd two (by decide)
    exact ⟨_, by rw [List.getLast?_eq_some_getLast notEmpty, Option.map_some]⟩
  · rw [if_neg categorical]
    by_cases grid : parameter.isGrid = true
    · rw [if_pos grid]
      have notEmpty : parameter.gridValues ≠ [] := List.ne_nil_of_length_pos (of_decide_eq_true grid)
      exact ⟨_, List.getLast?_eq_some_getLast notEmpty⟩
    · exact ⟨_, if_neg grid⟩

/-- The copy of a parameter in the unconditioned experiment. -/
structure Unconditions (parameter copy : ExperimentParameter) : Prop where
  name : copy.name = parameter.name
  deleted : copy.deleted = parameter.deleted
  standsIn : parameter.conditions ≠ [] → ∃ value, copy.replacementValueIfMissing = some value ∧
    StandsIn parameter value

theorem exists_unconditionedParameter {parameter : ExperimentParameter} (twoValues : TwoValues parameter) :
    ∃ copy, unconditionedParameter parameter = .ok copy ∧ Unconditions parameter copy := by
  obtain ⟨value, isLast⟩ := exists_lastValue twoValues
  unfold unconditionedParameter
  by_cases replaced : parameter.conditions ≠ [] ∧ replacementIsFalsy parameter = true
  · rw [if_pos replaced, isLast]
    refine ⟨_, rfl, rfl, rfl, fun _ => ⟨value, rfl, ?_⟩⟩
    rw [StandsIn, if_pos replaced.2]
    exact isLast
  · rw [if_neg replaced]
    refine ⟨parameter, rfl, rfl, rfl, ?_⟩
    intro conditioned
    have truthy : ¬replacementIsFalsy parameter = true := fun falsy => replaced ⟨conditioned, falsy⟩
    cases set : parameter.replacementValueIfMissing with
    | none => exact absurd (by rw [replacementIsFalsy, set]; rfl) truthy
    | some own => exact ⟨own, rfl, by rw [StandsIn, if_neg truthy, set]⟩

/-- The parameters are copies of the experiment's, and the conditionals. -/
structure IsUnconditioned (experiment unconditioned : ExperimentMeta) (copies : List ExperimentParameter) : Prop where
  copied : List.Forall₂ Unconditions experiment.allParametersUnsorted copies
  parameters : unconditioned.allParametersUnsorted =
    copies ++ experiment.conditionals.map convertConditionalToCategoricalParameter

theorem exists_unconditioned (kept : CategoricalKept experiment) :
    ∃ unconditioned copies, convertToUnconditionedExperiment experiment = .ok unconditioned ∧
      IsUnconditioned experiment unconditioned copies := by
  obtain ⟨copies, converted, copied⟩ := mapM_of_each fun parameter isParameter =>
    exists_unconditionedParameter (kept.twoValues parameter isParameter)
  refine ⟨{ experiment with
    conditionals := []
    allParametersUnsorted := copies ++ experiment.conditionals.map convertConditionalToCategoricalParameter }, copies,
    ?_, copied, rfl⟩
  rw [convertToUnconditionedExperiment, converted]
  rfl

/-- The first active parameter of a name; sorting by name does not change which one it is. -/
theorem find_allParameters (name : String) : ((allParameters experiment).find? fun parameter => parameter.name = name) =
    experiment.allParametersUnsorted.find? fun parameter => !parameter.deleted && parameter.name = name := by
  rw [← List.head?_filter, allParameters, filter_insertionSort, List.filter_filter, List.head?_filter]
  congr 1
  funext parameter
  rw [Bool.and_comm]

theorem find_copy {parameters copies : List ExperimentParameter} (related : List.Forall₂ Unconditions parameters copies)
    {name : String} {first : ExperimentParameter}
    (found : (parameters.find? fun parameter => !parameter.deleted && parameter.name = name) = some first) :
    ∃ copy, (copies.find? fun parameter => !parameter.deleted && parameter.name = name) = some copy ∧
      Unconditions first copy := by
  induction related with
  | nil => cases found
  | @cons parameter copy parameters copies copied _ inductionHypothesis =>
      rw [List.find?_cons] at found ⊢
      rw [copied.name, copied.deleted]
      cases isFirst : !parameter.deleted && decide (parameter.name = name) with
      | true =>
          rw [isFirst, Option.some.injEq] at found
          exact ⟨copy, rfl, found ▸ copied⟩
      | false =>
          rw [isFirst] at found
          exact inductionHypothesis found

theorem exists_first {parameter : ExperimentParameter} (isParameter : parameter ∈ allParameters experiment) :
    ∃ first ∈ allParameters experiment, first.name = parameter.name ∧
      ((allParameters experiment).find? fun other => other.name = parameter.name) = some first := by
  have isSome : ((allParameters experiment).find? fun other => other.name = parameter.name).isSome = true := by
    rw [List.find?_isSome]
    exact ⟨parameter, isParameter, decide_eq_true rfl⟩
  obtain ⟨first, found⟩ := Option.isSome_iff_exists.mp isSome
  have named : first.name = parameter.name := by simpa using List.find?_some found
  exact ⟨first, List.mem_of_find?_eq_some found, named, found⟩

/-- A parameter that is not assigned has conditions, as these do not hold. -/
theorem Validated.conditioned (validated : Validated experiment row) {parameter : ExperimentParameter}
    (isParameter : parameter ∈ allParameters experiment) (absent : row parameter.name = none) :
    parameter.conditions ≠ [] := by
  intro plain
  have satisfied := (validated.parameters parameter isParameter).1
  rw [absent, parameterConditionsSatisfied, plain] at satisfied
  cases satisfied

variable {copies : List ExperimentParameter}

/-- What is filled in for a parameter that is not assigned stands in for the first parameter of its name. -/
theorem filledValues_of_absent (validated : Validated experiment row)
    (isUnconditioned : IsUnconditioned experiment unconditioned copies) {parameter : ExperimentParameter}
    (isParameter : parameter ∈ allParameters experiment) (absent : row parameter.name = none) :
    ∃ first value, ((allParameters experiment).find? fun other => other.name = parameter.name) = some first ∧
      StandsIn first value ∧ filledValues row (allParameters unconditioned) parameter.name = some value := by
  obtain ⟨first, isFirst, named, found⟩ := exists_first isParameter
  have conditioned := validated.conditioned isFirst (named ▸ absent)
  obtain ⟨copy, copyFound, copied⟩ := find_copy isUnconditioned.copied ((find_allParameters _).symm.trans found)
  obtain ⟨value, set, standsIn⟩ := copied.standsIn conditioned
  refine ⟨first, value, found, standsIn, ?_⟩
  have firstCopy : ((allParameters unconditioned).find? fun other => other.name = parameter.name) = some copy := by
    rw [find_allParameters, isUnconditioned.parameters, List.find?_append, copyFound, Option.some_or]
  rw [filledValues_eq, absent, Option.none_or]
  exact replacementFor_of_first firstCopy set

theorem exists_named (isUnconditioned : IsUnconditioned experiment unconditioned copies) {name : String}
    (isName : name ∈ experiment.activeParameterNames ∨ name ∈ experiment.conditionalNames) :
    ∃ parameter ∈ allParameters unconditioned, parameter.name = name := by
  rcases isName with isActive | isConditional
  · obtain ⟨parameter, member, rfl⟩ := List.mem_map.mp isActive
    rw [List.mem_filter, Bool.not_eq_true'] at member
    obtain ⟨copy, isCopied, copied⟩ := exists_answer isUnconditioned.copied member.1
    refine ⟨copy, mem_allParameters.mpr ⟨?_, copied.deleted.trans member.2⟩, copied.name⟩
    rw [isUnconditioned.parameters]
    exact List.mem_append_left _ isCopied
  · obtain ⟨conditional, member, rfl⟩ := List.mem_map.mp isConditional
    refine ⟨convertConditionalToCategoricalParameter conditional, mem_allParameters.mpr ⟨?_, rfl⟩, rfl⟩
    rw [isUnconditioned.parameters]
    exact List.mem_append_right _ (List.mem_map_of_mem member)

theorem filledValues_of_assigned {name : String} {value : ℚ} (assigned : row name = some value) :
    filledValues row (allParameters unconditioned) name = some value := by
  rw [filledValues_eq, assigned, Option.some_or]

theorem standsIn_unique {parameter : ExperimentParameter} {first second : ℚ} (isFirst : StandsIn parameter first)
    (isSecond : StandsIn parameter second) : first = second := by
  unfold StandsIn at isFirst isSecond
  split at isFirst
  · rename_i falsy
    rw [if_pos falsy] at isSecond
    exact Option.some.inj (isFirst.symm.trans isSecond)
  · rename_i truthy
    rw [if_neg truthy] at isSecond
    exact Option.some.inj (isFirst.symm.trans isSecond)

theorem isActive_iff {name : String} :
    name ∈ experiment.activeParameterNames ↔ ∃ parameter ∈ allParameters experiment, parameter.name = name := by
  simp only [ExperimentMeta.activeParameterNames, List.mem_map, List.mem_filter, mem_allParameters, Bool.not_eq_true']

theorem Validated.filled (validated : Validated experiment row)
    (isUnconditioned : IsUnconditioned experiment unconditioned copies) {name : String}
    (isName : name ∈ experiment.activeParameterNames ∨ name ∈ experiment.conditionalNames) :
    (filledValues row (allParameters unconditioned) name).isSome = true := by
  cases assigned : row name with
  | some value => rw [filledValues_of_assigned assigned, Option.isSome_some]
  | none =>
      rcases isName with isActive | isConditional
      · obtain ⟨parameter, isParameter, rfl⟩ := isActive_iff.mp isActive
        obtain ⟨_, _, _, _, filled⟩ := filledValues_of_absent validated isUnconditioned isParameter assigned
        rw [filled, Option.isSome_some]
      · have conditionalAssigned := validated.conditionals name isConditional
        rw [assigned] at conditionalAssigned
        cases conditionalAssigned

/-- The array agrees with the conditional experiment exactly if the replacement values stand in for what is missing. -/
theorem arrayAgrees_iff (kept : CategoricalKept experiment) (validated : Validated experiment row)
    (isUnconditioned : IsUnconditioned experiment unconditioned copies) :
    ArrayAgrees experiment unconditioned row ↔ ReplacementsKept experiment row := by
  constructor
  · intro agrees parameter isParameter absent replacement set first found
    obtain ⟨_, value, isFirst, standsIn, filled⟩ :=
      filledValues_of_absent validated isUnconditioned isParameter absent
    obtain rfl := Option.some.inj (found.symm.trans isFirst)
    have isName := isActive_iff.mpr ⟨parameter, isParameter, rfl⟩
    have isEntry := hasEntry_iff.mpr
      ⟨exists_named isUnconditioned (Or.inl isName), congrArg (fun filled => filled.getD 0) filled⟩
    rw [← agrees.replaced parameter isParameter absent replacement set value isEntry]
    exact standsIn
  · intro replacementsKept
    constructor
    · intro name isName
      refine ⟨validated.filled isUnconditioned isName, ?_⟩
      exact ⟨_, hasEntry_iff.mpr ⟨exists_named isUnconditioned isName, rfl⟩⟩
    · intro name value read entry isEntry
      have assigned := (keepsSatisfied_of_validated kept validated).same name value read
      rw [← (hasEntry_iff.mp isEntry).2, filledValues_of_assigned assigned, Option.getD_some]
    · intro parameter isParameter absent replacement set entry isEntry
      obtain ⟨first, value, found, standsIn, filled⟩ :=
        filledValues_of_absent validated isUnconditioned isParameter absent
      rw [← (hasEntry_iff.mp isEntry).2, filled, Option.getD_some]
      exact standsIn_unique standsIn
        (replacementsKept parameter isParameter absent replacement set first found)

end Array

/-- With distinct names of active parameters, only a replacement value of 0 can be lost. -/
theorem replacementsKept_of_distinct {experiment : ExperimentMeta} {row : AssignmentsMap}
    (distinct : ((allParameters experiment).map (·.name)).Nodup) :
    ReplacementsKept experiment row ↔ ∀ parameter ∈ allParameters experiment, row parameter.name = none →
      parameter.replacementValueIfMissing = some 0 → lastValue parameter = some 0 := by
  have firstIs : ∀ parameter ∈ allParameters experiment, ∀ first,
      ((allParameters experiment).find? fun other => other.name = parameter.name) = some first → first = parameter := by
    intro parameter isParameter first found
    have named : first.name = parameter.name := by simpa using List.find?_some found
    exact List.inj_on_of_nodup_map distinct (List.mem_of_find?_eq_some found) isParameter named
  constructor
  · intro kept parameter isParameter absent isZero
    obtain ⟨first, _, _, found⟩ := exists_first isParameter
    have standsIn := kept parameter isParameter absent 0 isZero first found
    rw [firstIs parameter isParameter first found, StandsIn, replacementIsFalsy, isZero, if_pos (by decide)] at standsIn
    exact standsIn
  · intro zeros parameter isParameter absent replacement set first found
    rw [firstIs parameter isParameter first found, StandsIn, replacementIsFalsy, set]
    by_cases isZero : replacement = 0
    · rw [isZero, if_pos (by decide)]
      exact zeros parameter isParameter absent (isZero ▸ set)
    · rw [if_neg (by simpa using isZero)]

/-- On every experiment that an accepted create and accepted updates lead to, and every row that passes the validation:
    the unconditioned view agrees with the conditional one exactly if the replacement values are kept. -/
theorem unconditioned_agrees_iff {sections : OtherSections} {maxVariables : ℕ}
    {findInteriorPoint : List Halfspace → Bool} {className : String} {body : JsonObject} {created : ExperimentMeta}
    (accepted : createExperiment (constrainedSections sections maxVariables findInteriorPoint) className body =
      .ok created)
    {updates : List (JsonObject × ExperimentMeta)}
    (run : AcceptedUpdates (constrainedSections sections maxVariables findInteriorPoint) created updates)
    {experiment : ExperimentMeta} (reached : experiment ∈ Trace.reached created updates)
    {row : AssignmentsMap} (passed : validateAssignmentsMap row experiment = .ok ()) :
    ViewsAgree experiment row ↔ ReplacementsKept experiment row := by
  have convertible := convertible_of_run accepted run experiment reached
  have kept := convertible.categorical
  have validated := validated_iff.mp passed
  obtain ⟨unconditioned, copies, converted, isUnconditioned⟩ := exists_unconditioned kept
  rw [← arrayAgrees_iff kept validated isUnconditioned]
  constructor
  · intro agrees
    obtain ⟨other, otherConverted, otherAgrees⟩ := agrees.array
    obtain rfl := Except.ok.inj (converted.symm.trans otherConverted)
    exact otherAgrees
  · intro agrees
    exact {
      array := ⟨unconditioned, converted, agrees⟩
      keeps := keepsSatisfied_of_validated kept validated
      idempotent := getAssignments_idempotent convertible validated
      validated := validated_iff.mpr (validated.reread convertible) }

/-- A parameter `x` under the value `a` of the conditional `c`, with this default value, and a parameter `z` that is
    always there. -/
def requestReplacing (default : ℚ) : JsonObject :=
  [("name", .string "an experiment"),
    ("conditionals", .array [.object [("name", .string "c"), ("values", .array [.string "a", .string "b"])]]),
    ("parameters", .array [parameter "x" [("c", .string "a")], parameter "z" []])]
where
  parameter (name : String) (conditions : JsonObject) : Json :=
    .object [("name", .string name), ("type", .string "double"),
      ("bounds", .object [("min", .number 0), ("max", .number 1)]), ("conditions", .object conditions),
      ("default_value", .number default)]

/-- The experiment as it is stored. -/
def experimentReplacing (default : ℚ) : ExperimentMeta where
  conditionals := [⟨"c", [⟨"a", 1⟩, ⟨"b", 2⟩]⟩]
  allParametersUnsorted :=
    [{ name := "x", bounds := ⟨0, 1⟩, replacementValueIfMissing := some default, conditions := [⟨"c", [1]⟩] },
      { name := "z", bounds := ⟨0, 1⟩, replacementValueIfMissing := some default }]

/-- The conditional is `b`, so `x` is not there. -/
def rowWithoutX : AssignmentsMap :=
  (AssignmentsMap.empty.set "c" 2).set "z" (1 / 4)

/-- A parameter whose condition fails is replaced by one half in both views. -/
theorem unconditioned_agrees_half : ViewsAgree (experimentReplacing (1 / 2)) rowWithoutX := by
  have accepted : createExperiment (constrainedSections permissiveSections 10 fun _ => true) "Experiment"
      (requestReplacing (1 / 2)) = .ok (experimentReplacing (1 / 2)) := by
    decide +kernel
  have run : AcceptedUpdates (constrainedSections permissiveSections 10 fun _ => true)
      (experimentReplacing (1 / 2)) [] := trivial
  apply (unconditioned_agrees_iff accepted run List.mem_cons_self (by decide +kernel)).mpr
  rw [replacementsKept_of_distinct (by decide)]
  decide +kernel

/-- The default value 0 of `x` is not kept: its maximum stands in for it. -/
theorem unconditioned_replaces_zero : ∃ body created row,
    createExperiment (constrainedSections permissiveSections 10 fun _ => true) "Experiment" body = .ok created ∧
      validateAssignmentsMap row created = .ok () ∧ ¬ViewsAgree created row := by
  refine ⟨requestReplacing 0, experimentReplacing 0, rowWithoutX, by decide +kernel, by decide +kernel, ?_⟩
  intro agrees
  obtain ⟨unconditioned, converted, array⟩ := agrees.array
  have isUnconditioned : unconditioned = { experimentReplacing 0 with
      conditionals := []
      allParametersUnsorted :=
        [{ name := "x", bounds := ⟨0, 1⟩, replacementValueIfMissing := some 1, conditions := [⟨"c", [1]⟩] },
          { name := "z", bounds := ⟨0, 1⟩, replacementValueIfMissing := some 0 },
          { name := "c", paramType := .categorical, allCategoricalValues := [⟨"a", 1, false⟩, ⟨"b", 2, false⟩] }] } :=
    Except.ok.inj (converted.symm.trans (by decide +kernel))
  rw [isUnconditioned] at array
  have same := array.replaced
    { name := "x", bounds := ⟨0, 1⟩, replacementValueIfMissing := some 0, conditions := [⟨"c", [1]⟩] }
    (by decide +kernel) (by decide +kernel) 0 rfl 1 (hasEntry_iff.mpr (by decide +kernel))
  exact absurd same (by decide)

end Zigopt.Assignments
