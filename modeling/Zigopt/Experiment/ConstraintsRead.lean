/-
Module: Zigopt.Experiment.ConstraintsRead
Layer: Experiment
Purpose: What an accepted create request stores of its constraints. The kinds of the parameters are compared before
  their names are stripped, so a name with whitespace around it may mix them.
Main exports: WellFormed, wellFormed_of_read, UnpaddedKinds, oneKind_iff, getConstraintsFromJson_ok
-/
import Zigopt.Experiment.Constraints
import Zigopt.Experiment.ParameterNames

namespace Zigopt.Experiment

open Raising Assignments LinearForm

/-! ### What is read -/

def requestedConstraints (body : JsonObject) : List JsonObject :=
  ((ValidationType.arrayOf .object).read (body.get "linear_constraints")).getD []

def requestedTerms (constraint : JsonObject) : List JsonObject :=
  ((ValidationType.arrayOf .object).read (constraint.get "terms")).getD []

/-- The weight of the term is not 0. -/
def keepsTerm (term : JsonObject) : Bool :=
  ValidationType.number.read (term.get "weight") ≠ some 0

/-- The term is stored with the name that the request has, stripped, which is that of a plain numerical parameter. -/
structure TermRead (info : ParameterInfo) (json : JsonObject) (term : Term) : Prop where
  name : ∃ rawName, rawName? json = some rawName ∧ strip rawName = term.name
  numerical : term.name ∈ info.doubleParamsNames ∨ term.name ∈ info.integerParamsNames
  unconditioned : term.name ∈ info.unconditionedParamsNames
  notLog : term.name ∉ info.logTransformParamsNames
  notGrid : term.name ∉ info.gridParamNames

/-- The terms so far, and that the loop remembers their names. -/
structure TermsRead (info : ParameterInfo) (requested : List JsonObject) (loop : TermLoop) : Prop where
  read : List.Forall₂ (TermRead info) (requested.filter keepsTerm) loop.termList
  remembered : loop.constraintVarSet = loop.termList.map (·.name)
  distinct : (loop.termList.map (·.name)).Nodup

section Reading

variable {maxVariables : ℕ} {info : ParameterInfo}

theorem validateVariableName_ok {json : JsonObject} {rawName : Option String} {name : String}
    (read : getOptWithValidation json "name" .string = .ok rawName)
    (validated : validateVariableName rawName = .ok name) :
    ∃ rawName, rawName? json = some rawName ∧ strip rawName = name := by
  cases rawName with
  | none => cases validated
  | some text => exact ⟨text, (getOptWithValidation_eq_some rfl).mp read, (validateNameLength_eq_ok.mp validated).2.2.2⟩

theorem TermsRead.add {requested : List JsonObject} {loop next : TermLoop} {json : JsonObject}
    (before : TermsRead info requested loop) (added : addConstraintTerm maxVariables info loop json = .ok next) :
    TermsRead info (requested ++ [json]) next := by
  unfold addConstraintTerm at added
  rw [bind_eq_ok] at added
  obtain ⟨coeff, readWeight, added⟩ := added
  have weight := getOptWithValidation_eq_read rfl readWeight
  by_cases isZero : coeff = some 0
  · rw [if_pos isZero, pure_eq_ok] at added
    have dropped : keepsTerm json = false := by
      simp [keepsTerm, weight, isZero]
    rw [← added]
    refine ⟨?_, before.remembered, before.distinct⟩
    rw [List.filter_append, List.filter_singleton, dropped]
    simpa using before.read
  · rw [if_neg isZero] at added
    have kept : keepsTerm json = true := by
      simp [keepsTerm, weight, isZero]
    simp only [bind_eq_ok, pure_eq_ok, checkTermName, raiseIf_eq_ok, not_and_or, not_not] at added
    obtain ⟨rawName, readName, name, validated, _, ⟨_, _, _, _, _, numerical, _, unconditioned, _, notLog, _, notGrid,
      fresh⟩, rfl⟩ := added
    rw [before.remembered] at fresh
    refine ⟨?_, ?_, ?_⟩
    · rw [List.filter_append, List.filter_singleton, kept]
      exact List.rel_append before.read (.cons
        ⟨validateVariableName_ok readName validated, numerical, unconditioned, notLog, notGrid⟩ .nil)
    · simp only [before.remembered, addToSet, if_neg fresh, List.map_append, List.map_singleton]
    · rw [List.map_append, List.nodup_append']
      exact ⟨before.distinct, by simp, by simpa using fresh⟩

theorem eq_of_dedup {α : Type} [DecidableEq α] {items : List α} (few : ¬items.dedup.length > 1) {first second : α}
    (firstMember : first ∈ items) (secondMember : second ∈ items) : first = second := by
  rw [← List.mem_dedup] at firstMember secondMember
  cases kinds : items.dedup with
  | nil =>
      rw [kinds] at firstMember
      cases firstMember
  | cons kind rest =>
      rw [kinds] at few firstMember secondMember
      cases rest with
      | nil => rw [List.mem_singleton.mp firstMember, List.mem_singleton.mp secondMember]
      | cons other rest => simp at few

/-- A stored constraint has the terms that the request gives a weight, and they all look alike in the request. -/
structure ConstraintRead (info : ParameterInfo) (json : JsonObject) (constraint : ExperimentConstraint) : Prop where
  terms : List.Forall₂ (TermRead info) ((requestedTerms json).filter keepsTerm) constraint.terms
  distinct : (constraint.terms.map (·.name)).Nodup
  alike : ∀ first ∈ requestedTerms json, ∀ second ∈ requestedTerms json,
    isDoubleTerm info first = isDoubleTerm info second

theorem addConstraint_ok {state next : List ExperimentConstraint × List String} {json : JsonObject}
    (added : addConstraint maxVariables info state json = .ok next) :
    ∃ constraint, next.1 = state.1 ++ [constraint] ∧ ConstraintRead info json constraint := by
  simp only [addConstraint, bind_eq_ok, raiseIf_eq_ok, pure_eq_ok] at added
  obtain ⟨type, _, terms, readTerms, rhs, _, _, _, _, few, loop, looped, rfl⟩ := added
  have sameTerms : requestedTerms json = terms.getD [] := by
    rw [requestedTerms, getOptWithValidation_eq_read rfl readTerms]
  have start : TermsRead info [] { constrainedIntegerVariables := state.2 } := ⟨.nil, rfl, List.nodup_nil⟩
  have read : TermsRead info (terms.getD []) loop :=
    foldlM_induction (TermsRead info) (fun _ _ _ _ before step => before.add step) start looped
  refine ⟨_, rfl, ?_, read.distinct, ?_⟩
  · rw [sameTerms]
    exact read.read
  · rw [sameTerms]
    intro first isFirst second isSecond
    exact eq_of_dedup few (List.mem_map_of_mem isFirst) (List.mem_map_of_mem isSecond)

/-- Each accepted constraint has the terms and the threshold of its request. -/
theorem getConstraintsFromJson_ok {body : JsonObject} {parameters : List ExperimentParameter}
    {constraints : List ExperimentConstraint}
    (accepted : getConstraintsFromJson maxVariables body parameters = .ok constraints) :
    List.Forall₂ (ConstraintRead (extractParameterInfo parameters)) (requestedConstraints body) constraints := by
  simp only [getConstraintsFromJson, bind_eq_ok, pure_eq_ok] at accepted
  obtain ⟨requested, readRequested, final, looped, rfl⟩ := accepted
  have sameRequest : requestedConstraints body = requested.getD [] := by
    rw [requestedConstraints, getOptWithValidation_eq_read rfl readRequested]
  rw [sameRequest]
  refine foldlM_induction (fun done (state : List ExperimentConstraint × List String) =>
    List.Forall₂ (ConstraintRead (extractParameterInfo parameters)) done state.1) ?_ .nil looped
  intro done state json next before added
  obtain ⟨constraint, isNext, read⟩ := addConstraint_ok added
  rw [isNext]
  exact List.rel_append before (.cons read .nil)

end Reading

/-! ### Stored constraints -/

/-- The constraint is one of plain numerical parameters of one kind, each of them named once. -/
structure WellFormed (parameters : List ExperimentParameter) (constraint : ExperimentConstraint) : Prop where
  oneKind : ∀ first ∈ parameters, ∀ second ∈ parameters, first.name ∈ constraint.terms.map (·.name) →
    second.name ∈ constraint.terms.map (·.name) → first.paramType = second.paramType
  plain : ∀ parameter ∈ parameters, parameter.name ∈ constraint.terms.map (·.name) →
    parameter.isCategorical = false ∧ parameter.isGrid = false ∧ parameter.conditions = [] ∧
      parameter.transformation ≠ .log
  known : ∀ term ∈ constraint.terms, ∃ parameter ∈ parameters, parameter.name = term.name
  distinct : (constraint.terms.map (·.name)).Nodup

section Stored

variable {parameters : List ExperimentParameter} {json : JsonObject} {constraint : ExperimentConstraint}

theorem mem_namesWhere {property : ExperimentParameter → Bool} {name : String} :
    name ∈ namesWhere property parameters ↔ ∃ parameter ∈ parameters, property parameter = true ∧ parameter.name = name := by
  simp [namesWhere, and_assoc]

/-- The parameter of a name, where names are distinct. -/
theorem mem_namesWhere_iff (distinct : (parameters.map (·.name)).Nodup) {property : ExperimentParameter → Bool}
    {parameter : ExperimentParameter} (isParameter : parameter ∈ parameters) :
    parameter.name ∈ namesWhere property parameters ↔ property parameter = true := by
  rw [mem_namesWhere]
  constructor
  · rintro ⟨other, isOther, holds, sameName⟩
    rwa [← List.inj_on_of_nodup_map distinct isOther isParameter sameName]
  · exact fun holds => ⟨parameter, isParameter, holds, rfl⟩

theorem isNumerical_iff {parameter : ExperimentParameter} :
    isNumerical parameter = true ↔ parameter.isCategorical = false := by
  unfold isNumerical ExperimentParameter.isCategorical
  cases parameter.paramType with
  | double => decide
  | int => decide
  | categorical => decide

theorem exists_termRead (read : ConstraintRead (extractParameterInfo parameters) json constraint) {name : String}
    (named : name ∈ constraint.terms.map (·.name)) :
    ∃ term ∈ constraint.terms, term.name = name ∧ ∃ requested ∈ requestedTerms json, keepsTerm requested = true ∧
      TermRead (extractParameterInfo parameters) requested term := by
  obtain ⟨term, isTerm, isName⟩ := List.mem_map.mp named
  obtain ⟨requested, isRequested, termRead⟩ := exists_item read.terms isTerm
  rw [List.mem_filter] at isRequested
  exact ⟨term, isTerm, isName, requested, isRequested.1, isRequested.2, termRead⟩

theorem plain_of_read (distinct : (parameters.map (·.name)).Nodup)
    (read : ConstraintRead (extractParameterInfo parameters) json constraint) :
    ∀ parameter ∈ parameters, parameter.name ∈ constraint.terms.map (·.name) →
      parameter.isCategorical = false ∧ parameter.isGrid = false ∧ parameter.conditions = [] ∧
        parameter.transformation ≠ .log := by
  intro parameter isParameter named
  obtain ⟨term, _, isName, _, _, _, termRead⟩ := exists_termRead read named
  have unconditioned := termRead.unconditioned
  have notLog := termRead.notLog
  have notGrid := termRead.notGrid
  rw [isName] at unconditioned notLog notGrid
  simp only [extractParameterInfo, mem_namesWhere_iff distinct isParameter, Bool.and_eq_true, decide_eq_true_eq,
    not_and] at unconditioned notLog notGrid
  refine ⟨isNumerical_iff.mp unconditioned.1, ?_, unconditioned.2, notLog unconditioned.1⟩
  simpa [ExperimentParameter.isGrid] using notGrid

theorem known_of_read (read : ConstraintRead (extractParameterInfo parameters) json constraint) :
    ∀ term ∈ constraint.terms, ∃ parameter ∈ parameters, parameter.name = term.name := by
  intro term isTerm
  obtain ⟨requested, _, termRead⟩ := exists_item read.terms isTerm
  obtain ⟨parameter, isParameter, _, isName⟩ := mem_namesWhere.mp termRead.unconditioned
  exact ⟨parameter, isParameter, isName⟩

/-- What is read is well formed but for the kinds of the parameters. -/
theorem wellFormed_of_read (distinct : (parameters.map (·.name)).Nodup)
    (read : ConstraintRead (extractParameterInfo parameters) json constraint)
    (oneKind : ∀ first ∈ parameters, ∀ second ∈ parameters, first.name ∈ constraint.terms.map (·.name) →
      second.name ∈ constraint.terms.map (·.name) → first.paramType = second.paramType) :
    WellFormed parameters constraint where
  oneKind := oneKind
  distinct := read.distinct
  plain := plain_of_read distinct read
  known := known_of_read read

end Stored

/-! ### Kinds of parameters -/

/-- The request has a parameter of this type and name. -/
def RequestedAs (body : JsonObject) (type name : String) : Prop :=
  ∃ json ∈ requestedParameters body, ValidationType.string.read (json.get "type") = some type ∧
    ∃ rawName, rawName? json = some rawName ∧ strip rawName = name

/-- No term of a double parameter has whitespace around its name, in a constraint that has a term of an int one. -/
def UnpaddedKinds (body : JsonObject) : Prop :=
  ∀ constraint ∈ requestedConstraints body,
    ∀ first ∈ requestedTerms constraint, ∀ second ∈ requestedTerms constraint,
      keepsTerm first = true → keepsTerm second = true → ∀ firstName secondName,
        rawName? first = some firstName → rawName? second = some secondName →
          RequestedAs body "int" (strip firstName) → RequestedAs body "double" (strip secondName) →
            strip secondName = secondName

theorem setExperimentParameterFromJson_type {json : JsonObject} {experimentType : ExperimentType}
    {conditionals : List ExperimentConditional} {result : ExperimentParameter}
    (accepted : setExperimentParameterFromJson json experimentType conditionals = .ok result) :
    ∃ type, ValidationType.string.read (json.get "type") = some type ∧
      parameterTypeNamed type = some result.paramType := by
  unfold setExperimentParameterFromJson at accepted
  simp only [bind_eq_ok] at accepted
  rcases accepted with ⟨name, _, _, typed, _, transformed, _, bounded, _, priorSet, _, valuesSet, _, gridSet, _,
    defaultSet, conditionsSet⟩
  rcases setTransformationFromJson_ok transformed with ⟨_, rfl⟩
  rcases setBoundsFromJson_ok bounded with ⟨_, rfl⟩
  rcases setPriorFromJson_ok priorSet with ⟨_, rfl⟩
  rcases setCategoricalValuesFromJson_ok valuesSet with ⟨values, _, rfl⟩
  rcases maybeSetGridValues_ok gridSet with ⟨_, rfl⟩
  rcases setDefaultValueFromJson_ok defaultSet with ⟨_, rfl⟩
  rcases setParameterConditionsFromJson_ok conditionsSet with ⟨_, rfl⟩
  rw [setParameterTypeFromJson, bind_eq_ok] at typed
  obtain ⟨type, read, known⟩ := typed
  refine ⟨type, (getWithValidation_eq_ok rfl).mp read, ?_⟩
  split at known
  · rename_i paramType isType
    rw [pure_eq_ok] at known
    rw [isType, ← known]
  · cases known

theorem parameterTypeNamed_text {type : String} {paramType : ExperimentParameterType} :
    parameterTypeNamed type = some paramType ↔ type = paramType.text := by
  constructor
  · intro named
    unfold parameterTypeNamed at named
    split at named
    · cases named
      rfl
    · cases named
      rfl
    · cases named
      rfl
    · cases named
  · rintro rfl
    cases paramType with
    | double => rfl
    | int => rfl
    | categorical => rfl

section Kinds

variable {experimentType : ExperimentType} {conditionals : List ExperimentConditional} {body : JsonObject}
  {parameters : List ExperimentParameter}

theorem requestedAs_iff
    (created : ParametersCreated experimentType conditionals (requestedParameters body) parameters)
    {paramType : ExperimentParameterType} {name : String} :
    RequestedAs body paramType.text name ↔
      ∃ parameter ∈ parameters, parameter.paramType = paramType ∧ parameter.name = name := by
  constructor
  · rintro ⟨json, isRequested, isType, rawName, isRaw, isName⟩
    obtain ⟨parameter, isParameter, accepted⟩ := exists_answer created.created isRequested
    obtain ⟨type, read, typed⟩ := setExperimentParameterFromJson_type accepted
    obtain ⟨otherRaw, isOtherRaw, validated, _⟩ := setExperimentParameterFromJson_ok accepted
    rw [isType, Option.some.injEq] at read
    rw [isRaw, Option.some.injEq] at isOtherRaw
    subst read isOtherRaw
    refine ⟨parameter, isParameter, ?_, (strip_of_validated validated).symm.trans isName⟩
    exact Option.some.inj (typed.symm.trans (parameterTypeNamed_text.mpr rfl))
  · rintro ⟨parameter, isParameter, rfl, rfl⟩
    obtain ⟨json, isRequested, accepted⟩ := exists_item created.created isParameter
    obtain ⟨type, read, typed⟩ := setExperimentParameterFromJson_type accepted
    obtain ⟨rawName, isRaw, validated, _⟩ := setExperimentParameterFromJson_ok accepted
    exact ⟨json, isRequested, parameterTypeNamed_text.mp typed ▸ read, rawName, isRaw, strip_of_validated validated⟩

theorem strip_name (created : ParametersCreated experimentType conditionals (requestedParameters body) parameters)
    {parameter : ExperimentParameter} (isParameter : parameter ∈ parameters) : strip parameter.name = parameter.name := by
  obtain ⟨json, _, accepted⟩ := exists_item created.created isParameter
  obtain ⟨rawName, _, validated, _⟩ := setExperimentParameterFromJson_ok accepted
  rw [← strip_of_validated validated, strip_strip]

theorem isDoubleTerm_of_name {info : ParameterInfo} {json : JsonObject} {rawName : String}
    (named : rawName? json = some rawName) : isDoubleTerm info json = decide (rawName ∈ info.doubleParamsNames) := by
  have isText : json.get "name" = .string rawName := by
    unfold rawName? ValidationType.string at named
    simp only at named
    split at named
    · rename_i text isText
      rw [isText, Option.some.inj named]
    · cases named
  rw [isDoubleTerm, isText]

variable {json : JsonObject} {constraint : ExperimentConstraint}

/-- Terms of both kinds are not both named as their parameters are. -/
theorem padded_of_mixed (created : ParametersCreated experimentType conditionals (requestedParameters body) parameters)
    (read : ConstraintRead (extractParameterInfo parameters) json constraint) {first second : ExperimentParameter}
    (isFirst : first ∈ parameters) (isSecond : second ∈ parameters) (isInt : first.paramType = .int)
    (isDouble : second.paramType = .double) {firstTerm secondTerm : JsonObject}
    (firstRequested : firstTerm ∈ requestedTerms json) (secondRequested : secondTerm ∈ requestedTerms json)
    {rawName : String} (firstNamed : rawName? firstTerm = some rawName) (firstName : strip rawName = first.name) :
    rawName? secondTerm ≠ some second.name := by
  intro secondNamed
  have secondKind : isDoubleTerm (extractParameterInfo parameters) secondTerm = true := by
    rw [isDoubleTerm_of_name secondNamed, decide_eq_true_eq]
    exact (mem_namesWhere_iff created.distinct isSecond).mpr (decide_eq_true isDouble)
  have firstKind := (read.alike firstTerm firstRequested secondTerm secondRequested).trans secondKind
  rw [isDoubleTerm_of_name firstNamed, decide_eq_true_eq] at firstKind
  obtain ⟨other, isOther, otherDouble, otherName⟩ := mem_namesWhere.mp firstKind
  have sameName : other.name = first.name := by
    rw [← strip_name created isOther, otherName, firstName]
  rw [List.inj_on_of_nodup_map created.distinct isOther isFirst sameName, isInt] at otherDouble
  cases otherDouble

/-- The stored constraints are of one kind each exactly if the request does not hide a kind. -/
theorem oneKind_iff (created : ParametersCreated experimentType conditionals (requestedParameters body) parameters)
    {constraints : List ExperimentConstraint}
    (reads : List.Forall₂ (ConstraintRead (extractParameterInfo parameters)) (requestedConstraints body) constraints) :
    (∀ constraint ∈ constraints, ∀ first ∈ parameters, ∀ second ∈ parameters,
        first.name ∈ constraint.terms.map (·.name) → second.name ∈ constraint.terms.map (·.name) →
          first.paramType = second.paramType) ↔ UnpaddedKinds body := by
  constructor
  · intro oneKind json isJson first isFirst second isSecond firstKept secondKept firstName secondName firstNamed
      secondNamed firstInt secondDouble
    obtain ⟨constraint, isConstraint, read⟩ := exists_answer reads isJson
    have stored : ∀ requested ∈ requestedTerms json, keepsTerm requested = true → ∀ rawName,
        rawName? requested = some rawName → strip rawName ∈ constraint.terms.map (·.name) := by
      intro requested isRequested kept rawName named
      obtain ⟨term, isTerm, termRead⟩ := exists_answer read.terms (List.mem_filter.mpr ⟨isRequested, kept⟩)
      obtain ⟨otherName, isOtherName, isName⟩ := termRead.name
      rw [named, Option.some.injEq] at isOtherName
      rw [isOtherName, isName]
      exact List.mem_map_of_mem isTerm
    have firstStored := stored first isFirst firstKept firstName firstNamed
    have secondStored := stored second isSecond secondKept secondName secondNamed
    obtain ⟨firstParameter, isFirstParameter, isInt, firstIs⟩ := (@requestedAs_iff _ _ _ _ created .int _).mp firstInt
    obtain ⟨secondParameter, isSecondParameter, isDouble, secondIs⟩ :=
      (@requestedAs_iff _ _ _ _ created .double _).mp secondDouble
    rw [← firstIs] at firstStored
    rw [← secondIs] at secondStored
    have sameKind := oneKind constraint isConstraint firstParameter isFirstParameter secondParameter isSecondParameter
      firstStored secondStored
    rw [isInt, isDouble] at sameKind
    cases sameKind
  · intro unpadded constraint isConstraint
    obtain ⟨json, isJson, read⟩ := exists_item reads isConstraint
    have notMixed : ∀ first ∈ parameters, ∀ second ∈ parameters, first.name ∈ constraint.terms.map (·.name) →
        second.name ∈ constraint.terms.map (·.name) → first.paramType = .int → second.paramType ≠ .double := by
      intro first isFirst second isSecond firstNamed secondNamed isInt isDouble
      obtain ⟨firstTerm, _, firstIs, firstJson, firstRequested, firstKept, firstRead⟩ := exists_termRead read firstNamed
      obtain ⟨secondTerm, _, secondIs, secondJson, secondRequested, secondKept, secondRead⟩ :=
        exists_termRead read secondNamed
      obtain ⟨firstRaw, firstIsRaw, firstStrip⟩ := firstRead.name
      obtain ⟨secondRaw, secondIsRaw, secondStrip⟩ := secondRead.name
      rw [firstIs] at firstStrip
      rw [secondIs] at secondStrip
      have plainName := unpadded json isJson firstJson firstRequested secondJson secondRequested firstKept secondKept
        firstRaw secondRaw firstIsRaw secondIsRaw
        ((@requestedAs_iff _ _ _ _ created .int _).mpr ⟨first, isFirst, isInt, firstStrip.symm⟩)
        ((@requestedAs_iff _ _ _ _ created .double _).mpr ⟨second, isSecond, isDouble, secondStrip.symm⟩)
      apply padded_of_mixed created read isFirst isSecond isInt isDouble firstRequested secondRequested firstIsRaw
        firstStrip
      rw [secondIsRaw, ← secondStrip, plainName]
    have kindOf : ∀ parameter ∈ parameters, parameter.name ∈ constraint.terms.map (·.name) →
        parameter.paramType = .double ∨ parameter.paramType = .int := by
      intro parameter isParameter named
      obtain ⟨term, _, isName, _, _, _, termRead⟩ := exists_termRead read named
      have numerical := termRead.numerical
      rw [isName] at numerical
      simpa only [extractParameterInfo, mem_namesWhere_iff created.distinct isParameter, decide_eq_true_eq] using numerical
    intro first isFirst second isSecond firstNamed secondNamed
    rcases kindOf first isFirst firstNamed with firstDouble | firstInt
    · rcases kindOf second isSecond secondNamed with secondDouble | secondInt
      · rw [firstDouble, secondDouble]
      · exact absurd firstDouble (notMixed second isSecond first isFirst secondNamed firstNamed secondInt)
    · rcases kindOf second isSecond secondNamed with secondDouble | secondInt
      · exact absurd secondDouble (notMixed first isFirst second isSecond firstNamed secondNamed firstInt)
      · rw [firstInt, secondInt]

end Kinds

end Zigopt.Experiment
