/-
Module: Zigopt.Experiment.Conditionals
Layer: Experiment
Purpose: The check that some parameter is there to tune for every combination of conditional values
  (`conditionals/util.py`). The check also counts parameters that are marked as deleted: it settles the
  question for a new experiment whose combinations the 64-bit product can count, and an update passes it
  whatever it deletes.
Main exports: checkAllConditionalValuesSatisfied, checkedSections, SomethingToTune, CoverKept,
  something_to_tune_created_iff, something_to_tune_iff, nothing_to_tune
-/
import Zigopt.Assignments.Validate
import Zigopt.Experiment.Revision
import Zigopt.Lib.Product

namespace Zigopt.Experiment

open Raising Assignments

/-! ### The check -/

/-- The values of a conditional under which a parameter is there: those of its condition, or all. -/
def conditionValues (parameter : ExperimentParameter) (conditional : ExperimentConditional) : List ℚ :=
  match parameter.conditions.reverse.find? fun condition => condition.name = conditional.name with
  | some condition => condition.values
  | none => conditional.values.map fun value => (value.enumIndex : ℚ)

/-- `itertools.product` of the values, one list for each conditional. -/
def satisfiedConfigurations (experiment : ExperimentMeta) (parameter : ExperimentParameter) : List (List ℚ) :=
  Product.product (experiment.conditionals.map (conditionValues parameter))

/-- All the configurations that are added to the set, deleted parameters not left out. -/
def satisfiedParameterConfigurations (experiment : ExperimentMeta) : List (List ℚ) :=
  experiment.allParametersUnsorted.flatMap (satisfiedConfigurations experiment)

/-- How many combinations of conditional values there are. -/
def numberOfCombinations (experiment : ExperimentMeta) : Nat :=
  (experiment.conditionals.map fun conditional => conditional.values.length).prod

/-- `numpy.product` of the numbers of values: an `int64`, which wraps. -/
def numConditionalValues (experiment : ExperimentMeta) : Int :=
  Int.bmod (numberOfCombinations experiment) (2 ^ 64)

/-- `check_all_conditional_values_satisfied`, which counts configurations with a parameter and compares the count with
    the product of the numbers of values. -/
def checkAllConditionalValuesSatisfied (experiment : ExperimentMeta) : Except ValidationError Unit :=
  raiseIf ((satisfiedParameterConfigurations experiment).dedup.length ≠ numConditionalValues experiment)
    (.sigoptValidation "Need at least one parameter that satisfies each conditional value")

/-- `verify_experiment_acceptability`, over what decides about the feasibility of the constraints. -/
def verifyExperimentAcceptability (hasFeasibleConstraints : ExperimentMeta → Except ValidationError Unit)
    (experiment : ExperimentMeta) : Except ValidationError Unit := do
  hasFeasibleConstraints experiment
  if experiment.conditionals ≠ [] then
    checkAllConditionalValuesSatisfied experiment

/-- The other sections of a request, with the acceptability of an experiment as the service checks it. -/
def checkedSections (sections : OtherSections)
    (hasFeasibleConstraints : ExperimentMeta → Except ValidationError Unit) : OtherSections :=
  { sections with verifyExperimentAcceptability := verifyExperimentAcceptability hasFeasibleConstraints }

/-! ### Something to tune -/

/-- The assignments give each conditional one of its values. -/
def Combination (conditionals : List ExperimentConditional) (assignments : AssignmentsMap) : Prop :=
  ∀ conditional ∈ conditionals, ∃ value ∈ conditional.values,
    assignments conditional.name = some (value.enumIndex : ℚ)

/-- Whatever the conditionals are set to, an active parameter has its conditions satisfied. -/
def SomethingToTune (experiment : ExperimentMeta) : Prop :=
  ∀ assignments, Combination experiment.conditionals assignments →
    ∃ parameter ∈ experiment.allParametersUnsorted,
      parameter.deleted = false ∧ parameterConditionsSatisfied parameter assignments = true

/-- The stored parameter in this position is named by the request, and active unless the request is
    matched with another one of its name. -/
def StaysActive (experiment : ExperimentMeta) (requested : List JsonObject) (position : Nat)
    (parameter : ExperimentParameter) : Prop :=
  parameter.name ∈ countedNames requested ∧
    (parameter.deleted = false ∨ ∃ json ∈ requested, target experiment.parameterNames json = some position)

/-- A parameter that the request adds; it is active if the request has its stored name. -/
def AddedActive (experiment : ExperimentMeta) (requested : List JsonObject)
    (parameter : ExperimentParameter) : Prop :=
  parameter.name ∈ countedNames requested ∧
    ∃ json ∈ requested, target experiment.parameterNames json = none ∧
      newParameter json experiment.experimentType experiment.conditionals = .ok parameter

/-- What an update drops is not missed: where a parameter was there that the request does not name, one
    that it names or adds is there as well. -/
def CoverKept (experiment : ExperimentMeta) (body : JsonObject) (_updated : ExperimentMeta) : Prop :=
  body.hasKey "parameters" = true → ∀ assignments, Combination experiment.conditionals assignments →
    (∃ parameter ∈ experiment.allParametersUnsorted, parameter.deleted = false ∧
      parameter.name ∉ countedNames (requestedParameters body) ∧
      parameterConditionsSatisfied parameter assignments = true) →
    (∃ (position : Nat) (parameter : ExperimentParameter),
      experiment.allParametersUnsorted[position]? = some parameter ∧
        StaysActive experiment (requestedParameters body) position parameter ∧
        parameterConditionsSatisfied parameter assignments = true) ∨
    ∃ parameter, AddedActive experiment (requestedParameters body) parameter ∧
      parameterConditionsSatisfied parameter assignments = true

/-! ### The conditionals of a new experiment -/

theorem addConditional_ok {conditionals next : List ExperimentConditional} {json : JsonObject}
    (accepted : addConditional conditionals json = .ok next) (distinct : (conditionals.map (·.name)).Nodup) :
    (next.map (·.name)).Nodup := by
  simp only [addConditional, bind_eq_ok, raiseIf_eq_ok, pure_eq_ok] at accepted
  rcases accepted with ⟨conditional, _, _, unseen, rfl⟩
  rw [List.map_append, List.nodup_append']
  exact ⟨distinct, by simp, by simpa using unseen⟩

theorem conditionals_distinct {body : JsonObject} {conditionals : List ExperimentConditional}
    (accepted : setExperimentConditionalsListFromJson body = .ok conditionals) :
    (conditionals.map (·.name)).Nodup := by
  simp only [setExperimentConditionalsListFromJson, bind_eq_ok] at accepted
  rcases accepted with ⟨conditionalsJson, _, looped⟩
  apply foldlM_induction (fun _ conditionals => (conditionals.map (·.name)).Nodup) ?_ List.nodup_nil looped
  intro done state json next distinct added
  exact addConditional_ok added distinct

/-- The values of a conditional are numbered from one on. -/
theorem setConditionalFromJson_indices {json : JsonObject} {conditional : ExperimentConditional}
    (accepted : setConditionalFromJson json = .ok conditional) :
    conditional.values.map (·.enumIndex) = List.range' 1 conditional.values.length := by
  simp only [setConditionalFromJson, bind_eq_ok, raiseIf_eq_ok, pure_eq_ok] at accepted
  rcases accepted with ⟨name, _, valuesJson, _, values, looped, _, _, _, _, rfl⟩
  apply foldlM_induction
    (fun _ values => values.map (·.enumIndex) = List.range' 1 values.length) ?_ rfl looped
  intro done state json next numbered added
  simp only [addConditionalValue, bind_eq_ok, raiseIf_eq_ok, pure_eq_ok] at added
  rcases added with ⟨_, _, _, _, rfl⟩
  rw [List.map_append, numbered, List.length_append, List.length_singleton, List.range'_concat]
  simp [Nat.add_comm]

/-- No two values of a conditional have one index. -/
theorem conditionals_indexed {body : JsonObject} {conditionals : List ExperimentConditional}
    (accepted : setExperimentConditionalsListFromJson body = .ok conditionals) :
    ∀ conditional ∈ conditionals, (conditional.values.map (·.enumIndex)).Nodup := by
  simp only [setExperimentConditionalsListFromJson, bind_eq_ok] at accepted
  rcases accepted with ⟨conditionalsJson, _, looped⟩
  apply foldlM_induction (fun _ (conditionals : List ExperimentConditional) =>
    ∀ conditional ∈ conditionals, (conditional.values.map (·.enumIndex)).Nodup) ?_ (by simp) looped
  intro done state json next indexed added
  simp only [addConditional, bind_eq_ok, raiseIf_eq_ok, pure_eq_ok] at added
  rcases added with ⟨conditional, read, _, _, rfl⟩
  intro other member
  rcases List.mem_append.mp member with inside | isNew
  · exact indexed other inside
  · rw [List.mem_singleton.mp isNew, setConditionalFromJson_indices read]
    exact List.nodup_range'

/-- What the conditions of a new parameter are: one at most for a conditional, with values of it. -/
structure ConditionsKnown (conditionals : List ExperimentConditional) (parameter : ExperimentParameter) :
    Prop where
  distinct : (parameter.conditions.map (·.name)).Nodup
  known : ∀ condition ∈ parameter.conditions, ∃ conditional ∈ conditionals,
    conditional.name = condition.name ∧
      ∀ assignment ∈ condition.values, ∃ value ∈ conditional.values, assignment = (value.enumIndex : ℚ)

theorem conditionFromJson_ok {parameterName : String} {conditionals : List ExperimentConditional}
    {member : String × (List String ⊕ String)} {condition : ParameterCondition}
    (accepted : conditionFromJson parameterName conditionals member = .ok condition) :
    condition.name = member.1 ∧ ∃ conditional ∈ conditionals, conditional.name = condition.name ∧
      ∀ assignment ∈ condition.values, ∃ value ∈ conditional.values, assignment = (value.enumIndex : ℚ) := by
  unfold conditionFromJson at accepted
  dsimp only at accepted
  split at accepted
  · cases accepted
  · rename_i conditional found
    simp only [bind_eq_ok, raiseIf_eq_ok, pure_eq_ok, mapM_eq_ok] at accepted
    rcases accepted with ⟨_, _, values, indices, rfl⟩
    have named : conditional.name = member.1 := by simpa using List.find?_some found
    refine ⟨rfl, conditional, List.mem_reverse.mp (List.mem_of_find?_eq_some found), named, ?_⟩
    intro assignment isValue
    obtain ⟨valueJson, _, indexed⟩ := exists_item indices isValue
    unfold conditionValueIndex at indexed
    split at indexed
    · rename_i value foundValue
      rw [pure_eq_ok] at indexed
      exact ⟨value, List.mem_of_find?_eq_some foundValue, indexed.symm⟩
    · cases indexed

theorem mapM_keys {α : Type} {read : Json → Option α} {object : JsonObject} {members : List (String × α)}
    (accepted : (object.mapM fun member => (read member.2).map (member.1, ·)) = some members) :
    members.map Prod.fst = object.map Prod.fst := by
  induction object generalizing members with
  | nil =>
      cases accepted
      rfl
  | cons member rest inductionHypothesis =>
      rw [List.mapM_cons] at accepted
      simp only [Option.bind_eq_bind, Option.bind_eq_some_iff, Option.map_eq_some_iff] at accepted
      rcases accepted with ⟨_, ⟨value, _, rfl⟩, others, acceptedRest, done⟩
      cases done
      rw [List.map_cons, List.map_cons, inductionHypothesis acceptedRest]

/-- The keys of the members that an object validator accepts. -/
theorem objectOf_distinct {α : Type} {valueType : ValidationType α} {json : Json} {members : List (String × α)}
    (read : (ValidationType.objectOf valueType).read json = some members) : (members.map Prod.fst).Nodup := by
  unfold ValidationType.objectOf at read
  dsimp only at read
  split at read
  · rename_i object
    rw [mapM_keys read]
    exact JsonObject.nodup_distinctKeys object
  · cases read

theorem conditionsFromJson_ok {parameter : ExperimentParameter} {json : JsonObject}
    {conditionals : List ExperimentConditional} {conditions : List ParameterCondition}
    (accepted : conditionsFromJson parameter json conditionals = .ok conditions) (none : parameter.conditions = []) :
    ConditionsKnown conditionals { parameter with conditions := conditions } := by
  simp only [conditionsFromJson, bind_eq_ok, pure_eq_ok, mapM_eq_ok, none, List.nil_append] at accepted
  rcases accepted with ⟨conditionsJson, read, conditions, each, rfl⟩
  have distinct : ((conditionsJson.getD []).map Prod.fst).Nodup := by
    cases conditionsJson with
    | none => exact List.nodup_nil
    | some members => exact objectOf_distinct ((getOptWithValidation_eq_some rfl).mp read)
  constructor
  · have sameNames : List.Forall₂ Eq ((conditionsJson.getD []).map Prod.fst) (conditions.map (·.name)) := by
      rw [List.forall₂_map_left_iff, List.forall₂_map_right_iff]
      exact each.imp fun _ _ first => (conditionFromJson_ok first).1.symm
    rw [List.forall₂_eq_eq_eq] at sameNames
    exact sameNames ▸ distinct
  · intro condition isCondition
    obtain ⟨member, _, first⟩ := exists_item each isCondition
    exact (conditionFromJson_ok first).2

theorem setExperimentParameterFromJson_conditions {json : JsonObject} {experimentType : ExperimentType}
    {conditionals : List ExperimentConditional} {result : ExperimentParameter}
    (accepted : setExperimentParameterFromJson json experimentType conditionals = .ok result) :
    ConditionsKnown conditionals result := by
  unfold setExperimentParameterFromJson at accepted
  simp only [bind_eq_ok] at accepted
  rcases accepted with ⟨name, _, _, typed, _, transformed, _, bounded, _, priorSet, _, valuesSet, _, gridSet, _,
    defaultSet, conditionsSet⟩
  rcases setParameterTypeFromJson_ok typed with ⟨_, rfl⟩
  rcases setTransformationFromJson_ok transformed with ⟨_, rfl⟩
  rcases setBoundsFromJson_ok bounded with ⟨_, rfl⟩
  rcases setPriorFromJson_ok priorSet with ⟨_, rfl⟩
  rcases setCategoricalValuesFromJson_ok valuesSet with ⟨values, _, rfl⟩
  rcases maybeSetGridValues_ok gridSet with ⟨_, rfl⟩
  rcases setDefaultValueFromJson_ok defaultSet with ⟨_, rfl⟩
  simp only [setParameterConditionsFromJson, bind_eq_ok, pure_eq_ok] at conditionsSet
  rcases conditionsSet with ⟨conditions, read, rfl⟩
  exact conditionsFromJson_ok read rfl

/-! ### A new experiment -/

theorem createExperiment_conditionals {sections : OtherSections} {className : String} {body : JsonObject}
    {experiment : ExperimentMeta} (accepted : createExperiment sections className body = .ok experiment) :
    setExperimentConditionalsListFromJson body = .ok experiment.conditionals ∧
      sections.verifyExperimentAcceptability experiment = .ok () := by
  simp only [createExperiment, makeExperimentMetaFromJson, bind_eq_ok, pure_eq_ok] at accepted
  rcases accepted with ⟨_, _, _, ⟨_, _, _, _, conditionals, listed, _, _, _, _, _, _, _, _, rfl⟩, _, verified, rfl⟩
  exact ⟨listed, verified⟩

theorem parametersCreated_ne_nil {experimentType : ExperimentType} {conditionals : List ExperimentConditional}
    {body : JsonObject} {className : String} {parameters : List ExperimentParameter}
    (accepted : setExperimentParameterListFromJson experimentType conditionals body className = .ok parameters) :
    parameters ≠ [] := by
  have created := setExperimentParameterListFromJson_ok accepted
  simp only [setExperimentParameterListFromJson, bind_eq_ok, raiseIf_eq_ok] at accepted
  rcases accepted with ⟨read, opted, _, notEmpty, _⟩
  have sameRequest : requestedParameters body = read.getD [] := by
    cases read with
    | none => simp at notEmpty
    | some requested => rw [requestedParameters, (getOptWithValidation_eq_some rfl).mp opted]
  intro empty
  have sameLength := created.created.length_eq
  rw [empty, sameRequest] at sameLength
  exact notEmpty (List.eq_nil_of_length_eq_zero sameLength)

section Check

variable {experiment : ExperimentMeta} {parameter : ExperimentParameter}

theorem find_condition {conditions : List ParameterCondition} (distinct : (conditions.map (·.name)).Nodup)
    {condition : ParameterCondition} (member : condition ∈ conditions) :
    (conditions.reverse.find? fun other => other.name = condition.name) = some condition := by
  have named : ∀ other ∈ conditions, other.name = condition.name → other = condition := by
    intro other otherMember same
    exact List.inj_on_of_nodup_map distinct otherMember member same
  cases found : conditions.reverse.find? fun other => other.name = condition.name with
  | none =>
      have apart := List.find?_eq_none.mp found condition (List.mem_reverse.mpr member)
      simp at apart
  | some other =>
      have same : other.name = condition.name := by simpa using List.find?_some found
      rw [named other (List.mem_reverse.mp (List.mem_of_find?_eq_some found)) same]

/-- The configurations of a parameter are combinations of values of the conditionals. -/
theorem satisfiedConfigurations_subset (distinct : (experiment.conditionals.map (·.name)).Nodup)
    (conditions : ConditionsKnown experiment.conditionals parameter) :
    satisfiedConfigurations experiment parameter ⊆ Product.product
      (experiment.conditionals.map fun conditional => conditional.values.map fun value => (value.enumIndex : ℚ)) := by
  intro configuration member
  rw [satisfiedConfigurations, Product.mem_product, List.forall₂_map_right_iff] at member
  rw [Product.mem_product, List.forall₂_map_right_iff]
  have inside : ∀ conditional ∈ experiment.conditionals, ∀ assignment ∈ conditionValues parameter conditional,
      assignment ∈ conditional.values.map fun value => (value.enumIndex : ℚ) := by
    intro conditional isConditional assignment isValue
    unfold conditionValues at isValue
    split at isValue
    · rename_i condition found
      have named : condition.name = conditional.name := by simpa using List.find?_some found
      obtain ⟨other, isOther, otherNamed, values⟩ :=
        conditions.known condition (List.mem_reverse.mp (List.mem_of_find?_eq_some found))
      have same : other = conditional :=
        List.inj_on_of_nodup_map distinct isOther isConditional (otherNamed.trans named)
      obtain ⟨value, isValueOf, isAssignment⟩ := values assignment isValue
      exact List.mem_map.mpr ⟨value, same ▸ isValueOf, isAssignment.symm⟩
    · exact isValue
  have listed : List.Forall₂ (fun conditional assignment => conditional ∈ experiment.conditionals ∧
      assignment ∈ conditionValues parameter conditional) experiment.conditionals configuration :=
    (List.forall₂_and_left _ _).mpr ⟨fun _ isConditional => isConditional, member.flip⟩
  exact (listed.imp fun conditional assignment both => inside conditional both.1 assignment both.2).flip

/-- The parameter is there under the combination that one of its configurations lists. -/
theorem conditionsSatisfied_of_configuration (conditions : ConditionsKnown experiment.conditionals parameter)
    {assignments : AssignmentsMap} (assigned : Combination experiment.conditionals assignments)
    (listed : experiment.conditionals.map (fun conditional => (assignments conditional.name).getD 0) ∈
      satisfiedConfigurations experiment parameter) : parameterConditionsSatisfied parameter assignments = true := by
  rw [satisfiedConfigurations, Product.mem_product, List.forall₂_map_left_iff, List.forall₂_map_right_iff,
    List.forall₂_same] at listed
  apply List.all_eq_true.mpr
  intro condition isCondition
  obtain ⟨conditional, isConditional, named, _⟩ := conditions.known condition isCondition
  have inValues := listed conditional isConditional
  rw [conditionValues, named, find_condition conditions.distinct isCondition] at inValues
  obtain ⟨value, _, isAssigned⟩ := assigned conditional isConditional
  rw [named] at isAssigned
  rw [isAssigned] at inValues ⊢
  simpa using inValues

theorem combination_mem_product {assignments : AssignmentsMap}
    (assigned : Combination experiment.conditionals assignments) :
    experiment.conditionals.map (fun conditional => (assignments conditional.name).getD 0) ∈ Product.product
      (experiment.conditionals.map fun conditional => conditional.values.map fun value => (value.enumIndex : ℚ)) := by
  rw [Product.mem_product, List.forall₂_map_left_iff, List.forall₂_map_right_iff, List.forall₂_same]
  intro conditional isConditional
  obtain ⟨value, isValue, isAssigned⟩ := assigned conditional isConditional
  rw [isAssigned]
  exact List.mem_map.mpr ⟨value, isValue, rfl⟩

/-- The product counts the combinations as long as an `int64` holds their number. -/
theorem numConditionalValues_eq_iff :
    numConditionalValues experiment = numberOfCombinations experiment ↔
      numberOfCombinations experiment < 2 ^ 63 := by
  unfold numConditionalValues
  generalize numberOfCombinations experiment = count
  rw [Int.bmod_eq_iff (by decide)]
  omega

/-- The parameter has the configuration that a combination makes up, when it is there under it. -/
theorem configuration_of_conditionsSatisfied {assignments : AssignmentsMap}
    (assigned : Combination experiment.conditionals assignments)
    (there : parameterConditionsSatisfied parameter assignments = true) :
    experiment.conditionals.map (fun conditional => (assignments conditional.name).getD 0) ∈
      satisfiedConfigurations experiment parameter := by
  rw [satisfiedConfigurations, Product.mem_product, List.forall₂_map_left_iff, List.forall₂_map_right_iff,
    List.forall₂_same]
  intro conditional isConditional
  obtain ⟨value, isValue, isAssigned⟩ := assigned conditional isConditional
  rw [isAssigned, Option.getD_some, conditionValues]
  split
  · rename_i condition found
    have named : condition.name = conditional.name := by simpa using List.find?_some found
    have satisfied := List.all_eq_true.mp there condition
      (List.mem_reverse.mp (List.mem_of_find?_eq_some found))
    rw [named, isAssigned] at satisfied
    simpa using satisfied
  · exact List.mem_map.mpr ⟨value, isValue, rfl⟩

/-- Every tuple of values of the conditionals is assigned by some combination. -/
theorem exists_combination {conditionals : List ExperimentConditional} {tuple : List ℚ}
    (distinct : (conditionals.map (·.name)).Nodup)
    (values : List.Forall₂ (fun assignment conditional =>
      assignment ∈ conditional.values.map fun value => (value.enumIndex : ℚ)) tuple conditionals) :
    ∃ assignments, Combination conditionals assignments ∧
      conditionals.map (fun conditional => (assignments conditional.name).getD 0) = tuple := by
  induction values with
  | nil => exact ⟨AssignmentsMap.empty, by simp [Combination], rfl⟩
  | @cons assignment conditional tuple conditionals isValue _ inductionHypothesis =>
      rw [List.map_cons, List.nodup_cons] at distinct
      obtain ⟨isNew, restDistinct⟩ := distinct
      obtain ⟨assignments, assigned, isTuple⟩ := inductionHypothesis restDistinct
      have same : (assignments.set conditional.name assignment) conditional.name = some assignment :=
        Function.update_self _ _ _
      have kept : ∀ other ∈ conditionals,
          (assignments.set conditional.name assignment) other.name = assignments other.name := by
        intro other member
        apply Function.update_of_ne
        intro named
        exact isNew (List.mem_map.mpr ⟨other, member, named⟩)
      refine ⟨assignments.set conditional.name assignment, ?_, ?_⟩
      · intro other member
        cases member with
        | head =>
            obtain ⟨value, listed, isAssignment⟩ := List.mem_map.mp isValue
            exact ⟨value, listed, by rw [same, isAssignment]⟩
        | tail _ member =>
            rw [kept other member]
            exact assigned other member
      · rw [List.map_cons, same, Option.getD_some, ← isTuple]
        congr 1
        exact List.map_congr_left fun other member => by rw [kept other member]

theorem numberOfCombinations_eq : numberOfCombinations experiment =
    ((experiment.conditionals.map fun conditional =>
      conditional.values.map fun value => (value.enumIndex : ℚ)).map List.length).prod := by
  rw [numberOfCombinations, List.map_map]
  congr 1
  apply List.map_congr_left
  intro conditional _
  simp

/-- Where every combination has a parameter, the configurations are as many as the combinations. -/
theorem configurations_of_satisfied (distinct : (experiment.conditionals.map (·.name)).Nodup)
    (indexed : ∀ conditional ∈ experiment.conditionals, (conditional.values.map (·.enumIndex)).Nodup)
    (satisfied : ∀ assignments, Combination experiment.conditionals assignments →
      ∃ parameter ∈ experiment.allParametersUnsorted, parameterConditionsSatisfied parameter assignments = true) :
    numberOfCombinations experiment ≤ (satisfiedParameterConfigurations experiment).dedup.length := by
  rw [numberOfCombinations_eq]
  apply Product.length_le_of_covers
  · intro factor member
    obtain ⟨conditional, isConditional, rfl⟩ := List.mem_map.mp member
    have injective : Function.Injective fun index : ℕ => (index : ℚ) := by
      intro first second same
      exact Rat.natCast_inj.mp same
    have values := (indexed conditional isConditional).map injective
    rwa [List.map_map] at values
  · intro tuple member
    rw [Product.mem_product, List.forall₂_map_right_iff] at member
    obtain ⟨assignments, assigned, isTuple⟩ := exists_combination distinct member
    obtain ⟨parameter, isParameter, there⟩ := satisfied assignments assigned
    rw [← isTuple]
    exact List.mem_flatMap.mpr ⟨parameter, isParameter, configuration_of_conditionsSatisfied assigned there⟩

/-- An experiment that passes the check, with combinations that an `int64` counts, has a stored parameter
    for each of them. -/
theorem exists_satisfied_of_check (distinct : (experiment.conditionals.map (·.name)).Nodup)
    (conditions : ∀ parameter ∈ experiment.allParametersUnsorted,
      ConditionsKnown experiment.conditionals parameter)
    (passed : checkAllConditionalValuesSatisfied experiment = .ok ())
    (countable : numberOfCombinations experiment < 2 ^ 63) {assignments : AssignmentsMap}
    (assigned : Combination experiment.conditionals assignments) :
    ∃ parameter ∈ experiment.allParametersUnsorted, parameterConditionsSatisfied parameter assignments = true := by
  rw [checkAllConditionalValuesSatisfied, raiseIf_eq_ok, not_not, numConditionalValues_eq_iff.mpr countable,
    Nat.cast_inj, numberOfCombinations_eq] at passed
  have inside : satisfiedParameterConfigurations experiment ⊆ Product.product
      (experiment.conditionals.map fun conditional =>
        conditional.values.map fun value => (value.enumIndex : ℚ)) := by
    intro configuration member
    obtain ⟨parameter, isParameter, isConfiguration⟩ := List.mem_flatMap.mp member
    exact satisfiedConfigurations_subset distinct (conditions parameter isParameter) isConfiguration
  have covered := Product.covers_of_count inside passed
  obtain ⟨parameter, isParameter, listed⟩ := List.mem_flatMap.mp (covered (combination_mem_product assigned))
  exact ⟨parameter, isParameter,
    conditionsSatisfied_of_configuration (conditions parameter isParameter) assigned listed⟩

/-- A number of combinations that wraps is above every number that passes the check. -/
theorem countable_of_check (distinct : (experiment.conditionals.map (·.name)).Nodup)
    (indexed : ∀ conditional ∈ experiment.conditionals, (conditional.values.map (·.enumIndex)).Nodup)
    (passed : checkAllConditionalValuesSatisfied experiment = .ok ())
    (satisfied : ∀ assignments, Combination experiment.conditionals assignments →
      ∃ parameter ∈ experiment.allParametersUnsorted, parameterConditionsSatisfied parameter assignments = true) :
    numberOfCombinations experiment < 2 ^ 63 := by
  rw [checkAllConditionalValuesSatisfied, raiseIf_eq_ok, not_not] at passed
  have counted := configurations_of_satisfied distinct indexed satisfied
  have wrapped : numConditionalValues experiment < 2 ^ 63 := Int.bmod_lt (by decide)
  omega

end Check

/-- A new experiment has something to tune exactly if an `int64` counts its combinations. -/
theorem something_to_tune_created_iff {sections : OtherSections}
    {hasFeasibleConstraints : ExperimentMeta → Except ValidationError Unit} {className : String}
    {body : JsonObject} {created : ExperimentMeta}
    (accepted : createExperiment (checkedSections sections hasFeasibleConstraints) className body = .ok created) :
    SomethingToTune created ↔ numberOfCombinations created < 2 ^ 63 := by
  have parameters := createExperiment_ok accepted
  have each := (setExperimentParameterListFromJson_ok parameters).created
  obtain ⟨conditionals, verified⟩ := createExperiment_conditionals accepted
  have active : ∀ parameter ∈ created.allParametersUnsorted, parameter.deleted = false := by
    intro parameter isParameter
    obtain ⟨json, _, set⟩ := exists_item each isParameter
    obtain ⟨_, _, _, notDeleted, _⟩ := setExperimentParameterFromJson_ok set
    exact notDeleted
  have conditions : ∀ parameter ∈ created.allParametersUnsorted,
      ConditionsKnown created.conditionals parameter := by
    intro parameter isParameter
    obtain ⟨json, _, set⟩ := exists_item each isParameter
    exact setExperimentParameterFromJson_conditions set
  by_cases none : created.conditionals = []
  · apply iff_of_true
    · intro assignments _
      obtain ⟨parameter, isParameter⟩ := List.exists_mem_of_ne_nil _ (parametersCreated_ne_nil parameters)
      refine ⟨parameter, isParameter, active parameter isParameter, ?_⟩
      apply List.all_eq_true.mpr
      intro condition isCondition
      obtain ⟨conditional, isConditional, _⟩ := (conditions parameter isParameter).known condition isCondition
      rw [none] at isConditional
      exact absurd isConditional List.not_mem_nil
    · rw [numberOfCombinations, none]
      decide
  · simp only [checkedSections, verifyExperimentAcceptability, bind_eq_ok, if_pos none] at verified
    obtain ⟨_, _, passed⟩ := verified
    constructor
    · intro tunable
      apply countable_of_check (conditionals_distinct conditionals) (conditionals_indexed conditionals) passed
      intro assignments assigned
      obtain ⟨parameter, isParameter, _, there⟩ := tunable assignments assigned
      exact ⟨parameter, isParameter, there⟩
    · intro countable assignments assigned
      obtain ⟨parameter, isParameter, there⟩ :=
        exists_satisfied_of_check (conditionals_distinct conditionals) conditions passed countable assigned
      exact ⟨parameter, isParameter, active parameter isParameter, there⟩

/-! ### An update -/

theorem updateParam_conditions {parameter result : ExperimentParameter} {json : JsonObject}
    (accepted : updateParam parameter json = .ok result) : result.conditions = parameter.conditions := by
  unfold updateParam at accepted
  simp only [bind_eq_ok, pure_eq_ok] at accepted
  rcases accepted with ⟨_, _, _, _, _, bounded, _, gridSet, _, valuesSet, _, defaultSet, _, priorSet, _, _, _, _, rfl⟩
  rcases maybeSetParameterBounds_ok bounded with ⟨_, rfl⟩
  rcases maybeSetGridValues_ok gridSet with ⟨_, rfl⟩
  rcases maybeSetParameterCategoricalValues_ok valuesSet with ⟨_, _, rfl⟩
  rcases maybeSetParameterDefaultValue_ok defaultSet with ⟨_, rfl⟩
  rcases maybeSetParameterPrior_ok priorSet with ⟨_, rfl⟩
  rfl

theorem satisfied_congr {first second : ExperimentParameter} (same : first.conditions = second.conditions)
    (assignments : AssignmentsMap) :
    parameterConditionsSatisfied first assignments = parameterConditionsSatisfied second assignments := by
  unfold parameterConditionsSatisfied
  rw [same]

/-- A revision keeps the name and the conditions, and a matched parameter comes out active. -/
theorem PositionRevised.conditions {experiment : ExperimentMeta} {requested : List JsonObject} {position : Nat}
    {before after : ExperimentParameter}
    (revised : PositionRevised experiment.parameterNames requested position before after) :
    after.name = before.name ∧ after.conditions = before.conditions ∧
      (after.deleted = false ↔
        before.deleted = false ∨ ∃ json ∈ requested, target experiment.parameterNames json = some position) := by
  rcases revised with ⟨json, isRequested, matched, changed⟩ | ⟨unmatched, rfl⟩
  · obtain ⟨sameName, active, _⟩ := revisedParameter_ok changed
    simp only [revisedParameter, bind_eq_ok, pure_eq_ok] at changed
    obtain ⟨_, updated, _, _, rfl⟩ := changed
    refine ⟨sameName, updateParam_conditions updated, ?_⟩
    exact iff_of_true active (Or.inr ⟨json, isRequested, matched⟩)
  · refine ⟨rfl, rfl, ?_⟩
    constructor
    · exact Or.inl
    · rintro (active | ⟨json, isRequested, matched⟩)
      · exact active
      · exact absurd matched (unmatched json isRequested)

theorem markUnseen_active {requested : List JsonObject} {parameter : ExperimentParameter} :
    (markUnseen requested parameter).deleted = false ↔
      parameter.name ∈ countedNames requested ∧ parameter.deleted = false := by
  unfold markUnseen
  split
  · simp_all
  · simp_all

theorem markUnseen_conditions {requested : List JsonObject} {parameter : ExperimentParameter} :
    (markUnseen requested parameter).conditions = parameter.conditions := by
  unfold markUnseen
  split <;> rfl

/-- The active parameters after an update are the stored ones it names and those it adds. -/
theorem exists_active_iff {experiment : ExperimentMeta} {requested : List JsonObject}
    {revised : List ExperimentParameter} (loop : ParametersRevised experiment requested revised)
    (assignments : AssignmentsMap) :
    (∃ parameter ∈ revised.map (markUnseen requested),
        parameter.deleted = false ∧ parameterConditionsSatisfied parameter assignments = true) ↔
      (∃ (position : Nat) (parameter : ExperimentParameter),
        experiment.allParametersUnsorted[position]? = some parameter ∧
          StaysActive experiment requested position parameter ∧
          parameterConditionsSatisfied parameter assignments = true) ∨
      ∃ parameter, AddedActive experiment requested parameter ∧
        parameterConditionsSatisfied parameter assignments = true := by
  constructor
  · rintro ⟨_, isMarked, active, satisfied⟩
    obtain ⟨parameter, isRevised, rfl⟩ := List.mem_map.mp isMarked
    obtain ⟨counted, notDeleted⟩ := markUnseen_active.mp active
    rw [satisfied_congr markUnseen_conditions] at satisfied
    rcases loop.stored_or_added isRevised with ⟨position, before, stored, _, change⟩ | ⟨json, isRequested, unmatched, created⟩
    · obtain ⟨sameName, sameConditions, activeIff⟩ := change.conditions
      rw [satisfied_congr sameConditions] at satisfied
      exact Or.inl ⟨position, before, stored, ⟨sameName ▸ counted, activeIff.mp notDeleted⟩, satisfied⟩
    · exact Or.inr ⟨parameter, ⟨counted, json, isRequested, unmatched, created⟩, satisfied⟩
  · rintro (⟨position, before, stored, ⟨counted, stays⟩, satisfied⟩ |
      ⟨parameter, ⟨counted, json, isRequested, unmatched, created⟩, satisfied⟩)
    · obtain ⟨after, atAfter, change⟩ := loop.kept position before stored
      obtain ⟨sameName, sameConditions, activeIff⟩ := change.conditions
      refine ⟨markUnseen requested after, List.mem_map_of_mem (List.mem_of_getElem? atAfter), ?_, ?_⟩
      · exact markUnseen_active.mpr ⟨sameName ▸ counted, activeIff.mpr stays⟩
      · rw [satisfied_congr markUnseen_conditions, satisfied_congr sameConditions]
        exact satisfied
    · have isNew : json ∈ requested.filter fun other => (target experiment.parameterNames other).isNone := by
        rw [List.mem_filter, unmatched]
        exact ⟨isRequested, rfl⟩
      obtain ⟨added, isAdded, createdAgain⟩ := exists_answer loop.added isNew
      have same : added = parameter := Except.ok.inj (createdAgain.symm.trans created)
      subst same
      obtain ⟨_, _, _, notDeleted, _⟩ := newParameter_ok created
      refine ⟨markUnseen requested added, List.mem_map_of_mem (List.mem_of_mem_drop isAdded), ?_, ?_⟩
      · exact markUnseen_active.mpr ⟨counted, notDeleted⟩
      · rw [satisfied_congr markUnseen_conditions]
        exact satisfied

theorem something_to_tune_step {sections : OtherSections} {experiment updated : ExperimentMeta}
    {body : JsonObject} (before : SomethingToTune experiment)
    (accepted : updateExperiment sections experiment body = .ok updated) :
    SomethingToTune updated ↔ CoverKept experiment body updated := by
  obtain ⟨sameConditionals, _, unsent | ⟨sent, revised, loop, parameters⟩⟩ := updateExperiment_ok accepted
  · obtain ⟨notSent, sameParameters⟩ := unsent
    apply iff_of_true
    · unfold SomethingToTune
      rw [sameConditionals, sameParameters]
      exact before
    · intro isSent
      rw [notSent] at isSent
      cases isSent
  · have after : SomethingToTune updated ↔ ∀ assignments, Combination experiment.conditionals assignments →
        (∃ (position : Nat) (parameter : ExperimentParameter),
          experiment.allParametersUnsorted[position]? = some parameter ∧
            StaysActive experiment (requestedParameters body) position parameter ∧
            parameterConditionsSatisfied parameter assignments = true) ∨
        ∃ parameter, AddedActive experiment (requestedParameters body) parameter ∧
          parameterConditionsSatisfied parameter assignments = true := by
      unfold SomethingToTune
      rw [sameConditionals, parameters]
      apply forall₂_congr
      intro assignments _
      exact exists_active_iff loop assignments
    rw [after]
    constructor
    · intro there _ assignments assigned _
      exact there assignments assigned
    · intro kept assignments assigned
      obtain ⟨parameter, isParameter, active, satisfied⟩ := before assignments assigned
      by_cases counted : parameter.name ∈ countedNames (requestedParameters body)
      · obtain ⟨position, stored⟩ := List.getElem?_of_mem isParameter
        exact Or.inl ⟨position, parameter, stored, ⟨counted, Or.inl active⟩, satisfied⟩
      · exact kept sent assignments assigned ⟨parameter, isParameter, active, counted, satisfied⟩

/-- For every accepted create and every sequence of accepted updates, each experiment that is reached has
    something to tune under every combination of conditional values, exactly if an `int64` counts the
    combinations and no update drops a parameter that is missed. -/
theorem something_to_tune_iff {sections : OtherSections}
    {hasFeasibleConstraints : ExperimentMeta → Except ValidationError Unit} {className : String}
    {body : JsonObject} {created : ExperimentMeta}
    (accepted : createExperiment (checkedSections sections hasFeasibleConstraints) className body = .ok created)
    {updates : List (JsonObject × ExperimentMeta)}
    (run : AcceptedUpdates (checkedSections sections hasFeasibleConstraints) created updates) :
    (∀ experiment ∈ Trace.reached created updates, SomethingToTune experiment) ↔
      numberOfCombinations created < 2 ^ 63 ∧ Trace.Every CoverKept created updates := by
  have states : Trace.Every (fun _ _ updated => SomethingToTune updated) created updates ↔
      ∀ experiment ∈ updates.map Prod.snd, SomethingToTune experiment := Trace.every_state_iff
  rw [Trace.reached, List.forall_mem_cons, ← states, ← something_to_tune_created_iff accepted]
  apply and_congr_right
  intro start
  apply Trace.every_iff _ _ SomethingToTune ?_ ?_ start run
  · exact fun _ _ _ before step => something_to_tune_step before step
  · exact fun _ _ _ _ _ after => after

/-- A conditional `c`, the parameters `x` and `y` for its two values, and `z` for both. -/
def experimentWithConditional : JsonObject :=
  [("name", .string "an experiment"),
    ("conditionals", .array [.object [("name", .string "c"), ("values", .array [.string "a", .string "b"])]]),
    ("parameters", .array [conditioned "x" [("c", .string "a")], conditioned "y" [("c", .string "b")],
      conditioned "z" []])]
where
  conditioned (name : String) (conditions : JsonObject) : Json :=
    .object [("name", .string name), ("type", .string "double"),
      ("bounds", .object [("min", .number 0), ("max", .number 1)]), ("conditions", .object conditions),
      ("default_value", .number 0)]

/-- The experiment as it is stored, with the flags of its three parameters. -/
def conditionalMeta (deletedX deletedY deletedZ : Bool) : ExperimentMeta where
  conditionals := [⟨"c", [⟨"a", 1⟩, ⟨"b", 2⟩]⟩]
  allParametersUnsorted :=
    [{ doubleParameter "x" deletedX with conditions := [⟨"c", [1]⟩] },
      { doubleParameter "y" deletedY with conditions := [⟨"c", [2]⟩] },
      doubleParameter "z" deletedZ]

def conditionalSections : OtherSections := checkedSections permissiveSections fun _ => pure ()

theorem experimentWithConditional_created :
    createExperiment conditionalSections "Experiment" experimentWithConditional =
      .ok (conditionalMeta false false false) := by
  decide +kernel

/-- A run that drops `z`, which is not missed. -/
theorem something_to_tune_without_z :
    AcceptedUpdates conditionalSections (conditionalMeta false false false)
        [(requestOfParameters ["x", "y"], conditionalMeta false false true)] ∧
      ∀ experiment ∈ Trace.reached (conditionalMeta false false false)
        [(requestOfParameters ["x", "y"], conditionalMeta false false true)], SomethingToTune experiment := by
  have accepted : AcceptedUpdates conditionalSections (conditionalMeta false false false)
      [(requestOfParameters ["x", "y"], conditionalMeta false false true)] := ⟨by decide +kernel, trivial⟩
  refine ⟨accepted, (something_to_tune_iff experimentWithConditional_created accepted).mpr ?_⟩
  refine ⟨by decide, ?_, trivial⟩
  rintro - assignments assigned -
  obtain ⟨value, isValue, isAssigned⟩ := assigned ⟨"c", [⟨"a", 1⟩, ⟨"b", 2⟩]⟩ (by decide)
  simp only [List.mem_cons, List.not_mem_nil, or_false] at isValue
  rcases isValue with rfl | rfl
  · exact Or.inl ⟨0, _, rfl, ⟨by decide, Or.inl rfl⟩, by simp [parameterConditionsSatisfied, isAssigned]⟩
  · exact Or.inl ⟨1, _, rfl, ⟨by decide, Or.inl rfl⟩, by simp [parameterConditionsSatisfied, isAssigned]⟩

/-- The update that names `x` only is accepted: the dropped `y` and `z` count for the check. -/
theorem nothing_to_tune : ∃ body created updates,
    createExperiment conditionalSections "Experiment" body = .ok created ∧
      AcceptedUpdates conditionalSections created updates ∧
        ¬∀ experiment ∈ Trace.reached created updates, SomethingToTune experiment := by
  refine ⟨experimentWithConditional, conditionalMeta false false false,
    [(requestOfParameters ["x"], conditionalMeta false true true)], experimentWithConditional_created,
    ⟨by decide +kernel, trivial⟩, ?_⟩
  intro tunable
  have there := tunable (conditionalMeta false true true) (by simp [Trace.reached])
    (AssignmentsMap.empty.set "c" 2)
  obtain ⟨parameter, isParameter, active, satisfied⟩ := there (by
    intro conditional isConditional
    rw [List.mem_singleton.mp isConditional]
    exact ⟨⟨"b", 2⟩, by decide, rfl⟩)
  revert parameter
  decide +kernel

end Zigopt.Experiment
