/-
Module: Zigopt.Experiment.Identity
Layer: Experiment
Purpose: What holds of the names and indices of every experiment that is reached, whatever its updates
  request: the enum indices of a parameter are distinct, a name that an active parameter has leads to an
  active one, and the names and indices of the conditionals and of their values are distinct.
Main exports: Identified, identified_of_run
-/
import Zigopt.Experiment.CategoricalValues
import Zigopt.Experiment.Conditionals

namespace Zigopt.Experiment

open Raising

/-- The last stored parameter of a name is active if any of that name is. -/
def LastActive (parameters : List ExperimentParameter) : Prop :=
  ∀ (position : Nat) (parameter : ExperimentParameter), parameters[position]? = some parameter →
    Registry.lastIndexOf parameter.name (parameters.map (·.name)) = some position →
      (∃ active ∈ parameters, active.deleted = false ∧ active.name = parameter.name) → parameter.deleted = false

def ValuesDistinct (conditional : ExperimentConditional) : Prop :=
  (conditional.values.map (·.name)).Nodup ∧ (conditional.values.map (·.enumIndex)).Nodup

/-- Names and indices tell the parts of the experiment apart. -/
structure Identified (experiment : ExperimentMeta) : Prop where
  indices : ∀ parameter ∈ experiment.allParametersUnsorted, parameter.enumIndices.Nodup
  lastActive : LastActive experiment.allParametersUnsorted
  conditionals : (experiment.conditionals.map (·.name)).Nodup
  values : ∀ conditional ∈ experiment.conditionals, ValuesDistinct conditional

/-! ### Enum indices -/

/-- The loop over the requested values gives a new value an index above all the others. -/
def IndicesBelow (values : List ExperimentCategoricalValue) (next : Nat) : Prop :=
  (values.map (·.enumIndex)).Nodup ∧ ∀ index ∈ values.map (·.enumIndex), index < next

theorem map_index_modify (values : List ExperimentCategoricalValue) (position : Nat) :
    (values.modify position fun value => { value with deleted := false }).map (·.enumIndex) =
      values.map (·.enumIndex) :=
  map_index_eq_of_assignments (map_assignment_modify values position)

theorem CategoricalLoop.indicesBelow {parameterName : String} {storedNames : List String}
    {loop next : CategoricalLoop} {valueJson : JsonObject ⊕ String}
    (accepted : loop.next parameterName storedNames valueJson = .ok next)
    (below : IndicesBelow loop.values loop.enumIndex) : IndicesBelow next.values next.enumIndex := by
  rcases CategoricalLoop.next_ok accepted with ⟨rawName, _, ⟨position, _, _, rfl⟩ | ⟨_, _, _, rfl⟩⟩
  · unfold IndicesBelow
    rw [map_index_modify]
    exact below
  · unfold IndicesBelow
    rw [List.map_append, List.map_singleton]
    constructor
    · rw [List.nodup_append']
      refine ⟨below.1, by simp, ?_⟩
      intro index isOld isNew
      rw [List.mem_singleton.mp isNew] at isOld
      exact absurd (below.2 _ isOld) (Nat.lt_irrefl _)
    · intro index member
      rcases List.mem_append.mp member with isOld | isNew
      · exact Nat.lt_succ_of_lt (below.2 index isOld)
      · rw [List.mem_singleton.mp isNew]
        exact Nat.lt_succ_self _

theorem updateCategoricalValues_indices {parameter : ExperimentParameter}
    {valuesJson : List (JsonObject ⊕ String)} {values : List ExperimentCategoricalValue}
    (accepted : updateCategoricalValues parameter valuesJson = .ok values)
    (distinct : parameter.enumIndices.Nodup) : (values.map (·.enumIndex)).Nodup := by
  simp only [updateCategoricalValues, bind_eq_ok, raiseIf_eq_ok, pure_eq_ok] at accepted
  rcases accepted with ⟨loop, looped, _, _, rfl⟩
  have start : IndicesBelow parameter.allCategoricalValues (nextEnumIndex parameter.allCategoricalValues) :=
    ⟨distinct, fun _ member => lt_nextEnumIndex member⟩
  have below : IndicesBelow loop.values loop.enumIndex :=
    foldlM_induction (fun _ loop => IndicesBelow loop.values loop.enumIndex)
      (fun _ _ _ _ below stepped => CategoricalLoop.indicesBelow stepped below) start looped
  have unmarked := map_index_eq_of_assignments (map_markUnseenValue_assignment loop.seenNames loop.values)
  exact unmarked ▸ below.1

theorem revisedParameter_indices {parameter result : ExperimentParameter} {json : JsonObject}
    (accepted : revisedParameter parameter json = .ok result) (distinct : parameter.enumIndices.Nodup) :
    result.enumIndices.Nodup := by
  have values := (revisedParameter_ok accepted).2.2
  simp only [categoricalValuesForUpdate, bind_eq_ok] at values
  rcases values with ⟨read, _, matched⟩
  cases read with
  | none =>
      rw [pure_eq_ok] at matched
      unfold ExperimentParameter.enumIndices
      rw [← matched]
      exact distinct
  | some valuesJson => exact updateCategoricalValues_indices matched distinct

theorem createdValues_indices {json : JsonObject} {values : List ExperimentCategoricalValue}
    (created : CreatedValues json values) : (values.map (·.enumIndex)).Nodup := by
  obtain ⟨_, valuesCreated, _⟩ := created.values
  exact valuesCreated.unique.2

section Update

variable {experiment : ExperimentMeta} {requested : List JsonObject} {revised : List ExperimentParameter}

theorem ParametersRevised.indices (loop : ParametersRevised experiment requested revised)
    (distinct : ∀ parameter ∈ experiment.allParametersUnsorted, parameter.enumIndices.Nodup) :
    ∀ parameter ∈ revised.map (markUnseen requested), parameter.enumIndices.Nodup := by
  intro marked isMarked
  obtain ⟨parameter, isRevised, rfl⟩ := List.mem_map.mp isMarked
  unfold ExperimentParameter.enumIndices
  rw [markUnseen_values]
  rcases loop.stored_or_added isRevised with ⟨_, before, stored, _, change⟩ | ⟨json, _, _, created⟩
  · have distinctBefore := distinct before (List.mem_of_getElem? stored)
    rcases change with ⟨json, _, _, changed⟩ | ⟨_, rfl⟩
    · exact revisedParameter_indices changed distinctBefore
    · exact distinctBefore
  · obtain ⟨_, _, _, _, values⟩ := newParameter_ok created
    exact createdValues_indices values

/-! ### The last parameter of a name -/

theorem ParametersRevised.names_take (loop : ParametersRevised experiment requested revised) :
    revised.map (·.name) = experiment.parameterNames ++
      (revised.drop experiment.allParametersUnsorted.length).map (·.name) := by
  have front : (revised.take experiment.allParametersUnsorted.length).map (·.name) = experiment.parameterNames := by
    apply List.ext_getElem?
    intro position
    rw [List.getElem?_map, ExperimentMeta.parameterNames, List.getElem?_map, List.getElem?_take]
    cases stored : experiment.allParametersUnsorted[position]? with
    | none =>
        rw [if_neg (Nat.not_lt.mpr (List.getElem?_eq_none_iff.mp stored))]
    | some before =>
        obtain ⟨after, atAfter, change⟩ := loop.kept position before stored
        rw [if_pos (List.getElem?_eq_some_iff.mp stored).1, atAfter, Option.map_some, Option.map_some,
          change.conditions.1]
  calc revised.map (·.name)
      = (revised.take experiment.allParametersUnsorted.length ++
          revised.drop experiment.allParametersUnsorted.length).map (·.name) := by rw [List.take_append_drop]
    _ = _ := by rw [List.map_append, front]

theorem map_markUnseen_name (parameters : List ExperimentParameter) :
    (parameters.map (markUnseen requested)).map (·.name) = parameters.map (·.name) := by
  rw [List.map_map]
  apply List.map_congr_left
  intro parameter _
  exact markUnseen_name requested parameter

/-- A requested name is looked up at its last position, and the parameter there is revived; a parameter
    that is added behind it comes out active. -/
theorem ParametersRevised.lastActive (loop : ParametersRevised experiment requested revised) :
    LastActive (revised.map (markUnseen requested)) := by
  rintro position marked atPosition isLast ⟨active, isMarked, isActive, sameName⟩
  obtain ⟨parameter, atRevised, rfl⟩ := Option.map_eq_some_iff.mp (List.getElem?_map .. ▸ atPosition)
  obtain ⟨origin, _, rfl⟩ := List.mem_map.mp isMarked
  rw [markUnseen_name, markUnseen_name] at sameName
  rw [map_markUnseen_name, markUnseen_name, loop.names_take] at isLast
  have counted : parameter.name ∈ countedNames requested := sameName ▸ (markUnseen_active.mp isActive).1
  apply markUnseen_active.mpr
  refine ⟨counted, ?_⟩
  rcases Nat.lt_or_ge position experiment.allParametersUnsorted.length with inStored | added
  · have storedLast := Registry.lastIndexOf_of_append isLast (by
      rw [ExperimentMeta.parameterNames, List.length_map]
      exact inStored)
    obtain ⟨after, atAfter, change⟩ := loop.kept position _ (List.getElem?_eq_getElem inStored)
    obtain rfl : parameter = after := Option.some.inj (atRevised.symm.trans atAfter)
    obtain ⟨json, isRequested, isNamed⟩ := mem_countedNames.mp counted
    apply change.conditions.2.2.mpr
    exact Or.inr ⟨json, isRequested, by rw [target, isNamed]; exact storedLast⟩
  · have isAdded : parameter ∈ revised.drop experiment.allParametersUnsorted.length := by
      rw [List.mem_iff_getElem?]
      refine ⟨position - experiment.allParametersUnsorted.length, ?_⟩
      rw [List.getElem?_drop, Nat.add_sub_cancel' added]
      exact atRevised
    obtain ⟨json, _, created⟩ := exists_item loop.added isAdded
    obtain ⟨_, _, _, notDeleted, _⟩ := newParameter_ok created
    exact notDeleted

end Update

/-! ### Conditionals -/

theorem setConditionalFromJson_ok {json : JsonObject} {conditional : ExperimentConditional}
    (accepted : setConditionalFromJson json = .ok conditional) : ValuesDistinct conditional := by
  simp only [setConditionalFromJson, bind_eq_ok, raiseIf_eq_ok, pure_eq_ok] at accepted
  rcases accepted with ⟨name, _, valuesJson, _, values, looped, _, _, _, _, rfl⟩
  have settled : (values.map (·.name)).Nodup ∧ values.map (·.enumIndex) = List.range' 1 values.length := by
    apply foldlM_induction (fun _ values =>
      (values.map (·.name)).Nodup ∧ values.map (·.enumIndex) = List.range' 1 values.length) ?_ ⟨by simp, rfl⟩ looped
    rintro _ values _ next ⟨distinct, indices⟩ added
    simp only [addConditionalValue, bind_eq_ok, raiseIf_eq_ok, pure_eq_ok] at added
    rcases added with ⟨valueName, _, _, unseen, rfl⟩
    constructor
    · rw [List.map_append, List.nodup_append']
      exact ⟨distinct, by simp, by simpa using unseen⟩
    · rw [List.map_append, indices, List.length_append, List.length_singleton, List.range'_concat]
      simp [Nat.add_comm]
  refine ⟨settled.1, ?_⟩
  rw [settled.2]
  exact List.nodup_range'

theorem conditionals_values {body : JsonObject} {conditionals : List ExperimentConditional}
    (accepted : setExperimentConditionalsListFromJson body = .ok conditionals) :
    ∀ conditional ∈ conditionals, ValuesDistinct conditional := by
  simp only [setExperimentConditionalsListFromJson, bind_eq_ok] at accepted
  rcases accepted with ⟨conditionalsJson, _, looped⟩
  apply foldlM_induction (fun _ conditionals => ∀ conditional ∈ conditionals, ValuesDistinct conditional)
    ?_ (by simp) looped
  intro done conditionals json next distinct added
  simp only [addConditional, bind_eq_ok, raiseIf_eq_ok, pure_eq_ok] at added
  rcases added with ⟨conditional, read, _, _, rfl⟩
  intro other member
  rcases List.mem_append.mp member with earlier | last
  · exact distinct other earlier
  · rw [List.mem_singleton.mp last]
    exact setConditionalFromJson_ok read

/-! ### Runs -/

theorem identified_of_create {sections : OtherSections} {className : String} {body : JsonObject}
    {created : ExperimentMeta} (accepted : createExperiment sections className body = .ok created) :
    Identified created := by
  have each := (setExperimentParameterListFromJson_ok (createExperiment_ok accepted)).created
  have conditionals := (createExperiment_conditionals accepted).1
  constructor
  · intro parameter isParameter
    obtain ⟨json, _, set⟩ := exists_item each isParameter
    obtain ⟨_, _, _, _, values⟩ := setExperimentParameterFromJson_ok set
    exact createdValues_indices values
  · intro position parameter atPosition _ _
    obtain ⟨json, _, set⟩ := exists_item each (List.mem_of_getElem? atPosition)
    obtain ⟨_, _, _, notDeleted, _⟩ := setExperimentParameterFromJson_ok set
    exact notDeleted
  · exact conditionals_distinct conditionals
  · exact conditionals_values conditionals

theorem identified_of_update {sections : OtherSections} {experiment updated : ExperimentMeta}
    {body : JsonObject} (accepted : updateExperiment sections experiment body = .ok updated)
    (before : Identified experiment) : Identified updated := by
  obtain ⟨sameConditionals, _, ⟨_, sameParameters⟩ | ⟨_, revised, loop, parameters⟩⟩ := updateExperiment_ok accepted
  · exact {
      indices := sameParameters ▸ before.indices
      lastActive := sameParameters ▸ before.lastActive
      conditionals := sameConditionals ▸ before.conditionals
      values := sameConditionals ▸ before.values }
  · exact {
      indices := parameters ▸ loop.indices before.indices
      lastActive := parameters ▸ loop.lastActive
      conditionals := sameConditionals ▸ before.conditionals
      values := sameConditionals ▸ before.values }

/-- Every experiment that a run reaches is identified. -/
theorem identified_of_run {sections : OtherSections} {className : String} {body : JsonObject}
    {created : ExperimentMeta} (accepted : createExperiment sections className body = .ok created)
    {updates : List (JsonObject × ExperimentMeta)} (run : AcceptedUpdates sections created updates) :
    ∀ experiment ∈ Trace.reached created updates, Identified experiment :=
  Trace.every_invariant (fun _ _ _ before step => identified_of_update step before)
    (identified_of_create accepted) run

end Zigopt.Experiment
