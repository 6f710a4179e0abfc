/-
Module: Zigopt.Experiment.TwoValues
Layer: Experiment
Purpose: What holds of the categorical parameters over the life of an experiment: the enum indices are distinct, at least
  two values are active, and the conditions are on conditionals of the experiment.
Main exports: TwoValues, CategoricalKept, create_categoricalKept, CategoricalKept.step
-/
import Zigopt.Experiment.CategoricalValues
import Zigopt.Experiment.Conditionals

namespace Zigopt.Experiment

open Raising

/-- The enum indices of a parameter are distinct, and a categorical one has at least two active values. -/
structure TwoValues (parameter : ExperimentParameter) : Prop where
  distinct : parameter.enumIndices.Nodup
  two : parameter.isCategorical = true → 2 ≤ parameter.activeCategoricalValues.length

/-- What holds of all stored parameters, deleted or not. -/
structure CategoricalKept (experiment : ExperimentMeta) : Prop where
  conditionsKnown : ∀ parameter ∈ experiment.allParametersUnsorted,
    ConditionsKnown experiment.conditionals parameter
  twoValues : ∀ parameter ∈ experiment.allParametersUnsorted, TwoValues parameter

theorem setExperimentParameterFromJson_twoValues {json : JsonObject} {experimentType : ExperimentType}
    {conditionals : List ExperimentConditional} {result : ExperimentParameter}
    (accepted : setExperimentParameterFromJson json experimentType conditionals = .ok result) : TwoValues result := by
  rcases setExperimentParameterFromJson_ok accepted with ⟨_, _, _, _, createdValues⟩
  rcases createdValues.values with ⟨_, valuesCreated, _⟩
  refine ⟨valuesCreated.unique.2, ?_⟩
  intro categorical
  have allActive : result.activeCategoricalValues = result.allCategoricalValues := by
    apply List.filter_eq_self.mpr
    intro value member
    rw [valuesCreated.active value member]
    rfl
  rw [allActive]
  unfold setExperimentParameterFromJson at accepted
  simp only [bind_eq_ok] at accepted
  rcases accepted with ⟨name, _, typedParameter, typed, _, transformed, _, bounded, _, priorSet, _, valuesSet, _, gridSet,
    _, defaultSet, conditionsSet⟩
  rcases setTransformationFromJson_ok transformed with ⟨_, rfl⟩
  rcases setBoundsFromJson_ok bounded with ⟨_, rfl⟩
  rcases setPriorFromJson_ok priorSet with ⟨_, rfl⟩
  rcases setCategoricalValuesFromJson_ok valuesSet with ⟨values, read, rfl⟩
  rcases maybeSetGridValues_ok gridSet with ⟨_, rfl⟩
  rcases setDefaultValueFromJson_ok defaultSet with ⟨_, rfl⟩
  rcases setParameterConditionsFromJson_ok conditionsSet with ⟨_, rfl⟩
  have isCategorical : typedParameter.paramType = .categorical := of_decide_eq_true categorical
  simp only [categoricalValuesFromJson, isCategorical, givenCategoricalValues, bind_eq_ok, raiseIf_eq_ok,
    pure_eq_ok] at read
  rcases read with ⟨_, _, others, _, _, notEmpty, _, notOne, rfl⟩
  have positive := List.length_pos_of_ne_nil notEmpty
  change 2 ≤ others.length
  omega

/-- The loop of an update uses new indices for new values. -/
theorem categoricalLoop_indices {parameterName : String} {storedNames : List String}
    {valuesJson : List (JsonObject ⊕ String)} {start finish : CategoricalLoop}
    (looped : valuesJson.foldlM (CategoricalLoop.next parameterName storedNames) start = .ok finish)
    (distinct : (start.values.map (·.enumIndex)).Nodup)
    (below : ∀ index ∈ start.values.map (·.enumIndex), index < start.enumIndex) :
    (finish.values.map (·.enumIndex)).Nodup := by
  have kept : (finish.values.map (·.enumIndex)).Nodup ∧
      ∀ index ∈ finish.values.map (·.enumIndex), index < finish.enumIndex := by
    apply foldlM_induction (fun _ (loop : CategoricalLoop) => (loop.values.map (·.enumIndex)).Nodup ∧
      ∀ index ∈ loop.values.map (·.enumIndex), index < loop.enumIndex) ?_ ⟨distinct, below⟩ looped
    intro _ loop valueJson next before stepped
    unfold CategoricalLoop.next at stepped
    simp only [bind_eq_ok] at stepped
    rcases stepped with ⟨rawName, _, matched⟩
    split at matched
    · rename_i position _
      simp only [bind_eq_ok, raiseIf_eq_ok, pure_eq_ok] at matched
      rcases matched with ⟨_, _, rfl⟩
      have sameIndices : (loop.values.modify position fun value => { value with deleted := false }).map (·.enumIndex) =
          loop.values.map (·.enumIndex) :=
        map_index_eq_of_assignments (map_assignment_modify loop.values position)
      rw [sameIndices]
      exact before
    · simp only [bind_eq_ok, raiseIf_eq_ok, pure_eq_ok] at matched
      rcases matched with ⟨value, read, _, _, rfl⟩
      rcases setCategoricalValueFromJson_ok read with ⟨_, _, _, rfl⟩
      rw [List.map_append, List.map_singleton]
      constructor
      · rw [List.nodup_append']
        refine ⟨before.1, List.nodup_singleton _, ?_⟩
        intro index isEarlier isLast
        rw [List.mem_singleton.mp isLast] at isEarlier
        exact absurd (before.2 _ isEarlier) (Nat.lt_irrefl _)
      · intro index member
        rcases List.mem_append.mp member with earlier | last
        · exact Nat.lt_succ_of_lt (before.2 index earlier)
        · rw [List.mem_singleton.mp last]
          exact Nat.lt_succ_self _
  exact kept.1

theorem updateParam_paramType {parameter result : ExperimentParameter} {json : JsonObject}
    (accepted : updateParam parameter json = .ok result) : result.paramType = parameter.paramType := by
  unfold updateParam at accepted
  simp only [bind_eq_ok, pure_eq_ok] at accepted
  rcases accepted with ⟨_, _, _, _, _, bounded, _, gridSet, _, valuesSet, _, defaultSet, _, priorSet, _, _, _, _, rfl⟩
  rcases maybeSetParameterBounds_ok bounded with ⟨_, rfl⟩
  rcases maybeSetGridValues_ok gridSet with ⟨_, rfl⟩
  rcases maybeSetParameterCategoricalValues_ok valuesSet with ⟨_, _, rfl⟩
  rcases maybeSetParameterDefaultValue_ok defaultSet with ⟨_, rfl⟩
  rcases maybeSetParameterPrior_ok priorSet with ⟨_, rfl⟩
  rfl

theorem categoricalValuesForUpdate_twoValues {parameter : ExperimentParameter} {json : JsonObject}
    {values : List ExperimentCategoricalValue} (before : TwoValues parameter)
    (accepted : categoricalValuesForUpdate parameter json = .ok values) :
    (values.map (·.enumIndex)).Nodup ∧
      (parameter.isCategorical = true → 2 ≤ (values.filter fun value => !value.deleted).length) := by
  simp only [categoricalValuesForUpdate, bind_eq_ok] at accepted
  rcases accepted with ⟨read, _, matched⟩
  cases read with
  | none =>
      rw [pure_eq_ok] at matched
      rw [← matched]
      exact ⟨before.distinct, before.two⟩
  | some valuesJson =>
      simp only [updateCategoricalValues, bind_eq_ok, raiseIf_eq_ok, pure_eq_ok] at matched
      rcases matched with ⟨loop, looped, _, enough, rfl⟩
      refine ⟨?_, fun _ => Nat.not_lt.mp enough⟩
      have distinct := categoricalLoop_indices looped before.distinct (fun _ member => lt_nextEnumIndex member)
      have sameIndices : (loop.values.map fun value =>
          if value.name ∈ loop.seenNames then value else { value with deleted := true }).map (·.enumIndex) =
          loop.values.map (·.enumIndex) := by
        rw [List.map_map]
        apply List.map_congr_left
        intro value _
        simp only [Function.comp_apply]
        split <;> rfl
      rw [sameIndices]
      exact distinct

theorem revisedParameter_twoValues {parameter result : ExperimentParameter} {json : JsonObject}
    (before : TwoValues parameter) (accepted : revisedParameter parameter json = .ok result) : TwoValues result := by
  rcases revisedParameter_ok accepted with ⟨_, _, valuesRead⟩
  rcases categoricalValuesForUpdate_twoValues before valuesRead with ⟨distinct, two⟩
  refine ⟨distinct, ?_⟩
  intro categorical
  simp only [revisedParameter, bind_eq_ok, pure_eq_ok] at accepted
  rcases accepted with ⟨_, updated, _, _, rfl⟩
  apply two
  rw [ExperimentParameter.isCategorical, ← updateParam_paramType updated]
  exact categorical

theorem markUnseen_twoValues {requested : List JsonObject} {parameter : ExperimentParameter}
    (before : TwoValues parameter) : TwoValues (markUnseen requested parameter) := by
  unfold markUnseen
  split
  · exact before
  · exact ⟨before.distinct, before.two⟩

/-- A created categorical parameter has at least two values. -/
theorem create_categoricalKept {sections : OtherSections} {className : String} {body : JsonObject}
    {created : ExperimentMeta} (accepted : createExperiment sections className body = .ok created) :
    CategoricalKept created := by
  have each := (setExperimentParameterListFromJson_ok (createExperiment_ok accepted)).created
  constructor
  · intro parameter isParameter
    obtain ⟨json, _, set⟩ := exists_item each isParameter
    exact setExperimentParameterFromJson_conditions set
  · intro parameter isParameter
    obtain ⟨json, _, set⟩ := exists_item each isParameter
    exact setExperimentParameterFromJson_twoValues set

theorem newParameter_kept {json : JsonObject} {experimentType : ExperimentType}
    {conditionals : List ExperimentConditional} {parameter : ExperimentParameter}
    (accepted : newParameter json experimentType conditionals = .ok parameter) :
    ConditionsKnown conditionals parameter ∧ TwoValues parameter := by
  simp only [newParameter, bind_eq_ok, pure_eq_ok] at accepted
  rcases accepted with ⟨_, created, _, _, rfl⟩
  exact ⟨setExperimentParameterFromJson_conditions created, setExperimentParameterFromJson_twoValues created⟩

/-- No accepted update leaves a categorical parameter with fewer than two active values. -/
theorem CategoricalKept.step {sections : OtherSections} {before after : ExperimentMeta} {body : JsonObject}
    (kept : CategoricalKept before) (accepted : updateExperiment sections before body = .ok after) :
    CategoricalKept after := by
  obtain ⟨sameConditionals, _, unsent | ⟨_, revised, loop, parametersAre⟩⟩ := updateExperiment_ok accepted
  · constructor
    · rw [unsent.2, sameConditionals]
      exact kept.conditionsKnown
    · rw [unsent.2]
      exact kept.twoValues
  · have each : ∀ parameter ∈ revised, ConditionsKnown before.conditionals parameter ∧ TwoValues parameter := by
      intro parameter isRevised
      rcases loop.stored_or_added isRevised with ⟨position, stored, isStored, _, change⟩ | ⟨json, _, _, created⟩
      · have wasStored := List.mem_of_getElem? isStored
        obtain ⟨_, sameConditions, _⟩ := change.conditions
        have known := kept.conditionsKnown stored wasStored
        refine ⟨⟨sameConditions ▸ known.distinct, sameConditions ▸ known.known⟩, ?_⟩
        rcases change with ⟨json, _, _, changed⟩ | ⟨_, rfl⟩
        · exact revisedParameter_twoValues (kept.twoValues stored wasStored) changed
        · exact kept.twoValues parameter wasStored
      · exact newParameter_kept created
    rw [← sameConditionals] at each
    constructor
    · intro marked isMarked
      rw [parametersAre] at isMarked
      obtain ⟨parameter, isRevised, rfl⟩ := List.mem_map.mp isMarked
      have known := (each parameter isRevised).1
      refine ⟨?_, ?_⟩
      · rw [markUnseen_conditions]
        exact known.distinct
      · rw [markUnseen_conditions]
        exact known.known
    · intro marked isMarked
      rw [parametersAre] at isMarked
      obtain ⟨parameter, isRevised, rfl⟩ := List.mem_map.mp isMarked
      exact markUnseen_twoValues (each parameter isRevised).2

end Zigopt.Experiment
