/-
Module: Zigopt.Experiment.TypedParameters
Layer: Experiment
Purpose: What every parameter of an experiment has that a new parameter has and an update keeps, over all accepted
  updates. Only numbers of type double have a prior or a log transformation.
Main exports: everyParameter_of_run, Typed, typed_of_run
-/
import Zigopt.Experiment.CategoricalValues

namespace Zigopt.Experiment

open Raising

/-! ### What every parameter has -/

section Every

variable {sections : OtherSections} {good : ExperimentParameter → Prop}

theorem everyParameter_step
    (created : ∀ json experimentType conditionals parameter,
      setExperimentParameterFromJson json experimentType conditionals = .ok parameter → good parameter)
    (revised : ∀ parameter json result, good parameter → revisedParameter parameter json = .ok result → good result)
    (deleted : ∀ parameter, good parameter → good { parameter with deleted := true })
    {before after : ExperimentMeta} {body : JsonObject} (allGood : ∀ parameter ∈ before.allParametersUnsorted, good parameter)
    (accepted : updateExperiment sections before body = .ok after) :
    ∀ parameter ∈ after.allParametersUnsorted, good parameter := by
  obtain ⟨_, _, unsent | ⟨_, loopResult, loop, parametersAre⟩⟩ := updateExperiment_ok accepted
  · rw [unsent.2]
    exact allGood
  · rw [parametersAre]
    intro marked isMarked
    obtain ⟨parameter, isRevised, rfl⟩ := List.mem_map.mp isMarked
    have isGood : good parameter := by
      rcases loop.stored_or_added isRevised with ⟨position, stored, isStored, _, change⟩ | ⟨json, _, _, isNew⟩
      · have wasGood := allGood stored (List.mem_of_getElem? isStored)
        rcases change with ⟨json, _, _, changed⟩ | ⟨_, rfl⟩
        · exact revised stored json parameter wasGood changed
        · exact wasGood
      · simp only [newParameter, bind_eq_ok, pure_eq_ok] at isNew
        obtain ⟨_, set, _, _, rfl⟩ := isNew
        exact created json _ _ _ set
    unfold markUnseen
    split
    · exact isGood
    · exact deleted parameter isGood

/-- What a new parameter has and an update keeps, every parameter of every experiment has that is reached. -/
theorem everyParameter_of_run
    (created : ∀ json experimentType conditionals parameter,
      setExperimentParameterFromJson json experimentType conditionals = .ok parameter → good parameter)
    (revised : ∀ parameter json result, good parameter → revisedParameter parameter json = .ok result → good result)
    (deleted : ∀ parameter, good parameter → good { parameter with deleted := true })
    {className : String} {body : JsonObject} {start : ExperimentMeta}
    (accepted : createExperiment sections className body = .ok start) {updates : List (JsonObject × ExperimentMeta)}
    (run : AcceptedUpdates sections start updates) :
    ∀ experiment ∈ Trace.reached start updates, ∀ parameter ∈ experiment.allParametersUnsorted, good parameter := by
  have startGood : ∀ parameter ∈ start.allParametersUnsorted, good parameter := by
    intro parameter isParameter
    obtain ⟨json, _, set⟩ :=
      exists_item (setExperimentParameterListFromJson_ok (createExperiment_ok accepted)).created isParameter
    exact created json _ _ _ set
  exact Trace.every_invariant (fun _ _ _ allGood step => everyParameter_step created revised deleted allGood step)
    startGood run

end Every

/-! ### Types -/

/-- Only a number of type double has a prior or a log transformation. -/
structure Typed (parameter : ExperimentParameter) : Prop where
  prior : parameter.prior.isSome → parameter.paramType = .double
  log : parameter.transformation = .log → parameter.paramType = .double

section Typing

variable {parameter result : ExperimentParameter} {json : JsonObject}

theorem get_of_not_isPresent {key : String} (absent : json.isPresent key = false) : json.get key = .null := by
  unfold JsonObject.isPresent at absent
  split at absent
  · assumption
  · cases absent

theorem setTransformationFromJson_double (isPlain : parameter.transformation = .none)
    (accepted : setTransformationFromJson parameter json = .ok result) :
    result.transformation = .log → result.paramType = .double := by
  simp only [setTransformationFromJson, transformationFromJson, bind_eq_ok, raiseIf_eq_ok, pure_eq_ok] at accepted
  obtain ⟨transformation, ⟨_, allowed, name, read, matched⟩, rfl⟩ := accepted
  intro isLog
  by_contra notDouble
  have absent : json.isPresent "transformation" = false := by
    by_contra present
    exact allowed ⟨notDouble, by simpa using present⟩
  have noName : name = none := by
    rw [← getOptWithValidation_eq_read rfl read, get_of_not_isPresent absent]
    rfl
  rw [noName, pure_eq_ok, isPlain] at matched
  subst matched
  cases isLog

/-- A prior is only set for a number of type double. -/
theorem setPriorFromJson_double (before : parameter.prior.isSome → parameter.paramType = .double)
    (accepted : setPriorFromJson parameter json = .ok result) : result.prior.isSome → parameter.paramType = .double := by
  unfold setPriorFromJson at accepted
  split at accepted
  · simp only [givenPrior, checkPrior, bind_eq_ok, raiseIf_eq_ok, not_not] at accepted
    obtain ⟨_, ⟨_, ⟨_, isDouble, _⟩, _⟩, _⟩ := accepted
    exact fun _ => isDouble
  · rw [pure_eq_ok] at accepted
    rw [← accepted]
    exact before

theorem setExperimentParameterFromJson_typed {experimentType : ExperimentType}
    {conditionals : List ExperimentConditional}
    (accepted : setExperimentParameterFromJson json experimentType conditionals = .ok result) : Typed result := by
  unfold setExperimentParameterFromJson at accepted
  simp only [bind_eq_ok] at accepted
  obtain ⟨name, _, _, typed, _, transformed, _, bounded, _, priorSet, _, valuesSet, _, gridSet, _, defaultSet,
    conditionsSet⟩ := accepted
  obtain ⟨_, rfl⟩ := setParameterTypeFromJson_ok typed
  have log := setTransformationFromJson_double rfl transformed
  obtain ⟨_, rfl⟩ := setTransformationFromJson_ok transformed
  obtain ⟨_, rfl⟩ := setBoundsFromJson_ok bounded
  have prior := setPriorFromJson_double (by simp) priorSet
  obtain ⟨_, rfl⟩ := setPriorFromJson_ok priorSet
  obtain ⟨_, _, rfl⟩ := setCategoricalValuesFromJson_ok valuesSet
  obtain ⟨_, rfl⟩ := maybeSetGridValues_ok gridSet
  obtain ⟨_, rfl⟩ := setDefaultValueFromJson_ok defaultSet
  obtain ⟨_, rfl⟩ := setParameterConditionsFromJson_ok conditionsSet
  exact ⟨prior, log⟩

theorem revisedParameter_typed (before : Typed parameter) (accepted : revisedParameter parameter json = .ok result) :
    Typed result := by
  simp only [revisedParameter, updateParam, bind_eq_ok, pure_eq_ok] at accepted
  obtain ⟨_, ⟨_, _, _, _, _, bounded, _, gridSet, _, valuesSet, _, defaultSet, _, priorSet, _, _, _, _, rfl⟩, _, _,
    rfl⟩ := accepted
  obtain ⟨_, rfl⟩ := maybeSetParameterBounds_ok bounded
  obtain ⟨_, rfl⟩ := maybeSetGridValues_ok gridSet
  obtain ⟨_, _, rfl⟩ := maybeSetParameterCategoricalValues_ok valuesSet
  obtain ⟨_, rfl⟩ := maybeSetParameterDefaultValue_ok defaultSet
  unfold maybeSetParameterPrior at priorSet
  split at priorSet
  · split at priorSet
    · have prior := setPriorFromJson_double (by exact before.prior) priorSet
      obtain ⟨_, rfl⟩ := setPriorFromJson_ok priorSet
      exact ⟨prior, before.log⟩
    · rw [pure_eq_ok] at priorSet
      subst priorSet
      exact ⟨by simp, before.log⟩
  · rw [pure_eq_ok] at priorSet
    subst priorSet
    exact ⟨before.prior, before.log⟩

end Typing

/-- Every parameter of an experiment that a run reaches has the values of its type. -/
theorem typed_of_run {sections : OtherSections} {className : String} {body : JsonObject} {start : ExperimentMeta}
    (accepted : createExperiment sections className body = .ok start) {updates : List (JsonObject × ExperimentMeta)}
    (run : AcceptedUpdates sections start updates) :
    ∀ experiment ∈ Trace.reached start updates, ∀ parameter ∈ experiment.allParametersUnsorted, Typed parameter :=
  everyParameter_of_run (fun _ _ _ _ => setExperimentParameterFromJson_typed)
    (fun _ _ _ before => revisedParameter_typed before) (fun _ before => ⟨before.prior, before.log⟩) accepted run

end Zigopt.Experiment
