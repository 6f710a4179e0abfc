/-
Module: Zigopt.Experiment.Revision
Layer: Experiment
Purpose: What an accepted request makes of the stored parameters: which setter touches a name or a
  categorical value, and what the loop over the requested parameters leaves in each position of the
  stored list and behind it.
Main exports: setExperimentParameterFromJson_ok, updateParam_ok, ParametersRevised,
  updateParameters_ok, updateExperiment_ok
-/
import Zigopt.Experiment.Update
import Zigopt.Lib.Trace

namespace Zigopt.Experiment

open Raising

theorem readName_eq_ok {json : JsonObject} {rawName : String} :
    getWithValidation json "name" .string = .ok rawName ↔ rawName? json = some rawName :=
  getWithValidation_eq_ok rfl

/-- The values that a new parameter is created with. -/
def CreatedValues (json : JsonObject) (values : List ExperimentCategoricalValue) : Prop :=
  (json.isPresent "categorical_values" = false ∧ values = []) ∨ ∃ valuesJson, categoricalValuesType.read (json.get "categorical_values") = some valuesJson ∧
    valuesJson.foldlM addCategoricalValue [] = .ok values

section Setters

variable {parameter result : ExperimentParameter} {json : JsonObject}

theorem setParameterTypeFromJson_ok (accepted : setParameterTypeFromJson parameter json = .ok result) :
    ∃ paramType, result = { parameter with paramType := paramType } := by
  unfold setParameterTypeFromJson at accepted
  rw [bind_eq_ok] at accepted
  rcases accepted with ⟨name, _, known⟩
  split at known
  · rw [pure_eq_ok] at known
    exact ⟨_, known.symm⟩
  · cases known

/-- The section writes the transformation only. -/
theorem setTransformationFromJson_ok (accepted : setTransformationFromJson parameter json = .ok result) :
    ∃ transformation, result = { parameter with transformation := transformation } := by
  simp only [setTransformationFromJson, bind_eq_ok, pure_eq_ok] at accepted
  rcases accepted with ⟨transformation, _, rfl⟩
  exact ⟨transformation, rfl⟩

/-- The section writes the bounds only. -/
theorem setBoundsFromJson_ok (accepted : setBoundsFromJson parameter json = .ok result) :
    ∃ bounds, result = { parameter with bounds := bounds } := by
  simp only [setBoundsFromJson, bind_eq_ok, pure_eq_ok] at accepted
  rcases accepted with ⟨bounds, _, rfl⟩
  exact ⟨bounds, rfl⟩

/-- The section writes the prior only. -/
theorem setPriorFromJson_ok (accepted : setPriorFromJson parameter json = .ok result) :
    ∃ prior, result = { parameter with prior := prior } := by
  unfold setPriorFromJson at accepted
  split at accepted
  · simp only [bind_eq_ok, pure_eq_ok] at accepted
    rcases accepted with ⟨prior, _, rfl⟩
    exact ⟨some prior, rfl⟩
  · rw [pure_eq_ok] at accepted
    exact ⟨parameter.prior, accepted.symm⟩

/-- The section writes the categories that the request makes. -/
theorem setCategoricalValuesFromJson_ok (accepted : setCategoricalValuesFromJson parameter json = .ok result) :
    ∃ values, categoricalValuesFromJson parameter json = .ok values ∧
      result = { parameter with allCategoricalValues := values } := by
  simp only [setCategoricalValuesFromJson, bind_eq_ok, pure_eq_ok] at accepted
  rcases accepted with ⟨values, read, rfl⟩
  exact ⟨values, read, rfl⟩

/-- The section writes the grid values only. -/
theorem maybeSetGridValues_ok {always : Bool} (accepted : maybeSetGridValues parameter json always = .ok result) :
    ∃ gridValues, result = { parameter with gridValues := gridValues } := by
  unfold maybeSetGridValues at accepted
  split at accepted
  · simp only [setGridValuesFromJson, bind_eq_ok, pure_eq_ok] at accepted
    rcases accepted with ⟨gridValues, _, rfl⟩
    exact ⟨gridValues, rfl⟩
  · rw [pure_eq_ok] at accepted
    exact ⟨parameter.gridValues, accepted.symm⟩

/-- The section writes the default only. -/
theorem setDefaultValueFromJson_ok (accepted : setDefaultValueFromJson parameter json = .ok result) :
    ∃ defaultValue, result = { parameter with replacementValueIfMissing := defaultValue } := by
  simp only [setDefaultValueFromJson, bind_eq_ok, pure_eq_ok] at accepted
  rcases accepted with ⟨defaultValue, _, rfl⟩
  exact ⟨defaultValue, rfl⟩

/-- The section writes the conditions only. -/
theorem setParameterConditionsFromJson_ok {conditionals : List ExperimentConditional}
    (accepted : setParameterConditionsFromJson parameter json conditionals = .ok result) :
    ∃ conditions, result = { parameter with conditions := conditions } := by
  simp only [setParameterConditionsFromJson, bind_eq_ok, pure_eq_ok] at accepted
  rcases accepted with ⟨conditions, _, rfl⟩
  exact ⟨conditions, rfl⟩

/-- A parameter that has no values yet gets those the request lists, if it is categorical. -/
theorem categoricalValuesFromJson_ok {values : List ExperimentCategoricalValue}
    (noValues : parameter.allCategoricalValues = [])
    (accepted : categoricalValuesFromJson parameter json = .ok values) : CreatedValues json values := by
  unfold categoricalValuesFromJson at accepted
  split at accepted
  · simp only [givenCategoricalValues, bind_eq_ok, raiseIf_eq_ok, pure_eq_ok, noValues] at accepted
    rcases accepted with ⟨valuesJson, read, others, looped, _, _, _, _, rfl⟩
    exact .inr ⟨valuesJson, (getWithValidation_eq_ok rfl).mp read, looped⟩
  · simp only [bind_eq_ok, raiseIf_eq_ok, pure_eq_ok] at accepted
    rcases accepted with ⟨_, absent, rfl⟩
    exact .inl ⟨by simpa using absent, noValues⟩
  · simp only [bind_eq_ok, raiseIf_eq_ok, pure_eq_ok] at accepted
    rcases accepted with ⟨_, absent, rfl⟩
    exact .inl ⟨by simpa using absent, noValues⟩

/-- What an accepted parameter of a create request takes from its JSON. -/
theorem setExperimentParameterFromJson_ok {experimentType : ExperimentType}
    {conditionals : List ExperimentConditional}
    (accepted : setExperimentParameterFromJson json experimentType conditionals = .ok result) :
    ∃ rawName, rawName? json = some rawName ∧ validateParameterName rawName = .ok result.name ∧
      result.deleted = false ∧ CreatedValues json result.allCategoricalValues := by
  unfold setExperimentParameterFromJson nameFromJson at accepted
  simp only [bind_eq_ok] at accepted
  rcases accepted with ⟨name, ⟨rawName, read, validated⟩, _, typed, _, transformed, _, bounded, _, priorSet, _,
    valuesSet, _, gridSet, _, defaultSet, conditionsSet⟩
  rcases setParameterTypeFromJson_ok typed with ⟨_, rfl⟩
  rcases setTransformationFromJson_ok transformed with ⟨_, rfl⟩
  rcases setBoundsFromJson_ok bounded with ⟨_, rfl⟩
  rcases setPriorFromJson_ok priorSet with ⟨_, rfl⟩
  rcases setCategoricalValuesFromJson_ok valuesSet with ⟨values, valuesRead, rfl⟩
  rcases maybeSetGridValues_ok gridSet with ⟨_, rfl⟩
  rcases setDefaultValueFromJson_ok defaultSet with ⟨_, rfl⟩
  rcases setParameterConditionsFromJson_ok conditionsSet with ⟨_, rfl⟩
  exact ⟨rawName, readName_eq_ok.mp read, validated, rfl, categoricalValuesFromJson_ok rfl valuesRead⟩

/-- The section writes the bounds only. -/
theorem maybeSetParameterBounds_ok (accepted : maybeSetParameterBounds parameter json = .ok result) :
    ∃ bounds, result = { parameter with bounds := bounds } := by
  unfold maybeSetParameterBounds at accepted
  split at accepted
  · exact setBoundsFromJson_ok accepted
  · rw [pure_eq_ok] at accepted
    exact ⟨parameter.bounds, accepted.symm⟩

/-- The section writes the categories that the update makes. -/
theorem maybeSetParameterCategoricalValues_ok
    (accepted : maybeSetParameterCategoricalValues parameter json = .ok result) :
    ∃ values, categoricalValuesForUpdate parameter json = .ok values ∧
      result = { parameter with allCategoricalValues := values } := by
  simp only [maybeSetParameterCategoricalValues, bind_eq_ok, pure_eq_ok] at accepted
  rcases accepted with ⟨values, read, rfl⟩
  exact ⟨values, read, rfl⟩

/-- The section writes the default only. -/
theorem maybeSetParameterDefaultValue_ok (accepted : maybeSetParameterDefaultValue parameter json = .ok result) :
    ∃ defaultValue, result = { parameter with replacementValueIfMissing := defaultValue } := by
  unfold maybeSetParameterDefaultValue at accepted
  split at accepted
  · exact setDefaultValueFromJson_ok accepted
  · rw [pure_eq_ok] at accepted
    exact ⟨parameter.replacementValueIfMissing, accepted.symm⟩

theorem maybeSetParameterPrior_ok (accepted : maybeSetParameterPrior parameter json = .ok result) :
    ∃ prior, result = { parameter with prior := prior } := by
  unfold maybeSetParameterPrior at accepted
  split at accepted
  · split at accepted
    · exact setPriorFromJson_ok accepted
    · rw [pure_eq_ok] at accepted
      exact ⟨none, accepted.symm⟩
  · rw [pure_eq_ok] at accepted
    exact ⟨parameter.prior, accepted.symm⟩

/-- An update keeps the name, revives the parameter, and changes its values as the request says. -/
theorem updateParam_ok (accepted : updateParam parameter json = .ok result) :
    result.name = parameter.name ∧ result.deleted = false ∧
      categoricalValuesForUpdate parameter json = .ok result.allCategoricalValues := by
  unfold updateParam at accepted
  simp only [bind_eq_ok, pure_eq_ok] at accepted
  rcases accepted with ⟨_, _, _, _, _, bounded, _, gridSet, _, valuesSet, _, defaultSet, _, priorSet, _, _, _, _, rfl⟩
  rcases maybeSetParameterBounds_ok bounded with ⟨_, rfl⟩
  rcases maybeSetGridValues_ok gridSet with ⟨_, rfl⟩
  rcases maybeSetParameterCategoricalValues_ok valuesSet with ⟨_, valuesRead, rfl⟩
  rcases maybeSetParameterDefaultValue_ok defaultSet with ⟨_, rfl⟩
  rcases maybeSetParameterPrior_ok priorSet with ⟨_, rfl⟩
  exact ⟨rfl, rfl, valuesRead⟩

/-- A revised parameter keeps its name and has the categories that the update makes. -/
theorem revisedParameter_ok (accepted : revisedParameter parameter json = .ok result) :
    result.name = parameter.name ∧ result.deleted = false ∧
      categoricalValuesForUpdate parameter json = .ok result.allCategoricalValues := by
  simp only [revisedParameter, bind_eq_ok, pure_eq_ok] at accepted
  rcases accepted with ⟨_, updated, _, _, rfl⟩
  exact updateParam_ok updated

/-- A parameter that an update adds is one that a create request would make. -/
theorem newParameter_ok {experimentType : ExperimentType} {conditionals : List ExperimentConditional}
    (accepted : newParameter json experimentType conditionals = .ok result) :
    ∃ rawName, rawName? json = some rawName ∧ validateParameterName rawName = .ok result.name ∧
      result.deleted = false ∧ CreatedValues json result.allCategoricalValues := by
  simp only [newParameter, bind_eq_ok, pure_eq_ok] at accepted
  rcases accepted with ⟨_, created, _, _, rfl⟩
  exact setExperimentParameterFromJson_ok created

end Setters

/-- The position of the stored parameter that a requested one is matched with. -/
def target (storedNames : List String) (json : JsonObject) : Option Nat :=
  (rawName? json).bind fun rawName => Registry.lastIndexOf rawName storedNames

/-- What a stored parameter has become: revised by the one requested parameter that is matched with its
    position, or unchanged if there is none. -/
def PositionRevised (storedNames : List String) (requested : List JsonObject) (position : Nat)
    (before after : ExperimentParameter) : Prop :=
  (∃ json ∈ requested, target storedNames json = some position ∧ revisedParameter before json = .ok after) ∨
    (∀ json ∈ requested, target storedNames json ≠ some position) ∧ after = before

/-- What the loop has made of the stored parameters after some of the requested ones. -/
structure ParametersRevised (experiment : ExperimentMeta) (requested : List JsonObject)
    (parameters : List ExperimentParameter) : Prop where
  named : ∀ json ∈ requested, (rawName? json).isSome
  distinct : (countedNames requested).Nodup
  grown : experiment.allParametersUnsorted.length ≤ parameters.length
  kept : ∀ position before, experiment.allParametersUnsorted[position]? = some before →
    ∃ after, parameters[position]? = some after ∧
      PositionRevised experiment.parameterNames requested position before after
  added : List.Forall₂
    (fun json parameter => newParameter json experiment.experimentType experiment.conditionals = .ok parameter)
    (requested.filter fun json => (target experiment.parameterNames json).isNone)
    (parameters.drop experiment.allParametersUnsorted.length)

section Loop

variable {experiment : ExperimentMeta}

theorem countedNames_append_singleton {requested : List JsonObject} {json : JsonObject} {rawName : String}
    (named : rawName? json = some rawName) :
    countedNames (requested ++ [json]) = countedNames requested ++ [rawName] := by
  simp [countedNames, named]

theorem mem_countedNames {requested : List JsonObject} {rawName : String} :
    rawName ∈ countedNames requested ↔ ∃ json ∈ requested, rawName? json = some rawName := by
  simp [countedNames]

/-- What one round does. -/
theorem ParameterLoop.next_ok {loop next : ParameterLoop} {json : JsonObject}
    (accepted : loop.next experiment json = .ok next) :
    ∃ rawName, rawName? json = some rawName ∧ rawName ∉ loop.seenNames ∧
      next.seenNames = rawName :: loop.seenNames ∧
      ((∃ position revised, target experiment.parameterNames json = some position ∧
          revisedParameter (loop.parameters.getD position {}) json = .ok revised ∧
          next.parameters = loop.parameters.set position revised) ∨
        ∃ parameter, target experiment.parameterNames json = none ∧
          newParameter json experiment.experimentType experiment.conditionals = .ok parameter ∧
          next.parameters = loop.parameters ++ [parameter]) := by
  unfold ParameterLoop.next at accepted
  simp only [bind_eq_ok, raiseIf_eq_ok, pure_eq_ok] at accepted
  rcases accepted with ⟨rawName, read, parameters, matched, _, unseen, rfl⟩
  have named := readName_eq_ok.mp read
  refine ⟨rawName, named, unseen, rfl, ?_⟩
  split at matched
  · rename_i position found
    simp only [bind_eq_ok, pure_eq_ok] at matched
    rcases matched with ⟨revised, updated, rfl⟩
    exact .inl ⟨position, revised, by simpa [target, named] using found, updated, rfl⟩
  · rename_i found
    simp only [bind_eq_ok, pure_eq_ok] at matched
    rcases matched with ⟨parameter, created, rfl⟩
    exact .inr ⟨parameter, by simpa [target, named] using found, created, rfl⟩

/-- Two requested parameters that are matched with one position have the same name. -/
theorem rawName_eq_of_target_eq {storedNames : List String} {first second : JsonObject} {position : Nat}
    (firstMatched : target storedNames first = some position)
    (secondMatched : target storedNames second = some position) : rawName? first = rawName? second := by
  rcases Option.bind_eq_some_iff.mp firstMatched with ⟨firstName, firstNamed, firstFound⟩
  rcases Option.bind_eq_some_iff.mp secondMatched with ⟨secondName, secondNamed, secondFound⟩
  have firstAt := Registry.getElem?_of_lastIndexOf firstFound
  have secondAt := Registry.getElem?_of_lastIndexOf secondFound
  rw [firstNamed, secondNamed, ← firstAt, ← secondAt]

theorem target_lt {json : JsonObject} {position : Nat}
    (found : target experiment.parameterNames json = some position) :
    position < experiment.allParametersUnsorted.length := by
  rcases Option.bind_eq_some_iff.mp found with ⟨rawName, _, atPosition⟩
  rcases List.getElem?_eq_some_iff.mp (Registry.getElem?_of_lastIndexOf atPosition) with ⟨inRange, _⟩
  simpa [ExperimentMeta.parameterNames] using inRange

/-- A request for another parameter leaves this one as it is. -/
theorem PositionRevised.append {storedNames : List String} {requested : List JsonObject} {json : JsonObject}
    {position : Nat} {before after : ExperimentParameter}
    (revised : PositionRevised storedNames requested position before after)
    (elsewhere : target storedNames json ≠ some position) :
    PositionRevised storedNames (requested ++ [json]) position before after := by
  rcases revised with ⟨other, member, matched, updated⟩ | ⟨unmatched, same⟩
  · exact .inl ⟨other, List.mem_append_left _ member, matched, updated⟩
  · refine .inr ⟨?_, same⟩
    intro other member
    rcases List.mem_append.mp member with earlier | last
    · exact unmatched other earlier
    · rw [List.mem_singleton.mp last]
      exact elsewhere

/-- The requests so far did not touch the position of a name that is requested now for the first time. -/
theorem PositionRevised.untouched {requested : List JsonObject} {json : JsonObject} {position : Nat}
    {before after : ExperimentParameter} {storedNames : List String} {rawName : String}
    (revised : PositionRevised storedNames requested position before after)
    (matched : target storedNames json = some position) (named : rawName? json = some rawName)
    (unseen : rawName ∉ countedNames requested) : after = before := by
  rcases revised with ⟨other, member, otherMatched, _⟩ | ⟨_, same⟩
  · apply absurd (mem_countedNames.mpr ⟨other, member, ?_⟩) unseen
    rw [rawName_eq_of_target_eq otherMatched matched, named]
  · exact same

/-- Before the first parameter of the request nothing is revised. -/
theorem ParametersRevised.start : ParametersRevised experiment [] experiment.allParametersUnsorted where
  named := by simp
  distinct := by simp [countedNames]
  grown := le_refl _
  kept position before atPosition := ⟨before, atPosition, .inr ⟨by simp, rfl⟩⟩
  added := by simp

section Step

variable {requested : List JsonObject} {parameters : List ExperimentParameter} {json : JsonObject}
  {rawName : String}

theorem ParametersRevised.named_append (revised : ParametersRevised experiment requested parameters)
    (named : rawName? json = some rawName) : ∀ other ∈ requested ++ [json], (rawName? other).isSome := by
  intro other member
  rcases List.mem_append.mp member with earlier | last
  · exact revised.named other earlier
  · rw [List.mem_singleton.mp last, named]
    rfl

theorem ParametersRevised.distinct_append (revised : ParametersRevised experiment requested parameters)
    (named : rawName? json = some rawName) (unseen : rawName ∉ countedNames requested) :
    (countedNames (requested ++ [json])).Nodup := by
  rw [countedNames_append_singleton named, List.nodup_append']
  exact ⟨revised.distinct, List.nodup_singleton _, by simpa using unseen⟩

/-- A round that revises a stored parameter. -/
theorem ParametersRevised.set {position : Nat} {result : ExperimentParameter}
    (revised : ParametersRevised experiment requested parameters) (named : rawName? json = some rawName)
    (unseen : rawName ∉ countedNames requested)
    (matched : target experiment.parameterNames json = some position)
    (updated : revisedParameter (parameters.getD position {}) json = .ok result) :
    ParametersRevised experiment (requested ++ [json]) (parameters.set position result) where
  named := revised.named_append named
  distinct := revised.distinct_append named unseen
  grown := by
    rw [List.length_set]
    exact revised.grown
  kept other before atOther := by
    rcases revised.kept other before atOther with ⟨after, atAfter, revisedThere⟩
    by_cases same : position = other
    · subst same
      have untouched := revisedThere.untouched matched named unseen
      subst untouched
      rw [List.getD_eq_getElem?_getD, atAfter, Option.getD_some] at updated
      refine ⟨result, ?_, .inl ⟨json, by simp, matched, updated⟩⟩
      exact List.getElem?_set_self (List.getElem?_eq_some_iff.mp atAfter).1
    · refine ⟨after, ?_, revisedThere.append ?_⟩
      · rw [List.getElem?_set_ne same]
        exact atAfter
      · rw [matched]
        simpa using same
  added := by
    rw [List.drop_set_of_lt (target_lt matched), List.filter_append]
    simpa [matched] using revised.added

/-- A round that adds a parameter. -/
theorem ParametersRevised.add {parameter : ExperimentParameter}
    (revised : ParametersRevised experiment requested parameters) (named : rawName? json = some rawName)
    (unseen : rawName ∉ countedNames requested) (unmatched : target experiment.parameterNames json = none)
    (created : newParameter json experiment.experimentType experiment.conditionals = .ok parameter) :
    ParametersRevised experiment (requested ++ [json]) (parameters ++ [parameter]) where
  named := revised.named_append named
  distinct := revised.distinct_append named unseen
  grown := revised.grown.trans (by simp)
  kept position before atPosition := by
    rcases revised.kept position before atPosition with ⟨after, atAfter, revisedThere⟩
    refine ⟨after, ?_, revisedThere.append (by simp [unmatched])⟩
    rw [List.getElem?_append_left (List.getElem?_eq_some_iff.mp atAfter).1]
    exact atAfter
  added := by
    rw [List.drop_append_of_le_length revised.grown, List.filter_append]
    simp only [List.filter_cons, unmatched, Option.isNone_none, if_true, List.filter_nil]
    exact List.rel_append revised.added (.cons created .nil)

end Step

/-- What the whole loop does. -/
theorem ParameterLoop.foldlM_ok {requested : List JsonObject} {loop : ParameterLoop}
    (accepted : requested.foldlM (ParameterLoop.next experiment)
      { parameters := experiment.allParametersUnsorted } = .ok loop) :
    (∀ rawName, rawName ∈ loop.seenNames ↔ rawName ∈ countedNames requested) ∧
      ParametersRevised experiment requested loop.parameters := by
  refine foldlM_induction (fun done loop =>
    (∀ rawName, rawName ∈ loop.seenNames ↔ rawName ∈ countedNames done) ∧
      ParametersRevised experiment done loop.parameters) ?_ ⟨by simp [countedNames], .start⟩ accepted
  rintro done loop json next ⟨seen, revised⟩ stepped
  rcases ParameterLoop.next_ok stepped with ⟨rawName, named, unseen, seenNext, matched⟩
  have notCounted : rawName ∉ countedNames done := fun counted => unseen ((seen rawName).mpr counted)
  constructor
  · intro other
    rw [seenNext, countedNames_append_singleton named, List.mem_cons, seen other, List.mem_append,
      List.mem_singleton]
    exact or_comm
  · rcases matched with ⟨position, result, found, updated, nextIs⟩ | ⟨parameter, notFound, created, nextIs⟩
    · rw [nextIs]
      exact revised.set named notCounted found updated
    · rw [nextIs]
      exact revised.add named notCounted notFound created

/-- A parameter after the loop is in the position of a stored one, or added. -/
theorem ParametersRevised.stored_or_added {requested : List JsonObject} {revised : List ExperimentParameter}
    (loop : ParametersRevised experiment requested revised) {parameter : ExperimentParameter}
    (member : parameter ∈ revised) :
    (∃ position before, experiment.allParametersUnsorted[position]? = some before ∧
        revised[position]? = some parameter ∧
        PositionRevised experiment.parameterNames requested position before parameter) ∨
      ∃ json ∈ requested, target experiment.parameterNames json = none ∧
        newParameter json experiment.experimentType experiment.conditionals = .ok parameter := by
  rcases List.getElem?_of_mem member with ⟨position, atPosition⟩
  by_cases inside : position < experiment.allParametersUnsorted.length
  · have stored := List.getElem?_eq_getElem inside
    rcases loop.kept position _ stored with ⟨after, atAfter, revisedThere⟩
    obtain rfl : parameter = after := by
      rw [atPosition] at atAfter
      exact Option.some.inj atAfter
    exact .inl ⟨position, _, stored, atPosition, revisedThere⟩
  · have isAdded : parameter ∈ revised.drop experiment.allParametersUnsorted.length := by
      rw [List.mem_iff_getElem?]
      refine ⟨position - experiment.allParametersUnsorted.length, ?_⟩
      rw [List.getElem?_drop, Nat.add_sub_cancel' (Nat.not_lt.mp inside)]
      exact atPosition
    rcases exists_item loop.added isAdded with ⟨json, isNew, created⟩
    obtain ⟨isRequested, unmatched⟩ := List.mem_filter.mp isNew
    exact .inr ⟨json, isRequested, Option.isNone_iff_eq_none.mp unmatched, created⟩

/-- The flag that the last pass of an update sets. -/
def markUnseen (requested : List JsonObject) (parameter : ExperimentParameter) : ExperimentParameter :=
  if parameter.name ∈ countedNames requested then parameter else { parameter with deleted := true }

/-- An accepted update revises the parameters one by one and marks those that it did not name. -/
theorem updateParameters_ok {requested : List JsonObject} {parameters : List ExperimentParameter}
    (accepted : updateParameters experiment requested = .ok parameters) :
    ∃ revised, ParametersRevised experiment requested revised ∧
      parameters = revised.map (markUnseen requested) := by
  simp only [updateParameters, bind_eq_ok, pure_eq_ok] at accepted
  rcases accepted with ⟨loop, looped, rfl⟩
  rcases ParameterLoop.foldlM_ok looped with ⟨seen, revised⟩
  refine ⟨loop.parameters, revised, ?_⟩
  apply List.map_congr_left
  intro parameter _
  simp only [markUnseen, seen]

end Loop

/-- The requested parameters of a body that sends a `parameters` list. -/
def requestedParameters (body : JsonObject) : List JsonObject :=
  ((ValidationType.arrayOf .object).read (body.get "parameters")).getD []

/-- An accepted update changes the parameters only, and only if it sends a list of them. -/
theorem updateExperiment_ok {sections : OtherSections} {experiment updated : ExperimentMeta}
    {body : JsonObject} (accepted : updateExperiment sections experiment body = .ok updated) :
    updated.conditionals = experiment.conditionals ∧ updated.experimentType = experiment.experimentType ∧
      ((body.hasKey "parameters" = false ∧
          updated.allParametersUnsorted = experiment.allParametersUnsorted) ∨
        (body.hasKey "parameters" = true ∧
          ∃ revised, ParametersRevised experiment (requestedParameters body) revised ∧
            updated.allParametersUnsorted = revised.map (markUnseen (requestedParameters body)))) := by
  simp only [updateExperiment, bind_eq_ok, pure_eq_ok] at accepted
  rcases accepted with ⟨_, _, _, _, parameters, parametersSet, _, _, _, _, rfl⟩
  refine ⟨rfl, rfl, ?_⟩
  unfold maybeSetParameters at parametersSet
  split at parametersSet
  · rename_i sent
    simp only [bind_eq_ok] at parametersSet
    rcases parametersSet with ⟨_, _, _, _, requested, read, _, _, _, _, updatedParameters⟩
    have sameRequest : requestedParameters body = requested := by
      rw [requestedParameters, (getWithValidation_eq_ok rfl).mp read, Option.getD_some]
    rw [sameRequest]
    exact .inr ⟨sent, updateParameters_ok updatedParameters⟩
  · rename_i notSent
    rw [pure_eq_ok] at parametersSet
    exact .inl ⟨by simpa using notSent, parametersSet.symm⟩

/-- A sequence of accepted updates, each with the experiment it leads to. -/
def AcceptedUpdates (sections : OtherSections) :
    ExperimentMeta → List (JsonObject × ExperimentMeta) → Prop :=
  Trace.Every fun experiment body updated => updateExperiment sections experiment body = .ok updated

theorem createExperiment_ok {sections : OtherSections} {className : String} {body : JsonObject}
    {experiment : ExperimentMeta} (accepted : createExperiment sections className body = .ok experiment) :
    setExperimentParameterListFromJson experiment.experimentType experiment.conditionals body className =
      .ok experiment.allParametersUnsorted := by
  simp only [createExperiment, makeExperimentMetaFromJson, bind_eq_ok, pure_eq_ok] at accepted
  rcases accepted with ⟨_, _, _, ⟨_, _, _, _, _, _, _, listed, _, _, _, _, _, _, rfl⟩, _, _, rfl⟩
  exact listed

/-- The parameters of an accepted create, one for each requested one. -/
structure ParametersCreated (experimentType : ExperimentType) (conditionals : List ExperimentConditional)
    (requested : List JsonObject) (parameters : List ExperimentParameter) : Prop where
  created : List.Forall₂
    (fun json parameter => setExperimentParameterFromJson json experimentType conditionals = .ok parameter)
    requested parameters
  distinct : (parameters.map (·.name)).Nodup
  apart : ∀ parameter ∈ parameters, parameter.name ∉ conditionals.map (·.name)

theorem ParametersCreated.add {experimentType : ExperimentType} {conditionals : List ExperimentConditional}
    {requested : List JsonObject} {parameters next : List ExperimentParameter} {json : JsonObject}
    (before : ParametersCreated experimentType conditionals requested parameters)
    (added : addExperimentParameter experimentType conditionals parameters json = .ok next) :
    ParametersCreated experimentType conditionals (requested ++ [json]) next := by
  simp only [addExperimentParameter, bind_eq_ok, raiseIf_eq_ok, pure_eq_ok] at added
  rcases added with ⟨parameter, read, _, notSeen, _, noConditional, rfl⟩
  refine ⟨List.rel_append before.created (.cons read .nil), ?_, ?_⟩
  · rw [List.map_append, List.nodup_append']
    exact ⟨before.distinct, by simp, by simpa using notSeen⟩
  · intro other member
    rcases List.mem_append.mp member with earlier | last
    · exact before.apart other earlier
    · rw [List.mem_singleton.mp last]
      exact noConditional

theorem setExperimentParameterListFromJson_ok {experimentType : ExperimentType}
    {conditionals : List ExperimentConditional} {body : JsonObject} {className : String}
    {parameters : List ExperimentParameter}
    (accepted : setExperimentParameterListFromJson experimentType conditionals body className = .ok parameters) :
    ParametersCreated experimentType conditionals (requestedParameters body) parameters := by
  simp only [setExperimentParameterListFromJson, bind_eq_ok, raiseIf_eq_ok] at accepted
  rcases accepted with ⟨read, opted, _, notEmpty, looped⟩
  have sameRequest : requestedParameters body = read.getD [] := by
    cases read with
    | none => simp at notEmpty
    | some requested => rw [requestedParameters, (getOptWithValidation_eq_some rfl).mp opted]
  rw [sameRequest]
  refine foldlM_induction (ParametersCreated experimentType conditionals) ?_ ⟨.nil, by simp, by simp⟩ looped
  intro done state json next before added
  exact before.add added

/-- Other sections that have no objection. -/
def permissiveSections : OtherSections where
  validateJsonParamsForCreate _ := pure ()
  validateJsonParamsForUpdate _ := pure ()
  getConstraintsFromJson _ _ := pure []
  readOnCreate _ _ := pure ()
  readOnUpdate _ _ := pure ()
  verifyExperimentAcceptability _ := pure ()

/-- A double parameter with bounds 0 and 1 and the default 0. -/
def doubleParameterJson (name : String) : Json :=
  .object [("name", .string name), ("type", .string "double"),
    ("bounds", .object [("min", .number 0), ("max", .number 1)]), ("default_value", .number 0)]

def requestOfParameters (names : List String) : JsonObject :=
  [("parameters", .array (names.map doubleParameterJson))]

def doubleParameter (name : String) (deleted : Bool) : ExperimentParameter :=
  { name := name, bounds := ⟨0, 1⟩, deleted := deleted, replacementValueIfMissing := some 0 }

end Zigopt.Experiment
