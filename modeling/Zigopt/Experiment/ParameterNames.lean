/-
Module: Zigopt.Experiment.ParameterNames
Layer: Experiment
Purpose: Whether the names of the parameters stay distinct over the life of an experiment. An update looks
  a parameter up by the name in the request, but stores the name without surrounding whitespace, and it
  compares neither with the other stored names nor with the conditionals.
Main exports: NamesUnique, ActiveAsRequested, PlainNames, names_kept_iff
-/
import Zigopt.Experiment.Revision

namespace Zigopt.Experiment

open Raising

/-- The names of all stored parameters are distinct, and none is the name of a conditional. -/
def NamesUnique (experiment : ExperimentMeta) : Prop :=
  experiment.parameterNames.Nodup ∧ ∀ name ∈ experiment.parameterNames, name ∉ experiment.conditionalNames

/-- If the body sends a list of parameters, the active ones are those with the names it requests. -/
def ActiveAsRequested (body : JsonObject) (experiment : ExperimentMeta) : Prop :=
  body.hasKey "parameters" = true → ∀ name, name ∈ experiment.activeParameterNames ↔
    ∃ rawName ∈ countedNames (requestedParameters body), validateParameterName rawName = .ok name

/-- The body requests no name that begins or ends with whitespace, and none of a conditional. -/
def PlainNames (conditionalNames : List String) (body : JsonObject) : Prop :=
  body.hasKey "parameters" = true → ∀ rawName ∈ countedNames (requestedParameters body),
    strip rawName = rawName ∧ rawName ∉ conditionalNames

instance {conditionalNames : List String} {body : JsonObject} : Decidable (PlainNames conditionalNames body) :=
  inferInstanceAs (Decidable (_ → _))

/-- Every stored name has been validated. -/
def NamesValidated (experiment : ExperimentMeta) : Prop :=
  ∀ name ∈ experiment.parameterNames, validateParameterName name = .ok name

theorem strip_of_validated {rawName name : String} (validated : validateParameterName rawName = .ok name) :
    strip rawName = name :=
  (validateNameLength_eq_ok.mp validated).2.2.2

theorem create_namesUnique {sections : OtherSections} {className : String} {body : JsonObject}
    {experiment : ExperimentMeta} (accepted : createExperiment sections className body = .ok experiment) :
    NamesUnique experiment := by
  have created := setExperimentParameterListFromJson_ok (createExperiment_ok accepted)
  refine ⟨created.distinct, ?_⟩
  intro name member
  rcases List.mem_map.mp member with ⟨parameter, stored, rfl⟩
  exact created.apart parameter stored

theorem create_namesValidated {sections : OtherSections} {className : String} {body : JsonObject}
    {experiment : ExperimentMeta} (accepted : createExperiment sections className body = .ok experiment) :
    NamesValidated experiment := by
  have created := (setExperimentParameterListFromJson_ok (createExperiment_ok accepted)).created
  intro name member
  rcases List.mem_map.mp member with ⟨parameter, stored, rfl⟩
  rcases exists_item created stored with ⟨json, _, read⟩
  rcases setExperimentParameterFromJson_ok read with ⟨rawName, _, validated, _, _⟩
  exact validateNameLength_stored validated

section Names

variable {experiment : ExperimentMeta} {requested : List JsonObject} {revised : List ExperimentParameter}

/-- The stored parameters keep their names. -/
theorem ParametersRevised.take_names (loop : ParametersRevised experiment requested revised) :
    (revised.take experiment.allParametersUnsorted.length).map (·.name) = experiment.parameterNames := by
  apply List.ext_getElem?
  intro position
  rw [ExperimentMeta.parameterNames, List.getElem?_map, List.getElem?_map, List.getElem?_take]
  cases stored : experiment.allParametersUnsorted[position]? with
  | none =>
      have outside := List.getElem?_eq_none_iff.mp stored
      simp [Nat.not_lt.mpr outside]
  | some before =>
      rcases loop.kept position before stored with ⟨after, atAfter, revisedThere⟩
      have inRange := (List.getElem?_eq_some_iff.mp stored).1
      have sameName : after.name = before.name := by
        rcases revisedThere with ⟨json, _, _, updated⟩ | ⟨_, same⟩
        · exact (revisedParameter_ok updated).1
        · rw [same]
      simp [inRange, atAfter, sameName]

theorem isNone_target_iff {json : JsonObject} {rawName : String} (named : rawName? json = some rawName) :
    (target experiment.parameterNames json).isNone = true ↔ rawName ∉ experiment.parameterNames := by
  rw [Option.isNone_iff_eq_none, target, named, Option.bind_some, Registry.lastIndexOf_eq_none]

/-- The names of the requests that are matched with no stored parameter. -/
theorem countedNames_filter_new (named : ∀ json ∈ requested, (rawName? json).isSome) :
    countedNames (requested.filter fun json => (target experiment.parameterNames json).isNone) =
      (countedNames requested).filter (· ∉ experiment.parameterNames) := by
  induction requested with
  | nil => rfl
  | cons json rest inductionHypothesis =>
      rcases Option.isSome_iff_exists.mp (named json (by simp)) with ⟨rawName, thisNamed⟩
      have restSame := inductionHypothesis fun other member => named other (by simp [member])
      unfold countedNames at restSame ⊢
      by_cases isNew : rawName ∈ experiment.parameterNames
      · have matched : (target experiment.parameterNames json).isNone = false := by
          rw [Bool.eq_false_iff, Ne, isNone_target_iff thisNamed]
          exact not_not.mpr isNew
        rw [List.filter_cons_of_neg (by simp [matched]), List.filterMap_cons_some thisNamed,
          List.filter_cons_of_neg (by simpa using isNew)]
        exact restSame
      · have unmatched := (isNone_target_iff thisNamed).mpr isNew
        rw [List.filter_cons_of_pos (by simpa using unmatched), List.filterMap_cons_some thisNamed,
          List.filterMap_cons_some thisNamed, List.filter_cons_of_pos (by simpa using isNew), restSame]

/-- The added parameters have the stripped names. -/
theorem added_names {experimentType : ExperimentType} {conditionals : List ExperimentConditional}
    {jsons : List JsonObject} {added : List ExperimentParameter}
    (created : List.Forall₂ (fun json parameter =>
      newParameter json experimentType conditionals = .ok parameter) jsons added) :
    added.map (·.name) = (countedNames jsons).map strip := by
  induction created with
  | nil => rfl
  | cons first _ inductionHypothesis =>
      rcases newParameter_ok first with ⟨rawName, named, validated, _, _⟩
      unfold countedNames at inductionHypothesis ⊢
      rw [List.map_cons, inductionHypothesis, List.filterMap_cons_some named, List.map_cons,
        strip_of_validated validated]

/-- The names after the loop are the registry of the names before it, revised by the requested names. -/
theorem ParametersRevised.names (loop : ParametersRevised experiment requested revised) :
    revised.map (·.name) =
      Registry.revised strip experiment.parameterNames (countedNames requested) := by
  calc revised.map (·.name)
      = (revised.take experiment.allParametersUnsorted.length).map (·.name) ++
          (revised.drop experiment.allParametersUnsorted.length).map (·.name) := by
        rw [← List.map_append, List.take_append_drop]
    _ = Registry.revised strip experiment.parameterNames (countedNames requested) := by
        rw [loop.take_names, added_names loop.added, countedNames_filter_new loop.named, Registry.revised]

/-- A parameter whose name is requested is not deleted after the loop. -/
theorem ParametersRevised.revived (loop : ParametersRevised experiment requested revised)
    (distinct : experiment.parameterNames.Nodup) {parameter : ExperimentParameter}
    (member : parameter ∈ revised) (isRequested : parameter.name ∈ countedNames requested) :
    parameter.deleted = false := by
  rcases loop.stored_or_added member with ⟨position, before, stored, _, revisedThere⟩ | ⟨json, _, _, created⟩
  · rcases revisedThere with ⟨json, _, _, updated⟩ | ⟨unmatched, same⟩
    · exact (revisedParameter_ok updated).2.1
    · -- the name leads to this position, so the request for it would have been matched here
      rcases mem_countedNames.mp isRequested with ⟨json, jsonMember, named⟩
      have nameHere : experiment.parameterNames[position]? = some parameter.name := by
        rw [ExperimentMeta.parameterNames, List.getElem?_map, stored, Option.map_some, ← same]
      apply absurd _ (unmatched json jsonMember)
      rw [target, named, Option.bind_some]
      exact Registry.lastIndexOf_of_getElem? distinct nameHere
  · rcases newParameter_ok created with ⟨_, _, _, notDeleted, _⟩
    exact notDeleted

theorem map_markUnseen_names : (revised.map (markUnseen requested)).map (·.name) = revised.map (·.name) := by
  rw [List.map_map]
  apply List.map_congr_left
  intro parameter _
  simp only [Function.comp_apply, markUnseen]
  split <;> rfl

/-- The active parameters after an update are those whose name is literally in the request. -/
theorem ParametersRevised.active_iff (loop : ParametersRevised experiment requested revised)
    (distinct : experiment.parameterNames.Nodup) {name : String} :
    name ∈ ((revised.map (markUnseen requested)).filter fun parameter => !parameter.deleted).map (·.name) ↔
      name ∈ revised.map (·.name) ∧ name ∈ countedNames requested := by
  simp only [List.mem_map, List.mem_filter, Bool.not_eq_true']
  constructor
  · rintro ⟨_, ⟨⟨parameter, member, rfl⟩, notDeleted⟩, rfl⟩
    unfold markUnseen at notDeleted ⊢
    split at notDeleted
    · rename_i isRequested
      rw [if_pos isRequested]
      exact ⟨⟨parameter, member, rfl⟩, isRequested⟩
    · cases notDeleted
  · rintro ⟨⟨parameter, member, rfl⟩, isRequested⟩
    refine ⟨markUnseen requested parameter, ⟨⟨parameter, member, rfl⟩, ?_⟩, ?_⟩
    · rw [markUnseen, if_pos isRequested]
      exact loop.revived distinct member isRequested
    · rw [markUnseen, if_pos isRequested]

/-- In an accepted update every requested name is valid. -/
theorem ParametersRevised.validated (loop : ParametersRevised experiment requested revised)
    (validated : NamesValidated experiment) {rawName : String} (isRequested : rawName ∈ countedNames requested) :
    validateParameterName rawName = .ok (strip rawName) := by
  by_cases stored : rawName ∈ experiment.parameterNames
  · have valid := validated rawName stored
    rw [strip_of_validated valid]
    exact valid
  · rcases mem_countedNames.mp isRequested with ⟨json, member, named⟩
    have isNew : json ∈ requested.filter fun other => (target experiment.parameterNames other).isNone :=
      List.mem_filter.mpr ⟨member, (isNone_target_iff named).mpr stored⟩
    rcases exists_answer loop.added isNew with ⟨parameter, _, created⟩
    rcases newParameter_ok created with ⟨otherName, otherNamed, valid, _, _⟩
    rw [named, Option.some.injEq] at otherNamed
    subst otherNamed
    rw [strip_of_validated valid]
    exact valid

theorem ParametersRevised.requested_iff (loop : ParametersRevised experiment requested revised)
    (validated : NamesValidated experiment) {name : String} :
    (∃ rawName ∈ countedNames requested, validateParameterName rawName = .ok name) ↔
      name ∈ (countedNames requested).map strip := by
  rw [List.mem_map]
  constructor
  · rintro ⟨rawName, isRequested, valid⟩
    exact ⟨rawName, isRequested, strip_of_validated valid⟩
  · rintro ⟨rawName, isRequested, rfl⟩
    exact ⟨rawName, isRequested, loop.validated validated isRequested⟩

end Names

section Step

variable {sections : OtherSections} {experiment updated : ExperimentMeta} {body : JsonObject}

theorem update_namesValidated (accepted : updateExperiment sections experiment body = .ok updated)
    (validated : NamesValidated experiment) : NamesValidated updated := by
  rcases (updateExperiment_ok accepted).2.2 with ⟨_, same⟩ | ⟨_, revised, loop, parametersAre⟩
  · intro name member
    rw [ExperimentMeta.parameterNames, same] at member
    exact validated name member
  · intro name member
    rw [ExperimentMeta.parameterNames, parametersAre, map_markUnseen_names, loop.names] at member
    rcases Registry.mem_revised.mp member with stored | ⟨rawName, isRequested, _, rfl⟩
    · exact validated name stored
    · exact validateNameLength_stored (loop.validated validated isRequested)

/-- What one accepted update preserves, and exactly when. -/
theorem update_names_iff (accepted : updateExperiment sections experiment body = .ok updated)
    (unique : NamesUnique experiment) (validated : NamesValidated experiment) :
    (NamesUnique updated ∧ ActiveAsRequested body updated) ↔
      PlainNames experiment.conditionalNames body := by
  rcases updateExperiment_ok accepted with ⟨sameConditionals, _, parametersAre⟩
  have sameConditionalNames : updated.conditionalNames = experiment.conditionalNames := by
    rw [ExperimentMeta.conditionalNames, sameConditionals, ExperimentMeta.conditionalNames]
  rcases parametersAre with ⟨notSent, same⟩ | ⟨sent, revised, loop, parametersAre⟩
  · have sameNames : updated.parameterNames = experiment.parameterNames := by
      rw [ExperimentMeta.parameterNames, same, ExperimentMeta.parameterNames]
    simp [NamesUnique, ActiveAsRequested, PlainNames, notSent, sameNames, sameConditionalNames, unique.1]
    exact unique.2
  · have names : updated.parameterNames =
        Registry.revised strip experiment.parameterNames (countedNames (requestedParameters body)) := by
      rw [ExperimentMeta.parameterNames, parametersAre, map_markUnseen_names, loop.names]
    have active : ∀ name, name ∈ updated.activeParameterNames ↔
        name ∈ Registry.revised strip experiment.parameterNames (countedNames (requestedParameters body)) ∧
          name ∈ countedNames (requestedParameters body) := by
      intro name
      rw [ExperimentMeta.activeParameterNames, parametersAre, loop.active_iff unique.1, loop.names]
    have exactly := Registry.revised_exact_iff strip_strip
      (fun name stored => strip_of_validated (validated name stored)) unique.1 unique.2 loop.distinct
    simp only [NamesUnique, ActiveAsRequested, PlainNames, sent, forall_const, names, sameConditionalNames,
      active, loop.requested_iff validated]
    rw [← exactly, and_assoc]

end Step

/-- Over a run: the names are unique in every experiment reached, and after every update the active
    parameters are the requested ones. -/
def NamesKept (experiment : ExperimentMeta) (updates : List (JsonObject × ExperimentMeta)) : Prop :=
  NamesUnique experiment ∧ ∀ update ∈ updates, NamesUnique update.2 ∧ ActiveAsRequested update.1 update.2

/-- The names of an experiment are kept over a run exactly if none of its updates requests a name that is
    stripped or the name of a conditional. -/
theorem names_kept_iff {sections : OtherSections} {className : String} {body : JsonObject}
    {experiment : ExperimentMeta} {updates : List (JsonObject × ExperimentMeta)}
    (created : createExperiment sections className body = .ok experiment)
    (accepted : AcceptedUpdates sections experiment updates) :
    NamesKept experiment updates ↔
      ∀ update ∈ updates, PlainNames experiment.conditionalNames update.1 := by
  have unique := create_namesUnique created
  have steps := Trace.every_iff
    (fun _ body updated => NamesUnique updated ∧ ActiveAsRequested body updated)
    (fun _ body _ => PlainNames experiment.conditionalNames body)
    (fun present => NamesUnique present ∧ NamesValidated present ∧
      present.conditionalNames = experiment.conditionalNames)
    ?_ ?_ ⟨unique, create_namesValidated created, rfl⟩ accepted
  · rw [Trace.every_step_iff, Trace.every_step_iff] at steps
    rw [← steps]
    exact and_iff_right unique
  · rintro before body after ⟨uniqueBefore, validated, sameConditionals⟩ updated
    rw [← sameConditionals]
    exact update_names_iff updated uniqueBefore validated
  · rintro before body after ⟨_, validated, sameConditionals⟩ updated ⟨uniqueAfter, _⟩
    refine ⟨uniqueAfter, update_namesValidated updated validated, ?_⟩
    rw [ExperimentMeta.conditionalNames, (updateExperiment_ok updated).1, ← sameConditionals,
      ExperimentMeta.conditionalNames]

def experimentWithX : JsonObject :=
  [("name", .string "an experiment"), ("parameters", .array [doubleParameterJson "x"])]

def metaOf (parameters : List ExperimentParameter) : ExperimentMeta :=
  { allParametersUnsorted := parameters }

theorem experimentWithX_created :
    createExperiment permissiveSections "Experiment" experimentWithX = .ok (metaOf [doubleParameter "x" false]) := by
  decide +kernel

/-- A run that replaces `x` by `y` and takes `x` back. -/
theorem names_kept_replaced :
    NamesKept (metaOf [doubleParameter "x" false])
      [(requestOfParameters ["y"], metaOf [doubleParameter "x" true, doubleParameter "y" false]),
        (requestOfParameters ["x"], metaOf [doubleParameter "x" false, doubleParameter "y" true])] := by
  have accepted : AcceptedUpdates permissiveSections (metaOf [doubleParameter "x" false])
      [(requestOfParameters ["y"], metaOf [doubleParameter "x" true, doubleParameter "y" false]),
        (requestOfParameters ["x"], metaOf [doubleParameter "x" false, doubleParameter "y" true])] :=
    ⟨by decide +kernel, by decide +kernel, trivial⟩
  exact (names_kept_iff experimentWithX_created accepted).mpr (by decide)

/-- The update that requests `x` and ` x` is accepted, and `x` is stored twice. -/
theorem names_not_kept : ∃ body experiment updates,
    createExperiment permissiveSections "Experiment" body = .ok experiment ∧
      AcceptedUpdates permissiveSections experiment updates ∧ ¬NamesKept experiment updates := by
  refine ⟨experimentWithX, metaOf [doubleParameter "x" false],
    [(requestOfParameters ["x", " x"], metaOf [doubleParameter "x" false, doubleParameter "x" false])],
    experimentWithX_created, ⟨?_, trivial⟩, ?_⟩
  · decide +kernel
  · intro kept
    exact absurd (kept.2 _ List.mem_cons_self).1.1 (by decide)

end Zigopt.Experiment
