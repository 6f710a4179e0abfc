/-
Module: Zigopt.Experiment.ConsistencyKept
Layer: Experiment
Purpose: The definitions of the parameters over the life of an experiment: exactly when all of them stay consistent in
  themselves, and that from the first update on that sends parameters the default values of the active ones are
  values the parameters can have.
Main exports: AllConsistent, ConsistentRequests, consistency_kept_iff, DefaultsAdmissible, definitions_kept_iff,
  defaults_admissible
-/
import Zigopt.Experiment.ParameterNames
import Zigopt.Experiment.SelfConsistent

namespace Zigopt.Experiment

open Raising

/-- All parameters of the experiment, deleted ones included, are consistent in themselves. -/
def AllConsistent (experiment : ExperimentMeta) : Prop :=
  ∀ parameter ∈ experiment.allParametersUnsorted, SelfConsistent parameter

/-- Each requested parameter keeps the stored one consistent that it is matched with. -/
def ConsistentRequests (experiment : ExperimentMeta) (body : JsonObject) : Prop :=
  body.hasKey "parameters" = true → ∀ json ∈ requestedParameters body, ∀ position parameter,
    target experiment.parameterNames json = some position →
      experiment.allParametersUnsorted[position]? = some parameter → KeepsConsistent parameter json

theorem selfConsistent_markUnseen_iff {requested : List JsonObject} {parameter : ExperimentParameter} :
    SelfConsistent (markUnseen requested parameter) ↔ SelfConsistent parameter := by
  unfold markUnseen
  split
  · exact Iff.rfl
  · constructor <;> intro consistent <;>
      exact ⟨consistent.grid, consistent.edge, consistent.priorGrid, consistent.priorLog, consistent.priorMean,
        consistent.logBounds, consistent.logDefault⟩

section Step

variable {sections : OtherSections} {before after : ExperimentMeta} {body : JsonObject}

/-- The loop keeps all parameters consistent exactly if each requested one keeps its own. -/
theorem ParametersRevised.consistent_iff {requested : List JsonObject} {revised : List ExperimentParameter}
    (loop : ParametersRevised before requested revised) (consistent : AllConsistent before)
    (typed : ∀ parameter ∈ before.allParametersUnsorted, Typed parameter) :
    (∀ parameter ∈ revised, SelfConsistent parameter) ↔
      ∀ json ∈ requested, ∀ position parameter, target before.parameterNames json = some position →
        before.allParametersUnsorted[position]? = some parameter → KeepsConsistent parameter json := by
  constructor
  · intro allConsistent json isRequested position parameter matched stored
    have isStored := List.mem_of_getElem? stored
    obtain ⟨later, atLater, change⟩ := loop.kept position parameter stored
    rcases change with ⟨other, otherRequested, otherMatched, updated⟩ | ⟨unmatched, _⟩
    · rw [loop.json_eq isRequested otherRequested (rawName_eq_of_target_eq matched otherMatched)]
      exact (revisedParameter_consistent_iff (consistent parameter isStored) (typed parameter isStored) updated).mp
        (allConsistent later (List.mem_of_getElem? atLater))
    · exact absurd matched (unmatched json isRequested)
  · intro kept parameter isRevised
    rcases loop.stored_or_added isRevised with ⟨position, stored, isStored, _, change⟩ | ⟨json, _, _, isNew⟩
    · have member := List.mem_of_getElem? isStored
      rcases change with ⟨json, isRequested, matched, updated⟩ | ⟨_, rfl⟩
      · exact (revisedParameter_consistent_iff (consistent stored member) (typed stored member) updated).mpr
          (kept json isRequested position stored matched isStored)
      · exact consistent parameter member
    · simp only [newParameter, bind_eq_ok, pure_eq_ok] at isNew
      obtain ⟨_, set, _, _, rfl⟩ := isNew
      exact setExperimentParameterFromJson_consistent set

theorem update_consistent_iff (accepted : updateExperiment sections before body = .ok after)
    (consistent : AllConsistent before) (typed : ∀ parameter ∈ before.allParametersUnsorted, Typed parameter) :
    AllConsistent after ↔ ConsistentRequests before body := by
  obtain ⟨_, _, unsent | ⟨sent, revised, loop, parametersAre⟩⟩ := updateExperiment_ok accepted
  · unfold AllConsistent ConsistentRequests
    rw [unsent.2, unsent.1]
    refine ⟨?_, fun _ => consistent⟩
    intro _ impossible
    cases impossible
  · unfold AllConsistent ConsistentRequests
    rw [parametersAre, List.forall_mem_map, sent]
    simp only [selfConsistent_markUnseen_iff, forall_const]
    exact loop.consistent_iff consistent typed

end Step

section Run

variable {sections : OtherSections} {className : String} {body : JsonObject} {start : ExperimentMeta}

theorem create_consistent (accepted : createExperiment sections className body = .ok start) : AllConsistent start := by
  intro parameter isParameter
  obtain ⟨json, _, set⟩ :=
    exists_item (setExperimentParameterListFromJson_ok (createExperiment_ok accepted)).created isParameter
  exact setExperimentParameterFromJson_consistent set

theorem create_typed (accepted : createExperiment sections className body = .ok start) :
    ∀ parameter ∈ start.allParametersUnsorted, Typed parameter := by
  have run : AcceptedUpdates sections start [] := trivial
  exact typed_of_run accepted run start List.mem_cons_self

theorem update_typed {before after : ExperimentMeta} {request : JsonObject}
    (typed : ∀ parameter ∈ before.allParametersUnsorted, Typed parameter)
    (accepted : updateExperiment sections before request = .ok after) :
    ∀ parameter ∈ after.allParametersUnsorted, Typed parameter :=
  everyParameter_step (fun _ _ _ _ => setExperimentParameterFromJson_typed)
    (fun _ _ _ wasTyped => revisedParameter_typed wasTyped) (fun _ wasTyped => ⟨wasTyped.prior, wasTyped.log⟩) typed
    accepted

/-- The parameters of an experiment are consistent in every state of a run exactly if the requests of each update
    keep those consistent that they are matched with. -/
theorem consistency_kept_iff (created : createExperiment sections className body = .ok start)
    {updates : List (JsonObject × ExperimentMeta)} (run : AcceptedUpdates sections start updates) :
    (∀ experiment ∈ Trace.reached start updates, AllConsistent experiment) ↔
      Trace.Every (fun before request _ => ConsistentRequests before request) start updates := by
  have allStates : (∀ experiment ∈ Trace.reached start updates, AllConsistent experiment) ↔
      Trace.Every (fun _ _ after => AllConsistent after) start updates := by
    rw [Trace.every_state_iff, Trace.reached, List.forall_mem_cons, and_iff_right (create_consistent created)]
  rw [allStates]
  refine Trace.every_iff (fun _ _ after => AllConsistent after) (fun before request _ => ConsistentRequests before request)
    (fun present => AllConsistent present ∧ ∀ parameter ∈ present.allParametersUnsorted, Typed parameter)
    ?_ ?_ ⟨create_consistent created, create_typed created⟩ run
  · rintro before request after ⟨consistent, typed⟩ accepted
    exact update_consistent_iff accepted consistent typed
  · rintro before request after ⟨_, typed⟩ accepted consistent
    exact ⟨consistent, update_typed typed accepted⟩

end Run

/-! ### Default values -/

/-- The default value of an active parameter, if it has one, is a value of the parameter. -/
def DefaultsAdmissible (experiment : ExperimentMeta) : Prop :=
  ∀ parameter ∈ experiment.allParametersUnsorted, parameter.deleted = false →
    ∀ value, parameter.replacementValueIfMissing = some value → parameter.validAssignment value = true

section Defaults

variable {sections : OtherSections} {before after : ExperimentMeta} {body : JsonObject}

theorem validateDefaultValue_ok {parameter : ExperimentParameter} {isNew : Bool}
    (accepted : validateDefaultValue parameter isNew = .ok ()) :
    ∀ value, parameter.replacementValueIfMissing = some value → parameter.validAssignment value = true := by
  intro value isDefault
  rw [validateDefaultValue, isDefault, raiseIf_eq_ok, Bool.not_eq_false] at accepted
  exact accepted

theorem revisedParameter_admissible {parameter result : ExperimentParameter} {json : JsonObject}
    (accepted : revisedParameter parameter json = .ok result) :
    ∀ value, result.replacementValueIfMissing = some value → result.validAssignment value = true := by
  simp only [revisedParameter, bind_eq_ok, pure_eq_ok] at accepted
  obtain ⟨_, _, _, validated, rfl⟩ := accepted
  exact validateDefaultValue_ok validated

theorem newParameter_admissible {parameter : ExperimentParameter} {json : JsonObject} {experimentType : ExperimentType}
    {conditionals : List ExperimentConditional}
    (accepted : newParameter json experimentType conditionals = .ok parameter) :
    ∀ value, parameter.replacementValueIfMissing = some value → parameter.validAssignment value = true := by
  simp only [newParameter, bind_eq_ok, pure_eq_ok] at accepted
  obtain ⟨_, _, _, validated, rfl⟩ := accepted
  exact validateDefaultValue_ok validated

/-- Before the first update that sends parameters their names are distinct, so none stays active unrevised. Later the
    names may repeat, and one that stays was checked before. -/
theorem update_defaultsAdmissible (accepted : updateExperiment sections before body = .ok after)
    (sent : body.hasKey "parameters" = true) (wasGood : before.parameterNames.Nodup ∨ DefaultsAdmissible before) :
    DefaultsAdmissible after := by
  obtain ⟨_, _, unsent | ⟨_, revised, loop, parametersAre⟩⟩ := updateExperiment_ok accepted
  · rw [sent] at unsent
    cases unsent.1
  · intro marked isMarked isActive
    rw [parametersAre] at isMarked
    obtain ⟨parameter, isRevised, rfl⟩ := List.mem_map.mp isMarked
    have isRequested : parameter.name ∈ countedNames (requestedParameters body) := by
      by_contra unseen
      rw [markUnseen, if_neg unseen] at isActive
      cases isActive
    rw [markUnseen, if_pos isRequested] at isActive ⊢
    rcases loop.stored_or_added isRevised with ⟨position, stored, isStored, _, change⟩ | ⟨json, _, _, isNew⟩
    · rcases change with ⟨json, _, _, updated⟩ | ⟨unmatched, same⟩
      · exact revisedParameter_admissible updated
      · cases wasGood with
        | inl distinct =>
            obtain ⟨json, jsonRequested, named⟩ := mem_countedNames.mp isRequested
            apply absurd _ (unmatched json jsonRequested)
            rw [target, named, Option.bind_some]
            apply Registry.lastIndexOf_of_getElem? distinct
            rw [ExperimentMeta.parameterNames, List.getElem?_map, isStored, Option.map_some, same]
        | inr admissible =>
            rw [same] at isActive ⊢
            exact admissible stored (List.mem_of_getElem? isStored) isActive
    · exact newParameter_admissible isNew

theorem update_defaultsAdmissible_of_admissible (accepted : updateExperiment sections before body = .ok after)
    (admissible : DefaultsAdmissible before) : DefaultsAdmissible after := by
  by_cases sent : body.hasKey "parameters" = true
  · exact update_defaultsAdmissible accepted sent (.inr admissible)
  · obtain ⟨_, _, unsent | ⟨isSent, _⟩⟩ := updateExperiment_ok accepted
    · intro parameter isParameter
      rw [unsent.2] at isParameter
      exact admissible parameter isParameter
    · exact absurd isSent sent

theorem update_defaultsGood (accepted : updateExperiment sections before body = .ok after)
    (wasGood : before.parameterNames.Nodup ∨ DefaultsAdmissible before) :
    after.parameterNames.Nodup ∨ DefaultsAdmissible after := by
  by_cases sent : body.hasKey "parameters" = true
  · exact .inr (update_defaultsAdmissible accepted sent wasGood)
  · obtain ⟨_, _, unsent | ⟨isSent, _⟩⟩ := updateExperiment_ok accepted
    · cases wasGood with
      | inl distinct =>
          left
          rw [ExperimentMeta.parameterNames, unsent.2]
          exact distinct
      | inr admissible => exact .inr (update_defaultsAdmissible_of_admissible accepted admissible)
    · exact absurd isSent sent

/-- After every update that sends parameters the default values of the active ones are admissible. -/
theorem every_defaultsAdmissible {updates : List (JsonObject × ExperimentMeta)}
    (wasGood : before.parameterNames.Nodup ∨ DefaultsAdmissible before) (run : AcceptedUpdates sections before updates) :
    Trace.Every (fun _ request after => request.hasKey "parameters" = true → DefaultsAdmissible after) before updates := by
  have holds (before : ExperimentMeta) (request : JsonObject) (after : ExperimentMeta)
      (good : before.parameterNames.Nodup ∨ DefaultsAdmissible before)
      (accepted : updateExperiment sections before request = .ok after) :
      request.hasKey "parameters" = true → DefaultsAdmissible after :=
    fun sent => update_defaultsAdmissible accepted sent good
  exact Trace.every_of_invariant holds (fun _ _ _ good accepted => update_defaultsGood accepted good) wasGood run

theorem defaultsAdmissible_after {earlier later : List (JsonObject × ExperimentMeta)}
    (wasGood : before.parameterNames.Nodup ∨ DefaultsAdmissible before) (sent : body.hasKey "parameters" = true)
    (run : AcceptedUpdates sections before (earlier ++ (body, after) :: later)) :
    ∀ experiment ∈ Trace.reached after later, DefaultsAdmissible experiment := by
  induction earlier generalizing before with
  | nil =>
      obtain ⟨accepted, rest⟩ := run
      exact Trace.every_invariant (fun _ _ _ admissible step => update_defaultsAdmissible_of_admissible step admissible)
        (update_defaultsAdmissible accepted sent wasGood) rest
  | cons step earlier inductionHypothesis =>
      obtain ⟨request, next⟩ := step
      obtain ⟨accepted, rest⟩ := run
      exact inductionHypothesis (update_defaultsGood accepted wasGood) rest

end Defaults

/-- The definitions of the parameters are consistent in every state of a run, and the defaults of the active ones
    admissible after every update that sends parameters, exactly if each update keeps those parameters consistent
    that its requests are matched with. -/
theorem definitions_kept_iff {sections : OtherSections} {className : String} {body : JsonObject} {start : ExperimentMeta}
    (created : createExperiment sections className body = .ok start)
    {updates : List (JsonObject × ExperimentMeta)} (run : AcceptedUpdates sections start updates) :
    ((∀ experiment ∈ Trace.reached start updates, AllConsistent experiment) ∧
      Trace.Every (fun _ request after => request.hasKey "parameters" = true → DefaultsAdmissible after) start updates) ↔
      Trace.Every (fun before request _ => ConsistentRequests before request) start updates := by
  have admissible := every_defaultsAdmissible (.inl (create_namesUnique created).1) run
  rw [consistency_kept_iff created run, and_iff_left admissible]

/-- From the first update on that sends parameters, the default values of the active ones are values they can have. -/
theorem defaults_admissible {sections : OtherSections} {className : String} {created request : JsonObject}
    {start after : ExperimentMeta} {earlier later : List (JsonObject × ExperimentMeta)}
    (accepted : createExperiment sections className created = .ok start) (sent : request.hasKey "parameters" = true)
    (run : AcceptedUpdates sections start (earlier ++ (request, after) :: later)) :
    ∀ experiment ∈ Trace.reached after later, DefaultsAdmissible experiment :=
  defaultsAdmissible_after (.inl (create_namesUnique accepted).1) sent run

/-! ### Runs -/

def normalParameterJson (maximum mean : ℚ) : JsonObject :=
  [("name", .string "x"), ("type", .string "double"),
    ("bounds", .object [("min", .number 0), ("max", .number maximum)]), ("default_value", .number 1),
    ("prior", .object [("name", .string "normal"), ("mean", .number mean), ("scale", .number 1)])]

def normalParameter (maximum mean : ℚ) : ExperimentParameter :=
  { name := "x", bounds := ⟨0, maximum⟩, replacementValueIfMissing := some 1, prior := some (.normal mean 1) }

def experimentWithPrior : JsonObject :=
  [("name", .string "an experiment"), ("parameters", .array [.object (normalParameterJson 2 1)])]

/-- Wider bounds, the prior left as it is. -/
def widerBounds : JsonObject :=
  [("parameters", .array [.object [("name", .string "x"),
    ("bounds", .object [("min", .number 0), ("max", .number 3)])]])]

theorem experimentWithPrior_created :
    createExperiment permissiveSections "Experiment" experimentWithPrior = .ok (metaOf [normalParameter 2 1]) := by
  decide +kernel

theorem widerBounds_run :
    AcceptedUpdates permissiveSections (metaOf [normalParameter 2 1]) [(widerBounds, metaOf [normalParameter 3 1])] :=
  ⟨by decide +kernel, trivial⟩

theorem widerBounds_keeps :
    Trace.Every (fun before request _ => ConsistentRequests before request) (metaOf [normalParameter 2 1])
      [(widerBounds, metaOf [normalParameter 3 1])] := by
  refine ⟨?_, trivial⟩
  intro _ json isRequested position parameter _ stored
  obtain rfl := List.mem_singleton.mp isRequested
  obtain rfl : parameter = normalParameter 2 1 := List.mem_singleton.mp (List.mem_of_getElem? stored)
  refine ⟨?_, by decide, by decide⟩
  intro _ members minimum maximum isObject isMinimum isMaximum
  cases isObject
  cases isMinimum
  cases isMaximum
  constructor
  · intro isGrid
    cases isGrid
  · intro _ mean scale isNormal
    cases isNormal
    decide +kernel

/-- A run that widens the bounds around the mean of a prior. -/
theorem definitions_kept_wider :
    AllConsistent (metaOf [normalParameter 2 1]) ∧ AllConsistent (metaOf [normalParameter 3 1]) ∧
      DefaultsAdmissible (metaOf [normalParameter 3 1]) := by
  obtain ⟨consistent, admissible⟩ := (definitions_kept_iff experimentWithPrior_created widerBounds_run).mpr widerBounds_keeps
  rw [Trace.reached, List.forall_mem_cons] at consistent
  exact ⟨consistent.1, consistent.2 _ List.mem_cons_self, admissible.1 (by decide)⟩

/-- The defaults are admissible after the update that widens the bounds. -/
theorem defaults_admissible_wider : DefaultsAdmissible (metaOf [normalParameter 3 1]) := by
  have run : AcceptedUpdates permissiveSections (metaOf [normalParameter 2 1])
      ([] ++ (widerBounds, metaOf [normalParameter 3 1]) :: []) := widerBounds_run
  have sent : widerBounds.hasKey "parameters" = true := by decide
  exact defaults_admissible experimentWithPrior_created sent run (metaOf [normalParameter 3 1]) List.mem_cons_self

def experimentWithHighMean : JsonObject :=
  [("name", .string "an experiment"), ("parameters", .array [.object (normalParameterJson 3 2)])]

/-- Narrower bounds, the prior left as it is. -/
def narrowerBounds : JsonObject :=
  [("parameters", .array [.object [("name", .string "x"),
    ("bounds", .object [("min", .number 0), ("max", .number 1)])]])]

/-- Bounds that leave the mean of the prior outside are accepted. -/
theorem mean_left_outside :
    createExperiment permissiveSections "Experiment" experimentWithHighMean = .ok (metaOf [normalParameter 3 2]) ∧
      AcceptedUpdates permissiveSections (metaOf [normalParameter 3 2]) [(narrowerBounds, metaOf [normalParameter 1 2])] ∧
      ¬ ∀ experiment ∈ Trace.reached (metaOf [normalParameter 3 2]) [(narrowerBounds, metaOf [normalParameter 1 2])],
        AllConsistent experiment := by
  refine ⟨by decide +kernel, ⟨by decide +kernel, trivial⟩, fun consistent => ?_⟩
  have narrowed := consistent _ (List.mem_cons_of_mem _ List.mem_cons_self) _ List.mem_cons_self
  have within := (narrowed.priorMean 2 1 rfl).2
  revert within
  decide +kernel

end Zigopt.Experiment
