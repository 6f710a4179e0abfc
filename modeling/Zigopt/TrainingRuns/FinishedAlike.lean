/-
Module: Zigopt.TrainingRuns.FinishedAlike
Layer: Proofs
Purpose: A run that is created finished, with assignments, values and a state, beside one that is created with
  these assignments and finished by an update with these values and this state.
Main exports: NewRunRequest, Outcome, Leaves, FinishedAlike, finished_alike
-/
import Zigopt.TrainingRuns.ObservationsAlike

namespace Zigopt.TrainingRuns

open Raising Observations

/-! ### The requests -/

/-- The parsed request of a new run, without a state and without values. Its parser has dropped the nulls among
    the assignments, and the source of a meta is a string. -/
structure NewRunRequest where
  params : TrainingRunRequestParams
  distinct : (params.trainingRunDataJson.map Prod.fst).Nodup
  withoutState : params.trainingRunDataJson.lookup "s" = none
  withoutValues : params.trainingRunDataJson.lookup "v" = none
  assignmentsWithoutNulls :
    stripMembers (membersOf params.trainingRunDataJson "a") = membersOf params.trainingRunDataJson "a"
  metaWithoutNulls :
    stripMembers (membersOf params.trainingRunDataJson "am") = membersOf params.trainingRunDataJson "am"

namespace NewRunRequest

variable (request : NewRunRequest)

/-- The explicit assignments. -/
def assignments : JsonObject := membersOf request.params.trainingRunDataJson "a"

/-- The request for an active run, which may name its state or leave it out. -/
def active (namesState : Bool) : TrainingRunRequestParams :=
  { request.params with
    trainingRunDataJson :=
      if namesState then setMember request.params.trainingRunDataJson "s" (.number (stateNumber .active))
      else request.params.trainingRunDataJson }

/-- The request for a run that has ended, with its values. -/
def ended (values : ReportedValues) (state : TrainingRunState) : TrainingRunRequestParams :=
  { request.params with
    trainingRunDataJson :=
      setMember (setMember request.params.trainingRunDataJson "v" (.object (valuesJson values))) "s"
        (.number (stateNumber state)) }

end NewRunRequest

/-- The update that ends an active run. -/
def endingParams (values : ReportedValues) (state : TrainingRunState) : TrainingRunRequestParams where
  trainingRunDataJson := finishingJson values state

/-- A request that adds to another one at most a state and values. -/
structure Extends (request : NewRunRequest) (params : TrainingRunRequestParams) : Prop where
  elsewhere : ∀ key, key ≠ "v" → key ≠ "s" →
    params.trainingRunDataJson.lookup key = request.params.trainingRunDataJson.lookup key
  distinct : (params.trainingRunDataJson.map Prod.fst).Nodup
  stateGiven : params.isExplicitlyNull "s" = false
  project : params.projectField = request.params.projectField

section Documents

variable {request : NewRunRequest} {params : TrainingRunRequestParams} {calls : CreateCalls} {experiment : Experiment}

theorem isExplicitlyNull_of_number {value : ℚ} (found : params.trainingRunDataJson.lookup "s" = some (.number value)) :
    params.isExplicitlyNull "s" = false := by
  simp [TrainingRunRequestParams.isExplicitlyNull, JsonObject.isPresent, JsonObject.get, found]

theorem extends_active (namesState : Bool) : Extends request (request.active namesState) := by
  cases namesState with
  | false => exact {
      elsewhere := fun _ _ _ => rfl
      distinct := request.distinct
      stateGiven := by
        rw [TrainingRunRequestParams.isExplicitlyNull, JsonObject.hasKey]
        change (Option.isSome (request.params.trainingRunDataJson.lookup "s") && _) = false
        rw [request.withoutState, Option.isSome_none, Bool.false_and]
      project := rfl }
  | true => exact {
      elsewhere := fun _ _ notState => lookup_setMember_of_ne _ notState
      distinct := nodup_setMember request.distinct _ _
      stateGiven := isExplicitlyNull_of_number (lookup_setMember_self _ _ _)
      project := rfl }

theorem extends_ended (values : ReportedValues) (state : TrainingRunState) :
    Extends request (request.ended values state) where
  elsewhere := fun _ notValues notState =>
    (lookup_setMember_of_ne _ notState).trans (lookup_setMember_of_ne _ notValues)
  distinct := nodup_setMember (nodup_setMember request.distinct _ _) _ _
  stateGiven := isExplicitlyNull_of_number (lookup_setMember_self _ _ _)
  project := rfl

namespace Extends

variable (same : Extends request params)

include same

/-- Besides values and state, both requests say the same. -/
theorem members {key : String} (notValues : key ≠ "v") (notState : key ≠ "s") :
    membersOf params.trainingRunDataJson key = membersOf request.params.trainingRunDataJson key :=
  membersOf_congr (same.elsewhere key notValues notState)

theorem relevantAssignments_eq (experiment : Experiment) :
    relevantAssignments experiment params = relevantAssignments experiment request.params := by
  rw [relevantAssignments, same.members (by decide) (by decide), relevantAssignments]

/-- The checks of a creation look at neither. -/
theorem checkCreateRequest_eq {other : TrainingRunRequestParams} (otherSame : Extends request other) :
    checkCreateRequest params = checkCreateRequest other := by
  have sameName : JsonObject.get params.trainingRunDataJson "n" = JsonObject.get other.trainingRunDataJson "n" := by
    rw [JsonObject.get, same.elsewhere "n" (by decide) (by decide), JsonObject.get,
      otherSame.elsewhere "n" (by decide) (by decide)]
  rw [checkCreateRequest, sameName, same.stateGiven, same.project, same.members (by decide) (by decide),
    same.members (by decide) (by decide), checkCreateRequest, otherSame.stateGiven, otherSame.project,
    otherSame.members (by decide) (by decide), otherSame.members (by decide) (by decide)]

end Extends

/-! ### The stored documents -/

/-- The assignments of a run whose suggestion or observation has rendered assignments. -/
def updatedAssignments (assignments rendered : JsonObject) : JsonObject :=
  if rendered = [] then assignments else JsonObject.merge assignments rendered

theorem strip_updatedAssignments {assignments rendered : JsonObject} (stripped : stripMembers assignments = assignments)
    (renderedStripped : stripMembers rendered = rendered) :
    stripMembers (updatedAssignments assignments rendered) = updatedAssignments assignments rendered := by
  rw [updatedAssignments]
  split
  · exact stripped
  · exact strip_merge stripped renderedStripped

theorem lookup_updateAssignmentsStruct_of_ne {data rendered : JsonObject} {key : String} (apart : key ≠ "a") :
    (updateAssignmentsStruct data rendered).lookup key = data.lookup key := by
  rw [updateAssignmentsStruct]
  split
  · rfl
  · exact lookup_setMember_of_ne _ apart

theorem membersOf_updateAssignmentsStruct (data rendered : JsonObject) :
    membersOf (updateAssignmentsStruct data rendered) "a" = updatedAssignments (membersOf data "a") rendered := by
  rw [updateAssignmentsStruct, updatedAssignments]
  split
  · rfl
  · exact membersOf_of_lookup (lookup_setMember_self _ _ _)

theorem nodup_updateAssignmentsStruct {data : JsonObject} (distinct : (data.map Prod.fst).Nodup)
    (rendered : JsonObject) : ((updateAssignmentsStruct data rendered).map Prod.fst).Nodup := by
  rw [updateAssignmentsStruct]
  split
  · exact distinct
  · exact nodup_setMember distinct _ _

/-- The marks of the optimized assignments are in other members. -/
theorem lookup_foldl_markAssignment_of_ne {key : String} (apart : key ≠ "am") (names : List String)
    (data : JsonObject) : (names.foldl markAssignment data).lookup key = data.lookup key := by
  induction names generalizing data with
  | nil => rfl
  | cons name rest inductionHypothesis =>
      rw [List.foldl_cons, inductionHypothesis, markAssignment, lookup_setMember_of_ne _ apart]

theorem nodup_foldl_markAssignment (names : List String) {data : JsonObject} (distinct : (data.map Prod.fst).Nodup) :
    ((names.foldl markAssignment data).map Prod.fst).Nodup := by
  induction names generalizing data with
  | nil => exact distinct
  | cons name rest inductionHypothesis =>
      rw [List.foldl_cons]
      exact inductionHypothesis (nodup_setMember distinct _ _)

theorem lookup_markSource_of_ne {data assignments : JsonObject} {key : String} (notMeta : key ≠ "am")
    (notSources : key ≠ "as") : (markSource data assignments).lookup key = data.lookup key := by
  rw [markSource, lookup_setMember_of_ne _ notSources, lookup_foldl_markAssignment_of_ne notMeta]

theorem nodup_markSource {data : JsonObject} (distinct : (data.map Prod.fst).Nodup) (assignments : JsonObject) :
    ((markSource data assignments).map Prod.fst).Nodup := by
  rw [markSource]
  exact nodup_setMember (nodup_foldl_markAssignment _ distinct) _ _

def renderedFor (calls : CreateCalls) (experiment : Experiment) (created : CreatedFor) : JsonObject :=
  (created.assignmentsMap.map (calls.assignmentsJson experiment)).getD []

/-- The data of a new run before the marks. -/
def unmarkedData (calls : CreateCalls) (experiment : Experiment) (created : CreatedFor)
    (params : TrainingRunRequestParams) : JsonObject :=
  updateAssignmentsStruct (stripMembers params.trainingRunDataJson) (renderedFor calls experiment created)

def newData (calls : CreateCalls) (experiment : Experiment) (created : CreatedFor)
    (params : TrainingRunRequestParams) : JsonObject :=
  if created.suggestion.isSome then
    markSource (unmarkedData calls experiment created params) (renderedFor calls experiment created)
  else unmarkedData calls experiment created params

theorem membersOf_stripped (same : Extends request params) {key : String} (notValues : key ≠ "v")
    (notState : key ≠ "s")
    (stripped : stripMembers (membersOf request.params.trainingRunDataJson key) =
      membersOf request.params.trainingRunDataJson key) :
    membersOf (stripMembers params.trainingRunDataJson) key = membersOf request.params.trainingRunDataJson key := by
  rw [membersOf_stripMembers same.distinct, same.members notValues notState, stripped]

theorem assignments_unmarkedData (same : Extends request params) (created : CreatedFor) :
    membersOf (unmarkedData calls experiment created params) "a" =
      updatedAssignments request.assignments (renderedFor calls experiment created) := by
  rw [unmarkedData, membersOf_updateAssignmentsStruct,
    membersOf_stripped same (by decide) (by decide) request.assignmentsWithoutNulls, NewRunRequest.assignments]

theorem lookup_newData {created : CreatedFor} {key : String} (notAssignments : key ≠ "a") (notMeta : key ≠ "am")
    (notSources : key ≠ "as") :
    (newData calls experiment created params).lookup key = (stripMembers params.trainingRunDataJson).lookup key := by
  rw [newData]
  split
  · rw [lookup_markSource_of_ne notMeta notSources, unmarkedData, lookup_updateAssignmentsStruct_of_ne notAssignments]
  · rw [unmarkedData, lookup_updateAssignmentsStruct_of_ne notAssignments]

theorem assignments_newData (same : Extends request params) (created : CreatedFor) :
    membersOf (newData calls experiment created params) "a" =
      updatedAssignments request.assignments (renderedFor calls experiment created) := by
  rw [newData]
  split
  · rw [membersOf_congr (lookup_markSource_of_ne (by decide) (by decide)), assignments_unmarkedData same]
  · exact assignments_unmarkedData same created

theorem nodup_newData (same : Extends request params) (created : CreatedFor) :
    ((newData calls experiment created params).map Prod.fst).Nodup := by
  have distinct := nodup_updateAssignmentsStruct (nodup_stripMembers same.distinct)
    (renderedFor calls experiment created)
  rw [newData]
  split
  · exact nodup_markSource distinct _
  · exact distinct

/-- The metas of a request that has passed the checks pass them again beside more assignments. -/
theorem validateAssignmentsMeta_unmarkedData (same : Extends request params) (created : CreatedFor)
    (checked : checkCreateRequest params = .ok ()) :
    let data := unmarkedData calls experiment created params
    validateAssignmentsMeta (membersOf data "a") (membersOf data "am") none = .ok () := by
  dsimp only
  have first : validateAssignmentsMeta request.assignments (membersOf request.params.trainingRunDataJson "am") none =
      .ok () := by
    rw [checkCreateRequest, same.members (by decide) (by decide), same.members (by decide) (by decide)] at checked
    simp only [bind_eq_ok] at checked
    obtain ⟨_, _, _, _, _, _, passed⟩ := checked
    exact passed
  have sameMeta : membersOf (unmarkedData calls experiment created params) "am" =
      membersOf request.params.trainingRunDataJson "am" := by
    rw [unmarkedData, membersOf_congr (lookup_updateAssignmentsStruct_of_ne (by decide)),
      membersOf_stripped same (by decide) (by decide) request.metaWithoutNulls]
  rw [sameMeta, assignments_unmarkedData same, validateAssignmentsMeta]
  simp only [validateAssignmentsMeta, bind_eq_ok, raiseIf_eq_ok, exists_const] at first ⊢
  refine ⟨first.1, ?_⟩
  rw [not_not] at first ⊢
  rw [List.filter_eq_nil_iff] at first ⊢
  intro key isMeta
  have known := first.2 key isMeta
  simp only [decide_eq_true_eq, not_not] at known ⊢
  rw [updatedAssignments]
  split
  · exact known
  · rcases List.mem_append.mp known with given | stored
    · apply List.mem_append_left
      rw [JsonObject.merge_keys]
      exact List.mem_append_left _ given
    · exact List.mem_append_right _ stored

end Documents

/-! ### Creation -/

section Creation

variable {calls : CreateCalls} {now : Int} {experimentId : Nat} {params : TrainingRunRequestParams} {store : Store}
  {experiment : Experiment} {project : Project}

/-- The request and the experiment that it names pass the checks of a creation. -/
structure Admitted (experimentId : Nat) (params : TrainingRunRequestParams) (store : Store)
    (experiment : Experiment) (project : Project) : Prop where
  found : store.findExperiment experimentId = some experiment
  runsOnly : experiment.runsOnly = true
  checked : checkCreateRequest params = .ok ()
  live : experiment.deleted = false
  inProject : experiment.projectId.bind (fun id => store.findProject experiment.clientId id) = some project

theorem run_findAiExperiment (found : store.findExperiment experimentId = some experiment)
    (runsOnly : experiment.runsOnly = true) : (findAiExperiment experimentId).run store = (.ok experiment, store) := by
  rw [findAiExperiment, Process.run_bind_ok (Process.run_read _ _ store), found]
  dsimp only
  rw [if_pos runsOnly]
  rfl

def insertedStore (calls : CreateCalls) (now : Int) (experiment : Experiment) (project : Project)
    (created : CreatedFor) (params : TrainingRunRequestParams) (store : Store) : Store :=
  (store.insertTrainingRun
    (newTrainingRun now experiment project.id created (newData calls experiment created params))).markExperimentAsUpdated
      experiment.id now

/-- An admitted creation goes on with the suggestion or the observation, and inserts the run. -/
theorem run_createHandle (admitted : Admitted experimentId params store experiment project) {created : CreatedFor}
    {after : Store}
    (made : (maybeCreateSuggestionAndObservation calls now experiment params).run store = (.ok created, after))
    (metaValid : validateAssignmentsMeta (membersOf (unmarkedData calls experiment created params) "a")
      (membersOf (unmarkedData calls experiment created params) "am") none = .ok ()) :
    ((createHandle calls now experimentId params).run store).2 =
      insertedStore calls now experiment project created params after := by
  have isLive : raiseIf (experiment.deleted = true)
      (ValidationError.sigoptValidation s!"Cannot create training runs for deleted experiment {experiment.id}") =
        .ok () := by
    rw [raiseIf, admitted.live, if_neg Bool.false_ne_true]
  rw [createHandle, Process.run_bind_ok (run_findAiExperiment admitted.found admitted.runsOnly), admitted.checked,
    isLive]
  change ((Process.read Statement.plain _ >>= _).run store).2 = _
  rw [Process.run_bind_ok (Process.run_read _ _ store), admitted.inProject]
  dsimp only
  rw [Process.run_bind_ok made]
  change ((Process.ofExcept (check (validateAssignmentsMeta
    (membersOf (unmarkedData calls experiment created params) "a")
    (membersOf (unmarkedData calls experiment created params) "am") none)) >>= _).run after).2 = _
  rw [metaValid]
  rfl

/-- A creation that is not admitted fails before its first write, for reasons that two requests share. -/
theorem run_createHandle_of_refused {otherNow : Int} {other : TrainingRunRequestParams}
    (same : checkCreateRequest params = checkCreateRequest other)
    (refused : ¬∃ experiment project, Admitted experimentId params store experiment project) :
    ∃ failure, (createHandle calls now experimentId params).run store = (.error failure, store) ∧
      (createHandle calls otherNow experimentId other).run store = (.error failure, store) := by
  rw [createHandle, createHandle, ← same]
  cases found : store.findExperiment experimentId with
  | none =>
      have missing : (findAiExperiment experimentId).run store =
          (.error (.notFound s!"No experiment {experimentId}"), store) := by
        rw [findAiExperiment, Process.run_bind_ok (Process.run_read _ _ store), found]
        rfl
      exact ⟨_, Process.run_bind_error missing _, Process.run_bind_error missing _⟩
  | some experiment =>
      cases runsOnly : experiment.runsOnly with
      | false =>
          have missing : (findAiExperiment experimentId).run store =
              (.error (.notFound s!"The AiExperiment {experimentId} does not exist"), store) := by
            rw [findAiExperiment, Process.run_bind_ok (Process.run_read _ _ store), found]
            dsimp only
            rw [runsOnly, if_neg Bool.false_ne_true]
            rfl
          exact ⟨_, Process.run_bind_error missing _, Process.run_bind_error missing _⟩
      | true =>
          rw [Process.run_bind_ok (run_findAiExperiment found runsOnly),
            Process.run_bind_ok (run_findAiExperiment found runsOnly)]
          cases checked : checkCreateRequest params with
          | error failure => exact ⟨.validation failure, rfl, rfl⟩
          | ok _ =>
              cases deleted : experiment.deleted with
              | true => exact ⟨_, rfl, rfl⟩
              | false =>
                  cases inProject : experiment.projectId.bind (fun id => store.findProject experiment.clientId id) with
                  | some project =>
                      exact absurd ⟨experiment, project, found, runsOnly, checked, deleted, inProject⟩ refused
                  | none =>
                      refine ⟨.forbidden
                        s!"Experiment {experiment.id} must belong to a project in order to create training runs",
                        ?_, ?_⟩
                      · change (Process.read Statement.plain _ >>= _).run store = _
                        rw [Process.run_bind_ok (Process.run_read _ _ store), inProject]
                        rfl
                      · change (Process.read Statement.plain _ >>= _).run store = _
                        rw [Process.run_bind_ok (Process.run_read _ _ store), inProject]
                        rfl

end Creation

/-! ### What a creation makes -/

section Made

variable {calls : CreateCalls} {now : Int} {experiment : Experiment} {request : NewRunRequest}
  {values : ReportedValues} {state : TrainingRunState} {store : Store}

theorem finished_ended (values : ReportedValues) (state : TrainingRunState) :
    Finished values state (request.ended values state).trainingRunDataJson where
  state := stateOf_of_lookup (lookup_setMember_self _ _ _)
  values := by
    intro name
    apply valueNamed_of_lookup _ (lookup_valuesJson values name)
    exact (lookup_setMember_of_ne _ (by decide)).trans (lookup_setMember_self _ _ _)

theorem stateOf_active (namesState : Bool) : stateOf (request.active namesState).trainingRunDataJson = .active := by
  cases namesState with
  | true => exact stateOf_of_lookup (lookup_setMember_self _ _ _)
  | false =>
      have noNumber : numberOf (request.active false).trainingRunDataJson "s" = 0 := by
        have absent : (request.active false).trainingRunDataJson.lookup "s" = none := request.withoutState
        rw [numberOf, JsonObject.get, absent]
        rfl
      rw [stateOf, noNumber]
      decide

/-- The observation of the assignments of the request, and the store with it. -/
theorem run_ended_of_accepted {assignmentsMap : List (String × ℚ)} {observationData : ObservationData}
    (terminal : isCompletedState state = true)
    (someAssignments : relevantAssignments experiment request.params ≠ [])
    (accepted : acceptedAssignments calls.toCalls experiment (relevantAssignments experiment request.params) =
      some assignmentsMap) :
    let params := request.ended values state
    let reports := reportsOf calls.toCalls experiment.allMetrics.allMetrics params.trainingRunDataJson
    createObservationData {} reports experiment.allMetrics (some reports.isNone) = .ok observationData →
      (maybeCreateSuggestionAndObservation calls now experiment params).run store =
        (.ok { observationId := some store.nextObservationId, assignmentsMap := some assignmentsMap },
          store.insertObservation experiment.id now
            { data := { observationData with assignmentsMap := assignmentsMap } }) := by
  dsimp only
  intro created
  have finished : Finished values state (request.ended values state).trainingRunDataJson := finished_ended values state
  have observation := createObservation_of_accepted store accepted someAssignments created
  rw [maybeCreateSuggestionAndObservation, finished.state, if_pos terminal, maybeCreateObservation,
    createdValues_finished finished, (extends_ended values state).relevantAssignments_eq]
  change ((Process.read Statement.plain _ >>= _) >>= _ : RunProcess CreatedFor).run store = _
  rw [Process.run_bind, Process.run_bind_ok (Process.run_read _ _ store), observation]
  rfl

theorem run_ended_of_refused {observationData : ObservationData} (terminal : isCompletedState state = true)
    (someAssignments : relevantAssignments experiment request.params ≠ [])
    (refused : acceptedAssignments calls.toCalls experiment (relevantAssignments experiment request.params) = none) :
    let params := request.ended values state
    let reports := reportsOf calls.toCalls experiment.allMetrics.allMetrics params.trainingRunDataJson
    createObservationData {} reports experiment.allMetrics (some reports.isNone) = .ok observationData →
      (maybeCreateSuggestionAndObservation calls now experiment params).run store = (.ok {}, store) := by
  dsimp only
  intro created
  have finished : Finished values state (request.ended values state).trainingRunDataJson := finished_ended values state
  obtain ⟨failure, observation⟩ := createObservation_of_refused store refused someAssignments created
  rw [maybeCreateSuggestionAndObservation, finished.state, if_pos terminal, maybeCreateObservation,
    createdValues_finished finished, (extends_ended values state).relevantAssignments_eq]
  change ((Process.read Statement.plain _ >>= _) >>= _ : RunProcess CreatedFor).run store = _
  rw [Process.run_bind, Process.run_bind_ok (Process.run_read _ _ store), observation]
  rfl

/-- The suggestion that is made of accepted assignments. -/
def explicitRow (experiment : Experiment) (id : Nat) (assignmentsMap : List (String × ℚ)) : ProcessedSuggestion :=
  processedRow experiment { id := id, assignmentsMap := assignmentsMap }

theorem run_active_of_accepted (broker : ExplicitBroker calls) (namesState : Bool)
    {assignmentsMap : List (String × ℚ)}
    (someAssignments : relevantAssignments experiment request.params ≠ [])
    (accepted : acceptedAssignments calls.toCalls experiment (relevantAssignments experiment request.params) =
      some assignmentsMap) :
    let row := explicitRow experiment (broker.nextSuggestionId store) assignmentsMap
    (maybeCreateSuggestionAndObservation calls now experiment (request.active namesState)).run store =
      (.ok { suggestion := some row, assignmentsMap := some assignmentsMap },
        store.insertProcessedSuggestion row) := by
  dsimp only
  have explicit := explicitSuggestion_of_accepted accepted (broker.nextSuggestionId store)
  rw [maybeCreateSuggestionAndObservation, stateOf_active, isCompletedState, if_neg Bool.false_ne_true,
    maybeCreateSuggestion, (extends_active namesState).relevantAssignments_eq]
  rw [if_neg someAssignments, maybeCreateExplicitSuggestion, Process.run_bind,
    Process.run_bind_ok (Process.run_read _ _ store), broker.explicit, explicit]
  dsimp only
  have processed : (processSuggestion experiment
      { id := broker.nextSuggestionId store, assignmentsMap := assignmentsMap }).run store =
        (.ok (explicitRow experiment (broker.nextSuggestionId store) assignmentsMap),
          store.insertProcessedSuggestion
            (explicitRow experiment (broker.nextSuggestionId store) assignmentsMap)) := by
    rw [processSuggestion, Process.run_statement]
    dsimp only
    rw [broker.fresh, if_neg Bool.false_ne_true, if_neg Bool.false_ne_true]
    rfl
  rw [Process.run_bind_ok processed]
  rfl

theorem run_active_of_refused (broker : ExplicitBroker calls) (namesState : Bool)
    (someAssignments : relevantAssignments experiment request.params ≠ [])
    (refused : acceptedAssignments calls.toCalls experiment (relevantAssignments experiment request.params) = none) :
    (maybeCreateSuggestionAndObservation calls now experiment (request.active namesState)).run store =
      (.ok {}, store) := by
  obtain ⟨failure, explicit⟩ := explicitSuggestion_of_refused refused (broker.nextSuggestionId store)
  rw [maybeCreateSuggestionAndObservation, stateOf_active, isCompletedState, if_neg Bool.false_ne_true,
    maybeCreateSuggestion, (extends_active namesState).relevantAssignments_eq]
  rw [if_neg someAssignments, maybeCreateExplicitSuggestion, Process.run_bind,
    Process.run_bind_ok (Process.run_read _ _ store), broker.explicit, explicit]
  rfl

end Made

/-! ### The update that ends a run -/

section Ending

variable {calls : Calls} {now : Int} {store : Store} {run : TrainingRun} {project : Project}

theorem run_checkRequest_ending (calls : Calls) (values : ReportedValues) (state : TrainingRunState)
    (found : store.findTrainingRun run.id = some run)
    (projectFound : store.findProject run.clientId run.projectId = some project)
    (clientFound : run.clientId ∈ store.clients) :
    (checkRequest calls run.id (endingParams values state)).run store =
      (.ok {
        run := run
        project := project
        experiment := run.experimentId.bind store.findExperiment
        newProject := none }, store) := by
  have projectRun : (findProject run).run store = (.ok project, store) := by
    rw [findProject, Process.run_bind_ok (Process.run_read _ _ store), projectFound]
    rfl
  have notRemoved : ensureFieldsCannotBeRemoved (endingParams values state) = .ok () := by
    have sent : (endingParams values state).trainingRunDataJson.lookup "s" = some (.number (stateNumber state)) := rfl
    have stateGiven := isExplicitlyNull_of_number sent
    rw [ensureFieldsCannotBeRemoved, stateGiven]
    rfl
  have noMetas : validateAssignmentsMeta (membersOf (endingParams values state).trainingRunDataJson "a")
      (membersOf (endingParams values state).trainingRunDataJson "am") (some run) = .ok () := by
    rfl
  rw [checkRequest, Process.run_bind_ok (run_findTrainingRun _ found), Process.run_bind_ok projectRun,
    Process.run_bind_ok (run_findClient_iff.mpr clientFound), notRemoved]
  change ((findExperiment run.experimentId) >>= _ : RunProcess Checked).run store = _
  rw [Process.run_bind_ok (run_findExperiment _ store), noMetas]
  rfl

def endedRow (now : Int) (mergeObjects : Bool) (values : ReportedValues) (state : TrainingRunState)
    (run : TrainingRun) : TrainingRun :=
  (updateClause mergeObjects (endingParams values state) none).apply now run

def endedStore (now : Int) (mergeObjects : Bool) (values : ReportedValues) (state : TrainingRunState)
    (run : TrainingRun) (store : Store) : Store :=
  store.updateTrainingRun run.id ((updateClause mergeObjects (endingParams values state) none).apply now)

/-- The update writes the data, and then the observation is created if one is due. -/
theorem run_handle_ending {mergeObjects : Bool} {values : ReportedValues} {state : TrainingRunState}
    (terminal : isCompletedState state = true) (found : store.findTrainingRun run.id = some run)
    (projectFound : store.findProject run.clientId run.projectId = some project)
    (clientFound : run.clientId ∈ store.clients)
    (ended : stateOf (endedRow now mergeObjects values state run).trainingRunData = state) :
    ((handle calls now run.id mergeObjects (endingParams values state)).run store).2 =
      (ensured calls now (run.experimentId.bind store.findExperiment) (endedRow now mergeObjects values state run)
        (endedStore now mergeObjects values state run store)).2 := by
  have checked := run_checkRequest_ending calls values state found projectFound clientFound
  have whole := @run_handle_of_checked calls now run.id mergeObjects (endingParams values state) store store _ checked
  dsimp only at whole
  have written : writtenStore now run ((endingParams values state).deleted.getD run.deleted)
      (updateClause mergeObjects (endingParams values state) none) store =
        endedStore now mergeObjects values state run store := by
    change writtenStore now run run.deleted _ store = _
    rw [writtenStore, if_neg (not_not.mpr rfl)]
    rfl
  have row : writtenRow now run ((endingParams values state).deleted.getD run.deleted)
      (updateClause mergeObjects (endingParams values state) none) =
        endedRow now mergeObjects values state run := rfl
  rw [whole, written, row, ended, if_pos terminal]
  cases ensured calls now (run.experimentId.bind store.findExperiment) (endedRow now mergeObjects values state run)
      (endedStore now mergeObjects values state run store) with
  | mk result observed =>
      cases result with
      | error failure => rfl
      | ok _ =>
          dsimp only
          cases observed.findTrainingRun _ <;> rfl

end Ending

/-! ### The stored runs -/

section Stored

variable {calls : CreateCalls} {now : Int} {experiment : Experiment} {project : Project} {request : NewRunRequest}
  {values : ReportedValues} {state : TrainingRunState} {created : CreatedFor} {params : TrainingRunRequestParams}
  {store : Store}

theorem nodup_valuesJson (distinct : (values.map Prod.fst).Nodup) : ((valuesJson values).map Prod.fst).Nodup := by
  rw [valuesJson, List.map_map]
  exact distinct

theorem finished_newData (distinct : (values.map Prod.fst).Nodup) :
    Finished values state (newData calls experiment created (request.ended values state)) := by
  have ended : Extends request (request.ended values state) := extends_ended values state
  have valuesSent : (request.ended values state).trainingRunDataJson.lookup "v" =
      some (.object (valuesJson values)) :=
    (lookup_setMember_of_ne _ (by decide)).trans (lookup_setMember_self _ _ _)
  have stateSent : (request.ended values state).trainingRunDataJson.lookup "s" =
      some (.number (stateNumber state)) := lookup_setMember_self _ _ _
  constructor
  · apply stateOf_of_lookup
    rw [lookup_newData (by decide) (by decide) (by decide), lookup_stripMembers ended.distinct, stateSent]
    simp [strippedMember, jsonbStripNulls]
  · intro name
    rw [valueNamed, membersOf_congr (lookup_newData (by decide) (by decide) (by decide)), ← valueNamed]
    exact valueNamed_stripMembers ended.distinct valuesSent (nodup_valuesJson distinct) (lookup_valuesJson values name)

theorem lookup_values_active (namesState : Bool) :
    (newData calls experiment created (request.active namesState)).lookup "v" = none := by
  have sent : (request.active namesState).trainingRunDataJson.lookup "v" = none := by
    cases namesState with
    | false => exact request.withoutValues
    | true => exact (lookup_setMember_of_ne _ (by decide)).trans request.withoutValues
  rw [lookup_newData (by decide) (by decide) (by decide), lookup_stripMembers (extends_active namesState).distinct, sent,
    Option.bind_none]

/-- The data of an active run after the update that ends it. -/
theorem finished_endedData (distinct : (values.map Prod.fst).Nodup) {mergeObjects : Bool}
    (printable : mergeObjects = true → ∀ member ∈ values, isPrintableKey member.1 = true) (namesState : Bool)
    (rendered : stripMembers (renderedFor calls experiment created) = renderedFor calls experiment created) :
    let data := createUpdateClause mergeObjects (finishingJson values state)
      (newData calls experiment created (request.active namesState))
    Finished values state data ∧
      membersOf data "a" = updatedAssignments request.assignments (renderedFor calls experiment created) := by
  dsimp only
  have dataDistinct : ((newData calls experiment created (request.active namesState)).map Prod.fst).Nodup :=
    nodup_newData (extends_active namesState) created
  obtain ⟨finished, elsewhere⟩ := finished_createUpdateClause distinct printable state dataDistinct
    (lookup_values_active namesState)
  refine ⟨finished, ?_⟩
  rw [elsewhere "a" (by decide) (by decide), assignments_newData (extends_active namesState)]
  exact strip_updatedAssignments request.assignmentsWithoutNulls rendered

theorem findTrainingRun_insertedStore (unused : store.findTrainingRun store.nextTrainingRunId = none) :
    (insertedStore calls now experiment project created params store).findTrainingRun store.nextTrainingRunId =
      some (newTrainingRun now experiment project.id created (newData calls experiment created params)
        store.nextTrainingRunId) := by
  change (store.trainingRuns ++ [_]).find? _ = _
  rw [List.find?_append]
  change (store.findTrainingRun store.nextTrainingRunId).or _ = _
  rw [unused, Option.none_or]
  exact List.find?_cons_of_pos (by exact decide_eq_true rfl)

theorem findProject_insertedStore
    (inProject : experiment.projectId.bind (fun id => store.findProject experiment.clientId id) = some project) :
    (insertedStore calls now experiment project created params store).findProject experiment.clientId project.id =
      some project := by
  change store.findProject experiment.clientId project.id = some project
  rw [Option.bind_eq_some_iff] at inProject
  obtain ⟨id, _, found⟩ := inProject
  have named := List.find?_some found
  rw [Bool.and_eq_true, decide_eq_true_eq, decide_eq_true_eq] at named
  rw [named.2]
  exact found

/-- The experiment is found again, with another time of its last update. -/
theorem findExperiment_insertedStore {experimentId : Nat}
    (found : store.findExperiment experimentId = some experiment) :
    ∃ later, (insertedStore calls now experiment project created params store).findExperiment experiment.id =
        some later ∧
      later.id = experiment.id ∧ later.allMetrics = experiment.allMetrics := by
  have isId : experiment.id = experimentId := by
    have named := List.find?_some found
    exact of_decide_eq_true named
  have updated : (insertedStore calls now experiment project created params store).findExperiment experiment.id =
      (store.findExperiment experiment.id).map fun other =>
        if other.id = experiment.id ∧ other.dateUpdated < now then { other with dateUpdated := now } else other :=
    Rows.find_update fun _ _ => rfl
  rw [updated, isId, found, Option.map_some]
  refine ⟨_, rfl, ?_⟩
  split
  · exact ⟨isId, rfl⟩
  · exact ⟨isId, rfl⟩

end Stored

/-! ### Both ways -/

/-- What a run that has ended leaves. -/
structure Outcome where
  state : TrainingRunState
  assignments : JsonObject
  values : String → Option TrainingRunValue
  observation : Option ObservationData

/-- The run refers to the only new observation, or it refers to none and there is no new one. -/
def Observed (before after : Store) (run : TrainingRun) : Option ObservationData → Prop
  | none => run.observationId = none ∧ after.observations = before.observations
  | some data => ∃ row, run.observationId = some row.id ∧ run.experimentId = some row.experimentId ∧
      row.observation.data = data ∧ after.observations = before.observations ++ [row]

/-- The next run is stored, and it is as the outcome says. -/
structure Leaves (before after : Store) (outcome : Outcome) (run : TrainingRun) : Prop where
  found : after.findTrainingRun before.nextTrainingRunId = some run
  state : stateOf run.trainingRunData = outcome.state
  assignments : membersOf run.trainingRunData "a" = outcome.assignments
  values : ∀ name, valueNamed run.trainingRunData name = outcome.values name
  observed : Observed before after run outcome.observation

/-- The store before, the requests, and their times. -/
structure Scenario where
  calls : CreateCalls
  store : Store
  experimentId : Nat
  request : NewRunRequest
  values : ReportedValues
  state : TrainingRunState
  namesState : Bool := false
  mergeObjects : Bool := false
  createdEndedAt : Int := 0
  createdAt : Int := 0
  endedAt : Int := 0

namespace Scenario

variable (scenario : Scenario)

/-- The run is created with its values and its state. -/
def createdEnded : Except RunError (TrainingRun × Project) × Store :=
  (createHandle scenario.calls scenario.createdEndedAt scenario.experimentId
    (scenario.request.ended scenario.values scenario.state)).run scenario.store

/-- The run is created active. -/
def createdActive : Except RunError (TrainingRun × Project) × Store :=
  (createHandle scenario.calls scenario.createdAt scenario.experimentId
    (scenario.request.active scenario.namesState)).run scenario.store

/-- The active run gets its values and its state. -/
def thenEnded : Except RunError (TrainingRun × Project) × Store :=
  (handle scenario.calls.toCalls scenario.endedAt scenario.store.nextTrainingRunId scenario.mergeObjects
    (endingParams scenario.values scenario.state)).run scenario.createdActive.2

/-- Both creations are refused alike and change nothing, or both ways leave the same outcome. -/
def FinishedAlike : Prop :=
  (∃ failure, scenario.createdEnded = (.error failure, scenario.store) ∧
    scenario.createdActive = (.error failure, scenario.store)) ∨
  ∃ outcome, outcome.state = scenario.state ∧
    (∃ run, Leaves scenario.store scenario.createdEnded.2 outcome run) ∧
    ∃ run, Leaves scenario.store scenario.thenEnded.2 outcome run

/-- The state is a terminal one, the values are those of a dictionary, the id of the next run is unused, the client of
    an experiment is not deleted, and the metrics are named as the creation of an experiment demands it. The names of
    values that are merged are printable. -/
structure Sound : Prop where
  terminal : isCompletedState scenario.state = true
  distinct : (scenario.values.map Prod.fst).Nodup
  printable : scenario.mergeObjects = true → ∀ member ∈ scenario.values, isPrintableKey member.1 = true
  clients : ∀ experiment ∈ scenario.store.experiments, experiment.clientId ∈ scenario.store.clients
  unused : scenario.store.findTrainingRun scenario.store.nextTrainingRunId = none
  metricsNamed : ∀ experiment ∈ scenario.store.experiments, ¬NamesRefused experiment.allMetrics.allMetrics

variable {scenario}

variable {experiment : Experiment} {project : Project}

/-- The outcome, from the assignments of the suggestion or the observation. -/
def outcome (scenario : Scenario) (experiment : Experiment) (assignmentsMap : Option (List (String × ℚ)))
    (observation : Option ObservationData) : Outcome where
  state := scenario.state
  assignments := updatedAssignments scenario.request.assignments
    ((assignmentsMap.map (scenario.calls.assignmentsJson experiment)).getD [])
  values := fun name => (scenario.values.lookup name).map ReportedValue.stored
  observation := observation

/-- The run that is created ended. -/
theorem leaves_createdEnded (sound : scenario.Sound)
    (admitted : Admitted scenario.experimentId (scenario.request.ended scenario.values scenario.state) scenario.store
      experiment project) {created : CreatedFor} {observation : Option ObservationData} {after : Store}
    (made : (maybeCreateSuggestionAndObservation scenario.calls scenario.createdEndedAt experiment
      (scenario.request.ended scenario.values scenario.state)).run scenario.store = (.ok created, after))
    (sameRuns : after.trainingRuns = scenario.store.trainingRuns)
    (sameNext : after.nextTrainingRunId = scenario.store.nextTrainingRunId)
    (observed : ∀ run : TrainingRun, run.observationId = created.observationId → run.experimentId = some experiment.id →
      Observed scenario.store after run observation) :
    ∃ run, Leaves scenario.store scenario.createdEnded.2 (scenario.outcome experiment created.assignmentsMap observation)
      run := by
  have ended : Extends scenario.request (scenario.request.ended scenario.values scenario.state) := extends_ended _ _
  have unused : after.findTrainingRun after.nextTrainingRunId = none := by
    rw [Store.findTrainingRun, sameRuns, sameNext]
    exact sound.unused
  have finished : Finished scenario.values scenario.state
      (newData scenario.calls experiment created (scenario.request.ended scenario.values scenario.state)) :=
    finished_newData sound.distinct
  have isStore := run_createHandle admitted made (validateAssignmentsMeta_unmarkedData ended created admitted.checked)
  refine ⟨newTrainingRun scenario.createdEndedAt experiment project.id created
    (newData scenario.calls experiment created (scenario.request.ended scenario.values scenario.state))
    after.nextTrainingRunId, ?_, finished.state, assignments_newData ended created, finished.values, ?_⟩
  · rw [createdEnded, isStore, ← sameNext]
    exact findTrainingRun_insertedStore unused
  · rw [createdEnded, isStore]
    exact observed _ rfl rfl

/-- The active run that is created, with the store it is in. -/
def activeRun (scenario : Scenario) (experiment : Experiment) (project : Project) (created : CreatedFor) :
    TrainingRun :=
  newTrainingRun scenario.createdAt experiment project.id created
    (newData scenario.calls experiment created (scenario.request.active scenario.namesState))
    scenario.store.nextTrainingRunId

/-- The run that is created active and then ended, before its observation. -/
def activeRunEnded (scenario : Scenario) (experiment : Experiment) (project : Project) (created : CreatedFor) :
    TrainingRun :=
  endedRow scenario.endedAt scenario.mergeObjects scenario.values scenario.state
    (scenario.activeRun experiment project created)

def storeWithActiveRun (scenario : Scenario) (experiment : Experiment) (project : Project) (created : CreatedFor)
    (after : Store) : Store :=
  insertedStore scenario.calls scenario.createdAt experiment project created
    (scenario.request.active scenario.namesState) after

theorem thenEnded_eq (sound : scenario.Sound)
    (admitted : Admitted scenario.experimentId (scenario.request.active scenario.namesState) scenario.store
      experiment project) {created : CreatedFor} {after : Store}
    (made : (maybeCreateSuggestionAndObservation scenario.calls scenario.createdAt experiment
      (scenario.request.active scenario.namesState)).run scenario.store = (.ok created, after))
    (sameRuns : after.trainingRuns = scenario.store.trainingRuns)
    (sameNext : after.nextTrainingRunId = scenario.store.nextTrainingRunId)
    (sameProjects : after.projects = scenario.store.projects)
    (sameClients : after.clients = scenario.store.clients)
    (rendered : stripMembers (renderedFor scenario.calls experiment created) =
      renderedFor scenario.calls experiment created) :
    scenario.thenEnded.2 =
      (ensured scenario.calls.toCalls scenario.endedAt
        ((scenario.storeWithActiveRun experiment project created after).findExperiment experiment.id)
        (scenario.activeRunEnded experiment project created)
        (endedStore scenario.endedAt scenario.mergeObjects scenario.values scenario.state
          (scenario.activeRun experiment project created)
          (scenario.storeWithActiveRun experiment project created after))).2 := by
  have active : Extends scenario.request (scenario.request.active scenario.namesState) := extends_active _
  have unused : after.findTrainingRun after.nextTrainingRunId = none := by
    rw [Store.findTrainingRun, sameRuns, sameNext]
    exact sound.unused
  have isStore := run_createHandle admitted made (validateAssignmentsMeta_unmarkedData active created admitted.checked)
  have inProject : experiment.projectId.bind (fun id => after.findProject experiment.clientId id) = some project := by
    simp only [Store.findProject, sameProjects]
    exact admitted.inProject
  have ofClient : experiment.clientId ∈ after.clients := by
    rw [sameClients]
    exact sound.clients experiment (List.mem_of_find?_eq_some admitted.found)
  have found : (scenario.storeWithActiveRun experiment project created after).findTrainingRun
      (scenario.activeRun experiment project created).id = some (scenario.activeRun experiment project created) := by
    change (insertedStore _ _ _ _ _ _ after).findTrainingRun scenario.store.nextTrainingRunId = _
    rw [activeRun, ← sameNext]
    exact findTrainingRun_insertedStore unused
  have ended := (@finished_endedData scenario.calls experiment scenario.request scenario.values scenario.state created
    sound.distinct scenario.mergeObjects sound.printable scenario.namesState rendered).1.state
  rw [thenEnded, createdActive, isStore]
  exact run_handle_ending sound.terminal found (findProject_insertedStore inProject) ofClient ended

/-- The row of the active run after the update, whatever is done to the observations. -/
theorem found_ended (sound : scenario.Sound) (created : CreatedFor) {after : Store}
    (sameRuns : after.trainingRuns = scenario.store.trainingRuns)
    (sameNext : after.nextTrainingRunId = scenario.store.nextTrainingRunId) :
    (endedStore scenario.endedAt scenario.mergeObjects scenario.values scenario.state
      (scenario.activeRun experiment project created)
      (scenario.storeWithActiveRun experiment project created after)).findTrainingRun
        scenario.store.nextTrainingRunId = some (scenario.activeRunEnded experiment project created) := by
  have unused : after.findTrainingRun after.nextTrainingRunId = none := by
    rw [Store.findTrainingRun, sameRuns, sameNext]
    exact sound.unused
  have found : (scenario.storeWithActiveRun experiment project created after).findTrainingRun
      scenario.store.nextTrainingRunId = some (scenario.activeRun experiment project created) := by
    rw [activeRun, ← sameNext]
    exact findTrainingRun_insertedStore unused
  exact findTrainingRun_updateTrainingRun_self (apply_id _ _) found

/-- Without a suggestion there is no observation. -/
theorem leaves_thenEnded_of_refused (broker : ExplicitBroker scenario.calls) (sound : scenario.Sound)
    (admitted : Admitted scenario.experimentId (scenario.request.active scenario.namesState) scenario.store
      experiment project)
    (someAssignments : relevantAssignments experiment scenario.request.params ≠ [])
    (refused : acceptedAssignments scenario.calls.toCalls experiment
      (relevantAssignments experiment scenario.request.params) = none) :
    ∃ run, Leaves scenario.store scenario.thenEnded.2 (scenario.outcome experiment none none) run := by
  have rendered : stripMembers (renderedFor scenario.calls experiment {}) =
      renderedFor scenario.calls experiment {} := by
    simp [renderedFor, stripMembers]
  have isStore := thenEnded_eq sound admitted
    (run_active_of_refused broker scenario.namesState someAssignments refused) rfl rfl rfl rfl rendered
  have notDue : ensured scenario.calls.toCalls scenario.endedAt
      ((scenario.storeWithActiveRun experiment project {} scenario.store).findExperiment experiment.id)
      (scenario.activeRunEnded experiment project {})
      (endedStore scenario.endedAt scenario.mergeObjects scenario.values scenario.state
        (scenario.activeRun experiment project {}) (scenario.storeWithActiveRun experiment project {} scenario.store)) =
      (.ok (), endedStore scenario.endedAt scenario.mergeObjects scenario.values scenario.state
        (scenario.activeRun experiment project {})
        (scenario.storeWithActiveRun experiment project {} scenario.store)) := by
    have nothingDue : ∀ experiment' store, dueSuggestion experiment' (scenario.activeRunEnded experiment project {})
        store = none := by
      intro experiment' store
      cases experiment' <;> rfl
    rw [ensured, nothingDue]
  obtain ⟨finished, assignments⟩ := @finished_endedData scenario.calls experiment scenario.request scenario.values
    scenario.state {} sound.distinct scenario.mergeObjects sound.printable scenario.namesState rendered
  rw [isStore, notDue]
  exact ⟨_, found_ended sound {} rfl rfl, finished.state, assignments, finished.values, rfl, rfl⟩

/-- With a suggestion the observation has its assignments. -/
theorem leaves_thenEnded_of_accepted (broker : ExplicitBroker scenario.calls) (sound : scenario.Sound)
    (admitted : Admitted scenario.experimentId (scenario.request.active scenario.namesState) scenario.store
      experiment project)
    (someAssignments : relevantAssignments experiment scenario.request.params ≠ [])
    {assignmentsMap : List (String × ℚ)} {observationData : ObservationData}
    (accepted : acceptedAssignments scenario.calls.toCalls experiment
      (relevantAssignments experiment scenario.request.params) = some assignmentsMap)
    (reported :
      let reports := reportsOf scenario.calls.toCalls experiment.allMetrics.allMetrics
        (scenario.request.ended scenario.values scenario.state).trainingRunDataJson
      createObservationData {} (some (reports.getD [])) experiment.allMetrics (some reports.isNone) =
        .ok observationData) :
    ∃ run, Leaves scenario.store scenario.thenEnded.2
      (scenario.outcome experiment (some assignmentsMap)
        (some { observationData with assignmentsMap := assignmentsMap })) run := by
  let suggestion := explicitRow experiment (broker.nextSuggestionId scenario.store) assignmentsMap
  let created : CreatedFor := { suggestion := some suggestion, assignmentsMap := some assignmentsMap }
  let after := scenario.store.insertProcessedSuggestion suggestion
  obtain ⟨oneTask, read⟩ := acceptedAssignments_eq_some.mp accepted
  have rendered : stripMembers (renderedFor scenario.calls experiment created) =
      renderedFor scenario.calls experiment created := broker.rendered _ _ _ read
  let ended := endedStore scenario.endedAt scenario.mergeObjects scenario.values scenario.state
    (scenario.activeRun experiment project created) (scenario.storeWithActiveRun experiment project created after)
  have isStore : scenario.thenEnded.2 = (ensured scenario.calls.toCalls scenario.endedAt
      ((scenario.storeWithActiveRun experiment project created after).findExperiment experiment.id)
      (scenario.activeRunEnded experiment project created) ended).2 :=
    thenEnded_eq sound admitted
      (run_active_of_accepted broker scenario.namesState someAssignments accepted) rfl rfl rfl rfl rendered
  obtain ⟨finished, assignments⟩ := @finished_endedData scenario.calls experiment scenario.request scenario.values
    scenario.state created sound.distinct scenario.mergeObjects sound.printable scenario.namesState rendered
  have foundIn : after.findExperiment scenario.experimentId = some experiment := admitted.found
  obtain ⟨later, laterFound, sameId, sameMetrics⟩ : ∃ later,
      (scenario.storeWithActiveRun experiment project created after).findExperiment experiment.id = some later ∧
        later.id = experiment.id ∧ later.allMetrics = experiment.allMetrics := findExperiment_insertedStore foundIn
  have suggestionFound : ended.findSuggestion suggestion.suggestionId = some suggestion := by
    change (scenario.store.processedSuggestions ++ [suggestion]).find? _ = some suggestion
    have unprocessed : scenario.store.processedSuggestions.find? (fun other =>
        decide (other.suggestionId = suggestion.suggestionId) && !other.deleted) = none := by
      rw [List.find?_eq_none]
      intro other member isSuggestion
      rw [Bool.and_eq_true, decide_eq_true_eq] at isSuggestion
      have fresh := broker.fresh scenario.store
      rw [isProcessed, List.any_eq_false] at fresh
      exact fresh other member (decide_eq_true isSuggestion.1)
    rw [List.find?_append, unprocessed, Option.none_or]
    exact List.find?_cons_of_pos (by simp [suggestion, explicitRow, processedRow])
  have due : dueSuggestion (some later) (scenario.activeRunEnded experiment project created) ended =
      some (later, suggestion.suggestionId) :=
    dueSuggestion_iff.mpr ⟨rfl, rfl, suggestion, suggestionFound, rfl⟩
  have observation : observationOfRun scenario.calls.toCalls later
      (scenario.activeRunEnded experiment project created).trainingRunData suggestion.suggestionId ended =
        .ok {
          processedSuggestionId := some suggestion.suggestionId
          data := { observationData with assignmentsMap := assignmentsMap } } := by
    apply observationOfRun_of_suggestion finished suggestionFound sameId.symm
    · rw [sameMetrics]
      exact oneTask
    · have sentFinished : Finished scenario.values scenario.state
          (scenario.request.ended scenario.values scenario.state).trainingRunDataJson := finished_ended _ _
      rw [sameMetrics, reportsOf_congr finished sentFinished]
      exact reported
  have observed : ensured scenario.calls.toCalls scenario.endedAt (some later)
      (scenario.activeRunEnded experiment project created) ended =
        (.ok (), observedStore scenario.endedAt later scenario.store.nextTrainingRunId
          { processedSuggestionId := some suggestion.suggestionId
            data := { observationData with assignmentsMap := assignmentsMap } } ended) := by
    rw [ensured, due]
    dsimp only
    rw [observation]
    rfl
  have isFound := @found_ended scenario experiment project sound created after rfl rfl
  rw [isStore, laterFound, observed]
  refine ⟨{ scenario.activeRunEnded experiment project created with
    observationId := some scenario.store.nextObservationId }, ?_, finished.state, assignments, finished.values, ?_⟩
  · exact findTrainingRun_updateTrainingRun_self (fun _ => rfl) isFound
  · exact ⟨_, rfl, congrArg some sameId.symm, rfl, rfl⟩

/-- A run that is created finished is like one that is created active and then finished, as long as the
    assignments name a parameter of the experiment: both have the same state, assignments and values, and there is
    no observation or one with the same data. -/
theorem finished_alike (scenario : Scenario) (broker : ExplicitBroker scenario.calls) (sound : scenario.Sound)
    (someRelevant : ∀ experiment, scenario.store.findExperiment scenario.experimentId = some experiment →
      relevantAssignments experiment scenario.request.params ≠ []) : scenario.FinishedAlike := by
  have sameCheck : checkCreateRequest (scenario.request.ended scenario.values scenario.state) =
      checkCreateRequest (scenario.request.active scenario.namesState) :=
    (extends_ended _ _).checkCreateRequest_eq (extends_active _)
  by_cases admission : ∃ experiment project, Admitted scenario.experimentId
      (scenario.request.ended scenario.values scenario.state) scenario.store experiment project
  · right
    obtain ⟨experiment, project, admitted⟩ := admission
    have activeAdmitted : Admitted scenario.experimentId (scenario.request.active scenario.namesState) scenario.store
        experiment project := { admitted with checked := sameCheck ▸ admitted.checked }
    have someAssignments := someRelevant experiment admitted.found
    have named := sound.metricsNamed experiment (List.mem_of_find?_eq_some admitted.found)
    obtain ⟨observationData, reportedNull, reported⟩ := createObservationData_reports scenario.calls.toCalls
      (scenario.request.ended scenario.values scenario.state).trainingRunDataJson named
    cases accepted : acceptedAssignments scenario.calls.toCalls experiment
        (relevantAssignments experiment scenario.request.params) with
    | none =>
        refine ⟨scenario.outcome experiment none none, rfl, ?_,
          leaves_thenEnded_of_refused broker sound activeAdmitted someAssignments accepted⟩
        exact leaves_createdEnded sound admitted
          (run_ended_of_refused sound.terminal someAssignments accepted reportedNull) rfl rfl
          fun _ unobserved _ => ⟨unobserved, rfl⟩
    | some assignmentsMap =>
        refine ⟨_, rfl, ?_, leaves_thenEnded_of_accepted broker sound activeAdmitted someAssignments accepted reported⟩
        exact leaves_createdEnded sound admitted
          (run_ended_of_accepted sound.terminal someAssignments accepted reportedNull) rfl rfl
          fun _ isObserved ofExperiment => ⟨_, isObserved, ofExperiment, rfl, rfl⟩
  · exact .inl (run_createHandle_of_refused sameCheck admission)

/-! ### One experiment with the parameter `x` -/

/-- `x` has to be given, and it is a number. -/
def readX (assignments : JsonObject) : Except ValidationError (List (String × ℚ)) := do
  let value ← getWithValidation assignments "x" .number
  pure [("x", value)]

def nextIdAfter (suggestions : List ProcessedSuggestion) : Nat :=
  suggestions.foldr (fun suggestion next => max (suggestion.suggestionId + 1) next) 1

theorem lt_nextIdAfter {suggestions : List ProcessedSuggestion} {suggestion : ProcessedSuggestion}
    (member : suggestion ∈ suggestions) : suggestion.suggestionId < nextIdAfter suggestions := by
  induction suggestions with
  | nil => cases member
  | cons first rest inductionHypothesis =>
      rw [nextIdAfter, List.foldr_cons, ← nextIdAfter]
      rcases List.mem_cons.mp member with rfl | later
      · exact Nat.lt_of_lt_of_le (Nat.lt_succ_self _) (Nat.le_max_left _ _)
      · exact Nat.lt_of_lt_of_le (inductionHypothesis later) (Nat.le_max_right _ _)

theorem isProcessed_nextIdAfter (store : Store) :
    isProcessed store (nextIdAfter store.processedSuggestions) = false := by
  rw [isProcessed, List.any_eq_false]
  intro suggestion member isNext
  exact absurd (of_decide_eq_true isNext) (lt_nextIdAfter member).ne

def xCalls : Calls where
  sqrt := fun value => if value = 1 then 1 else 0
  sqrt_nonneg := by
    intro value
    split <;> decide
  assignmentsFromJson := fun _ => readX
  validateClientProvidedData := fun _ => .ok ()
  canActOnProject := fun _ => true

def xCreateCalls : CreateCalls :=
  { xCalls with
    assignmentsJson := fun _ assignmentsMap => assignmentsMap.map fun assignment => (assignment.1, .number assignment.2)
    nextSuggestion := fun _ store => .ok { id := nextIdAfter store.processedSuggestions, assignmentsMap := [("x", 1)] }
    explicitSuggestion := fun experiment assignments store =>
      explicitSuggestion xCalls experiment assignments (nextIdAfter store.processedSuggestions) }

def xBroker : ExplicitBroker xCreateCalls where
  nextSuggestionId := fun store => nextIdAfter store.processedSuggestions
  fresh := isProcessed_nextIdAfter
  explicit := fun _ _ _ => rfl
  rendered := by
    intro experiment json assignmentsMap _
    rw [stripMembers_eq_self_iff]
    intro member isMember
    obtain ⟨assignment, _, rfl⟩ := List.mem_map.mp isMember
    exact ⟨Json.noConfusion, rfl⟩

def xStore : Store where
  clients := [1]
  experiments := [{
    id := 1, clientId := 1, projectId := some 1, dateUpdated := 0, parameterNames := ["x"]
    allMetrics := { metrics := [{ name := "accuracy" }] } }]
  projects := [{ id := 1, clientId := 1, referenceId := "project" }]

/-- A run with one assignment, of this name. -/
def requestWith (name : String) : NewRunRequest where
  params := { trainingRunDataJson := [("a", .object [(name, .number 2)]), ("n", .string "run")] }
  distinct := by simp
  withoutState := rfl
  withoutValues := rfl
  assignmentsWithoutNulls := by
    change stripMembers [(name, Json.number 2)] = [(name, Json.number 2)]
    simp [stripMembers, jsonbStripNulls]
  metaWithoutNulls := by
    change stripMembers [] = []
    simp [stripMembers]

def completedWith (name : String) : Scenario where
  calls := xCreateCalls
  store := xStore
  experimentId := 1
  request := requestWith name
  values := [("accuracy", { value := 9, valueStddev := some 1 })]
  state := .completed
  mergeObjects := true

theorem sound_completedWith (name : String) : (completedWith name).Sound where
  terminal := rfl
  distinct := List.nodup_singleton _
  printable := by
    intro _ member isValue
    rw [List.mem_singleton.mp isValue]
    decide
  clients := by
    intro experiment member
    rw [List.mem_singleton.mp member]
    exact List.mem_singleton_self 1
  unused := rfl
  metricsNamed := by
    intro experiment member
    rw [List.mem_singleton.mp member]
    unfold NamesRefused
    decide

/-- Both ways leave one observation with the assignment. -/
theorem finished_alike_x :
    (completedWith "x").FinishedAlike ∧
      (completedWith "x").createdEnded.2.observations.map (fun row => row.observation.data.assignmentsMap) =
        [[("x", 2)]] := by
  constructor
  · apply finished_alike (completedWith "x") xBroker (sound_completedWith "x")
    intro experiment found
    cases found
    decide
  · decide +kernel

/-- An assignment of no parameter: the run that is created completed gets no observation, while the active one is
    served the next suggestion, and so it gets one. -/
theorem finished_differently :
    (completedWith "batch_size").request.assignments ≠ [] ∧ (completedWith "batch_size").Sound ∧
      ¬(completedWith "batch_size").FinishedAlike := by
  have createdWithout : (completedWith "batch_size").createdEnded.2.observations.length = 0 := by decide +kernel
  have created : (completedWith "batch_size").createdEnded.1.isOk = true := by decide +kernel
  have endedWith : (completedWith "batch_size").thenEnded.2.observations.length = 1 := by decide +kernel
  refine ⟨List.cons_ne_nil _ _, sound_completedWith _, ?_⟩
  rintro (⟨failure, refused, _⟩ | ⟨outcome, _, ⟨run, direct⟩, ⟨later, ended⟩⟩)
  · rw [refused] at created
    cases created
  · have observedDirectly := direct.observed
    have observedLater := ended.observed
    cases observation : outcome.observation with
    | none =>
        rw [observation] at observedLater
        rw [observedLater.2] at endedWith
        cases endedWith
    | some data =>
        rw [observation] at observedDirectly
        obtain ⟨row, _, _, _, inserted⟩ := observedDirectly
        rw [inserted, List.length_append] at createdWithout
        cases createdWithout

end Scenario

end Zigopt.TrainingRuns
