/-
Module: Zigopt.TrainingRuns.Rejection
Layer: Proofs
Purpose: What a rejected update leaves behind. The checks before the first write change nothing, so an update
  that is rejected leaves a change exactly if it passes them, changes the row of its run, and is rejected by
  the creation of the observation that is due then.
Main exports: Accepts, run_checkRequest_iff, MidwayFailure, rejected_unchanged_iff
-/
import Zigopt.TrainingRuns.Alone
import Zigopt.TrainingRuns.Reported

namespace Zigopt.TrainingRuns

open Raising Observations

section Checks

variable {calls : Calls} {store : Store}

/-- The project that a request moves a run to, if the request can: there may be none that it names. -/
def newProjectOf (calls : Calls) (store : Store) (run : TrainingRun) : Option String → Option (Option Project)
  | none => some none
  | some "" => some none
  | some referenceId =>
      match store.findProjectByReferenceId run.clientId referenceId with
      | some project => if calls.canActOnProject project then some (some project) else none
      | none => none

theorem run_findNewProject_iff {run : TrainingRun} {referenceId : Option String} {newProject : Option Project} :
    (findNewProject calls run referenceId).run store = (.ok newProject, store) ↔
      newProjectOf calls store run referenceId = some newProject := by
  unfold findNewProject
  split
  · simp [newProjectOf]
  · simp [newProjectOf]
  · rename_i referenceId notEmpty
    rw [newProjectOf, Process.run_bind_ok (Process.run_read _ _ store)]
    · cases store.findProjectByReferenceId run.clientId referenceId with
      | none => simp
      | some project =>
          dsimp only
          split <;> simp
    · exact notEmpty

theorem run_findProject_iff {run : TrainingRun} {project : Project} :
    (findProject run).run store = (.ok project, store) ↔
      store.findProject run.clientId run.projectId = some project := by
  rw [findProject, Process.run_bind_ok (Process.run_read _ _ store)]
  cases store.findProject run.clientId run.projectId with
  | none => simp
  | some found => simp

theorem run_ofExcept_iff {result : Except RunError α} {value : α} :
    (Process.ofExcept result : RunProcess α).run store = (.ok value, store) ↔ result = .ok value := by
  cases result with
  | ok other => simp [Process.ofExcept]
  | error failure => simp [Process.ofExcept]

/-- The request passes the checks that come before the first write, which find what is `checked`. -/
structure Accepts (calls : Calls) (trainingRunId : Nat) (params : TrainingRunRequestParams) (store : Store)
    (checked : Checked) : Prop where
  run : store.findTrainingRun trainingRunId = some checked.run
  project : store.findProject checked.run.clientId checked.run.projectId = some checked.project
  client : checked.run.clientId ∈ store.clients
  fields : ensureFieldsCannotBeRemoved params = .ok ()
  experiment : checked.run.experimentId.bind store.findExperiment = checked.experiment
  assignmentsMeta : validateAssignmentsMeta (membersOf params.trainingRunDataJson "a")
    (membersOf params.trainingRunDataJson "am") (some checked.run) = .ok ()
  newProject : newProjectOf calls store checked.run params.project = some checked.newProject

/-- The checks of a request succeed exactly where the request is acceptable, and change nothing. -/
theorem run_checkRequest_iff {trainingRunId : Nat} {params : TrainingRunRequestParams} {checked : Checked} :
    (checkRequest calls trainingRunId params).run store = (.ok checked, store) ↔
      Accepts calls trainingRunId params store checked := by
  constructor
  · intro done
    rcases run_silent_bind (silent_findTrainingRun _ _) done with ⟨run, runFound, done⟩
    rcases run_silent_bind (silent_findProject _) done with ⟨project, projectFound, done⟩
    rcases run_silent_bind (silent_findClient _) done with ⟨_, clientFound, done⟩
    rcases run_silent_bind (Process.silent_ofExcept _) done with ⟨_, fields, done⟩
    rcases run_silent_bind (silent_findExperiment _) done with ⟨experiment, experimentFound, done⟩
    rcases run_silent_bind (Process.silent_ofExcept _) done with ⟨_, assignmentsMeta, done⟩
    rcases run_silent_bind (silent_findNewProject _ _) done with ⟨newProject, newProjectFound, done⟩
    cases done
    rw [run_findExperiment] at experimentFound
    exact {
      run := run_findTrainingRun_ok runFound
      project := run_findProject_iff.mp projectFound
      client := run_findClient_iff.mp clientFound
      fields := check_eq_ok.mp (run_ofExcept_iff.mp fields)
      experiment := Except.ok.inj (congrArg Prod.fst experimentFound)
      assignmentsMeta := check_eq_ok.mp (run_ofExcept_iff.mp assignmentsMeta)
      newProject := run_findNewProject_iff.mp newProjectFound }
  · intro accepted
    have experimentFound := run_findExperiment checked.run.experimentId store
    rw [accepted.experiment] at experimentFound
    rw [checkRequest, Process.run_bind_ok (run_findTrainingRun _ accepted.run),
      Process.run_bind_ok (run_findProject_iff.mpr accepted.project),
      Process.run_bind_ok (run_findClient_iff.mpr accepted.client),
      Process.run_bind_ok (run_ofExcept_iff.mpr (check_eq_ok.mpr accepted.fields)),
      Process.run_bind_ok experimentFound,
      Process.run_bind_ok (run_ofExcept_iff.mpr (check_eq_ok.mpr accepted.assignmentsMeta)),
      Process.run_bind_ok (run_findNewProject_iff.mpr accepted.newProject)]
    rfl

end Checks

/-! ### What a rejection leaves -/

section Rejection

variable {calls : Calls} {now : Int}

/-- The row of the run, its suggestion and its observation are as they were, and there is no new
    observation. -/
structure SameRun (trainingRunId : Nat) (before after : Store) : Prop where
  trainingRun : after.findTrainingRun trainingRunId = before.findTrainingRun trainingRunId
  suggestion : ∀ run, before.findTrainingRun trainingRunId = some run → ∀ suggestionId,
    run.suggestionId = some suggestionId →
    (after.processedSuggestions.find? fun suggestion => suggestion.suggestionId = suggestionId) =
      before.processedSuggestions.find? fun suggestion => suggestion.suggestionId = suggestionId
  observation : ∀ run, before.findTrainingRun trainingRunId = some run → ∀ observationId,
    run.observationId = some observationId →
    after.findObservation observationId = before.findObservation observationId
  observationIds : after.observations.map ObservationRow.id = before.observations.map ObservationRow.id

theorem SameRun.refl (trainingRunId : Nat) (store : Store) : SameRun trainingRunId store store where
  trainingRun := rfl
  suggestion _ _ _ _ := rfl
  observation _ _ _ _ := rfl
  observationIds := rfl

/-- If the update of a run is rejected, it changes nothing. -/
def UnchangedIfRejected (calls : Calls) (now : Int) (trainingRunId : Nat) (mergeObjects : Bool)
    (params : TrainingRunRequestParams) (store : Store) : Prop :=
  ∀ failure after, (handle calls now trainingRunId mergeObjects params).run store = (.error failure, after) →
    SameRun trainingRunId store after

/-- The row that the request writes for its run. -/
def updatedRow (now : Int) (mergeObjects : Bool) (params : TrainingRunRequestParams) (checked : Checked) :
    TrainingRun :=
  writtenRow now checked.run (params.deleted.getD checked.run.deleted)
    (updateClause mergeObjects params checked.newProject)

/-- Whether a suggestion of the run is deleted when its observation is due. -/
def suggestionDeletedAfter (experiment : Experiment) (run : TrainingRun) (deleted : Bool)
    (suggestion : ProcessedSuggestion) : Bool :=
  if deleted ≠ run.deleted ∧ suggestion.experimentId = experiment.id then deleted else suggestion.deleted

/-- The run is completed or has failed, lacks the observation of its live, automatic suggestion, and the
    creation of that observation is refused. -/
structure ObservationRefused (now : Int) (mergeObjects : Bool) (params : TrainingRunRequestParams)
    (store : Store) (checked : Checked) (experiment : Experiment) (suggestion : ProcessedSuggestion) : Prop where
  completed : isCompletedState (stateOf (updatedRow now mergeObjects params checked).trainingRunData) = true
  ofExperiment : checked.experiment = some experiment
  unobserved : checked.run.observationId = none
  suggested : checked.run.suggestionId = some suggestion.suggestionId
  stored : suggestion ∈ store.processedSuggestions
  automatic : suggestion.automatic = true
  live : suggestionDeletedAfter experiment checked.run (params.deleted.getD checked.run.deleted) suggestion = false
  refused : RefusesObservation experiment (updatedRow now mergeObjects params checked).trainingRunData suggestion

/-- The request passes the checks and changes the row of the run, whose observation is then refused. -/
structure MidwayFailure (calls : Calls) (now : Int) (trainingRunId : Nat) (mergeObjects : Bool)
    (params : TrainingRunRequestParams) (store : Store) (checked : Checked) (experiment : Experiment)
    (suggestion : ProcessedSuggestion) : Prop where
  accepted : Accepts calls trainingRunId params store checked
  changed : updatedRow now mergeObjects params checked ≠ checked.run
  observationRefused : ObservationRefused now mergeObjects params store checked experiment suggestion

/-! ### The suggestion after the cascade -/

theorem processedSuggestions_cascadedStore {store : Store} {run : TrainingRun} {experiment : Experiment}
    {deleted : Bool} {suggestionId : Nat}
    (experimentFound : run.experimentId.bind store.findExperiment = some experiment)
    (suggested : run.suggestionId = some suggestionId) :
    (cascadedStore now run deleted store).processedSuggestions =
      (store.setSuggestionDeleted experiment.id suggestionId deleted).processedSuggestions := by
  rw [cascadedStore_processedSuggestions experimentFound, suggested]
  rfl

theorem processedSuggestions_writtenStore {store : Store} {run : TrainingRun} {deleted : Bool}
    {clause : UpdateClause} :
    (writtenStore now run deleted clause store).processedSuggestions =
      if deleted ≠ run.deleted then (cascadedStore now run deleted store).processedSuggestions
      else store.processedSuggestions := by
  rw [writtenStore]
  split <;> split <;> rfl

theorem keyed_setSuggestionDeleted {store : Store} {experimentId suggestionId : Nat} {deleted : Bool} :
    Rows.Keyed ProcessedSuggestion.suggestionId
        (store.setSuggestionDeleted experimentId suggestionId deleted).processedSuggestions ↔
      Rows.Keyed ProcessedSuggestion.suggestionId store.processedSuggestions :=
  Rows.keyed_update fun _ _ _ => rfl

theorem findSuggestion_iff {store : Store}
    (keyed : Rows.Keyed ProcessedSuggestion.suggestionId store.processedSuggestions) {suggestionId : Nat}
    {found : ProcessedSuggestion} :
    store.findSuggestion suggestionId = some found ↔
      found ∈ store.processedSuggestions ∧ found.suggestionId = suggestionId ∧ found.deleted = false := by
  rw [Store.findSuggestion, Rows.find_iff keyed, Bool.not_eq_true']

/-- The query for the suggestion of a run, after the writes of an update, in terms of the rows before. -/
theorem findSuggestion_writtenStore_iff (now : Int) (clause : UpdateClause) {store : Store} {run : TrainingRun}
    {experiment : Experiment} {deleted : Bool} {suggestionId : Nat} {found : ProcessedSuggestion}
    (keyed : Rows.Keyed ProcessedSuggestion.suggestionId store.processedSuggestions)
    (experimentFound : run.experimentId.bind store.findExperiment = some experiment)
    (suggested : run.suggestionId = some suggestionId) :
    (writtenStore now run deleted clause store).findSuggestion suggestionId = some found ↔
      ∃ suggestion ∈ store.processedSuggestions, suggestion.suggestionId = suggestionId ∧
        suggestionDeletedAfter experiment run deleted suggestion = false ∧
        { suggestion with deleted := false } = found := by
  by_cases changes : deleted ≠ run.deleted
  · have sameRows : (writtenStore now run deleted clause store).processedSuggestions =
        (store.setSuggestionDeleted experiment.id suggestionId deleted).processedSuggestions := by
      rw [processedSuggestions_writtenStore, if_pos changes,
        processedSuggestions_cascadedStore experimentFound suggested]
    have keyedAfter : Rows.Keyed ProcessedSuggestion.suggestionId
        (writtenStore now run deleted clause store).processedSuggestions := by
      rw [sameRows]
      exact keyed_setSuggestionDeleted.mpr keyed
    rw [findSuggestion_iff keyedAfter, sameRows, Store.setSuggestionDeleted, Rows.mem_update]
    constructor
    · rintro ⟨⟨suggestion, member, rfl⟩, isId, live⟩
      refine ⟨suggestion, member, ?_⟩
      by_cases ofExperiment : suggestion.experimentId = experiment.id
      · by_cases same : suggestion.suggestionId = suggestionId
        · rw [if_pos ⟨ofExperiment, same⟩] at live ⊢
          dsimp only at live
          rw [suggestionDeletedAfter, if_pos ⟨changes, ofExperiment⟩, live]
          exact ⟨same, rfl, rfl⟩
        · rw [if_neg fun both => same both.2] at isId
          exact absurd isId same
      · rw [if_neg fun both => ofExperiment both.1] at isId live ⊢
        rw [suggestionDeletedAfter, if_neg fun both => ofExperiment both.2]
        exact ⟨isId, live, by rw [← live]⟩
    · rintro ⟨suggestion, member, isId, live, rfl⟩
      refine ⟨⟨suggestion, member, ?_⟩, isId, rfl⟩
      rw [suggestionDeletedAfter] at live
      by_cases ofExperiment : suggestion.experimentId = experiment.id
      · rw [if_pos ⟨changes, ofExperiment⟩] at live
        rw [if_pos ⟨ofExperiment, isId⟩, live]
      · rw [if_neg fun both => ofExperiment both.2] at live
        rw [if_neg fun both => ofExperiment both.1, ← live]
  · have sameRows : (writtenStore now run deleted clause store).processedSuggestions =
        store.processedSuggestions := by
      rw [processedSuggestions_writtenStore, if_neg changes]
    have keyedAfter : Rows.Keyed ProcessedSuggestion.suggestionId
        (writtenStore now run deleted clause store).processedSuggestions := by
      rw [sameRows]
      exact keyed
    rw [findSuggestion_iff keyedAfter, sameRows]
    constructor
    · rintro ⟨member, isId, live⟩
      refine ⟨found, member, isId, ?_, by rw [← live]⟩
      rw [suggestionDeletedAfter, if_neg fun both => changes both.1]
      exact live
    · rintro ⟨suggestion, member, isId, live, rfl⟩
      rw [suggestionDeletedAfter, if_neg fun both => changes both.1] at live
      have same : { suggestion with deleted := false } = suggestion := by rw [← live]
      rw [same]
      exact ⟨member, isId, live⟩

/-! ### The failure after the writes -/

theorem ensured_error_iff {experiment : Option Experiment} {run : TrainingRun} {store after : Store}
    {failure : RunError} :
    ensured calls now experiment run store = (.error failure, after) ↔
      after = store ∧ ∃ due suggestionId, dueSuggestion experiment run store = some (due, suggestionId) ∧
        observationOfRun calls due run.trainingRunData suggestionId store = .error failure := by
  unfold ensured
  cases isDue : dueSuggestion experiment run store with
  | none => simp
  | some due =>
      rcases due with ⟨due, suggestionId⟩
      dsimp only
      cases refused : observationOfRun calls due run.trainingRunData suggestionId store with
      | ok observation => simp [refused]
      | error other =>
          constructor
          · intro same
            cases same
            exact ⟨rfl, due, suggestionId, rfl, refused⟩
          · rintro ⟨rfl, _, _, same, refusedToo⟩
            cases same
            rw [refused] at refusedToo
            cases refusedToo
            rfl

theorem writtenRow_suggestionId (now : Int) (run : TrainingRun) (deleted : Bool) (clause : UpdateClause) :
    (writtenRow now run deleted clause).suggestionId = run.suggestionId := by
  rw [writtenRow]
  split <;> rfl

theorem writtenRow_observationId (now : Int) (run : TrainingRun) (deleted : Bool) (clause : UpdateClause) :
    (writtenRow now run deleted clause).observationId = run.observationId := by
  rw [writtenRow]
  split <;> rfl

theorem writtenRow_id (now : Int) (run : TrainingRun) (deleted : Bool) (clause : UpdateClause) :
    (writtenRow now run deleted clause).id = run.id := by
  rw [writtenRow]
  split <;> rfl

theorem writtenRow_deleted (now : Int) (run : TrainingRun) (deleted : Bool) (clause : UpdateClause) :
    (writtenRow now run deleted clause).deleted = deleted := by
  rw [writtenRow]
  split <;> rfl

theorem findTrainingRun_ensured (calls : Calls) (now : Int) (experiment : Option Experiment) {run row : TrainingRun} {store : Store}
    (found : store.findTrainingRun run.id = some row) :
    ∃ after, (ensured calls now experiment run store).2.findTrainingRun run.id = some after := by
  unfold ensured
  split
  · exact ⟨row, found⟩
  · split
    · exact ⟨_, findTrainingRun_updateTrainingRun_self (fun _ => rfl) found⟩
    · exact ⟨row, found⟩

/-- After the checks a request is rejected by the creation of the observation alone. -/
theorem run_handle_error_iff {trainingRunId : Nat} {mergeObjects : Bool} {params : TrainingRunRequestParams}
    {store after : Store} {checked : Checked} (accepted : Accepts calls trainingRunId params store checked)
    {failure : RunError} :
    (handle calls now trainingRunId mergeObjects params).run store = (.error failure, after) ↔
      isCompletedState (stateOf (updatedRow now mergeObjects params checked).trainingRunData) = true ∧
        ensured calls now checked.experiment (updatedRow now mergeObjects params checked)
          (writtenStore now checked.run (params.deleted.getD checked.run.deleted)
            (updateClause mergeObjects params checked.newProject) store) = (.error failure, after) := by
  have isId := findTrainingRun_id accepted.run
  have rowFound : (writtenStore now checked.run (params.deleted.getD checked.run.deleted)
      (updateClause mergeObjects params checked.newProject) store).findTrainingRun
        (updatedRow now mergeObjects params checked).id = some (updatedRow now mergeObjects params checked) := by
    rw [updatedRow, writtenRow_id]
    apply findTrainingRun_writtenStore
    rw [isId]
    exact accepted.run
  have stillFound := findTrainingRun_ensured calls now checked.experiment rowFound
  rw [run_handle_of_checked (run_checkRequest_iff.mpr accepted)]
  dsimp only
  rw [← updatedRow]
  by_cases completed : isCompletedState (stateOf (updatedRow now mergeObjects params checked).trainingRunData) = true
  · rw [if_pos completed]
    cases isEnsured : ensured calls now checked.experiment (updatedRow now mergeObjects params checked)
        (writtenStore now checked.run (params.deleted.getD checked.run.deleted)
          (updateClause mergeObjects params checked.newProject) store) with
    | mk result observed =>
        rw [isEnsured] at stillFound
        rcases stillFound with ⟨run, runFound⟩
        cases result with
        | error other => simp [completed]
        | ok _ =>
            dsimp only at runFound ⊢
            rw [runFound]
            simp
  · rw [if_neg completed]
    simp [completed]

theorem updatedRow_awaitedSuggestion (mergeObjects : Bool) (params : TrainingRunRequestParams)
    (checked : Checked) :
    awaitedSuggestion (updatedRow now mergeObjects params checked) = awaitedSuggestion checked.run := by
  rw [awaitedSuggestion, updatedRow, writtenRow_observationId, writtenRow_suggestionId, awaitedSuggestion]

/-- A request that passes the checks is rejected exactly if the observation is refused, and leaves then what
    it has written. -/
theorem rejected_iff {trainingRunId : Nat} {mergeObjects : Bool} {params : TrainingRunRequestParams}
    {store after : Store} {checked : Checked}
    (keyed : Rows.Keyed ProcessedSuggestion.suggestionId store.processedSuggestions)
    (accepted : Accepts calls trainingRunId params store checked) :
    (∃ failure, (handle calls now trainingRunId mergeObjects params).run store = (.error failure, after)) ↔
      after = writtenStore now checked.run (params.deleted.getD checked.run.deleted)
        (updateClause mergeObjects params checked.newProject) store ∧
        ∃ experiment suggestion, ObservationRefused now mergeObjects params store checked experiment suggestion := by
  constructor
  · rintro ⟨failure, failed⟩
    rcases (run_handle_error_iff accepted).mp failed with ⟨completed, ensuredFails⟩
    rcases ensured_error_iff.mp ensuredFails with ⟨isWritten, experiment, suggestionId, isDue, refused⟩
    rcases dueSuggestion_iff.mp isDue with ⟨ofExperiment, awaited, found, isFound, automatic⟩
    rw [updatedRow_awaitedSuggestion, awaitedSuggestion_iff] at awaited
    rcases (findSuggestion_writtenStore_iff _ _ keyed (accepted.experiment.trans ofExperiment) awaited.2).mp isFound
      with ⟨suggestion, stored, isId, live, rfl⟩
    refine ⟨isWritten, experiment, suggestion, ?_⟩
    exact {
      completed := completed
      ofExperiment := ofExperiment
      unobserved := awaited.1
      suggested := by rw [isId]; exact awaited.2
      stored := stored
      automatic := automatic
      live := live
      refused := (observationOfRun_error_iff isFound).mp ⟨failure, refused⟩ }
  · rintro ⟨rfl, experiment, suggestion, observation⟩
    have isFound := (findSuggestion_writtenStore_iff now
      (updateClause mergeObjects params checked.newProject) keyed
      (accepted.experiment.trans observation.ofExperiment) observation.suggested).mpr
        ⟨suggestion, observation.stored, rfl, observation.live, rfl⟩
    rcases (observationOfRun_error_iff isFound).mpr observation.refused with ⟨failure, refused⟩
    refine ⟨failure, (run_handle_error_iff accepted).mpr ⟨observation.completed, ensured_error_iff.mpr ?_⟩⟩
    refine ⟨rfl, experiment, suggestion.suggestionId, dueSuggestion_iff.mpr ?_, refused⟩
    refine ⟨observation.ofExperiment, ?_, _, isFound, observation.automatic⟩
    rw [updatedRow_awaitedSuggestion, awaitedSuggestion_iff]
    exact ⟨observation.unobserved, observation.suggested⟩

/-- The writes of an update leave the run, its suggestion and its observation alone exactly if the row of the
    run stays as it is. -/
theorem sameRun_writtenStore_iff {store : Store} {run : TrainingRun} {deleted : Bool} {clause : UpdateClause}
    (found : store.findTrainingRun run.id = some run) :
    SameRun run.id store (writtenStore now run deleted clause store) ↔ writtenRow now run deleted clause = run := by
  constructor
  · intro same
    have sameRow := same.trainingRun
    rw [findTrainingRun_writtenStore found, found] at sameRow
    exact Option.some.inj sameRow
  · intro sameRow
    have sameDeleted : deleted = run.deleted := by
      rw [← writtenRow_deleted now run deleted clause, sameRow]
    subst sameDeleted
    have notCascaded : writtenStore now run run.deleted clause store =
        if clause.isEmpty then store else store.updateTrainingRun run.id (clause.apply now) := by
      simp [writtenStore]
    exact {
      trainingRun := by rw [findTrainingRun_writtenStore found, found, sameRow]
      suggestion := by
        intro _ _ _ _
        rw [notCascaded]
        split <;> rfl
      observation := by
        intro _ _ _ _
        rw [notCascaded]
        split <;> rfl
      observationIds := by
        rw [notCascaded]
        split <;> rfl }

/-- A rejected update changes nothing exactly if it is not a midway failure. -/
theorem rejected_unchanged_iff {trainingRunId : Nat} {mergeObjects : Bool} {params : TrainingRunRequestParams}
    {store : Store} (keyed : Rows.Keyed ProcessedSuggestion.suggestionId store.processedSuggestions) :
    UnchangedIfRejected calls now trainingRunId mergeObjects params store ↔
      ¬∃ checked experiment suggestion,
        MidwayFailure calls now trainingRunId mergeObjects params store checked experiment suggestion := by
  constructor
  · rintro unchanged ⟨checked, experiment, suggestion, midway⟩
    rcases (rejected_iff keyed midway.accepted).mpr ⟨rfl, experiment, suggestion, midway.observationRefused⟩
      with ⟨failure, rejected⟩
    have same := unchanged failure _ rejected
    have isId := findTrainingRun_id midway.accepted.run
    subst isId
    exact midway.changed ((sameRun_writtenStore_iff midway.accepted.run).mp same)
  · intro notMidway failure after rejected
    cases outcome : (checkRequest calls trainingRunId params).run store with
    | mk result unchanged =>
        cases result with
        | error refusal =>
            rw [run_handle_of_refused outcome] at rejected
            cases rejected
            exact SameRun.refl trainingRunId store
        | ok checked =>
            have isStore : ((checkRequest calls trainingRunId params).run store).2 = store :=
              (silent_checkRequest trainingRunId params).run store
            rw [outcome] at isStore
            cases isStore
            have accepted := run_checkRequest_iff.mp outcome
            rcases (rejected_iff keyed accepted).mp ⟨failure, rejected⟩
              with ⟨rfl, experiment, suggestion, observationRefused⟩
            have isId := findTrainingRun_id accepted.run
            subst isId
            apply (sameRun_writtenStore_iff accepted.run).mpr
            by_contra changed
            exact notMidway ⟨checked, experiment, suggestion, accepted, changed, observationRefused⟩

end Rejection

/-! ### A run of an experiment with two metrics of one name

The names of the metrics of an experiment are compared before they are stripped, so both may be stored as
`acc`. -/

def storeWithTwoMetrics : Store where
  clients := [1]
  experiments := [{
    id := 1, clientId := 1, projectId := some 1, dateUpdated := 0
    allMetrics := { metrics := [{ name := "acc" }, { name := "acc" }] } }]
  projects := [{ id := 1, clientId := 1, referenceId := "project" }]
  trainingRuns := [{
    id := 1, clientId := 1, projectId := 1, experimentId := some 1, suggestionId := some 1, updated := 0
    trainingRunData := [] }]
  processedSuggestions := [{ suggestionId := 1, experimentId := 1, automatic := true, assignmentsMap := [] }]

/-- `{"state": "completed", "values": {"acc": {"value": 0.5}}}`. -/
def completedWithValue : TrainingRunRequestParams where
  trainingRunDataJson := [("s", .number 1),
    ("v", .object [("acc", .object [("v", .number (1 / 2)), ("r", .null)])])]

/-- The values are refused, but the run has been completed. -/
theorem rejected_changed :
    ¬UnchangedIfRejected plainCalls 10 1 true completedWithValue storeWithTwoMetrics := by
  intro unchanged
  have notAnswered : ((handle plainCalls 10 1 true completedWithValue).run storeWithTwoMetrics).1.isOk = false := by
    decide +kernel
  have completedAt : (((handle plainCalls 10 1 true completedWithValue).run
      storeWithTwoMetrics).2.findTrainingRun 1).map TrainingRun.completed = some (some 10) := by
    decide +kernel
  cases outcome : (handle plainCalls 10 1 true completedWithValue).run storeWithTwoMetrics with
  | mk result after =>
      rw [outcome] at notAnswered completedAt
      cases result with
      | ok answer => cases notAnswered
      | error failure =>
          have same := (unchanged failure after outcome).trainingRun
          rw [same] at completedAt
          exact absurd completedAt (by decide)

/-- A completion that gives a value for one of two metrics, on the store where it is rejected midway. -/
theorem rejected_unchanged_iff_storeWithTwoMetrics :
    UnchangedIfRejected plainCalls 10 1 true completedWithValue storeWithTwoMetrics ↔
      ¬∃ checked experiment suggestion, MidwayFailure plainCalls 10 1 true completedWithValue
        storeWithTwoMetrics checked experiment suggestion :=
  rejected_unchanged_iff (by decide)

end Zigopt.TrainingRuns
