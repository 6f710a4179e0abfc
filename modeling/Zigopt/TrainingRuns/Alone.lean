/-
Module: Zigopt.TrainingRuns.Alone
Layer: Proofs
Purpose: What the requests on training runs do when nothing comes in between: the checks change nothing, the
  writes of an update always succeed, and only the creation of an observation can fail after them.
Main exports: deletedStore, writtenStore, run_setDeleted, run_checkRequest
-/
import Zigopt.TrainingRuns.Update

namespace Zigopt.TrainingRuns

open Raising Observations

/-! ### Deletion -/

/-- The observation of a deleted run is updated if it is there, and the experiment with it. -/
def observationDeletedStore (now : Int) (experiment : Experiment) (deleted : Bool) (observationId : Option Nat)
    (store : Store) : Store :=
  match observationId.bind store.findObservation with
  | some row =>
      (store.updateObservations [row.setDeleted deleted now]).markExperimentAsUpdated experiment.id now
  | none => store

def suggestionDeletedStore (experiment : Experiment) (deleted : Bool) (suggestionId : Option Nat)
    (store : Store) : Store :=
  match suggestionId with
  | some id => store.setSuggestionDeleted experiment.id id deleted
  | none => store

/-- The store after the suggestion and the observation of a run have followed it. -/
def cascadedStore (now : Int) (run : TrainingRun) (deleted : Bool) (store : Store) : Store :=
  match run.experimentId.bind store.findExperiment with
  | some experiment =>
      observationDeletedStore now experiment deleted run.observationId
        (suggestionDeletedStore experiment deleted run.suggestionId store)
  | none => store

/-- The store after a run was deleted, with what is linked to it. -/
def deletedStore (now : Int) (run : TrainingRun) (deleted : Bool) (store : Store) : Store :=
  (cascadedStore now run deleted store).updateTrainingRun run.id fun run => { run with deleted := deleted }

theorem run_findExperiment (experimentId : Option Nat) (store : Store) :
    (findExperiment experimentId).run store = (.ok (experimentId.bind store.findExperiment), store) := by
  cases experimentId <;> rfl

theorem run_setSuggestionDeleted (experiment : Experiment) (deleted : Bool) (suggestionId : Option Nat)
    (store : Store) :
    (setSuggestionDeleted experiment deleted suggestionId).run store =
      (.ok (), suggestionDeletedStore experiment deleted suggestionId store) := by
  cases suggestionId <;> rfl

theorem run_setObservationDeleted (now : Int) (experiment : Experiment) (deleted : Bool)
    (observationId : Option Nat) (store : Store) :
    (setObservationDeleted now experiment deleted observationId).run store =
      (.ok (), observationDeletedStore now experiment deleted observationId store) := by
  cases observationId with
  | none => rfl
  | some id =>
      rw [setObservationDeleted, observationDeletedStore]
      apply (Process.run_bind_ok (Process.run_read _ _ store) _).trans
      cases found : store.findObservation id with
      | none => simp [found]
      | some row =>
          rw [Option.bind_some, found]
          rfl

theorem findTrainingRun_id {store : Store} {id : Nat} {run : TrainingRun}
    (found : store.findTrainingRun id = some run) : run.id = id := by
  have named := List.find?_some found
  exact of_decide_eq_true named

/-- Alone, `set_deleted` of a stored run succeeds and writes the flag to the run and to what is linked to it. -/
theorem run_setDeleted {now : Int} {trainingRunId : Nat} {deleted : Bool} {store : Store} {run : TrainingRun}
    (found : store.findTrainingRun trainingRunId = some run) :
    (setDeleted now trainingRunId deleted).run store = (.ok (), deletedStore now run deleted store) := by
  rw [setDeleted]
  apply (Process.run_bind_ok (Process.run_read _ _ store) _).trans
  rw [found]
  dsimp only
  apply (Process.run_bind_ok (run_findExperiment run.experimentId store) _).trans
  rw [deletedStore, cascadedStore, findTrainingRun_id found]
  cases run.experimentId.bind store.findExperiment with
  | none => rfl
  | some experiment =>
      dsimp only
      apply (Process.run_bind_ok (run_setSuggestionDeleted _ _ _ _) _).trans
      exact (Process.run_bind_ok (run_setObservationDeleted _ _ _ _ _) _).trans rfl

/-! ### An update -/

section Update

variable {calls : Calls} {now : Int}

theorem silent_findTrainingRun (trainingRunId : Nat) (missing : RunError) :
    Process.Silent (findTrainingRun trainingRunId missing) := by
  apply Process.Silent.bind (Process.silent_read _ _)
  intro found
  cases found <;> trivial

theorem silent_findProject (run : TrainingRun) : Process.Silent (findProject run) := by
  apply Process.Silent.bind (Process.silent_read _ _)
  intro found
  cases found <;> trivial

theorem silent_findClient (run : TrainingRun) : Process.Silent (findClient run) := by
  apply Process.Silent.bind (Process.silent_read _ _)
  intro found
  cases found <;> trivial

theorem silent_findExperiment (experimentId : Option Nat) : Process.Silent (findExperiment experimentId) := by
  cases experimentId with
  | none => trivial
  | some id => exact Process.silent_read _ _

theorem silent_findNewProject (run : TrainingRun) (referenceId : Option String) :
    Process.Silent (findNewProject calls run referenceId) := by
  unfold findNewProject
  split
  · trivial
  · trivial
  · apply Process.Silent.bind (Process.silent_read _ _)
    intro found
    cases found with
    | none => trivial
    | some project =>
        dsimp only
        split <;> trivial

/-- The checks change nothing. -/
theorem silent_checkRequest (trainingRunId : Nat) (params : TrainingRunRequestParams) :
    Process.Silent (checkRequest calls trainingRunId params) := by
  apply Process.Silent.bind (silent_findTrainingRun _ _)
  intro run
  apply Process.Silent.bind (silent_findProject _)
  intro project
  apply Process.Silent.bind (silent_findClient _)
  intro _
  apply Process.Silent.bind (Process.silent_ofExcept _)
  intro _
  apply Process.Silent.bind (silent_findExperiment _)
  intro experiment
  apply Process.Silent.bind (Process.silent_ofExcept _)
  intro _
  apply Process.Silent.bind (silent_findNewProject _ _)
  intro newProject
  trivial

theorem run_findTrainingRun_ok {trainingRunId : Nat} {missing : RunError} {store after : Store}
    {run : TrainingRun} (done : (findTrainingRun trainingRunId missing).run store = (.ok run, after)) :
    store.findTrainingRun trainingRunId = some run := by
  rw [findTrainingRun, Process.run_bind_ok (Process.run_read _ _ store)] at done
  cases found : store.findTrainingRun trainingRunId with
  | none =>
      rw [found] at done
      cases done
  | some other =>
      rw [found] at done
      cases done
      rfl

theorem run_findTrainingRun {trainingRunId : Nat} (missing : RunError) {store : Store} {run : TrainingRun}
    (found : store.findTrainingRun trainingRunId = some run) :
    (findTrainingRun trainingRunId missing).run store = (.ok run, store) := by
  rw [findTrainingRun, Process.run_bind_ok (Process.run_read _ _ store), found]
  rfl

theorem run_findClient_iff {store : Store} {run : TrainingRun} :
    (findClient run).run store = (.ok (), store) ↔ run.clientId ∈ store.clients := by
  rw [findClient, Process.run_bind_ok (Process.run_read _ _ store)]
  cases found : store.clients.find? fun id => id = run.clientId with
  | none =>
      rw [List.find?_eq_none] at found
      simpa using fun member => found _ member (decide_eq_true rfl)
  | some id =>
      have isClient : id = run.clientId := by simpa using List.find?_some found
      simpa using isClient ▸ List.mem_of_find?_eq_some found

/-- A process whose first part is silent and whose outcome is good had a good first part. -/
theorem run_silent_bind {α β : Type} {process : RunProcess α} {rest : α → RunProcess β} {store after : Store}
    {answer : β} (silent : Process.Silent process)
    (done : (process >>= rest).run store = (.ok answer, after)) :
    ∃ value, process.run store = (.ok value, store) ∧ (rest value).run store = (.ok answer, after) := by
  rw [Process.run_bind] at done
  have unchanged := silent.run store
  cases outcome : process.run store with
  | mk result afterFirst =>
      rw [outcome] at done unchanged
      dsimp only at unchanged
      subst unchanged
      cases result with
      | error failure => cases done
      | ok value => exact ⟨value, rfl, done⟩

/-- The run and the experiment that the checks have found are those of the store. -/
theorem run_checkRequest {trainingRunId : Nat} {params : TrainingRunRequestParams} {store after : Store}
    {checked : Checked} (done : (checkRequest calls trainingRunId params).run store = (.ok checked, after)) :
    store.findTrainingRun trainingRunId = some checked.run ∧
      checked.experiment = checked.run.experimentId.bind store.findExperiment := by
  rcases run_silent_bind (silent_findTrainingRun _ _) done with ⟨run, found, done⟩
  rcases run_silent_bind (silent_findProject _) done with ⟨project, _, done⟩
  rcases run_silent_bind (silent_findClient _) done with ⟨_, _, done⟩
  rcases run_silent_bind (Process.silent_ofExcept _) done with ⟨_, _, done⟩
  rcases run_silent_bind (silent_findExperiment _) done with ⟨experiment, experimentFound, done⟩
  rcases run_silent_bind (Process.silent_ofExcept _) done with ⟨_, _, done⟩
  rcases run_silent_bind (silent_findNewProject _ _) done with ⟨newProject, _, done⟩
  cases done
  constructor
  · exact run_findTrainingRun_ok found
  · rw [run_findExperiment] at experimentFound
    cases experimentFound
    rfl

/-- The store after the writes of an update on the run and its cascade. -/
def writtenStore (now : Int) (run : TrainingRun) (deleted : Bool) (clause : UpdateClause) (store : Store) :
    Store :=
  let cascaded := if deleted ≠ run.deleted then deletedStore now run deleted store else store
  if clause.isEmpty then cascaded else cascaded.updateTrainingRun run.id (clause.apply now)

/-- The writes of an update on the run and its cascade succeed, whatever comes after them. -/
theorem run_writes {α : Type} {store : Store} {run : TrainingRun}
    (found : store.findTrainingRun run.id = some run) (params : TrainingRunRequestParams)
    (clause : UpdateClause) (rest : RunProcess α) :
    (do updateDeleted now run params; emitUpdate now run clause; rest).run store =
      rest.run (writtenStore now run (params.deleted.getD run.deleted) clause store) := by
  have cascaded : (updateDeleted now run params).run store =
      (.ok (), if params.deleted.getD run.deleted ≠ run.deleted then
        deletedStore now run (params.deleted.getD run.deleted) store else store) := by
    rw [updateDeleted]
    split
    · exact run_setDeleted found
    · rfl
  apply (Process.run_bind_ok cascaded _).trans
  rw [emitUpdate, writtenStore]
  cases clause.isEmpty <;> rfl

/-! ### The row of the run -/

/-- The row that the writes of an update leave. -/
def writtenRow (now : Int) (run : TrainingRun) (deleted : Bool) (clause : UpdateClause) : TrainingRun :=
  if clause.isEmpty then { run with deleted := deleted }
  else clause.apply now { run with deleted := deleted }

theorem findTrainingRun_updateTrainingRun {store : Store} {id updatedId : Nat}
    {change : TrainingRun → TrainingRun} (keepsId : ∀ run, (change run).id = run.id) :
    (store.updateTrainingRun updatedId change).findTrainingRun id =
      (store.findTrainingRun id).map fun run => if run.id = updatedId then change run else run := by
  apply Rows.find_update
  intro run _
  rw [keepsId]

theorem findTrainingRun_updateTrainingRun_self {store : Store} {id : Nat} {run : TrainingRun}
    {change : TrainingRun → TrainingRun} (keepsId : ∀ run, (change run).id = run.id)
    (found : store.findTrainingRun id = some run) :
    (store.updateTrainingRun id change).findTrainingRun id = some (change run) := by
  rw [findTrainingRun_updateTrainingRun keepsId, found, Option.map_some, if_pos (findTrainingRun_id found)]

theorem apply_id (clause : UpdateClause) (now : Int) (run : TrainingRun) :
    (clause.apply now run).id = run.id := rfl

theorem observationDeletedStore_trainingRuns (now : Int) (experiment : Experiment) (deleted : Bool)
    (observationId : Option Nat) (store : Store) :
    (observationDeletedStore now experiment deleted observationId store).trainingRuns = store.trainingRuns := by
  rw [observationDeletedStore]
  split <;> rfl

theorem suggestionDeletedStore_trainingRuns (experiment : Experiment) (deleted : Bool)
    (suggestionId : Option Nat) (store : Store) :
    (suggestionDeletedStore experiment deleted suggestionId store).trainingRuns = store.trainingRuns := by
  cases suggestionId <;> rfl

theorem cascadedStore_trainingRuns (now : Int) (run : TrainingRun) (deleted : Bool) (store : Store) :
    (cascadedStore now run deleted store).trainingRuns = store.trainingRuns := by
  rw [cascadedStore]
  split
  · rw [observationDeletedStore_trainingRuns, suggestionDeletedStore_trainingRuns]
  · rfl

theorem observationDeletedStore_processedSuggestions (now : Int) (experiment : Experiment) (deleted : Bool)
    (observationId : Option Nat) (store : Store) :
    (observationDeletedStore now experiment deleted observationId store).processedSuggestions =
      store.processedSuggestions := by
  rw [observationDeletedStore]
  split <;> rfl

theorem cascadedStore_processedSuggestions {now : Int} {run : TrainingRun} {deleted : Bool} {store : Store}
    {experiment : Experiment} (experimentFound : run.experimentId.bind store.findExperiment = some experiment) :
    (cascadedStore now run deleted store).processedSuggestions =
      (suggestionDeletedStore experiment deleted run.suggestionId store).processedSuggestions := by
  rw [cascadedStore, experimentFound]
  exact observationDeletedStore_processedSuggestions _ _ _ _ _

theorem findTrainingRun_deletedStore {run : TrainingRun} {deleted : Bool} {store : Store}
    (found : store.findTrainingRun run.id = some run) :
    (deletedStore now run deleted store).findTrainingRun run.id = some { run with deleted := deleted } := by
  have stillFound : (cascadedStore now run deleted store).findTrainingRun run.id = some run := by
    rw [Store.findTrainingRun, cascadedStore_trainingRuns]
    exact found
  exact findTrainingRun_updateTrainingRun_self (fun _ => rfl) stillFound

theorem findTrainingRun_writtenStore {run : TrainingRun} {deleted : Bool} {clause : UpdateClause}
    {store : Store} (found : store.findTrainingRun run.id = some run) :
    (writtenStore now run deleted clause store).findTrainingRun run.id =
      some (writtenRow now run deleted clause) := by
  have cascaded : (if deleted ≠ run.deleted then deletedStore now run deleted store else store).findTrainingRun
      run.id = some { run with deleted := deleted } := by
    split
    · exact findTrainingRun_deletedStore found
    · rename_i same
      rw [not_not] at same
      subst same
      exact found
  rw [writtenStore, writtenRow]
  cases clause.isEmpty with
  | true => exact cascaded
  | false =>
      exact findTrainingRun_updateTrainingRun_self (apply_id clause now) cascaded

/-! ### The observation -/

theorem check_eq_ok {result : Except ValidationError α} {value : α} :
    check result = .ok value ↔ result = .ok value := by
  cases result with
  | ok other => simp [check]
  | error failure => simp [check]

/-- The suggestion whose observation is due: the run lacks it, and it is live and automatic. -/
def dueSuggestion (experiment : Option Experiment) (run : TrainingRun) (store : Store) :
    Option (Experiment × Nat) :=
  match experiment, awaitedSuggestion run with
  | some experiment, some suggestionId =>
      if (store.findSuggestion suggestionId).any ProcessedSuggestion.automatic then
        some (experiment, suggestionId)
      else none
  | _, _ => none

theorem awaitedSuggestion_iff {run : TrainingRun} {suggestionId : Nat} :
    awaitedSuggestion run = some suggestionId ↔
      run.observationId = none ∧ run.suggestionId = some suggestionId := by
  unfold awaitedSuggestion
  cases run.observationId with
  | none => simp
  | some observationId => simp

theorem dueSuggestion_iff {experiment : Option Experiment} {run : TrainingRun} {store : Store}
    {due : Experiment} {suggestionId : Nat} :
    dueSuggestion experiment run store = some (due, suggestionId) ↔
      experiment = some due ∧ awaitedSuggestion run = some suggestionId ∧
        ∃ suggestion, store.findSuggestion suggestionId = some suggestion ∧ suggestion.automatic = true := by
  rw [← Option.any_eq_true]
  unfold dueSuggestion
  cases experiment with
  | none => simp
  | some experiment =>
      cases awaitedSuggestion run with
      | none => simp
      | some awaited =>
          dsimp only
          by_cases automatic : (store.findSuggestion awaited).any ProcessedSuggestion.automatic = true
          · rw [if_pos automatic]
            constructor
            · intro same
              cases same
              exact ⟨rfl, rfl, automatic⟩
            · rintro ⟨sameExperiment, sameSuggestion, _⟩
              cases sameExperiment
              cases sameSuggestion
              rfl
          · rw [if_neg automatic]
            constructor
            · intro impossible
              cases impossible
            · rintro ⟨_, sameSuggestion, isAutomatic⟩
              cases sameSuggestion
              exact absurd isAutomatic automatic

/-- The store with a new observation that its run refers to. -/
def observedStore (now : Int) (experiment : Experiment) (runId : Nat) (observation : Observation)
    (store : Store) : Store :=
  (store.insertObservation experiment.id now observation).updateTrainingRun runId fun run =>
    { run with observationId := some store.nextObservationId }

def ensured (calls : Calls) (now : Int) (experiment : Option Experiment) (run : TrainingRun) (store : Store) :
    Except RunError Unit × Store :=
  match dueSuggestion experiment run store with
  | none => (.ok (), store)
  | some (experiment, suggestionId) =>
      match observationOfRun calls experiment run.trainingRunData suggestionId store with
      | .ok observation => (.ok (), observedStore now experiment run.id observation store)
      | .error failure => (.error failure, store)

theorem run_createObservationFromSuggestion (experiment : Experiment) (run : TrainingRun) (suggestionId : Nat)
    (store : Store) :
    (createObservationFromSuggestion calls now experiment run suggestionId).run store =
      match observationOfRun calls experiment run.trainingRunData suggestionId store with
      | .ok observation => (.ok (), observedStore now experiment run.id observation store)
      | .error failure => (.error failure, store) := by
  rw [createObservationFromSuggestion]
  apply (Process.run_bind_ok (Process.run_read _ _ store) _).trans
  cases observationOfRun calls experiment run.trainingRunData suggestionId store with
  | error failure => rfl
  | ok observation => rfl

theorem run_ensureObservationExists (experiment : Option Experiment) (run : TrainingRun) (store : Store) :
    (ensureObservationExists calls now experiment run).run store = ensured calls now experiment run store := by
  unfold ensured dueSuggestion ensureObservationExists
  cases experiment with
  | none => rfl
  | some experiment =>
      cases awaitedSuggestion run with
      | none => rfl
      | some suggestionId =>
          dsimp only
          apply (Process.run_bind_ok (Process.run_read _ _ store) _).trans
          cases store.findSuggestion suggestionId with
          | none => rfl
          | some suggestion =>
              by_cases automatic : suggestion.automatic = true
              · simp only [Option.any_some, if_pos automatic]
                exact run_createObservationFromSuggestion experiment run suggestionId store
              · simp only [Option.any_some, if_neg automatic]
                rfl

/-! ### The whole handler -/

/-- A request that the checks refuse changes nothing. -/
theorem run_handle_of_refused {trainingRunId : Nat} {mergeObjects : Bool} {params : TrainingRunRequestParams}
    {store after : Store} {failure : RunError}
    (refused : (checkRequest calls trainingRunId params).run store = (.error failure, after)) :
    (handle calls now trainingRunId mergeObjects params).run store = (.error failure, store) := by
  have unchanged : ((checkRequest calls trainingRunId params).run store).2 = store :=
    (silent_checkRequest trainingRunId params).run store
  rw [refused] at unchanged
  dsimp only at unchanged
  rw [handle, Process.run_bind_error refused, unchanged]

/-- After the checks everything succeeds but the creation of the observation that is due. -/
theorem run_handle_of_checked {trainingRunId : Nat} {mergeObjects : Bool} {params : TrainingRunRequestParams}
    {store after : Store} {checked : Checked}
    (accepted : (checkRequest calls trainingRunId params).run store = (.ok checked, after)) :
    let clause := updateClause mergeObjects params checked.newProject
    let deleted := params.deleted.getD checked.run.deleted
    let written := writtenStore now checked.run deleted clause store
    let row := writtenRow now checked.run deleted clause
    let answer := fun run => (run, checked.newProject.getD checked.project)
    (handle calls now trainingRunId mergeObjects params).run store =
      if isCompletedState (stateOf row.trainingRunData) then
        match ensured calls now checked.experiment row written with
        | (.ok _, observed) =>
            match observed.findTrainingRun row.id with
            | some run => (.ok (answer run), observed)
            | none => (.error .assertion, observed)
        | (.error failure, observed) => (.error failure, observed)
      else
        (.ok (answer row), written) := by
  dsimp only
  have found := (run_checkRequest accepted).1
  have isId := findTrainingRun_id found
  subst isId
  have unchanged : ((checkRequest calls checked.run.id params).run store).2 = store :=
    (silent_checkRequest _ params).run store
  rw [accepted] at unchanged
  dsimp only at unchanged
  subst unchanged
  rw [handle, Process.run_bind_ok accepted]
  rw [run_writes found]
  rw [Process.run_bind_ok (run_findTrainingRun .assertion (findTrainingRun_writtenStore found))]
  rw [ensureObservationIfCompleted]
  split
  · rw [Process.run_bind, Process.run_bind, run_ensureObservationExists]
    cases ensured calls now checked.experiment _ _ with
    | mk result observed =>
        cases result with
        | error failure => rfl
        | ok _ =>
            dsimp only
            rw [findTrainingRun, Process.run_bind_ok (Process.run_read _ _ observed)]
            cases observed.findTrainingRun _ <;> rfl
  · rfl

end Update

/-- Calls for the examples: no variance is reported in them, and no assignments are read. -/
def plainCalls : Calls where
  sqrt := fun _ => 0
  sqrt_nonneg := fun _ => Rat.le_refl
  assignmentsFromJson := fun _ _ => .ok []
  validateClientProvidedData := fun _ => .ok ()
  canActOnProject := fun _ => true

end Zigopt.TrainingRuns
