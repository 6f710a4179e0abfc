/-
Module: Zigopt.TrainingRuns.ObservedOnce
Layer: Proofs
Purpose: Updates of runs that take turns, statement by statement. An update decides on a row that it has read that
  the run has no observation, inserts one, and makes the run refer to it; whether a run gets one observation
  depends on what the other requests have done in between.
Main exports: View, Proper, proper_processOf, Concurrent, ObservedOnce, Exclusive, Good, good_next,
  observed_once_iff
-/
import Mathlib.Tactic.Common
import Zigopt.TrainingRuns.Alone
import Zigopt.TrainingRuns.Create

namespace Zigopt.TrainingRuns

open Raising Observations

/-! ### What the requests see of each other -/

structure RunView where
  id : Nat
  suggestionId : Option Nat
  observationId : Option Nat
  deriving DecidableEq, Repr

/-- The ids that tell which suggestion a run observes. -/
def TrainingRun.view (run : TrainingRun) : RunView where
  id := run.id
  suggestionId := run.suggestionId
  observationId := run.observationId

/-- The references of the runs, and the observations with their suggestions. -/
structure View where
  runs : List RunView
  observations : List (Nat × Option Nat)
  nextObservationId : Nat
  deriving DecidableEq, Repr

/-- An observation with its suggestion. -/
def ObservationRow.view (row : ObservationRow) : Nat × Option Nat := (row.id, row.processedSuggestionId)

/-- What of the store tells how often a suggestion is observed. -/
def Store.view (store : Store) : View where
  runs := store.trainingRuns.map TrainingRun.view
  observations := store.observations.map ObservationRow.view
  nextObservationId := store.nextObservationId

namespace View

variable (view : View)

def insertObservation (suggestionId : Nat) : View :=
  { view with
    observations := view.observations ++ [(view.nextObservationId, some suggestionId)]
    nextObservationId := view.nextObservationId + 1 }

def writeBack (trainingRunId observationId : Nat) : View :=
  { view with
    runs := Rows.update (fun run => run.id = trainingRunId)
      (fun run => { run with observationId := some observationId }) view.runs }

/-- The observations that have been created of the suggestion of a run, which may have none. -/
def created (suggestion : Option Nat) : List Nat :=
  (view.observations.filter fun row => row.2.isSome && row.2 = suggestion).map Prod.fst

/-- The observation that a run refers to. -/
def observationOf (trainingRunId : Nat) : Option Nat :=
  (view.runs.find? fun run => run.id = trainingRunId).bind RunView.observationId

end View

/-! ### What the statements of a request do to the view -/

section Proper

variable {α β : Type} (suggestionOf : Nat → Option Nat)

/-- The suggestions of the runs, which no request changes. -/
def Consistent (store : Store) : Prop :=
  ∀ run ∈ store.view.runs, run.suggestionId = suggestionOf run.id

/-- The next statement does not make a run refer to an observation. -/
def Starts (process : RunProcess α) : Prop :=
  ∀ trainingRunId observationId, process.label? ≠ some (.writesBack trainingRunId observationId)

/-- Every statement does to the view what its label says, and only an insertion is followed by the update that
    makes the run refer to it. -/
def Proper : RunProcess α → Prop
  | .statement .plain change next =>
      (∀ store, (change store).view = store.view) ∧
        ∀ store, Consistent suggestionOf store → Starts (next store) ∧ Proper (next store)
  | .statement (.insertsObservation trainingRunId) change next =>
      ∃ suggestionId, suggestionOf trainingRunId = some suggestionId ∧
        (∀ store, (change store).view = store.view.insertObservation suggestionId) ∧
        ∀ store, (next store).label? = some (.writesBack trainingRunId store.nextObservationId) ∧
          Proper (next store)
  | .statement (.writesBack trainingRunId observationId) change next =>
      (∀ store, (change store).view = store.view.writeBack trainingRunId observationId) ∧
        ∀ store, Starts (next store) ∧ Proper (next store)
  | _ => True

/-- All statements leave the view alone, and the values that are returned meet the condition. -/
def Quiet (returns : α → Prop) : RunProcess α → Prop
  | .returned value => returns value
  | .raised _ => True
  | .statement label change next =>
      label = .plain ∧ (∀ store, (change store).view = store.view) ∧
        ∀ store, Consistent suggestionOf store → Quiet returns (next store)

variable {suggestionOf}

theorem quiet_read {view : Store → α} {returns : α → Prop}
    (holds : ∀ store, Consistent suggestionOf store → returns (view store)) :
    Quiet suggestionOf returns (.read .plain view) :=
  ⟨rfl, fun _ => rfl, holds⟩

theorem quiet_write {change : Store → Store} (keepsView : ∀ store, (change store).view = store.view) :
    Quiet suggestionOf (fun _ => True) (.write .plain change) :=
  ⟨rfl, keepsView, fun _ _ => trivial⟩

theorem quiet_ofExcept {result : Except RunError α} {returns : α → Prop}
    (holds : ∀ value, result = .ok value → returns value) :
    Quiet suggestionOf returns (.ofExcept result) := by
  cases result with
  | ok value => exact holds value rfl
  | error failure => trivial

theorem plain_read (view : Store → α) : Quiet suggestionOf (fun _ => True) (.read .plain view) :=
  quiet_read fun _ _ => trivial

theorem plain_ofExcept (result : Except RunError α) : Quiet suggestionOf (fun _ => True) (.ofExcept result) :=
  quiet_ofExcept fun _ _ => trivial

/-- Quiet parts make a quiet process. -/
theorem Quiet.bind {process : RunProcess α} {rest : α → RunProcess β} {returns : α → Prop} {final : β → Prop}
    (quiet : Quiet suggestionOf returns process)
    (later : ∀ value, returns value → Quiet suggestionOf final (rest value)) :
    Quiet suggestionOf final (process >>= rest) := by
  induction process with
  | returned value => exact later value quiet
  | raised failure => trivial
  | statement label change next inductionHypothesis =>
      exact ⟨quiet.1, quiet.2.1, fun store consistent => inductionHypothesis store (quiet.2.2 store consistent)⟩

theorem Quiet.followed {process : RunProcess α} {rest : α → RunProcess β} {final : β → Prop}
    (quiet : Quiet suggestionOf (fun _ => True) process)
    (later : ∀ value, Quiet suggestionOf final (rest value)) : Quiet suggestionOf final (process >>= rest) :=
  quiet.bind fun value _ => later value

/-- A quiet beginning. -/
theorem Quiet.proper_bind {process : RunProcess α} {rest : α → RunProcess β} {returns : α → Prop}
    (quiet : Quiet suggestionOf returns process)
    (later : ∀ value, returns value → Starts (rest value) ∧ Proper suggestionOf (rest value)) :
    Starts (process >>= rest) ∧ Proper suggestionOf (process >>= rest) := by
  induction process with
  | returned value => exact later value quiet
  | raised failure => exact ⟨fun _ _ impossible => (nomatch impossible), trivial⟩
  | statement label change next inductionHypothesis =>
      rcases quiet with ⟨rfl, keepsView, quietNext⟩
      constructor
      · intro _ _ impossible
        cases impossible
      · exact ⟨keepsView, fun store consistent => inductionHypothesis store (quietNext store consistent)⟩

theorem Quiet.proper {process : RunProcess α} {returns : α → Prop} (quiet : Quiet suggestionOf returns process) :
    Starts process ∧ Proper suggestionOf process := by
  induction process with
  | returned value => exact ⟨fun _ _ impossible => (nomatch impossible), trivial⟩
  | raised failure => exact ⟨fun _ _ impossible => (nomatch impossible), trivial⟩
  | statement label change next inductionHypothesis =>
      rcases quiet with ⟨rfl, keepsView, quietNext⟩
      constructor
      · intro _ _ impossible
        cases impossible
      · exact ⟨keepsView, fun store consistent => inductionHypothesis store (quietNext store consistent)⟩

theorem label?_bind {process : RunProcess α} {rest : α → RunProcess β} {label : Statement}
    (labelled : process.label? = some label) : (process >>= rest).label? = some label := by
  cases process with
  | returned value => cases labelled
  | raised failure => cases labelled
  | statement other change next => exact labelled

theorem starts_bind {process : RunProcess α} {rest : α → RunProcess β} (starts : Starts process)
    (later : ∀ value, Starts (rest value)) : Starts (process >>= rest) := by
  cases process with
  | returned value => exact later value
  | raised failure => exact fun _ _ impossible => (nomatch impossible)
  | statement label change next => exact starts

theorem proper_bind {process : RunProcess α} {rest : α → RunProcess β} (proper : Proper suggestionOf process)
    (later : ∀ value, Starts (rest value) ∧ Proper suggestionOf (rest value)) :
    Proper suggestionOf (process >>= rest) := by
  induction process with
  | returned value => exact (later value).2
  | raised failure => trivial
  | statement label change next inductionHypothesis =>
      cases label with
      | plain =>
          refine ⟨proper.1, ?_⟩
          intro store consistent
          rcases proper.2 store consistent with ⟨starts, properNext⟩
          exact ⟨starts_bind starts fun value => (later value).1, inductionHypothesis store properNext⟩
      | insertsObservation trainingRunId =>
          rcases proper with ⟨suggestionId, ofRun, inserts, properNext⟩
          refine ⟨suggestionId, ofRun, inserts, ?_⟩
          intro store
          exact ⟨label?_bind (properNext store).1, inductionHypothesis store (properNext store).2⟩
      | writesBack trainingRunId observationId =>
          refine ⟨proper.1, ?_⟩
          intro store
          rcases proper.2 store with ⟨starts, properNext⟩
          exact ⟨starts_bind starts fun value => (later value).1, inductionHypothesis store properNext⟩

theorem both_bind {process : RunProcess α} {rest : α → RunProcess β}
    (both : Starts process ∧ Proper suggestionOf process)
    (later : ∀ value, Starts (rest value) ∧ Proper suggestionOf (rest value)) :
    Starts (process >>= rest) ∧ Proper suggestionOf (process >>= rest) :=
  ⟨starts_bind both.1 fun value => (later value).1, proper_bind both.2 later⟩

end Proper

/-! ### The requests are proper -/

section Requests

variable {suggestionOf : Nat → Option Nat} {calls : Calls} {now : Int}

theorem view_updateTrainingRun (store : Store) (id : Nat) {change : TrainingRun → TrainingRun}
    (keepsView : ∀ run, (change run).view = run.view) : (store.updateTrainingRun id change).view = store.view := by
  have same : (Rows.update (fun run => run.id = id) change store.trainingRuns).map TrainingRun.view =
      store.trainingRuns.map TrainingRun.view := Rows.update_keys fun run _ _ => keepsView run
  rw [Store.view, Store.view, Store.updateTrainingRun, same]

theorem view_updateObservations (store : Store) (updated : List ObservationRow) :
    (store.updateObservations updated).view = store.view := by
  have same : (store.updateObservations updated).observations.map ObservationRow.view =
      store.observations.map ObservationRow.view := by
    change (Rows.writeBack ObservationRow.id ObservationRow.withData updated store.observations).map _ = _
    apply Rows.writeBack_keys
    exact fun _ _ => rfl
  rw [Store.view, same]
  rfl

theorem consistent_run {store : Store} (consistent : Consistent suggestionOf store) {run : TrainingRun}
    (member : run ∈ store.trainingRuns) : run.suggestionId = suggestionOf run.id :=
  consistent run.view (List.mem_map_of_mem member)

theorem quiet_findTrainingRun (trainingRunId : Nat) (missing : RunError) :
    Quiet suggestionOf (fun run => run.suggestionId = suggestionOf run.id)
      (findTrainingRun trainingRunId missing) := by
  have read : Quiet suggestionOf (fun found : Option TrainingRun => ∀ run, found = some run →
      run.suggestionId = suggestionOf run.id) (.read .plain fun store => store.findTrainingRun trainingRunId) := by
    apply quiet_read
    intro store consistent run found
    exact consistent_run consistent (List.mem_of_find?_eq_some found)
  apply read.bind
  intro found ofRun
  cases found with
  | none => trivial
  | some run => exact ofRun run rfl

theorem quiet_findExperiment (experimentId : Option Nat) :
    Quiet suggestionOf (fun _ => True) (findExperiment experimentId) := by
  cases experimentId with
  | none => trivial
  | some id => exact quiet_read fun _ _ => trivial

theorem quiet_findProject (run : TrainingRun) : Quiet suggestionOf (fun _ => True) (findProject run) := by
  apply (plain_read _).followed
  intro found
  cases found <;> trivial

theorem quiet_findClient (run : TrainingRun) : Quiet suggestionOf (fun _ => True) (findClient run) := by
  apply (plain_read _).followed
  intro found
  cases found <;> trivial

theorem quiet_findNewProject (run : TrainingRun) (referenceId : Option String) :
    Quiet suggestionOf (fun _ => True) (findNewProject calls run referenceId) := by
  unfold findNewProject
  split
  · trivial
  · trivial
  · apply (plain_read _).followed
    intro found
    cases found with
    | none => trivial
    | some project =>
        dsimp only
        split <;> trivial

theorem quiet_checkRequest (trainingRunId : Nat) (params : TrainingRunRequestParams) :
    Quiet suggestionOf (fun _ => True) (checkRequest calls trainingRunId params) := by
  apply (quiet_findTrainingRun _ _).bind
  intro run _
  apply (quiet_findProject run).followed
  intro project
  apply (quiet_findClient run).followed
  intro _
  apply (plain_ofExcept _).followed
  intro _
  apply (quiet_findExperiment _).followed
  intro experiment
  apply (plain_ofExcept _).followed
  intro _
  apply (quiet_findNewProject _ _).followed
  intro newProject
  trivial

theorem quiet_setSuggestionDeleted (experiment : Experiment) (deleted : Bool) (suggestionId : Option Nat) :
    Quiet suggestionOf (fun _ => True) (setSuggestionDeleted experiment deleted suggestionId) := by
  cases suggestionId with
  | none => trivial
  | some id => exact quiet_write fun _ => rfl

theorem quiet_setObservationDeleted (experiment : Experiment) (deleted : Bool) (observationId : Option Nat) :
    Quiet suggestionOf (fun _ => True) (setObservationDeleted now experiment deleted observationId) := by
  cases observationId with
  | none => trivial
  | some id =>
      apply (plain_read _).followed
      intro found
      cases found with
      | none => trivial
      | some row =>
          apply (quiet_write fun store => view_updateObservations store _).followed
          intro _
          exact quiet_write fun _ => rfl

theorem quiet_setDeleted (trainingRunId : Nat) (deleted : Bool) :
    Quiet suggestionOf (fun _ => True) (setDeleted now trainingRunId deleted) := by
  apply (plain_read _).followed
  intro found
  cases found with
  | none => trivial
  | some run =>
      apply (quiet_findExperiment _).followed
      intro experiment
      have last : Quiet suggestionOf (fun _ => True) (.write .plain fun store =>
          store.updateTrainingRun trainingRunId fun run => { run with deleted := deleted }) :=
        quiet_write fun store => view_updateTrainingRun store trainingRunId fun _ => rfl
      cases experiment with
      | none => exact last
      | some experiment =>
          apply (quiet_setSuggestionDeleted _ _ _).followed
          intro _
          apply (quiet_setObservationDeleted _ _ _).followed
          exact fun _ => last

theorem quiet_updateDeleted (run : TrainingRun) (params : TrainingRunRequestParams) :
    Quiet suggestionOf (fun _ => True) (updateDeleted now run params) := by
  rw [updateDeleted]
  split
  · exact quiet_setDeleted _ _
  · trivial

theorem quiet_emitUpdate (run : TrainingRun) (clause : UpdateClause) :
    Quiet suggestionOf (fun _ => True) (emitUpdate now run clause) := by
  rw [emitUpdate]
  split
  · trivial
  · exact quiet_write fun store => view_updateTrainingRun store run.id fun _ => rfl

theorem findSuggestionOf_id {experiment : Experiment} {store : Store} {suggestionId : Nat}
    {suggestion : ServedSuggestion} (found : findSuggestionOf experiment store suggestionId = some suggestion) :
    suggestion.id = suggestionId := by
  rw [findSuggestionOf, if_neg (by omega), Int.toNat_natCast] at found
  cases stored : store.findSuggestion suggestionId with
  | none =>
      rw [stored] at found
      cases found
  | some row =>
      have passed := List.find?_some stored
      rw [Bool.and_eq_true, decide_eq_true_iff] at passed
      rw [stored] at found
      dsimp only at found
      split at found
      · cases found
        exact passed.1
      · cases found

/-- The observation of a run is one of its suggestion. -/
theorem observationOfRun_suggestion {experiment : Experiment} {data : JsonObject} {suggestionId : Nat}
    {store : Store} {observation : Observation}
    (created : observationOfRun calls experiment data suggestionId store = .ok observation) :
    observation.processedSuggestionId = some suggestionId := by
  rw [observationOfRun, bind_eq_ok] at created
  rcases created with ⟨reported, _, isCreated⟩
  have accepted := check_eq_ok.mp isCreated
  simp only [createObservation, observationFromJson, bind_eq_ok] at accepted
  rcases accepted with ⟨_, _, _, _, _, _, data, _, _, _, assigned⟩
  have noAssignments : getOptWithValidation (observationJsonOf suggestionId reported) "assignments" .object =
      .ok none := rfl
  have suggested : getOptWithValidation (observationJsonOf suggestionId reported) "suggestion" idType =
      .ok (some (suggestionId : ℤ)) := rfl
  rw [setObservationDataAssignmentsTaskFromJson, noAssignments, ok_bind, suggested, ok_bind] at assigned
  rcases bind_eq_ok.mp assigned with ⟨_, _, isSet⟩
  unfold setObservationSuggestion at isSet
  cases found : (observationSections calls experiment store).findSuggestion (suggestionId : ℤ) with
  | none =>
      rw [found] at isSet
      cases isSet
  | some suggestion =>
      rw [found] at isSet
      cases isSet
      exact congrArg some (findSuggestionOf_id found)

theorem view_insertObservation (store : Store) (experimentId : Nat) (timestamp : Int) {observation : Observation}
    {suggestionId : Nat} (ofSuggestion : observation.processedSuggestionId = some suggestionId) :
    (store.insertObservation experimentId timestamp observation).view = store.view.insertObservation suggestionId := by
  simp [Store.view, Store.insertObservation, View.insertObservation, ObservationRow.view,
    ObservationRow.processedSuggestionId, ofSuggestion]

theorem view_writeBack (store : Store) (trainingRunId observationId : Nat) :
    (store.updateTrainingRun trainingRunId fun run => { run with observationId := some observationId }).view =
      store.view.writeBack trainingRunId observationId := by
  have same : (store.updateTrainingRun trainingRunId fun run =>
      { run with observationId := some observationId }).trainingRuns.map TrainingRun.view =
        (store.view.writeBack trainingRunId observationId).runs :=
    Rows.map_update (fun _ => Iff.rfl) fun _ => rfl
  rw [Store.view, same]
  rfl

theorem proper_createObservationFromSuggestion (experiment : Experiment) {run : TrainingRun} {suggestionId : Nat}
    (ofRun : suggestionOf run.id = some suggestionId) :
    Starts (createObservationFromSuggestion calls now experiment run suggestionId) ∧
      Proper suggestionOf (createObservationFromSuggestion calls now experiment run suggestionId) := by
  have read : Quiet suggestionOf (fun created : Except RunError Observation => ∀ observation,
      created = .ok observation → observation.processedSuggestionId = some suggestionId)
      (.read .plain fun store => observationOfRun calls experiment run.trainingRunData suggestionId store) :=
    quiet_read fun store _ observation created => observationOfRun_suggestion created
  apply read.proper_bind
  intro created ofSuggestion
  have checked : Quiet suggestionOf (fun observation : Observation =>
      observation.processedSuggestionId = some suggestionId) (.ofExcept created) :=
    quiet_ofExcept ofSuggestion
  apply checked.proper_bind
  intro observation isOf
  constructor
  · intro _ _ impossible
    cases impossible
  · refine ⟨suggestionId, ofRun, fun store => view_insertObservation store experiment.id now isOf, ?_⟩
    intro store
    refine ⟨rfl, fun after => view_writeBack after run.id store.nextObservationId, ?_⟩
    intro _
    refine ⟨?_, trivial⟩
    intro _ _ impossible
    cases impossible

theorem proper_ensureObservationExists (experiment : Option Experiment) {run : TrainingRun}
    (ofRun : run.suggestionId = suggestionOf run.id) :
    Starts (ensureObservationExists calls now experiment run) ∧
      Proper suggestionOf (ensureObservationExists calls now experiment run) := by
  have nothing : Starts (pure () : RunProcess Unit) ∧ Proper suggestionOf (pure () : RunProcess Unit) :=
    ⟨fun _ _ impossible => (nomatch impossible), trivial⟩
  unfold ensureObservationExists
  cases experiment with
  | none => exact nothing
  | some experiment =>
      cases awaited : awaitedSuggestion run with
      | none => exact nothing
      | some suggestionId =>
          have isSuggestion := (awaitedSuggestion_iff.mp awaited).2
          apply (plain_read _).proper_bind
          intro found _
          cases found with
          | none => exact nothing
          | some suggestion =>
              dsimp only
              split
              · exact proper_createObservationFromSuggestion experiment (ofRun.symm.trans isSuggestion)
              · exact nothing

theorem proper_handle (trainingRunId : Nat) (mergeObjects : Bool) (params : TrainingRunRequestParams) :
    Starts (handle calls now trainingRunId mergeObjects params) ∧
      Proper suggestionOf (handle calls now trainingRunId mergeObjects params) := by
  apply (quiet_checkRequest trainingRunId params).proper_bind
  intro checked _
  apply (quiet_updateDeleted _ _).proper_bind
  intro _ _
  apply (quiet_emitUpdate _ _).proper_bind
  intro _ _
  apply (quiet_findTrainingRun _ _).proper_bind
  intro run ofRun
  have ensure : Starts (ensureObservationIfCompleted calls now checked.experiment run) ∧
      Proper suggestionOf (ensureObservationIfCompleted calls now checked.experiment run) := by
    rw [ensureObservationIfCompleted]
    split
    · apply both_bind (proper_ensureObservationExists checked.experiment ofRun)
      intro _
      exact (quiet_findTrainingRun _ _).proper
    · refine ⟨?_, trivial⟩
      intro _ _ impossible
      cases impossible
  apply both_bind ensure
  intro answer
  refine ⟨?_, trivial⟩
  intro _ _ impossible
  cases impossible

theorem quiet_deleteHandle (trainingRunId : Nat) :
    Quiet suggestionOf (fun _ => True) (deleteHandle now trainingRunId) := by
  apply (quiet_findTrainingRun _ _).bind
  intro run _
  apply (quiet_findProject run).followed
  intro project
  apply (quiet_findClient run).followed
  intro _
  apply (quiet_setDeleted _ _).followed
  intro _
  trivial

theorem view_deleteTrainingRuns (store : Store) (experimentId : Nat) :
    (store.deleteTrainingRuns experimentId).view = store.view := by
  have same : (store.deleteTrainingRuns experimentId).trainingRuns.map TrainingRun.view =
      store.trainingRuns.map TrainingRun.view := Rows.update_keys fun _ _ _ => rfl
  rw [Store.view, same]
  rfl

theorem quiet_deleteExperimentHandle (experimentId : Nat) (includeRuns : Bool) :
    Quiet suggestionOf (fun _ => True) (deleteExperimentHandle now experimentId includeRuns) := by
  have found : Quiet suggestionOf (fun _ => True) (findAiExperiment experimentId) := by
    apply (plain_read _).followed
    intro found
    cases found with
    | none => trivial
    | some experiment =>
        dsimp only
        split <;> trivial
  apply found.followed
  intro experiment
  have last : Quiet suggestionOf (fun _ => True) (.write .plain fun store =>
      store.deleteExperiment experiment.id now) := quiet_write fun _ => rfl
  cases includeRuns with
  | false => exact last
  | true =>
      have runs : Quiet suggestionOf (fun _ => True) (deleteRunsInExperiment now experiment) := by
        apply (quiet_write fun store => view_deleteTrainingRuns store experiment.id).followed
        intro _
        apply (quiet_write fun _ => rfl).followed
        intro _
        apply (plain_read _).followed
        intro old
        apply (quiet_write fun store => view_updateObservations store _).followed
        intro _
        exact quiet_write fun _ => rfl
      exact runs.followed fun _ => last

end Requests

/-! ### Requests that take turns -/

inductive RunRequest where
  | update (now : Int) (trainingRunId : Nat) (mergeObjects : Bool) (params : TrainingRunRequestParams)
  | delete (now : Int) (trainingRunId : Nat)
  | deleteExperiment (now : Int) (experimentId : Nat) (includeRuns : Bool)

def processOf (calls : Calls) : RunRequest → RunProcess Unit
  | .update now trainingRunId mergeObjects params => do
      let _ ← handle calls now trainingRunId mergeObjects params
      pure ()
  | .delete now trainingRunId => do
      let _ ← deleteHandle now trainingRunId
      pure ()
  | .deleteExperiment now experimentId includeRuns => deleteExperimentHandle now experimentId includeRuns

/-- Every request begins with its reads and inserts an observation only for the suggestion of its run. -/
theorem proper_processOf (calls : Calls) (suggestionOf : Nat → Option Nat) (request : RunRequest) :
    Starts (processOf calls request) ∧ Proper suggestionOf (processOf calls request) := by
  have answered {α : Type} (_ : α) : Starts (pure () : RunProcess Unit) ∧
      Proper suggestionOf (pure () : RunProcess Unit) :=
    ⟨fun _ _ impossible => (nomatch impossible), trivial⟩
  cases request with
  | update now trainingRunId mergeObjects params =>
      exact both_bind (proper_handle trainingRunId mergeObjects params) answered
  | delete now trainingRunId => exact both_bind (quiet_deleteHandle trainingRunId).proper answered
  | deleteExperiment now experimentId includeRuns => exact (quiet_deleteExperimentHandle experimentId includeRuns).proper

/-- The store with the requests in flight, each stopped between two of its statements. -/
abbrev Concurrent := InFlight.Configuration Store (RunProcess Unit)

abbrev ConcurrentEvent := InFlight.Event RunRequest Bool Empty

/-- A request may be interrupted before any of its statements. -/
def server (calls : Calls) : InFlight.Server Store RunRequest (RunProcess Unit) Bool Empty :=
  Process.server (processOf calls) fun _ impossible => nomatch impossible

/-- The observation that a request is about to make the run refer to. -/
def writingBack (trainingRunId : Nat) (process : RunProcess Unit) : Option Nat :=
  match process.label? with
  | some (.writesBack other observationId) => if other = trainingRunId then some observationId else none
  | _ => none

def pending (trainingRunId : Nat) (inFlight : List (RunProcess Unit)) : List Nat :=
  inFlight.filterMap (writingBack trainingRunId)

/-- At most one observation has been created of the suggestion of the run, and if no request is about to write
    it back, the run refers to it. -/
def ObservedOnce (trainingRunId : Nat) (suggestion : Option Nat) (configuration : Concurrent) : Prop :=
  (configuration.store.view.created suggestion).length ≤ 1 ∧
    (pending trainingRunId configuration.inFlight = [] →
      configuration.store.view.created suggestion =
        (configuration.store.view.observationOf trainingRunId).toList)

/-- A request that inserts an observation of the run finds the run without one, with no other request about to
    write one back; and no request is interrupted that is about to. -/
def Exclusive (trainingRunId : Nat) (configuration : Concurrent) : ConcurrentEvent → Prop
  | .step position interrupted =>
      match configuration.inFlight[position]?.bind Process.label? with
      | some (.insertsObservation other) => other = trainingRunId → interrupted = false →
          configuration.store.view.observationOf trainingRunId = none ∧
            pending trainingRunId configuration.inFlight = []
      | some (.writesBack other _) => other = trainingRunId → interrupted = false
      | _ => True
  | _ => True

/-! ### The view after a statement -/

namespace View

variable {view : View}

theorem created_insertObservation (suggestion : Option Nat) (other : Nat) :
    (view.insertObservation other).created suggestion =
      view.created suggestion ++ if some other = suggestion then [view.nextObservationId] else [] := by
  rw [created, insertObservation, created, List.filter_append, List.map_append]
  by_cases same : some other = suggestion
  · simp [← same]
  · simp [same]

theorem observationOf_writeBack_self {trainingRunId : Nat} (stored : trainingRunId ∈ view.runs.map RunView.id)
    (observationId : Nat) :
    (view.writeBack trainingRunId observationId).observationOf trainingRunId = some observationId := by
  have keepsFilter : ∀ run : RunView, run.id = trainingRunId →
      decide (({ run with observationId := some observationId } : RunView).id = trainingRunId) =
        decide (run.id = trainingRunId) := fun _ _ => rfl
  rw [observationOf, writeBack, Rows.find_update keepsFilter]
  rcases List.mem_map.mp stored with ⟨run, member, isRun⟩
  cases found : view.runs.find? fun run => run.id = trainingRunId with
  | none => exact absurd (decide_eq_true isRun) (List.find?_eq_none.mp found run member)
  | some other =>
      have named := List.find?_some found
      rw [Option.map_some, if_pos (of_decide_eq_true named), Option.bind_some]

theorem observationOf_writeBack_of_ne {trainingRunId other : Nat} (different : other ≠ trainingRunId)
    (observationId : Nat) :
    (view.writeBack other observationId).observationOf trainingRunId = view.observationOf trainingRunId := by
  have keepsFilter : ∀ run : RunView, run.id = other →
      decide (({ run with observationId := some observationId } : RunView).id = trainingRunId) =
        decide (run.id = trainingRunId) := fun _ _ => rfl
  rw [observationOf, writeBack, Rows.find_update keepsFilter, observationOf]
  cases found : view.runs.find? fun run => run.id = trainingRunId with
  | none => rfl
  | some run =>
      have named := List.find?_some found
      rw [Option.map_some, if_neg fun isOther => different (isOther.symm.trans (of_decide_eq_true named))]

theorem runs_writeBack (trainingRunId observationId : Nat) {run : RunView}
    (member : run ∈ (view.writeBack trainingRunId observationId).runs) :
    ∃ old ∈ view.runs, run.id = old.id ∧ run.suggestionId = old.suggestionId := by
  rcases Rows.mem_update.mp member with ⟨old, oldMember, rfl⟩
  refine ⟨old, oldMember, ?_⟩
  split
  · exact ⟨rfl, rfl⟩
  · exact ⟨rfl, rfl⟩

theorem ids_writeBack (trainingRunId observationId : Nat) :
    (view.writeBack trainingRunId observationId).runs.map RunView.id = view.runs.map RunView.id :=
  Rows.update_keys fun _ _ _ => rfl

end View

theorem consistent_of_view {suggestionOf : Nat → Option Nat} {before after : Store}
    (same : after.view.runs = before.view.runs) (consistent : Consistent suggestionOf before) :
    Consistent suggestionOf after := by
  rw [Consistent, same]
  exact consistent

theorem consistent_writeBack {suggestionOf : Nat → Option Nat} {before after : Store}
    {trainingRunId observationId : Nat} (written : after.view = before.view.writeBack trainingRunId observationId)
    (consistent : Consistent suggestionOf before) : Consistent suggestionOf after := by
  intro run member
  rw [written] at member
  rcases View.runs_writeBack _ _ member with ⟨old, oldMember, sameId, sameSuggestion⟩
  rw [sameId, sameSuggestion]
  exact consistent old oldMember

/-! ### The requests in flight -/

section InFlight

variable {trainingRunId : Nat}

theorem writingBack_of_starts {process : RunProcess Unit} (starts : Starts process) :
    writingBack trainingRunId process = none := by
  unfold writingBack
  split
  · rename_i other observationId isLabel
    exact absurd isLabel (starts other observationId)
  · rfl

theorem writingBack_eq_some {process : RunProcess Unit} {observationId : Nat} :
    writingBack trainingRunId process = some observationId ↔
      process.label? = some (.writesBack trainingRunId observationId) := by
  unfold writingBack
  split
  · rename_i other otherObservation isLabel
    rw [isLabel]
    constructor
    · intro isSome
      split at isSome
      · rename_i isRun
        cases isSome
        rw [isRun]
      · cases isSome
    · intro same
      cases same
      exact if_pos rfl
  · rename_i other
    constructor
    · intro impossible
      cases impossible
    · intro isLabel
      exact absurd isLabel (other trainingRunId observationId)

theorem pending_split (front back : List (RunProcess Unit)) (process : RunProcess Unit) :
    pending trainingRunId (front ++ process :: back) =
      pending trainingRunId front ++ (writingBack trainingRunId process).toList ++ pending trainingRunId back := by
  rw [pending, List.filterMap_append, List.filterMap_cons, pending, pending]
  cases writingBack trainingRunId process with
  | none => simp
  | some observationId => simp

theorem pending_left (front back : List (RunProcess Unit)) (left : Option (RunProcess Unit)) :
    pending trainingRunId (front ++ left.toList ++ back) =
      pending trainingRunId front ++ (left.bind (writingBack trainingRunId)).toList ++
        pending trainingRunId back := by
  cases left with
  | none => simp [pending]
  | some process => simp [pending_split]

end InFlight

/-! ### One step -/

section Step

variable (suggestionOf : Nat → Option Nat) (trainingRunId : Nat) (suggestion : Option Nat)

/-- What is kept for the run: an observation of its suggestion is the one that the run refers to, or a request is
    about to make the run refer to it. -/
structure Good (configuration : Concurrent) : Prop where
  consistent : Consistent suggestionOf configuration.store
  stored : trainingRunId ∈ configuration.store.view.runs.map RunView.id
  proper : ∀ process ∈ configuration.inFlight, Proper suggestionOf process
  balanced : configuration.store.view.created suggestion =
    (configuration.store.view.observationOf trainingRunId).toList ++ pending trainingRunId configuration.inFlight
  single : (configuration.store.view.created suggestion).length ≤ 1

variable {suggestionOf trainingRunId suggestion} {configuration : Concurrent}

theorem Good.observedOnce (good : Good suggestionOf trainingRunId suggestion configuration) :
    ObservedOnce trainingRunId suggestion configuration := by
  refine ⟨good.single, ?_⟩
  intro nonePending
  rw [good.balanced, nonePending, List.append_nil]

theorem proper_left {front back : List (RunProcess Unit)} {process : RunProcess Unit}
    {left : Option (RunProcess Unit)} (proper : ∀ other ∈ front ++ process :: back, Proper suggestionOf other)
    (properLeft : ∀ other ∈ left, Proper suggestionOf other) :
    ∀ other ∈ front ++ left.toList ++ back, Proper suggestionOf other := by
  intro other member
  rcases List.mem_append.mp member with early | inBack
  · rcases List.mem_append.mp early with inFront | isLeft
    · exact proper other (List.mem_append_left _ inFront)
    · exact properLeft other (Option.mem_toList.mp isLeft)
  · exact proper other (List.mem_append_right _ (List.mem_cons_of_mem _ inBack))

/-- A statement that concerns neither the observations of the suggestion nor the reference of the run. -/
theorem Good.unconcerned (good : Good suggestionOf trainingRunId suggestion configuration)
    {front back : List (RunProcess Unit)} {process : RunProcess Unit}
    (split : configuration.inFlight = front ++ process :: back)
    (notWriting : writingBack trainingRunId process = none) {store : Store}
    (consistent : Consistent suggestionOf store)
    (sameIds : store.view.runs.map RunView.id = configuration.store.view.runs.map RunView.id)
    (sameCreated : store.view.created suggestion = configuration.store.view.created suggestion)
    (sameReference : store.view.observationOf trainingRunId =
      configuration.store.view.observationOf trainingRunId)
    {left : Option (RunProcess Unit)} (properLeft : ∀ other ∈ left, Proper suggestionOf other)
    (leftNotWriting : left.bind (writingBack trainingRunId) = none) :
    Good suggestionOf trainingRunId suggestion
      { store := store, inFlight := front ++ left.toList ++ back } where
  consistent := consistent
  stored := by
    rw [sameIds]
    exact good.stored
  proper := by
    have proper := good.proper
    rw [split] at proper
    exact proper_left proper properLeft
  balanced := by
    rw [sameCreated, sameReference, good.balanced, pending_left, leftNotWriting, split, pending_split, notWriting]
  single := by
    rw [sameCreated]
    exact good.single

theorem created_writeBack (view : View) (other observationId : Nat) :
    (view.writeBack other observationId).created suggestion = view.created suggestion := rfl

theorem observationOf_insertObservation (view : View) (other : Nat) :
    (view.insertObservation other).observationOf trainingRunId = view.observationOf trainingRunId := rfl

theorem left_starts {process : RunProcess Unit} (starts : Starts process) :
    (some process).bind (writingBack trainingRunId) = none :=
  writingBack_of_starts starts

/-- The suggestion of the run, which no other run has. -/
structure OwnSuggestion (suggestionOf : Nat → Option Nat) (trainingRunId : Nat) (suggestion : Option Nat) : Prop where
  ofRun : suggestionOf trainingRunId = suggestion
  unique : ∀ other, suggestionOf other = suggestion → suggestion.isSome → other = trainingRunId

/-- The insertion of the observation of a run that has none, with no other one on its way. -/
theorem good_inserts {suggestionId : Nat}
    (good : Good suggestionOf trainingRunId (some suggestionId) configuration)
    {front back : List (RunProcess Unit)} {process left : RunProcess Unit}
    (split : configuration.inFlight = front ++ process :: back)
    (unobserved : configuration.store.view.observationOf trainingRunId = none)
    (nonePending : pending trainingRunId configuration.inFlight = []) {store : Store}
    (inserted : store.view = configuration.store.view.insertObservation suggestionId)
    (properLeft : Proper suggestionOf left)
    (writes : left.label? = some (.writesBack trainingRunId configuration.store.nextObservationId)) :
    Good suggestionOf trainingRunId (some suggestionId)
      { store := store, inFlight := front ++ (some left).toList ++ back } := by
  have createdNone : configuration.store.view.created (some suggestionId) = [] := by
    rw [good.balanced, unobserved, nonePending]
    rfl
  have createdOne : store.view.created (some suggestionId) = [configuration.store.nextObservationId] := by
    rw [inserted, View.created_insertObservation, createdNone, if_pos rfl]
    rfl
  rw [split, pending_split] at nonePending
  rcases List.append_eq_nil_iff.mp nonePending with ⟨early, pendingBack⟩
  have pendingFront := (List.append_eq_nil_iff.mp early).1
  constructor
  · apply consistent_of_view _ good.consistent
    rw [inserted]
    rfl
  · rw [inserted]
    exact good.stored
  · have proper := good.proper
    rw [split] at proper
    apply proper_left proper
    intro other isLeft
    cases isLeft
    exact properLeft
  · rw [createdOne, inserted, observationOf_insertObservation, unobserved, pending_left, pendingFront, pendingBack,
      Option.bind_some, writingBack_eq_some.mpr writes]
    rfl
  · rw [createdOne]
    exact Nat.le_refl 1

/-- While a request is about to write an observation back, there is no other observation of the run. -/
theorem Good.writing (good : Good suggestionOf trainingRunId suggestion configuration)
    {front back : List (RunProcess Unit)} {process : RunProcess Unit} {observationId : Nat}
    (split : configuration.inFlight = front ++ process :: back)
    (writes : process.label? = some (.writesBack trainingRunId observationId)) :
    configuration.store.view.created suggestion = [observationId] ∧
      configuration.store.view.observationOf trainingRunId = none ∧
      pending trainingRunId front = [] ∧ pending trainingRunId back = [] := by
  have balanced := good.balanced
  have single := good.single
  rw [split, pending_split, writingBack_eq_some.mpr writes] at balanced
  rw [balanced] at single
  simp only [List.length_append, Option.toList_some, List.length_singleton] at single
  have unobserved : (configuration.store.view.observationOf trainingRunId).toList = [] :=
    List.length_eq_zero_iff.mp (by omega)
  have pendingFront : pending trainingRunId front = [] := List.length_eq_zero_iff.mp (by omega)
  have pendingBack : pending trainingRunId back = [] := List.length_eq_zero_iff.mp (by omega)
  refine ⟨?_, Option.toList_eq_nil_iff.mp unobserved, pendingFront, pendingBack⟩
  rw [balanced, unobserved, pendingFront, pendingBack]
  rfl

/-- The update that makes the run refer to the observation that has been inserted for it. -/
theorem good_writesBack (good : Good suggestionOf trainingRunId suggestion configuration)
    {front back : List (RunProcess Unit)} {process left : RunProcess Unit} {observationId : Nat}
    (split : configuration.inFlight = front ++ process :: back)
    (writes : process.label? = some (.writesBack trainingRunId observationId)) {store : Store}
    (written : store.view = configuration.store.view.writeBack trainingRunId observationId)
    (properLeft : Proper suggestionOf left) (starts : Starts left) :
    Good suggestionOf trainingRunId suggestion
      { store := store, inFlight := front ++ (some left).toList ++ back } := by
  rcases good.writing split writes with ⟨createdOne, _, pendingFront, pendingBack⟩
  constructor
  · exact consistent_writeBack written good.consistent
  · rw [written, View.ids_writeBack]
    exact good.stored
  · have proper := good.proper
    rw [split] at proper
    apply proper_left proper
    intro other isLeft
    cases isLeft
    exact properLeft
  · rw [written, created_writeBack, createdOne, View.observationOf_writeBack_self good.stored, pending_left,
      left_starts starts, pendingFront, pendingBack]
    rfl
  · rw [written, created_writeBack, createdOne]
    exact Nat.le_refl 1

theorem exclusive_of_label {event : Bool} {position : Nat} {process : RunProcess Unit}
    (found : configuration.inFlight[position]? = some process) :
    Exclusive trainingRunId configuration (.step position event) ↔
      match process.label? with
      | some (.insertsObservation other) => other = trainingRunId → event = false →
          configuration.store.view.observationOf trainingRunId = none ∧
            pending trainingRunId configuration.inFlight = []
      | some (.writesBack other _) => other = trainingRunId → event = false
      | _ => True := by
  simp only [Exclusive, found, Option.bind_some]

/-- A request that ends without a further statement. -/
theorem good_ends (good : Good suggestionOf trainingRunId suggestion configuration)
    {front back : List (RunProcess Unit)} {process : RunProcess Unit}
    (split : configuration.inFlight = front ++ process :: back)
    (notWriting : writingBack trainingRunId process = none) :
    Good suggestionOf trainingRunId suggestion
      { store := configuration.store, inFlight := front ++ (none : Option (RunProcess Unit)).toList ++ back } :=
  good.unconcerned split notWriting good.consistent rfl rfl rfl (fun _ impossible => nomatch impossible) rfl

/-- The next statement of a request, which is not interrupted. -/
theorem good_advance (own : OwnSuggestion suggestionOf trainingRunId suggestion)
    (good : Good suggestionOf trainingRunId suggestion configuration) {position : Nat}
    {process : RunProcess Unit} (found : configuration.inFlight[position]? = some process)
    (exclusive : Exclusive trainingRunId configuration (.step position false))
    {front back : List (RunProcess Unit)} (split : configuration.inFlight = front ++ process :: back) :
    Good suggestionOf trainingRunId suggestion
      { store := (process.advance configuration.store).1
        inFlight := front ++ (process.advance configuration.store).2.toList ++ back } := by
  rw [exclusive_of_label found] at exclusive
  have proper := good.proper process (List.mem_of_getElem? found)
  cases process with
  | returned value => exact good_ends good split rfl
  | raised failure => exact good_ends good split rfl
  | statement label change next =>
      cases label with
      | plain =>
          rcases proper.2 configuration.store good.consistent with ⟨starts, properLeft⟩
          have sameView := proper.1 configuration.store
          have consistent := consistent_of_view (congrArg View.runs sameView) good.consistent
          apply good.unconcerned split rfl consistent
          · exact congrArg (fun view => view.runs.map RunView.id) sameView
          · exact congrArg (View.created · suggestion) sameView
          · exact congrArg (View.observationOf · trainingRunId) sameView
          · intro other isLeft
            cases isLeft
            exact properLeft
          · exact left_starts starts
      | insertsObservation other =>
          rcases proper with ⟨otherSuggestion, ofRun, inserts, properNext⟩
          rcases properNext configuration.store with ⟨writes, properLeft⟩
          have inserted := inserts configuration.store
          by_cases isRun : other = trainingRunId
          · rcases exclusive isRun rfl with ⟨unobserved, nonePending⟩
            subst isRun
            have isSuggestion : some otherSuggestion = suggestion := ofRun.symm.trans own.ofRun
            subst isSuggestion
            exact good_inserts good split unobserved nonePending inserted properLeft writes
          · have otherRows : some otherSuggestion ≠ suggestion := by
              rintro rfl
              exact isRun (own.unique other ofRun rfl)
            have leftNotWriting : (some (next configuration.store)).bind (writingBack trainingRunId) = none := by
              rw [Option.bind_some, writingBack, writes]
              exact if_neg isRun
            have consistent : Consistent suggestionOf (change configuration.store) := by
              apply consistent_of_view _ good.consistent
              rw [inserted]
              rfl
            apply good.unconcerned split rfl consistent
            · rw [inserted]
              rfl
            · rw [inserted, View.created_insertObservation, if_neg otherRows, List.append_nil]
            · rw [inserted, observationOf_insertObservation]
            · intro process isLeft
              cases isLeft
              exact properLeft
            · exact leftNotWriting
      | writesBack other observationId =>
          rcases proper.2 configuration.store with ⟨starts, properLeft⟩
          have written := proper.1 configuration.store
          by_cases isRun : other = trainingRunId
          · subst isRun
            exact good_writesBack good split rfl written properLeft starts
          · have notWriting : writingBack trainingRunId (.statement (.writesBack other observationId) change next) =
                none := if_neg isRun
            apply good.unconcerned split notWriting (consistent_writeBack written good.consistent)
            · rw [written, View.ids_writeBack]
            · rw [written, created_writeBack]
            · rw [written, View.observationOf_writeBack_of_ne isRun]
            · intro process isLeft
              cases isLeft
              exact properLeft
            · exact left_starts starts

theorem notWriting_of_interrupted {position : Nat} {process : RunProcess Unit}
    (found : configuration.inFlight[position]? = some process)
    (exclusive : Exclusive trainingRunId configuration (.step position true)) :
    writingBack trainingRunId process = none := by
  cases writing : writingBack trainingRunId process with
  | none => rfl
  | some observationId =>
      rw [exclusive_of_label found, writingBack_eq_some.mp writing] at exclusive
      exact absurd (exclusive rfl) (by simp)

/-- One statement of any request keeps the count of the suggestion's observations at one or fewer. -/
theorem good_next (calls : Calls) (own : OwnSuggestion suggestionOf trainingRunId suggestion)
    (good : Good suggestionOf trainingRunId suggestion configuration) {event : ConcurrentEvent}
    (exclusive : Exclusive trainingRunId configuration event) :
    Good suggestionOf trainingRunId suggestion (InFlight.next (server calls) configuration event) := by
  cases event with
  | environment change => exact nomatch change
  | receive request =>
      rcases proper_processOf calls suggestionOf request with ⟨starts, proper⟩
      have pendingSame : pending trainingRunId (configuration.inFlight ++ [processOf calls request]) =
          pending trainingRunId configuration.inFlight := by
        rw [pending_split, writingBack_of_starts starts]
        simp [pending]
      exact {
        consistent := good.consistent
        stored := good.stored
        proper := by
          intro process member
          rcases List.mem_append.mp member with before | new
          · exact good.proper process before
          · rw [List.mem_singleton.mp new]
            exact proper
        balanced := good.balanced.trans (congrArg _ pendingSame.symm)
        single := good.single }
  | step position interrupted =>
      cases found : configuration.inFlight[position]? with
      | none =>
          rw [InFlight.next_step_none found]
          exact good
      | some process =>
          rcases InFlight.next_step (server calls) found interrupted with ⟨front, back, split, isNext⟩
          rw [isNext]
          cases interrupted with
          | true => exact good_ends good split (notWriting_of_interrupted found exclusive)
          | false => exact good_advance own good found exclusive split

theorem created_advance (own : OwnSuggestion suggestionOf trainingRunId suggestion)
    {process : RunProcess Unit} (proper : Proper suggestionOf process)
    (inserts : process.label? = some (.insertsObservation trainingRunId)) (store : Store) :
    (process.advance store).1.view.created suggestion =
      store.view.created suggestion ++ [store.nextObservationId] := by
  cases process with
  | returned value => cases inserts
  | raised failure => cases inserts
  | statement label change next =>
      cases inserts
      rcases proper with ⟨otherSuggestion, ofRun, inserted, _⟩
      have isSuggestion : some otherSuggestion = suggestion := ofRun.symm.trans own.ofRun
      rw [Process.advance, inserted, View.created_insertObservation, if_pos isSuggestion]
      rfl

/-- A step after which there is one observation at most, and the run refers to it, was exclusive. -/
theorem exclusive_of_observedOnce (calls : Calls) (own : OwnSuggestion suggestionOf trainingRunId suggestion)
    (good : Good suggestionOf trainingRunId suggestion configuration) {event : ConcurrentEvent}
    (once : ObservedOnce trainingRunId suggestion (InFlight.next (server calls) configuration event)) :
    Exclusive trainingRunId configuration event := by
  cases event with
  | environment change => exact nomatch change
  | receive request => trivial
  | step position interrupted =>
      cases found : configuration.inFlight[position]? with
      | none => simp [Exclusive, found]
      | some process =>
          rcases InFlight.next_step (server calls) found interrupted with ⟨front, back, split, isNext⟩
          rw [isNext] at once
          rw [exclusive_of_label found]
          have proper := good.proper process (List.mem_of_getElem? found)
          have balanced := good.balanced
          split
          · rename_i other isLabel
            rintro rfl rfl
            have inserted := created_advance own proper isLabel configuration.store
            have few := once.1
            dsimp only [server, Process.server] at few
            rw [if_neg Bool.false_ne_true, inserted, List.length_append, List.length_singleton] at few
            have createdNone : configuration.store.view.created suggestion = [] :=
              List.length_eq_zero_iff.mp (by omega)
            rw [balanced] at createdNone
            rcases List.append_eq_nil_iff.mp createdNone with ⟨unobserved, nonePending⟩
            exact ⟨Option.toList_eq_nil_iff.mp unobserved, nonePending⟩
          · rename_i other observationId isLabel
            rintro rfl
            cases interrupted with
            | false => rfl
            | true =>
                rcases good.writing split isLabel with ⟨createdOne, unobserved, pendingFront, pendingBack⟩
                have settled := once.2
                dsimp only [server, Process.server] at settled
                rw [if_pos rfl, createdOne, unobserved, pending_left, pendingFront, pendingBack] at settled
                exact absurd (settled rfl) (by simp)
          · trivial

end Step

/-! ### Runs of the server -/

section Runs

/-- The suggestion of a stored run. -/
def suggestionIn (store : Store) (trainingRunId : Nat) : Option Nat :=
  (store.findTrainingRun trainingRunId).bind TrainingRun.suggestionId

/-- No two runs have the same id or the same suggestion, and the observation of the run is the one that has been
    created of its suggestion, if there is one: in an experiment of runs, no other request creates observations. -/
structure Settled (trainingRunId : Nat) (store : Store) : Prop where
  keyed : Rows.Keyed TrainingRun.id store.trainingRuns
  uniqueSuggestions : ∀ first ∈ store.trainingRuns, ∀ second ∈ store.trainingRuns, first.suggestionId.isSome →
    first.suggestionId = second.suggestionId → first.id = second.id
  stored : trainingRunId ∈ store.trainingRuns.map TrainingRun.id
  observed : store.view.created (suggestionIn store trainingRunId) =
    (store.view.observationOf trainingRunId).toList

variable {trainingRunId : Nat} {store : Store}

/-- In a settled store each suggestion belongs to one run. -/
theorem Settled.own (settled : Settled trainingRunId store) :
    OwnSuggestion (suggestionIn store) trainingRunId (suggestionIn store trainingRunId) where
  ofRun := rfl
  unique := by
    intro other same isSuggestion
    rw [← same] at isSuggestion
    cases foundOther : store.findTrainingRun other with
    | none =>
        rw [suggestionIn, foundOther] at isSuggestion
        cases isSuggestion
    | some otherRun =>
        have otherSuggestion : suggestionIn store other = otherRun.suggestionId := by
          rw [suggestionIn, foundOther]
          rfl
        rw [otherSuggestion] at same isSuggestion
        cases found : store.findTrainingRun trainingRunId with
        | none =>
            rw [suggestionIn, found] at same
            rw [same] at isSuggestion
            cases isSuggestion
        | some run =>
            have runSuggestion : suggestionIn store trainingRunId = run.suggestionId := by
              rw [suggestionIn, found]
              rfl
            rw [runSuggestion] at same
            rcases (Rows.findKey_iff settled.keyed).mp foundOther with ⟨otherMember, isOther⟩
            rcases (Rows.findKey_iff settled.keyed).mp found with ⟨member, isRun⟩
            have sameId := settled.uniqueSuggestions otherRun otherMember run member isSuggestion same
            exact isOther.symm.trans (sameId.trans isRun)

theorem Settled.good (settled : Settled trainingRunId store) :
    Good (suggestionIn store) trainingRunId (suggestionIn store trainingRunId) { store := store, inFlight := [] } where
  consistent := by
    intro view member
    rcases List.mem_map.mp member with ⟨run, runMember, rfl⟩
    have found : store.findTrainingRun run.id = some run := (Rows.findKey_iff settled.keyed).mpr ⟨runMember, rfl⟩
    change run.suggestionId = suggestionIn store run.id
    rw [suggestionIn, found, Option.bind_some]
  stored := by
    have stored := settled.stored
    rw [Store.view, List.map_map]
    exact stored
  proper := fun _ impossible => nomatch impossible
  balanced := by
    rw [settled.observed, pending, List.filterMap_nil, List.append_nil]
  single := by
    change (store.view.created _).length ≤ 1
    rw [settled.observed]
    cases store.view.observationOf trainingRunId with
    | none => exact Nat.zero_le 1
    | some observationId => exact Nat.le_refl 1

/-- Whatever the order of the statements of any requests, the run gets one observation at most and refers to it
    as long as, and only as long as, each insertion finds the run without an observation and without another one
    on its way, and no request is interrupted between its insertion and the update that follows. -/
theorem observed_once_iff (calls : Calls) (settled : Settled trainingRunId store) (events : List ConcurrentEvent) :
    (∀ configuration ∈ (InFlight.run (server calls) { store := store, inFlight := [] } events).map Prod.snd,
        ObservedOnce trainingRunId (suggestionIn store trainingRunId) configuration) ↔
      Trace.Every (fun before event _ => Exclusive trainingRunId before event) { store := store, inFlight := [] }
        (InFlight.run (server calls) { store := store, inFlight := [] } events) := by
  rw [← Trace.every_state_iff]
  apply Trace.every_iff _ _ (Good (suggestionIn store) trainingRunId (suggestionIn store trainingRunId)) _ _
    settled.good (Trace.every_play (InFlight.next (server calls)) _ events)
  · rintro before event after good rfl
    constructor
    · exact exclusive_of_observedOnce calls settled.own good
    · intro exclusive
      exact (good_next calls settled.own good exclusive).observedOnce
  · rintro before event after good rfl once
    exact good_next calls settled.own good (exclusive_of_observedOnce calls settled.own good once)

end Runs

/-! ### Two requests that complete one run -/

def storeWithActiveRun : Store where
  clients := [1]
  experiments := [{
    id := 1, clientId := 1, projectId := some 1, dateUpdated := 0, allMetrics := { metrics := [{ name := "acc" }] } }]
  projects := [{ id := 1, clientId := 1, referenceId := "project" }]
  trainingRuns := [{
    id := 1, clientId := 1, projectId := 1, experimentId := some 1, suggestionId := some 1, updated := 0
    trainingRunData := [] }]
  processedSuggestions := [{ suggestionId := 1, experimentId := 1, automatic := true, assignmentsMap := [] }]

/-- `{"state": "completed"}`. -/
def completion : RunRequest := .update 1 1 true { trainingRunDataJson := [("s", .number 1)] }

/-- Both requests read the run before either has written its observation back. -/
def interleavedCompletions : List ConcurrentEvent :=
  [.receive completion, .receive completion] ++ (List.replicate 9 [.step 0 false, .step 1 false]).flatten

theorem settled_storeWithActiveRun : Settled 1 storeWithActiveRun where
  keyed := by decide
  uniqueSuggestions := by decide
  stored := by decide
  observed := by decide

/-- Two observations are created, and the second one replaces the first as the observation of the run. -/
theorem interleavedCompletions_observe_twice :
    ¬∀ configuration ∈ (InFlight.run (server plainCalls) { store := storeWithActiveRun, inFlight := [] }
        interleavedCompletions).map Prod.snd,
      ObservedOnce 1 (suggestionIn storeWithActiveRun 1) configuration := by
  intro once
  have twice : ∃ step ∈ InFlight.run (server plainCalls) { store := storeWithActiveRun, inFlight := [] }
      interleavedCompletions, (step.2.store.view.created (suggestionIn storeWithActiveRun 1)).length = 2 := by
    decide +kernel
  rcases twice with ⟨step, member, two⟩
  have atMostOne := (once step.2 (List.mem_map_of_mem member)).1
  omega

/-- Two completions of one run that overlap: the condition fails, and so does the property. -/
theorem observed_once_iff_interleavedCompletions :
    (∀ configuration ∈ (InFlight.run (server plainCalls) { store := storeWithActiveRun, inFlight := [] }
        interleavedCompletions).map Prod.snd,
      ObservedOnce 1 (suggestionIn storeWithActiveRun 1) configuration) ↔
      Trace.Every (fun before event _ => Exclusive 1 before event) { store := storeWithActiveRun, inFlight := [] }
        (InFlight.run (server plainCalls) { store := storeWithActiveRun, inFlight := [] } interleavedCompletions) :=
  observed_once_iff plainCalls settled_storeWithActiveRun interleavedCompletions

end Zigopt.TrainingRuns
