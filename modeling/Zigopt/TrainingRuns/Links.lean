/-
Module: Zigopt.TrainingRuns.Links
Layer: Proofs
Purpose: Which rows refer to which: a run refers to its experiment, to its suggestion and to its observation. The
  keys of the tables and these references stay sound under every statement, and most statements leave them
  exactly as they are.
Main exports: Links, Links.Sound, Store.links, Sound.addSuggestion, Sound.addObservation, Sound.addRun,
  Sound.setObservation
-/
import Mathlib.Tactic.Common
import Zigopt.TrainingRuns.Create

namespace Zigopt.TrainingRuns

structure RunLink where
  id : Nat
  experimentId : Option Nat
  suggestionId : Option Nat
  observationId : Option Nat

/-- The keys and references of a store; of a suggestion and of an observation its id and its experiment. -/
structure Links where
  experiments : List Nat
  runs : List RunLink
  suggestions : List (Nat × Nat)
  observations : List (Nat × Nat)
  nextTrainingRunId : Nat
  nextObservationId : Nat

namespace Links

/-- The foreign keys of the store, and that the sequences give ids that no row has. -/
structure Sound (links : Links) : Prop where
  runsKeyed : Rows.Keyed RunLink.id links.runs
  runIds : ∀ run ∈ links.runs, run.id < links.nextTrainingRunId
  suggestionsKeyed : Rows.Keyed Prod.fst links.suggestions
  observationsKeyed : Rows.Keyed Prod.fst links.observations
  observationIds : ∀ row ∈ links.observations, row.1 < links.nextObservationId
  experimentFound : ∀ run ∈ links.runs, ∀ id, run.experimentId = some id → id ∈ links.experiments
  /-- A suggestion and an observation are of the experiment of their run. -/
  suggestionFound : ∀ run ∈ links.runs, ∀ id, run.suggestionId = some id →
    ∃ experimentId, run.experimentId = some experimentId ∧ (id, experimentId) ∈ links.suggestions
  observationFound : ∀ run ∈ links.runs, ∀ id, run.observationId = some id →
    ∃ experimentId, run.experimentId = some experimentId ∧ (id, experimentId) ∈ links.observations
  /-- No two runs share one. -/
  suggestionOwned : ∀ first ∈ links.runs, ∀ second ∈ links.runs, ∀ id,
    first.suggestionId = some id → second.suggestionId = some id → first.id = second.id
  observationOwned : ∀ first ∈ links.runs, ∀ second ∈ links.runs, ∀ id,
    first.observationId = some id → second.observationId = some id → first.id = second.id

variable {links : Links}

/-- A suggestion under a new id keeps the foreign keys. -/
theorem Sound.addSuggestion (sound : Sound links) {id experimentId : Nat}
    (fresh : ∀ row ∈ links.suggestions, row.1 ≠ id) :
    Sound { links with suggestions := links.suggestions ++ [(id, experimentId)] } :=
  { sound with
    suggestionsKeyed := Rows.keyed_append sound.suggestionsKeyed fresh
    suggestionFound := by
      intro run member suggestionId suggested
      rcases sound.suggestionFound run member suggestionId suggested with ⟨ofExperiment, isOf, found⟩
      exact ⟨ofExperiment, isOf, List.mem_append_left _ found⟩ }

/-- An observation under the next id of its sequence keeps the foreign keys. -/
theorem Sound.addObservation (sound : Sound links) (experimentId : Nat) :
    Sound { links with
      observations := links.observations ++ [(links.nextObservationId, experimentId)]
      nextObservationId := links.nextObservationId + 1 } :=
  { sound with
    observationsKeyed :=
      Rows.keyed_append sound.observationsKeyed fun row member => (sound.observationIds row member).ne
    observationIds := by
      intro row member
      rcases List.mem_append.mp member with before | isNew
      · exact (sound.observationIds row before).trans (Nat.lt_succ_self _)
      · rw [List.mem_singleton.mp isNew]
        exact Nat.lt_succ_self _
    observationFound := by
      intro run member observationId observed
      rcases sound.observationFound run member observationId observed with ⟨ofExperiment, isOf, found⟩
      exact ⟨ofExperiment, isOf, List.mem_append_left _ found⟩ }

/-- No run refers yet to the next observation. -/
theorem Sound.observationId_lt (sound : Sound links) {run : RunLink} (member : run ∈ links.runs) {id : Nat}
    (observed : run.observationId = some id) : id < links.nextObservationId := by
  rcases sound.observationFound run member id observed with ⟨_, _, found⟩
  exact sound.observationIds _ found

/-- A new run refers to rows of its experiment that no other run refers to. -/
theorem Sound.addRun (sound : Sound links) {experimentId : Nat} {suggestionId observationId : Option Nat}
    (experimentFound : experimentId ∈ links.experiments)
    (suggestionFound : ∀ id, suggestionId = some id →
      (id, experimentId) ∈ links.suggestions ∧ ∀ run ∈ links.runs, run.suggestionId ≠ some id)
    (observationFound : ∀ id, observationId = some id →
      (id, experimentId) ∈ links.observations ∧ ∀ run ∈ links.runs, run.observationId ≠ some id) :
    Sound { links with
      runs := links.runs ++ [{
        id := links.nextTrainingRunId, experimentId := some experimentId, suggestionId := suggestionId
        observationId := observationId }]
      nextTrainingRunId := links.nextTrainingRunId + 1 } :=
  { sound with
    runsKeyed := Rows.keyed_append sound.runsKeyed fun row member => (sound.runIds row member).ne
    runIds := by
      intro run member
      rcases List.mem_append.mp member with before | isNew
      · exact (sound.runIds run before).trans (Nat.lt_succ_self _)
      · rw [List.mem_singleton.mp isNew]
        exact Nat.lt_succ_self _
    experimentFound := by
      intro run member id isOf
      rcases List.mem_append.mp member with before | isNew
      · exact sound.experimentFound run before id isOf
      · rw [List.mem_singleton.mp isNew] at isOf
        cases isOf
        exact experimentFound
    suggestionFound := by
      intro run member id suggested
      rcases List.mem_append.mp member with before | isNew
      · exact sound.suggestionFound run before id suggested
      · rw [List.mem_singleton.mp isNew] at suggested ⊢
        exact ⟨experimentId, rfl, (suggestionFound id suggested).1⟩
    observationFound := by
      intro run member id observed
      rcases List.mem_append.mp member with before | isNew
      · exact sound.observationFound run before id observed
      · rw [List.mem_singleton.mp isNew] at observed ⊢
        exact ⟨experimentId, rfl, (observationFound id observed).1⟩
    suggestionOwned := by
      intro first firstMember second secondMember id firstLink secondLink
      rcases List.mem_append.mp firstMember with firstBefore | firstNew <;>
        rcases List.mem_append.mp secondMember with secondBefore | secondNew
      · exact sound.suggestionOwned first firstBefore second secondBefore id firstLink secondLink
      · rw [List.mem_singleton.mp secondNew] at secondLink
        exact absurd firstLink ((suggestionFound id secondLink).2 first firstBefore)
      · rw [List.mem_singleton.mp firstNew] at firstLink
        exact absurd secondLink ((suggestionFound id firstLink).2 second secondBefore)
      · rw [List.mem_singleton.mp firstNew, List.mem_singleton.mp secondNew]
    observationOwned := by
      intro first firstMember second secondMember id firstLink secondLink
      rcases List.mem_append.mp firstMember with firstBefore | firstNew <;>
        rcases List.mem_append.mp secondMember with secondBefore | secondNew
      · exact sound.observationOwned first firstBefore second secondBefore id firstLink secondLink
      · rw [List.mem_singleton.mp secondNew] at secondLink
        exact absurd firstLink ((observationFound id secondLink).2 first firstBefore)
      · rw [List.mem_singleton.mp firstNew] at firstLink
        exact absurd secondLink ((observationFound id firstLink).2 second secondBefore)
      · rw [List.mem_singleton.mp firstNew, List.mem_singleton.mp secondNew] }

/-- The runs after one of them has come to refer to an observation. -/
def observe (runId observationId : Nat) (runs : List RunLink) : List RunLink :=
  Rows.update (fun run => run.id = runId) (fun run => { run with observationId := some observationId }) runs

theorem keyed_observe {runId observationId : Nat} {runs : List RunLink} :
    Rows.Keyed RunLink.id (observe runId observationId runs) ↔ Rows.Keyed RunLink.id runs :=
  Rows.keyed_update fun _ _ _ => rfl

theorem mem_observe {runId observationId : Nat} {runs : List RunLink} {new : RunLink}
    (member : new ∈ observe runId observationId runs) :
    ∃ old ∈ runs, new.id = old.id ∧ new.experimentId = old.experimentId ∧ new.suggestionId = old.suggestionId ∧
      new.observationId = if old.id = runId then some observationId else old.observationId := by
  rcases Rows.mem_update.mp member with ⟨old, oldMember, rfl⟩
  refine ⟨old, oldMember, ?_⟩
  split
  · exact ⟨rfl, rfl, rfl, rfl⟩
  · exact ⟨rfl, rfl, rfl, rfl⟩

/-- A run comes to refer to an observation of its experiment that no run refers to. -/
theorem Sound.setObservation (sound : Sound links) {runId observationId experimentId : Nat}
    (found : (observationId, experimentId) ∈ links.observations)
    (unowned : ∀ run ∈ links.runs, run.observationId ≠ some observationId)
    (ofExperiment : ∀ run ∈ links.runs, run.id = runId → run.experimentId = some experimentId) :
    Sound { links with runs := observe runId observationId links.runs } :=
  { sound with
    runsKeyed := keyed_observe.mpr sound.runsKeyed
    runIds := by
      intro run member
      rcases mem_observe member with ⟨old, oldMember, sameId, _⟩
      rw [sameId]
      exact sound.runIds old oldMember
    experimentFound := by
      intro run member id isOf
      rcases mem_observe member with ⟨old, oldMember, _, sameExperiment, _⟩
      exact sound.experimentFound old oldMember id (sameExperiment ▸ isOf)
    suggestionFound := by
      intro run member id suggested
      rcases mem_observe member with ⟨old, oldMember, _, sameExperiment, sameSuggestion, _⟩
      rw [sameExperiment]
      exact sound.suggestionFound old oldMember id (sameSuggestion ▸ suggested)
    observationFound := by
      intro run member id observed
      rcases mem_observe member with ⟨old, oldMember, _, sameExperiment, _, newObservation⟩
      rw [newObservation] at observed
      rw [sameExperiment]
      split at observed
      · rename_i isRun
        cases observed
        exact ⟨experimentId, ofExperiment old oldMember isRun, found⟩
      · exact sound.observationFound old oldMember id observed
    suggestionOwned := by
      intro first firstMember second secondMember id firstLink secondLink
      rcases mem_observe firstMember with ⟨oldFirst, oldFirstMember, sameFirst, _, firstSuggestion, _⟩
      rcases mem_observe secondMember with ⟨oldSecond, oldSecondMember, sameSecond, _, secondSuggestion, _⟩
      rw [sameFirst, sameSecond]
      exact sound.suggestionOwned oldFirst oldFirstMember oldSecond oldSecondMember id
        (firstSuggestion ▸ firstLink) (secondSuggestion ▸ secondLink)
    observationOwned := by
      intro first firstMember second secondMember id firstLink secondLink
      rcases mem_observe firstMember with ⟨oldFirst, oldFirstMember, sameFirst, _, _, firstObservation⟩
      rcases mem_observe secondMember with ⟨oldSecond, oldSecondMember, sameSecond, _, _, secondObservation⟩
      rw [firstObservation] at firstLink
      rw [secondObservation] at secondLink
      rw [sameFirst, sameSecond]
      split at firstLink <;> split at secondLink
      · rename_i firstIs secondIs
        exact firstIs.trans secondIs.symm
      · cases firstLink
        exact absurd secondLink (unowned oldSecond oldSecondMember)
      · cases secondLink
        exact absurd firstLink (unowned oldFirst oldFirstMember)
      · exact sound.observationOwned oldFirst oldFirstMember oldSecond oldSecondMember id firstLink secondLink }

end Links

/-! ### The links of a store -/

def TrainingRun.link (run : TrainingRun) : RunLink where
  id := run.id
  experimentId := run.experimentId
  suggestionId := run.suggestionId
  observationId := run.observationId

def ProcessedSuggestion.link (suggestion : ProcessedSuggestion) : Nat × Nat :=
  (suggestion.suggestionId, suggestion.experimentId)

def ObservationRow.link (row : ObservationRow) : Nat × Nat := (row.id, row.experimentId)

/-- The keys of the store without the data of its rows. -/
def Store.links (store : Store) : Links where
  experiments := store.experiments.map Experiment.id
  runs := store.trainingRuns.map TrainingRun.link
  suggestions := store.processedSuggestions.map ProcessedSuggestion.link
  observations := store.observations.map ObservationRow.link
  nextTrainingRunId := store.nextTrainingRunId
  nextObservationId := store.nextObservationId

section Statements

variable (store : Store)

/-! #### Statements that keep the links -/

theorem links_updateTrainingRun (id : Nat) {change : TrainingRun → TrainingRun}
    (keepsLink : ∀ run, (change run).link = run.link) : (store.updateTrainingRun id change).links = store.links := by
  have same : (Rows.update (fun run => run.id = id) change store.trainingRuns).map TrainingRun.link =
      store.trainingRuns.map TrainingRun.link := Rows.update_keys fun run _ _ => keepsLink run
  rw [Store.links, Store.links, Store.updateTrainingRun, same]

theorem links_setSuggestionDeleted (experimentId suggestionId : Nat) (deleted : Bool) :
    (store.setSuggestionDeleted experimentId suggestionId deleted).links = store.links := by
  have same : (store.setSuggestionDeleted experimentId suggestionId deleted).processedSuggestions.map
      ProcessedSuggestion.link = store.processedSuggestions.map ProcessedSuggestion.link :=
    Rows.update_keys fun _ _ _ => rfl
  rw [Store.links, same]
  rfl

theorem links_updateObservations (updated : List ObservationRow) :
    (store.updateObservations updated).links = store.links := by
  have same : (store.updateObservations updated).observations.map ObservationRow.link =
      store.observations.map ObservationRow.link := by
    change (Rows.writeBack ObservationRow.id ObservationRow.withData updated store.observations).map _ = _
    apply Rows.writeBack_keys
    exact fun _ _ => rfl
  rw [Store.links, same]
  rfl

theorem links_markExperimentAsUpdated (experimentId : Nat) (now : Int) :
    (store.markExperimentAsUpdated experimentId now).links = store.links := by
  have same : (store.markExperimentAsUpdated experimentId now).experiments.map Experiment.id =
      store.experiments.map Experiment.id := Rows.update_keys fun _ _ _ => rfl
  rw [Store.links, same]
  rfl

theorem links_deleteExperiment (experimentId : Nat) (now : Int) :
    (store.deleteExperiment experimentId now).links = store.links := by
  have same : (store.deleteExperiment experimentId now).experiments.map Experiment.id =
      store.experiments.map Experiment.id := Rows.update_keys fun _ _ _ => rfl
  rw [Store.links, same]
  rfl

theorem links_deleteTrainingRuns (experimentId : Nat) :
    (store.deleteTrainingRuns experimentId).links = store.links := by
  have same : (store.deleteTrainingRuns experimentId).trainingRuns.map TrainingRun.link =
      store.trainingRuns.map TrainingRun.link := Rows.update_keys fun _ _ _ => rfl
  rw [Store.links, same]
  rfl

theorem links_deleteSuggestions (experimentId : Nat) :
    (store.deleteSuggestions experimentId).links = store.links := by
  have same : (store.deleteSuggestions experimentId).processedSuggestions.map ProcessedSuggestion.link =
      store.processedSuggestions.map ProcessedSuggestion.link := Rows.update_keys fun _ _ _ => rfl
  rw [Store.links, same]
  rfl

/-! #### Statements that add a row or a reference -/

theorem links_insertProcessedSuggestion (suggestion : ProcessedSuggestion) :
    (store.insertProcessedSuggestion suggestion).links =
      { store.links with suggestions := store.links.suggestions ++ [suggestion.link] } := by
  simp [Store.links, Store.insertProcessedSuggestion]

theorem links_insertObservation (experimentId : Nat) (timestamp : Int) (observation : Observations.Observation) :
    (store.insertObservation experimentId timestamp observation).links =
      { store.links with
        observations := store.links.observations ++ [(store.nextObservationId, experimentId)]
        nextObservationId := store.nextObservationId + 1 } := by
  simp [Store.links, Store.insertObservation, ObservationRow.link]

theorem links_insertTrainingRun (rowOf : Nat → TrainingRun) :
    (store.insertTrainingRun rowOf).links =
      { store.links with
        runs := store.links.runs ++ [(rowOf store.nextTrainingRunId).link]
        nextTrainingRunId := store.nextTrainingRunId + 1 } := by
  simp [Store.links, Store.insertTrainingRun]

theorem links_observeTrainingRun (runId observationId : Nat) :
    (store.updateTrainingRun runId fun run => { run with observationId := some observationId }).links =
      { store.links with runs := Links.observe runId observationId store.links.runs } := by
  have same : (store.updateTrainingRun runId fun run =>
      { run with observationId := some observationId }).trainingRuns.map TrainingRun.link =
        Links.observe runId observationId (store.trainingRuns.map TrainingRun.link) :=
    Rows.map_update (fun _ => Iff.rfl) fun _ => rfl
  rw [Store.links, same]
  rfl

end Statements

end Zigopt.TrainingRuns
