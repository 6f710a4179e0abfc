/-
Module: Zigopt.TrainingRuns.DeletedFlag
Layer: Proofs
Purpose: A run, its suggestion and its observation are deleted together. Each request on an AI experiment, answered
  or rejected, keeps the references of the runs sound and the deleted flags equal along them.
Main exports: Kept, kept_deletedStore, kept_observedStore, kept_perform, deleted_together
-/
import Zigopt.Lib.Following
import Zigopt.Observations.WellFormed
import Zigopt.TrainingRuns.Alone
import Zigopt.TrainingRuns.Links

namespace Zigopt.TrainingRuns

open Raising Observations

/-- The references are sound, and what a run refers to is deleted exactly if the run is. -/
structure Kept (store : Store) : Prop where
  sound : store.links.Sound
  suggestions : Following.Agree TrainingRun.suggestionId ProcessedSuggestion.suggestionId TrainingRun.deleted
    ProcessedSuggestion.deleted store.trainingRuns store.processedSuggestions
  observations : Following.Agree TrainingRun.observationId ObservationRow.id TrainingRun.deleted
    ObservationRow.deleted store.trainingRuns store.observations

section Sound

variable {store : Store}

theorem eq_of_id (sound : store.links.Sound) {first second : TrainingRun} (firstMember : first ∈ store.trainingRuns)
    (secondMember : second ∈ store.trainingRuns) (same : first.id = second.id) : first = second := by
  have keyed : Rows.Keyed TrainingRun.id store.trainingRuns := by
    have linksKeyed := sound.runsKeyed
    rw [Rows.Keyed, Store.links, List.map_map] at linksKeyed
    exact linksKeyed
  exact keyed.eq_of_key firstMember secondMember same

theorem link_mem {run : TrainingRun} (member : run ∈ store.trainingRuns) : run.link ∈ store.links.runs :=
  List.mem_map_of_mem member

/-- The suggestion of a run is of the experiment that is found for the run. -/
theorem suggestion_experiment (sound : store.links.Sound) {run : TrainingRun} (member : run ∈ store.trainingRuns)
    {suggestion : ProcessedSuggestion} (stored : suggestion ∈ store.processedSuggestions)
    (linked : run.suggestionId = some suggestion.suggestionId) :
    run.experimentId = some suggestion.experimentId := by
  rcases sound.suggestionFound run.link (link_mem member) suggestion.suggestionId linked with ⟨experimentId, isOf, found⟩
  rcases List.mem_map.mp found with ⟨other, otherStored, isLink⟩
  have keyed : Rows.Keyed ProcessedSuggestion.suggestionId store.processedSuggestions := by
    have linksKeyed := sound.suggestionsKeyed
    rw [Rows.Keyed, Store.links, List.map_map] at linksKeyed
    exact linksKeyed
  rw [ProcessedSuggestion.link, Prod.mk.injEq] at isLink
  rw [← keyed.eq_of_key otherStored stored isLink.1, isLink.2]
  exact isOf

theorem observation_experiment (sound : store.links.Sound) {run : TrainingRun} (member : run ∈ store.trainingRuns)
    {row : ObservationRow} (stored : row ∈ store.observations) (linked : run.observationId = some row.id) :
    run.experimentId = some row.experimentId := by
  rcases sound.observationFound run.link (link_mem member) row.id linked with ⟨experimentId, isOf, found⟩
  rcases List.mem_map.mp found with ⟨other, otherStored, isLink⟩
  have keyed : Rows.Keyed ObservationRow.id store.observations := by
    have linksKeyed := sound.observationsKeyed
    rw [Rows.Keyed, Store.links, List.map_map] at linksKeyed
    exact linksKeyed
  rw [ObservationRow.link, Prod.mk.injEq] at isLink
  rw [← keyed.eq_of_key otherStored stored isLink.1, isLink.2]
  exact isOf

theorem findExperiment_id {experimentId : Nat} {experiment : Experiment}
    (found : store.findExperiment experimentId = some experiment) : experiment.id = experimentId := by
  have named := List.find?_some found
  exact of_decide_eq_true named

theorem findExperiment_isSome {experimentId : Nat} (listed : experimentId ∈ store.links.experiments) :
    ∃ experiment, store.findExperiment experimentId = some experiment := by
  rcases List.mem_map.mp listed with ⟨experiment, member, isId⟩
  cases found : store.findExperiment experimentId with
  | some other => exact ⟨other, rfl⟩
  | none =>
      have missed := List.find?_eq_none.mp found experiment member
      exact absurd (decide_eq_true isId) missed

theorem findTrainingRun_mem {id : Nat} {run : TrainingRun} (found : store.findTrainingRun id = some run) :
    run ∈ store.trainingRuns := List.mem_of_find?_eq_some found

end Sound

/-! ### Statements that concern neither references nor flags -/

/-- The invariant reads the links and the three tables only. -/
theorem Kept.congr {before after : Store} (kept : Kept before) (sameLinks : after.links = before.links)
    (sameRuns : after.trainingRuns = before.trainingRuns)
    (sameSuggestions : after.processedSuggestions = before.processedSuggestions)
    (sameObservations : after.observations = before.observations) : Kept after where
  sound := by rw [sameLinks]; exact kept.sound
  suggestions := by rw [sameRuns, sameSuggestions]; exact kept.suggestions
  observations := by rw [sameRuns, sameObservations]; exact kept.observations

theorem kept_markExperimentAsUpdated {store : Store} (kept : Kept store) (experimentId : Nat) (now : Int) :
    Kept (store.markExperimentAsUpdated experimentId now) :=
  kept.congr (links_markExperimentAsUpdated store experimentId now) rfl rfl rfl

theorem kept_deleteExperiment {store : Store} (kept : Kept store) (experimentId : Nat) (now : Int) :
    Kept (store.deleteExperiment experimentId now) :=
  kept.congr (links_deleteExperiment store experimentId now) rfl rfl rfl

theorem kept_updateTrainingRun {store : Store} (kept : Kept store) (id : Nat) {change : TrainingRun → TrainingRun}
    (keepsLink : ∀ run, (change run).link = run.link) (keepsDeleted : ∀ run, (change run).deleted = run.deleted) :
    Kept (store.updateTrainingRun id change) where
  sound := by rw [links_updateTrainingRun store id keepsLink]; exact kept.sound
  suggestions :=
    Following.agree_set
      (Following.flagged_keep false (fun run => congrArg RunLink.suggestionId (keepsLink run)) keepsDeleted)
      (Following.flagged_refl _ _ false _) (fun _ _ _ _ _ => Iff.rfl) kept.suggestions
  observations :=
    Following.agree_set
      (Following.flagged_keep false (fun run => congrArg RunLink.observationId (keepsLink run)) keepsDeleted)
      (Following.flagged_refl _ _ false _) (fun _ _ _ _ _ => Iff.rfl) kept.observations

/-! ### The deletion of a run, and its undoing -/

section Deletion

variable {store : Store} {now : Int} {run : TrainingRun} {deleted : Bool}

theorem links_suggestionDeletedStore (experiment : Experiment) (suggestionId : Option Nat) :
    (suggestionDeletedStore experiment deleted suggestionId store).links = store.links := by
  cases suggestionId with
  | none => rfl
  | some id => exact links_setSuggestionDeleted store experiment.id id deleted

theorem links_observationDeletedStore (experiment : Experiment) (observationId : Option Nat) :
    (observationDeletedStore now experiment deleted observationId store).links = store.links := by
  rw [observationDeletedStore]
  split
  · rw [links_markExperimentAsUpdated, links_updateObservations]
  · rfl

theorem links_deletedStore : (deletedStore now run deleted store).links = store.links := by
  have sameLinks : (deletedStore now run deleted store).links = (cascadedStore now run deleted store).links :=
    links_updateTrainingRun _ _ fun _ => rfl
  rw [sameLinks, cascadedStore]
  split
  · rw [links_observationDeletedStore, links_suggestionDeletedStore]
  · rfl

/-- A run without a found experiment refers to nothing. -/
theorem unlinked_of_no_experiment (sound : store.links.Sound) (member : run ∈ store.trainingRuns)
    (noExperiment : run.experimentId.bind store.findExperiment = none) :
    run.suggestionId = none ∧ run.observationId = none := by
  have without : run.experimentId = none := by
    cases isOf : run.experimentId with
    | none => rfl
    | some experimentId =>
        rcases findExperiment_isSome (sound.experimentFound run.link (link_mem member) experimentId isOf)
          with ⟨experiment, found⟩
        rw [isOf, Option.bind_some, found] at noExperiment
        cases noExperiment
  constructor
  · cases linked : run.suggestionId with
    | none => rfl
    | some id =>
        rcases sound.suggestionFound run.link (link_mem member) id linked with ⟨_, isOf, _⟩
        exact absurd (without.symm.trans isOf) (by simp)
  · cases linked : run.observationId with
    | none => rfl
    | some id =>
        rcases sound.observationFound run.link (link_mem member) id linked with ⟨_, isOf, _⟩
        exact absurd (without.symm.trans isOf) (by simp)

theorem experimentId_of_found {experiment : Experiment}
    (found : run.experimentId.bind store.findExperiment = some experiment) :
    run.experimentId = some experiment.id := by
  rcases Option.bind_eq_some_iff.mp found with ⟨id, isOf, isFound⟩
  rw [isOf, findExperiment_id isFound]

/-- The suggestion of the run gets the flag. -/
theorem suggestions_deletedStore (sound : store.links.Sound) (member : run ∈ store.trainingRuns) :
    Following.Flagged ProcessedSuggestion.suggestionId ProcessedSuggestion.deleted
      (fun suggestion => run.suggestionId = some suggestion.suggestionId) deleted store.processedSuggestions
      (deletedStore now run deleted store).processedSuggestions := by
  change Following.Flagged _ _ _ _ _ (cascadedStore now run deleted store).processedSuggestions
  cases found : run.experimentId.bind store.findExperiment with
  | none =>
      rw [cascadedStore, found]
      apply Following.flagged_none
      intro suggestion _ linked
      rw [(unlinked_of_no_experiment sound member found).1] at linked
      cases linked
  | some experiment =>
      rw [cascadedStore_processedSuggestions found]
      cases suggested : run.suggestionId with
      | none =>
          apply Following.flagged_none
          intro suggestion _ linked
          cases linked
      | some id =>
          change Following.Flagged _ _ _ _ _ (Rows.update _ _ store.processedSuggestions)
          refine Following.flagged_congr ?_ (Following.flagged_update (fun _ => rfl) fun _ => rfl)
          intro suggestion stored
          constructor
          · rintro ⟨_, isId⟩
            rw [isId]
          · intro linked
            rw [← suggested] at linked
            have isOf := suggestion_experiment sound member stored linked
            rw [experimentId_of_found found] at isOf
            rw [suggested] at linked
            exact ⟨(Option.some.inj isOf).symm, (Option.some.inj linked).symm⟩

/-- The observation of a run follows it where the experiment is found; the suggestion's step leaves the observations. -/
theorem observations_cascadedStore {experiment : Experiment}
    (found : run.experimentId.bind store.findExperiment = some experiment) :
    (cascadedStore now run deleted store).observations =
      match run.observationId.bind store.findObservation with
      | some row => (store.updateObservations [row.setDeleted deleted now]).observations
      | none => store.observations := by
  have sameRows : (suggestionDeletedStore experiment deleted run.suggestionId store).observations =
      store.observations := by cases run.suggestionId <;> rfl
  have sameFound (id : Nat) : (suggestionDeletedStore experiment deleted run.suggestionId store).findObservation
      id = store.findObservation id := by rw [Store.findObservation, sameRows, Store.findObservation]
  rw [cascadedStore, found]
  dsimp only
  rw [observationDeletedStore, funext sameFound]
  cases run.observationId.bind store.findObservation with
  | none => exact sameRows
  | some row =>
      change Rows.writeBack _ _ _ (suggestionDeletedStore experiment deleted run.suggestionId store).observations =
        Rows.writeBack _ _ _ store.observations
      rw [sameRows]

/-- The observation of the run gets the flag. -/
theorem observations_deletedStore (sound : store.links.Sound) (member : run ∈ store.trainingRuns) :
    Following.Flagged ObservationRow.id ObservationRow.deleted
      (fun row => run.observationId = some row.id) deleted store.observations
      (deletedStore now run deleted store).observations := by
  change Following.Flagged _ _ _ _ _ (cascadedStore now run deleted store).observations
  cases found : run.experimentId.bind store.findExperiment with
  | none =>
      rw [cascadedStore, found]
      apply Following.flagged_none
      intro row _ linked
      rw [(unlinked_of_no_experiment sound member found).2] at linked
      cases linked
  | some experiment =>
      rw [observations_cascadedStore found]
      cases observed : run.observationId.bind store.findObservation with
      | none =>
          apply Following.flagged_none
          intro row stored linked
          rw [linked, Option.bind_some] at observed
          exact List.find?_eq_none.mp observed row stored (decide_eq_true rfl)
      | some row =>
          rcases Option.bind_eq_some_iff.mp observed with ⟨id, linked, isFound⟩
          have isId : row.id = id := by
            have named := List.find?_some isFound
            exact of_decide_eq_true named
          intro new newMember
          rcases Rows.mem_writeBack newMember with ⟨old, oldMember, written | ⟨unwritten, rfl⟩⟩
          · rcases written with ⟨other, isOther, sameId, rfl⟩
            rw [List.mem_singleton.mp isOther] at sameId ⊢
            refine ⟨old, oldMember, rfl, ?_⟩
            rw [linked, if_pos (congrArg some (isId.symm.trans sameId))]
            rfl
          · refine ⟨new, oldMember, rfl, ?_⟩
            have other := unwritten _ (List.mem_singleton_self _)
            rw [linked, if_neg fun same => other (isId.trans (Option.some.inj same))]

theorem trainingRuns_deletedStore {ι : Type} {same : TrainingRun → ι}
    (keepsSame : ∀ other : TrainingRun, same { other with deleted := deleted } = same other) :
    Following.Flagged same TrainingRun.deleted (fun other => other.id = run.id) deleted store.trainingRuns
      (deletedStore now run deleted store).trainingRuns := by
  rw [deletedStore, Store.updateTrainingRun, cascadedStore_trainingRuns]
  exact Following.flagged_update keepsSame fun _ => rfl

/-- The suggestion and the observation of a run follow it. -/
theorem kept_deletedStore (kept : Kept store) (member : run ∈ store.trainingRuns) :
    Kept (deletedStore now run deleted store) where
  sound := by
    rw [links_deletedStore]
    exact kept.sound
  suggestions := by
    refine Following.agree_set (trainingRuns_deletedStore fun _ => rfl)
      (suggestions_deletedStore kept.sound member) ?_ kept.suggestions
    intro owner ownerMember suggestion _ linked
    constructor
    · intro sameId
      rw [← eq_of_id kept.sound ownerMember member sameId]
      exact linked
    · intro runLinked
      exact kept.sound.suggestionOwned owner.link (link_mem ownerMember) run.link (link_mem member)
        suggestion.suggestionId linked runLinked
  observations := by
    refine Following.agree_set (trainingRuns_deletedStore fun _ => rfl)
      (observations_deletedStore kept.sound member) ?_ kept.observations
    intro owner ownerMember row _ linked
    constructor
    · intro sameId
      rw [← eq_of_id kept.sound ownerMember member sameId]
      exact linked
    · intro runLinked
      exact kept.sound.observationOwned owner.link (link_mem ownerMember) run.link (link_mem member) row.id
        linked runLinked

end Deletion

/-! ### The observation of a run -/

section Observation

variable {store : Store} {now : Int}

/-- No run refers to an observation before it is inserted. -/
theorem kept_insertObservation (kept : Kept store) (experimentId : Nat) (timestamp : Int)
    (observation : Observation) : Kept (store.insertObservation experimentId timestamp observation) where
  sound := by
    rw [links_insertObservation]
    exact kept.sound.addObservation experimentId
  suggestions := kept.suggestions
  observations := by
    apply Following.agree_append_row _ kept.observations
    intro run member linked
    exact (kept.sound.observationId_lt (link_mem member) linked).ne rfl

/-- The observation that is made for a run starts with the flag of the run. -/
theorem kept_observedStore (kept : Kept store) {run : TrainingRun} (member : run ∈ store.trainingRuns)
    {experiment : Experiment} (ofExperiment : run.experimentId = some experiment.id) (runLive : run.deleted = false)
    {observation : Observation} (observationLive : observation.data.deleted = false) :
    Kept (observedStore now experiment run.id observation store) := by
  have inserted := kept_insertObservation kept experiment.id now observation
  have sameRuns : (store.insertObservation experiment.id now observation).trainingRuns = store.trainingRuns := rfl
  constructor
  · rw [observedStore, links_observeTrainingRun]
    have listed : (store.nextObservationId, experiment.id) ∈
        (store.insertObservation experiment.id now observation).links.observations := by
      rw [links_insertObservation]
      exact List.mem_append_right _ List.mem_cons_self
    apply inserted.sound.setObservation listed
    · intro other otherMember linked
      exact (kept.sound.observationId_lt otherMember linked).ne rfl
    · intro other otherMember sameId
      rcases List.mem_map.mp otherMember with ⟨row, rowMember, rfl⟩
      rw [eq_of_id kept.sound rowMember member sameId]
      exact ofExperiment
  · exact Following.agree_set (Following.flagged_keep false (fun _ => rfl) fun _ => rfl)
      (Following.flagged_refl _ _ false _) (fun _ _ _ _ _ => Iff.rfl) inserted.suggestions
  · refine Following.agree_relink (fun _ => rfl) ?_ inserted.observations
    intro owner ownerMember sameId row rowMember linked
    rw [eq_of_id kept.sound ownerMember member sameId, runLive]
    rcases List.mem_append.mp rowMember with before | isNew
    · have below := kept.sound.observationIds row.link (List.mem_map_of_mem before)
      exact absurd (Option.some.inj linked) below.ne'
    · rw [List.mem_singleton.mp isNew]
      exact observationLive

theorem observationOfRun_live {calls : Calls} {experiment : Experiment} {data : JsonObject} {suggestionId : Nat}
    {observation : Observation}
    (created : observationOfRun calls experiment data suggestionId store = .ok observation) :
    observation.data.deleted = false := by
  rw [observationOfRun, bind_eq_ok] at created
  rcases created with ⟨reported, _, isCreated⟩
  exact createObservation_deleted (check_eq_ok.mp isCreated)

/-- The suggestion of an observation that is created is live, so its run is too. -/
theorem kept_ensured {calls : Calls} (kept : Kept store) {run : TrainingRun} (member : run ∈ store.trainingRuns)
    {experiment : Option Experiment}
    (ofExperiment : ∀ found, experiment = some found → run.experimentId = some found.id) :
    Kept (ensured calls now experiment run store).2 := by
  unfold ensured
  cases isDue : dueSuggestion experiment run store with
  | none => exact kept
  | some due =>
      rcases due with ⟨due, suggestionId⟩
      rcases dueSuggestion_iff.mp isDue with ⟨isExperiment, awaited, suggestion, found, _⟩
      dsimp only
      cases created : observationOfRun calls due run.trainingRunData suggestionId store with
      | error failure => exact kept
      | ok observation =>
          have passed := List.find?_some found
          rw [Bool.and_eq_true, decide_eq_true_iff, Bool.not_eq_true'] at passed
          have linked := (awaitedSuggestion_iff.mp awaited).2
          rw [← passed.1] at linked
          have runLive := kept.suggestions run member suggestion (List.mem_of_find?_eq_some found) linked
          rw [passed.2] at runLive
          exact kept_observedStore kept member (ofExperiment due isExperiment) runLive.symm
            (observationOfRun_live created)

end Observation

/-! ### The update of a run -/

section Update

variable {calls : Calls} {store : Store} {now : Int}

theorem kept_writtenStore (now : Int) (kept : Kept store) {run : TrainingRun} (member : run ∈ store.trainingRuns)
    (deleted : Bool) (clause : UpdateClause) : Kept (writtenStore now run deleted clause store) := by
  have cascaded : Kept (if deleted ≠ run.deleted then deletedStore now run deleted store else store) := by
    split
    · exact kept_deletedStore kept member
    · exact kept
  rw [writtenStore]
  cases clause.isEmpty with
  | true => exact cascaded
  | false => exact kept_updateTrainingRun cascaded run.id (fun _ => rfl) fun _ => rfl

theorem run_handle_store {trainingRunId : Nat} {mergeObjects : Bool} {params : TrainingRunRequestParams}
    {after : Store} {checked : Checked}
    (accepted : (checkRequest calls trainingRunId params).run store = (.ok checked, after)) :
    let clause := updateClause mergeObjects params checked.newProject
    let deleted := params.deleted.getD checked.run.deleted
    let written := writtenStore now checked.run deleted clause store
    let row := writtenRow now checked.run deleted clause
    ((handle calls now trainingRunId mergeObjects params).run store).2 =
      if isCompletedState (stateOf row.trainingRunData) then (ensured calls now checked.experiment row written).2
      else written := by
  dsimp only
  rw [run_handle_of_checked accepted]
  dsimp only
  split
  · split
    · split <;> simp_all
    · simp_all
  · rfl

theorem writtenRow_experimentId (now : Int) (run : TrainingRun) (deleted : Bool) (clause : UpdateClause) :
    (writtenRow now run deleted clause).experimentId = run.experimentId := by
  rw [writtenRow]
  split <;> rfl

theorem kept_handle (kept : Kept store) (trainingRunId : Nat) (mergeObjects : Bool)
    (params : TrainingRunRequestParams) :
    Kept ((handle calls now trainingRunId mergeObjects params).run store).2 := by
  cases outcome : (checkRequest calls trainingRunId params).run store with
  | mk result after =>
      cases result with
      | error failure =>
          rw [run_handle_of_refused outcome]
          exact kept
      | ok checked =>
          have found := run_checkRequest outcome
          have isId := findTrainingRun_id found.1
          subst isId
          rw [run_handle_store outcome]
          have written := kept_writtenStore now kept (findTrainingRun_mem found.1)
            (params.deleted.getD checked.run.deleted) (updateClause mergeObjects params checked.newProject)
          split
          · apply kept_ensured written (findTrainingRun_mem (findTrainingRun_writtenStore found.1))
            intro experiment isExperiment
            rw [writtenRow_experimentId]
            exact experimentId_of_found (found.2.symm.trans isExperiment)
          · exact written

end Update

/-! ### The deletion of all runs of an experiment -/

section AllRuns

variable {store : Store} {now : Int} {experiment : Experiment}

def allDeletedStore (now : Int) (experiment : Experiment) (store : Store) : Store :=
  let deleted := (store.deleteTrainingRuns experiment.id).deleteSuggestions experiment.id
  let live := store.observations.filter fun row => row.experimentId = experiment.id && !row.deleted
  (deleted.updateObservations (live.map fun row => row.setDeleted true now)).markExperimentAsUpdated
    experiment.id now

theorem links_allDeletedStore : (allDeletedStore now experiment store).links = store.links := by
  rw [allDeletedStore, links_markExperimentAsUpdated, links_updateObservations, links_deleteSuggestions,
    links_deleteTrainingRuns]

theorem trainingRuns_allDeletedStore {ι : Type} {same : TrainingRun → ι}
    (keepsSame : ∀ run : TrainingRun, same { run with deleted := true } = same run) :
    Following.Flagged same TrainingRun.deleted (fun run => run.experimentId = some experiment.id) true
      store.trainingRuns (allDeletedStore now experiment store).trainingRuns :=
  Following.flagged_update keepsSame fun _ => rfl

/-- An observation of the experiment that is deleted already is not written, but it is deleted. -/
theorem observations_allDeletedStore (sound : store.links.Sound) :
    Following.Flagged ObservationRow.id ObservationRow.deleted (fun row => row.experimentId = experiment.id) true
      store.observations (allDeletedStore now experiment store).observations := by
  have keyed : Rows.Keyed ObservationRow.id store.observations := by
    have linksKeyed := sound.observationsKeyed
    rw [Rows.Keyed, Store.links, List.map_map] at linksKeyed
    exact linksKeyed
  intro new member
  rcases Rows.mem_writeBack member with ⟨old, oldMember, written | ⟨unwritten, rfl⟩⟩
  · rcases written with ⟨other, otherMember, sameId, rfl⟩
    rcases List.mem_map.mp otherMember with ⟨row, rowMember, rfl⟩
    rw [List.mem_filter, Bool.and_eq_true, decide_eq_true_iff] at rowMember
    have isOld : row = old := keyed.eq_of_key rowMember.1 oldMember sameId
    subst isOld
    exact ⟨row, oldMember, rfl, (if_pos rowMember.2.1).symm⟩
  · refine ⟨new, oldMember, rfl, ?_⟩
    by_cases ofExperiment : new.experimentId = experiment.id
    · rw [if_pos ofExperiment]
      cases wasDeleted : new.deleted with
      | true => rfl
      | false =>
          have listed : new ∈ store.observations.filter fun row =>
              decide (row.experimentId = experiment.id) && !row.deleted := by
            rw [List.mem_filter, wasDeleted, ofExperiment]
            exact ⟨oldMember, by simp⟩
          exact absurd rfl (unwritten (new.setDeleted true now) (List.mem_map_of_mem listed))
    · rw [if_neg ofExperiment]

/-- All rows of the experiment are deleted, those of other experiments are left. -/
theorem kept_allDeletedStore (kept : Kept store) : Kept (allDeletedStore now experiment store) where
  sound := by
    rw [links_allDeletedStore]
    exact kept.sound
  suggestions := by
    refine Following.agree_set (trainingRuns_allDeletedStore fun _ => rfl)
      (Following.flagged_update (fun _ => rfl) fun _ => rfl) ?_ kept.suggestions
    intro run member suggestion stored linked
    rw [suggestion_experiment kept.sound member stored linked, Option.some_inj]
  observations := by
    refine Following.agree_set (trainingRuns_allDeletedStore fun _ => rfl) (observations_allDeletedStore kept.sound) ?_
      kept.observations
    intro run member row stored linked
    rw [observation_experiment kept.sound member stored linked, Option.some_inj]

end AllRuns

/-! ### Creation -/

section Creation

variable {store : Store} {now : Int} {experiment : Experiment}

/-- The experiment of a creation is stored. -/
structure Ready (experiment : Experiment) (store : Store) : Prop where
  kept : Kept store
  listed : experiment.id ∈ store.links.experiments

/-- A live suggestion of the experiment that no run refers to. -/
structure SuggestionReady (experiment : Experiment) (id : Nat) (store : Store) : Prop where
  listed : (id, experiment.id) ∈ store.links.suggestions
  unowned : ∀ run ∈ store.links.runs, run.suggestionId ≠ some id
  live : ∀ suggestion ∈ store.processedSuggestions, suggestion.suggestionId = id → suggestion.deleted = false

structure ObservationReady (experiment : Experiment) (id : Nat) (store : Store) : Prop where
  listed : (id, experiment.id) ∈ store.links.observations
  unowned : ∀ run ∈ store.links.runs, run.observationId ≠ some id
  live : ∀ row ∈ store.observations, row.id = id → row.deleted = false

/-- What has been created for a run is ready for it. -/
structure CreatedReady (experiment : Experiment) (created : CreatedFor) (store : Store) : Prop where
  ready : Ready experiment store
  suggestion : ∀ suggestion, created.suggestion = some suggestion →
    SuggestionReady experiment suggestion.suggestionId store
  observation : ∀ id, created.observationId = some id → ObservationReady experiment id store

theorem not_isProcessed_iff {id : Nat} :
    isProcessed store id = false ↔ ∀ suggestion ∈ store.processedSuggestions, suggestion.suggestionId ≠ id := by
  simp [isProcessed]

theorem ready_insertProcessedSuggestion (ready : Ready experiment store) {unprocessed : UnprocessedSuggestion}
    (fresh : isProcessed store unprocessed.id = false) :
    Ready experiment (store.insertProcessedSuggestion (processedRow experiment unprocessed)) ∧
      SuggestionReady experiment unprocessed.id
        (store.insertProcessedSuggestion (processedRow experiment unprocessed)) := by
  rw [not_isProcessed_iff] at fresh
  have freshLink : ∀ link ∈ store.links.suggestions, link.1 ≠ unprocessed.id := by
    intro link member
    rcases List.mem_map.mp member with ⟨suggestion, stored, rfl⟩
    exact fresh suggestion stored
  have unowned : ∀ run ∈ store.links.runs, run.suggestionId ≠ some unprocessed.id := by
    intro run member linked
    rcases ready.kept.sound.suggestionFound run member unprocessed.id linked with ⟨_, _, found⟩
    exact freshLink _ found rfl
  constructor
  · constructor
    · constructor
      · rw [links_insertProcessedSuggestion]
        exact ready.kept.sound.addSuggestion freshLink
      · apply Following.agree_append_row _ ready.kept.suggestions
        intro run member linked
        exact unowned run.link (link_mem member) linked
      · exact ready.kept.observations
    · exact ready.listed
  · constructor
    · rw [links_insertProcessedSuggestion]
      exact List.mem_append_right _ List.mem_cons_self
    · exact unowned
    · intro suggestion member isId
      rcases List.mem_append.mp member with before | isNew
      · exact absurd isId (fresh suggestion before)
      · rw [List.mem_singleton.mp isNew]
        rfl

theorem ensures_processSuggestion (unprocessed : UnprocessedSuggestion) :
    Process.Ensures (Ready experiment) (processSuggestion experiment unprocessed)
      (fun suggestion store => Ready experiment store ∧
        SuggestionReady experiment suggestion.suggestionId store) Kept := by
  intro store ready
  rw [processSuggestion, Process.run_statement]
  cases processed : isProcessed store unprocessed.id with
  | true => exact ready.kept
  | false => exact ready_insertProcessedSuggestion ready processed

theorem ready_silent {α : Type} {process : RunProcess α} (silent : process.Silent) :
    Process.Ensures (Ready experiment) process (fun _ => Ready experiment) Kept :=
  silent.ensures.imp (fun _ ready => ready) (fun _ _ ready => ready) fun _ ready => ready.kept

theorem ensures_maybeCreateSuggestion (calls : CreateCalls) (params : TrainingRunRequestParams) :
    Process.Ensures (Ready experiment) (maybeCreateSuggestion calls experiment params)
      (fun suggestion store => Ready experiment store ∧ ∀ served, suggestion = some served →
        SuggestionReady experiment served.suggestionId store) Kept := by
  have processed (unprocessed : UnprocessedSuggestion) : Process.Ensures (Ready experiment)
      (do let suggestion ← processSuggestion experiment unprocessed; pure (some suggestion))
      (fun suggestion store => Ready experiment store ∧ ∀ served, suggestion = some served →
        SuggestionReady experiment served.suggestionId store) Kept := by
    apply (ensures_processSuggestion unprocessed).bind
    intro suggestion
    apply Process.ensures_returned
    intro store ready
    refine ⟨ready.1, ?_⟩
    intro served same
    cases same
    exact ready.2
  rw [maybeCreateSuggestion]
  split
  · apply (ready_silent (Process.silent_read _ _)).bind
    intro unprocessed
    apply (ready_silent (Process.silent_ofExcept _)).bind
    exact processed
  · apply (ready_silent (Process.silent_read _ _)).bind
    intro unprocessed
    split
    · exact processed _
    · apply Process.ensures_returned
      intro store ready
      exact ⟨ready, fun _ impossible => by cases impossible⟩
    · apply Process.ensures_raised
      intro store ready
      exact ready.kept

theorem ready_insertObservation (now : Int) (ready : Ready experiment store) {observation : Observation}
    (observationLive : observation.data.deleted = false) :
    Ready experiment (store.insertObservation experiment.id now observation) ∧
      ObservationReady experiment store.nextObservationId
        (store.insertObservation experiment.id now observation) := by
  constructor
  · exact ⟨kept_insertObservation ready.kept experiment.id now observation, ready.listed⟩
  · constructor
    · rw [links_insertObservation]
      exact List.mem_append_right _ List.mem_cons_self
    · intro run member linked
      exact (ready.kept.sound.observationId_lt member linked).ne rfl
    · intro row member isId
      rcases List.mem_append.mp member with before | isNew
      · have below := ready.kept.sound.observationIds row.link (List.mem_map_of_mem before)
        exact absurd isId below.ne
      · rw [List.mem_singleton.mp isNew]
        exact observationLive

theorem ensures_maybeCreateObservation (calls : CreateCalls) (params : TrainingRunRequestParams) :
    Process.Ensures (Ready experiment) (maybeCreateObservation calls now experiment params)
      (fun created store => Ready experiment store ∧ ∀ id, created.map Prod.fst = some id →
        ObservationReady experiment id store) Kept := by
  apply (ready_silent (Process.silent_ofExcept _)).bind
  intro valuesAndFailed
  apply Process.ensures_read.bind
  intro result store ready
  rcases ready with ⟨ready, isCreated⟩
  cases result with
  | error failure => exact ⟨ready, fun _ impossible => by cases impossible⟩
  | ok observation =>
      have inserted := ready_insertObservation now ready (createObservation_deleted isCreated.symm)
      refine ⟨inserted.1, ?_⟩
      intro id isId
      cases isId
      exact inserted.2

theorem ensures_maybeCreateSuggestionAndObservation (calls : CreateCalls) (params : TrainingRunRequestParams) :
    Process.Ensures (Ready experiment) (maybeCreateSuggestionAndObservation calls now experiment params)
      (CreatedReady experiment) Kept := by
  rw [maybeCreateSuggestionAndObservation]
  split
  · apply (ensures_maybeCreateObservation calls params).bind
    intro created
    apply Process.ensures_returned
    rintro store ⟨ready, observationReady⟩
    exact ⟨ready, (fun _ impossible => nomatch impossible), observationReady⟩
  · apply (ensures_maybeCreateSuggestion calls params).bind
    intro suggestion
    apply Process.ensures_returned
    rintro store ⟨ready, suggestionReady⟩
    exact ⟨ready, suggestionReady, fun _ impossible => nomatch impossible⟩

/-- A new run is live, as is what it refers to. -/
theorem kept_insertTrainingRun {created : CreatedFor} (createdReady : CreatedReady experiment created store)
    (projectId : Nat) (data : JsonObject) :
    Kept (store.insertTrainingRun (newTrainingRun now experiment projectId created data)) where
  sound := by
    rw [links_insertTrainingRun]
    apply createdReady.ready.kept.sound.addRun createdReady.ready.listed
    · intro id isId
      rcases Option.map_eq_some_iff.mp isId with ⟨suggestion, isSuggestion, rfl⟩
      have ready := createdReady.suggestion suggestion isSuggestion
      exact ⟨ready.listed, ready.unowned⟩
    · intro id isId
      have ready := createdReady.observation id isId
      exact ⟨ready.listed, ready.unowned⟩
  suggestions := by
    apply Following.agree_append_owner _ createdReady.ready.kept.suggestions
    intro suggestion stored linked
    rcases Option.map_eq_some_iff.mp linked with ⟨served, isServed, sameId⟩
    exact (createdReady.suggestion served isServed).live suggestion stored sameId.symm
  observations := by
    apply Following.agree_append_owner _ createdReady.ready.kept.observations
    intro row stored linked
    exact (createdReady.observation row.id linked).live row stored rfl

theorem silent_findAiExperiment (experimentId : Nat) : (findAiExperiment experimentId).Silent := by
  apply Process.Silent.bind (Process.silent_read _ _)
  intro found
  cases found with
  | none => trivial
  | some experiment =>
      dsimp only
      split <;> trivial

theorem ensures_findAiExperiment (experimentId : Nat) :
    Process.Ensures Kept (findAiExperiment experimentId) (fun experiment store => Ready experiment store) Kept := by
  apply Process.ensures_read.bind
  intro found store holds
  rcases holds with ⟨kept, isFound⟩
  cases found with
  | none => exact kept
  | some experiment =>
      have listed : experiment.id ∈ store.links.experiments :=
        List.mem_map_of_mem (List.mem_of_find?_eq_some isFound.symm)
      by_cases runsOnly : experiment.runsOnly = true
      · simp only [if_pos runsOnly]
        exact ⟨kept, listed⟩
      · simp only [if_neg runsOnly]
        exact kept

theorem ensures_createHandle (calls : CreateCalls) (experimentId : Nat) (params : TrainingRunRequestParams) :
    Process.Ensures Kept (createHandle calls now experimentId params) (fun _ => Kept) Kept := by
  apply (ensures_findAiExperiment experimentId).bind
  intro experiment
  apply (ready_silent (Process.silent_ofExcept _)).bind
  intro _
  apply (ready_silent (Process.silent_ofExcept _)).bind
  intro _
  apply (ready_silent (Process.silent_read _ _)).bind
  intro project
  cases project with
  | none => exact Process.ensures_raised fun store ready => ready.kept
  | some project =>
      apply (ensures_maybeCreateSuggestionAndObservation calls params).bind
      intro created
      have checked (result : Except RunError Unit) : Process.Ensures (CreatedReady experiment created)
          (Process.ofExcept result : RunProcess Unit) (fun _ => CreatedReady experiment created) Kept :=
        (Process.silent_ofExcept result).ensures.imp (fun _ ready => ready) (fun _ _ ready => ready)
          fun _ createdReady => createdReady.ready.kept
      apply (checked _).bind
      intro _ store createdReady
      exact kept_markExperimentAsUpdated (kept_insertTrainingRun createdReady _ _) _ _

end Creation

/-! ### The requests -/

section Requests

variable {store : Store} {now : Int}

theorem ensures_findTrainingRun (trainingRunId : Nat) (missing : RunError) :
    Process.Ensures Kept (findTrainingRun trainingRunId missing)
      (fun run store => Kept store ∧ store.findTrainingRun run.id = some run) Kept := by
  apply Process.ensures_read.bind
  intro found store holds
  rcases holds with ⟨kept, isFound⟩
  cases found with
  | none => exact kept
  | some run =>
      refine ⟨kept, ?_⟩
      rw [findTrainingRun_id isFound.symm]
      exact isFound.symm

theorem ensures_deleteHandle (trainingRunId : Nat) :
    Process.Ensures Kept (deleteHandle now trainingRunId) (fun _ => Kept) Kept := by
  apply (ensures_findTrainingRun trainingRunId _).bind
  intro run
  apply ((silent_findProject run).ensures.imp (fun _ holds => holds) (fun _ _ holds => holds)
    fun _ holds => holds.1).bind
  intro project
  apply ((silent_findClient run).ensures.imp (fun _ holds => holds) (fun _ _ holds => holds)
    fun _ holds => holds.1).bind
  intro _ store holds
  rcases holds with ⟨kept, isFound⟩
  rw [Process.run_bind_ok (run_setDeleted isFound)]
  exact kept_deletedStore kept (findTrainingRun_mem isFound)

theorem ensures_deleteExperimentHandle (experimentId : Nat) (includeRuns : Bool) :
    Process.Ensures Kept (deleteExperimentHandle now experimentId includeRuns) (fun _ => Kept) Kept := by
  apply ((silent_findAiExperiment experimentId).ensures).bind
  intro experiment store kept
  cases includeRuns with
  | true => exact kept_deleteExperiment (kept_allDeletedStore kept) _ _
  | false => exact kept_deleteExperiment kept _ _

/-- Every request keeps the flags together, whether it is answered or rejected. -/
theorem kept_perform (calls : CreateCalls) (kept : Kept store) (request : Int × Operation) :
    Kept (perform calls store request) := by
  rcases request with ⟨now, operation⟩
  cases operation with
  | create experimentId params => exact (ensures_createHandle calls experimentId params).run kept
  | update trainingRunId mergeObjects params => exact kept_handle kept trainingRunId mergeObjects params
  | delete trainingRunId => exact (ensures_deleteHandle trainingRunId).run kept
  | deleteExperiment experimentId includeRuns =>
      exact (ensures_deleteExperimentHandle experimentId includeRuns).run kept

/-- The tables before the first run is created. -/
structure Initial (store : Store) : Prop where
  noRuns : store.trainingRuns = []
  suggestionsKeyed : Rows.Keyed ProcessedSuggestion.suggestionId store.processedSuggestions
  observationsKeyed : Rows.Keyed ObservationRow.id store.observations
  observationIds : ∀ row ∈ store.observations, row.id < store.nextObservationId

theorem kept_initial (initial : Initial store) : Kept store where
  sound := by
    have noRuns : store.links.runs = [] := by rw [Store.links, initial.noRuns, List.map_nil]
    have noRun {property : RunLink → Prop} : ∀ run ∈ store.links.runs, property run := by
      rw [noRuns]
      exact fun _ member => absurd member List.not_mem_nil
    exact {
      runsKeyed := by
        rw [noRuns]
        exact List.nodup_nil
      runIds := noRun
      suggestionsKeyed := by
        rw [Rows.Keyed, Store.links, List.map_map]
        exact initial.suggestionsKeyed
      observationsKeyed := by
        rw [Rows.Keyed, Store.links, List.map_map]
        exact initial.observationsKeyed
      observationIds := by
        intro link member
        rcases List.mem_map.mp member with ⟨row, stored, rfl⟩
        exact initial.observationIds row stored
      experimentFound := noRun
      suggestionFound := noRun
      observationFound := noRun
      suggestionOwned := noRun
      observationOwned := noRun }
  suggestions := by
    rw [initial.noRuns]
    exact fun _ member => absurd member List.not_mem_nil
  observations := by
    rw [initial.noRuns]
    exact fun _ member => absurd member List.not_mem_nil

/-- A run of an experiment is deleted exactly if its suggestion is, if it has one, and exactly if its
    observation is. -/
def DeletedTogether (store : Store) : Prop :=
  ∀ run ∈ store.trainingRuns, ∀ experimentId, run.experimentId = some experimentId →
    (∀ suggestion ∈ store.processedSuggestions, run.suggestionId = some suggestion.suggestionId →
      (run.deleted = true ↔ suggestion.deleted = true)) ∧
    (∀ row ∈ store.observations, run.observationId = some row.id → (run.deleted = true ↔ row.deleted = true))

theorem Kept.deletedTogether (kept : Kept store) : DeletedTogether store := by
  intro run member experimentId _
  constructor
  · intro suggestion stored linked
    rw [kept.suggestions run member suggestion stored linked]
  · intro row stored linked
    rw [kept.observations run member row stored linked]

/-- In every state that requests reach, in any order and whether they are answered or rejected, a run, its
    suggestion and its observation are deleted together. -/
theorem deleted_together (calls : CreateCalls) {start : Store} (initial : Initial start)
    (requests : List (Int × Operation)) :
    ∀ store ∈ Trace.reached start (Trace.play (perform calls) start requests), DeletedTogether store := by
  have keeps : ∀ before request after, Kept before → after = perform calls before request → Kept after := by
    intro before request after kept isAfter
    rw [isAfter]
    exact kept_perform calls kept request
  intro store reached
  exact (Trace.every_invariant keeps (kept_initial initial) (Trace.every_play _ _ _) store reached).deletedTogether

def plainCreateCalls : CreateCalls :=
  { plainCalls with
    assignmentsJson := fun _ assignmentsMap => assignmentsMap.map fun assignment => (assignment.1, .number assignment.2)
    nextSuggestion := fun _ store =>
      .ok { id := store.processedSuggestions.length + 1, assignmentsMap := [("x", 1)] }
    explicitSuggestion := fun _ _ store =>
      .ok { id := store.processedSuggestions.length + 1, assignmentsMap := [("x", 1)] } }

def storeWithoutRuns : Store where
  clients := [1]
  experiments := [{
    id := 1, clientId := 1, projectId := some 1, dateUpdated := 0, parameterNames := ["x"]
    allMetrics := { metrics := [{ name := "acc" }] } }]
  projects := [{ id := 1, clientId := 1, referenceId := "project" }]

/-- A run is created, deleted, and undeleted by the request that completes it; then all runs are deleted. -/
def someRequests : List (Int × Operation) :=
  [(1, .create 1 { trainingRunDataJson := [("n", .string "run")] }),
    (2, .delete 1),
    (3, .update 1 true { deletedField := some (some false), trainingRunDataJson := [("s", .number 1)] }),
    (4, .deleteExperiment 1 true)]

example : (Trace.play (perform plainCreateCalls) storeWithoutRuns someRequests).map
    (fun step => (step.2.trainingRuns.map TrainingRun.deleted,
      step.2.processedSuggestions.map ProcessedSuggestion.deleted, step.2.observations.map ObservationRow.deleted)) =
    [([false], [false], []), ([true], [true], []), ([false], [false], [false]), ([true], [true], [true])] := by
  decide +kernel

/-- The run, its suggestion and its observation are deleted and restored together through all of these requests. -/
theorem deleted_together_someRequests :
    Initial storeWithoutRuns ∧
      ∀ store ∈ Trace.reached storeWithoutRuns
        (Trace.play (perform plainCreateCalls) storeWithoutRuns someRequests), DeletedTogether store := by
  have initial : Initial storeWithoutRuns := {
    noRuns := rfl
    suggestionsKeyed := by decide
    observationsKeyed := by decide
    observationIds := fun _ member => nomatch member }
  exact ⟨initial, deleted_together plainCreateCalls initial someRequests⟩

end Requests

end Zigopt.TrainingRuns
