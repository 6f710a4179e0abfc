/-
Module: Zigopt.Observations.Tasked
Layer: Observations
Purpose: Which task a stored observation is of, whatever has been reported or reported again: one of the tasks of its
  experiment if that is a multitask experiment, and none otherwise. And an observation has no more values than its
  experiment has metrics.
Main exports: TaskFits, SuggestionsFit, Storable, Tasked, observations_tasked
-/
import Zigopt.Observations.WellFormed

namespace Zigopt.Observations

open Raising

/-- A task of the experiment where it has several, and none otherwise. -/
def TaskFits (experiment : MetricsExperiment) (task : Option Task) : Prop :=
  if experiment.isMultitask then ∃ known ∈ experiment.tasks, task = some known else task = none

theorem TaskFits.untasked {experiment : MetricsExperiment} {task : Option Task} (fits : TaskFits experiment task) :
    experiment.isMultitask = false → task = none := by
  intro single
  rw [TaskFits, single, if_neg Bool.false_ne_true] at fits
  exact fits

/-- The suggestions of a multitask experiment are made for its tasks. -/
def SuggestionsFit (sections : ObservationSections) (experiment : MetricsExperiment) : Prop :=
  experiment.isMultitask = true → ∀ id suggestion, sections.findSuggestion id = some suggestion →
    TaskFits experiment suggestion.task

/-- What is required of an observation that is ranked: no more values than metrics, and a task in a multitask
    experiment only. -/
structure Storable (experiment : MetricsExperiment) (data : ObservationData) : Prop where
  few : data.values.length ≤ experiment.allMetrics.length
  untasked : experiment.isMultitask = false → data.task = none

/-- The task, if there is to be one, is one of the experiment. -/
structure Tasked (experiment : MetricsExperiment) (data : ObservationData) : Prop extends
    Storable experiment data where
  task : TaskFits experiment data.task

theorem Tasked.of_fits {experiment : MetricsExperiment} {data : ObservationData}
    (few : data.values.length ≤ experiment.allMetrics.length) (task : TaskFits experiment data.task) :
    Tasked experiment data where
  few := few
  untasked := task.untasked
  task := task

section Tasks

variable {sections : ObservationSections} {experiment : MetricsExperiment} {data : ObservationData}

theorem extractTask_mem {json : JsonObject} {task : Task} (accepted : extractTask experiment json = .ok task) :
    task ∈ experiment.tasks := by
  simp only [extractTask, bind_eq_ok] at accepted
  obtain ⟨_, _, taskName, _, known⟩ := accepted
  cases taskName with
  | none => cases known
  | some name =>
      dsimp only at known
      split at known
      · next found =>
          rw [pure_eq_ok] at known
          rw [← known]
          exact List.mem_of_find?_eq_some found
      · cases known

/-- A task that is read of a request is one of the experiment. -/
theorem setObservationDataTaskFromJson_fits {result : ObservationData} {json : JsonObject}
    (untasked : experiment.isMultitask = false → data.task = none)
    (accepted : setObservationDataTaskFromJson experiment data json = .ok result) :
    TaskFits experiment result.task := by
  rw [setObservationDataTaskFromJson, bind_eq_ok] at accepted
  obtain ⟨task, extracted, isSet⟩ := accepted
  rw [extractTaskFromJson] at extracted
  cases several : experiment.isMultitask with
  | true =>
      rw [if_pos several, map_eq_ok] at extracted
      obtain ⟨known, isKnown, rfl⟩ := extracted
      rw [pure_eq_ok] at isSet
      rw [TaskFits, if_pos several, ← isSet]
      exact ⟨known, extractTask_mem isKnown, rfl⟩
  | false =>
      rw [if_neg (by simp [several]), pure_eq_ok] at extracted
      rw [← extracted, pure_eq_ok] at isSet
      rw [TaskFits, if_neg (by simp [several]), ← isSet]
      exact untasked several

theorem setObservationSuggestion_fits (suggestions : SuggestionsFit sections experiment) {suggestionJson : ℤ}
    {result : Observation} (untasked : experiment.isMultitask = false → data.task = none)
    (accepted : setObservationSuggestion sections experiment data suggestionJson = .ok result) :
    TaskFits experiment result.data.task := by
  unfold setObservationSuggestion at accepted
  split at accepted
  · cases accepted
  · next suggestion found =>
      rw [pure_eq_ok] at accepted
      rw [← accepted]
      cases several : experiment.isMultitask with
      | true =>
          rw [if_pos rfl]
          exact suggestions several suggestionJson suggestion found
      | false =>
          rw [if_neg Bool.false_ne_true, TaskFits, several, if_neg Bool.false_ne_true]
          exact untasked several

theorem setObservationAssignmentsMap_task {result : ObservationData} {json : JsonObject}
    (accepted : setObservationAssignmentsMap sections data json = .ok result) : result.task = data.task := by
  simp only [setObservationAssignmentsMap, bind_eq_ok, pure_eq_ok] at accepted
  obtain ⟨_, _, _, _, _, _, rfl⟩ := accepted
  rfl

/-- A create in a multitask experiment has a suggestion, or a task of its own. -/
theorem setObservationDataAssignmentsTask_fits (suggestions : SuggestionsFit sections experiment)
    {observation result : Observation} {json : JsonObject}
    (untasked : experiment.isMultitask = false → data.task = none)
    (accepted : setObservationDataAssignmentsTaskFromJson sections experiment data observation json = .ok result) :
    TaskFits experiment result.data.task := by
  simp only [setObservationDataAssignmentsTaskFromJson, bind_eq_ok] at accepted
  obtain ⟨assignmentsJson, _, suggestionJson, _, matched⟩ := accepted
  cases suggestionJson with
  | some suggestion =>
      cases assignmentsJson with
      | some assignments => cases matched
      | none =>
          simp only [bind_eq_ok] at matched
          obtain ⟨_, _, set⟩ := matched
          exact setObservationSuggestion_fits suggestions untasked set
  | none =>
      cases assignmentsJson with
      | none => cases matched
      | some assignments =>
          simp only [bind_eq_ok, pure_eq_ok] at matched
          obtain ⟨assigned, assignedOk, tasked, taskedOk, rfl⟩ := matched
          have sameTask := setObservationAssignmentsMap_task assignedOk
          rw [← sameTask] at untasked
          cases several : experiment.isMultitask with
          | true =>
              rw [setTaskOfCreate, if_pos several, bind_eq_ok] at taskedOk
              obtain ⟨_, _, isSet⟩ := taskedOk
              exact setObservationDataTaskFromJson_fits untasked isSet
          | false =>
              rw [setTaskOfCreate, if_neg (by simp [several]), pure_eq_ok] at taskedOk
              rw [TaskFits, several, if_neg Bool.false_ne_true, ← taskedOk]
              exact untasked several

theorem updateAssignments_task {observation result : Observation} {json : JsonObject}
    {assignmentsJson : Option JsonObject}
    (accepted : updateAssignments sections data observation json assignmentsJson = .ok result) :
    result.data.task = data.task := by
  unfold updateAssignments at accepted
  split at accepted
  · simp only [bind_eq_ok, pure_eq_ok] at accepted
    obtain ⟨assigned, assignedOk, rfl⟩ := accepted
    exact setObservationAssignmentsMap_task assignedOk
  · rw [pure_eq_ok] at accepted
    rw [← accepted]

/-- An update keeps the task, or takes that of the suggestion or the request. -/
theorem updateObservationDataAssignmentsTask_fits (suggestions : SuggestionsFit sections experiment)
    {observation result : Observation} {json : JsonObject} (fits : TaskFits experiment data.task)
    (accepted : updateObservationDataAssignmentsTaskFromJson sections experiment data observation json = .ok result) :
    TaskFits experiment result.data.task := by
  simp only [updateObservationDataAssignmentsTaskFromJson, bind_eq_ok] at accepted
  obtain ⟨assignmentsJson, _, suggestionJson, _, _, _, _, _, matched⟩ := accepted
  cases suggestionJson with
  | some suggestion =>
      simp only at matched
      split at matched
      · exact setObservationSuggestion_fits suggestions fits.untasked matched
      · rw [pure_eq_ok] at matched
        rw [← matched]
        exact fits
  | none =>
      simp only [bind_eq_ok] at matched
      obtain ⟨assigned, assignedOk, tasked⟩ := matched
      rw [← updateAssignments_task assignedOk] at fits
      unfold updateTask at tasked
      split at tasked
      · simp only [bind_eq_ok, pure_eq_ok] at tasked
        obtain ⟨set, isSet, rfl⟩ := tasked
        exact setObservationDataTaskFromJson_fits fits.untasked isSet
      · rw [pure_eq_ok] at tasked
        rw [← tasked]
        exact fits

end Tasks

/-! ### Requests -/

section Requests

variable {sections : ObservationSections} {experiment : MetricsExperiment}

theorem createObservationData_few {result : ObservationData} {values : Option (List JsonObject)}
    {failed : Option Bool} (accepted : createObservationData {} values experiment failed = .ok result) :
    result.values.length ≤ experiment.allMetrics.length ∧ result.task = none := by
  unfold createObservationData at accepted
  split at accepted
  · rw [pure_eq_ok] at accepted
    rw [← accepted]
    exact ⟨Nat.zero_le _, rfl⟩
  · rw [pure_eq_ok] at accepted
    rw [← accepted]
    exact ⟨Nat.zero_le _, rfl⟩
  · simp only [bind_eq_ok, pure_eq_ok] at accepted
    obtain ⟨formatted, formattedOk, rfl⟩ := accepted
    exact ⟨(getFormattedValues_ok formattedOk).length.le, rfl⟩

theorem updateObservationData_few {data result : ObservationData} {values : Option (List JsonObject)}
    {failed : Option Bool} (few : data.values.length ≤ experiment.allMetrics.length)
    (accepted : updateObservationData data values experiment failed = .ok result) :
    result.values.length ≤ experiment.allMetrics.length ∧ result.task = data.task := by
  unfold updateObservationData at accepted
  split at accepted
  · rw [pure_eq_ok] at accepted
    rw [← accepted]
    refine ⟨?_, rfl⟩
    rw [List.length_map]
    exact few
  · rw [pure_eq_ok] at accepted
    rw [← accepted]
    exact ⟨few, rfl⟩
  · simp only [bind_eq_ok, pure_eq_ok] at accepted
    obtain ⟨formatted, formattedOk, rfl⟩ := accepted
    exact ⟨(getFormattedValues_ok formattedOk).length.le, rfl⟩

theorem createObservation_tasked (suggestions : SuggestionsFit sections experiment) {json : JsonObject}
    {observation : Observation} (accepted : createObservation sections experiment json = .ok observation) :
    Tasked experiment observation.data := by
  simp only [createObservation, observationFromJson, bind_eq_ok] at accepted
  obtain ⟨_, _, _, _, _, _, data, dataSet, _, _, assigned⟩ := accepted
  obtain ⟨few, noTask⟩ := createObservationData_few dataSet
  apply Tasked.of_fits
  · rw [(setObservationDataAssignmentsTask_ok assigned).1]
    exact few
  · exact setObservationDataAssignmentsTask_fits suggestions (fun _ => noTask) assigned

theorem updateObservation_tasked (suggestions : SuggestionsFit sections experiment)
    {observation result : Observation} {json : JsonObject} (tasked : Tasked experiment observation.data)
    (accepted : updateObservation sections experiment observation json = .ok result) :
    Tasked experiment result.data := by
  simp only [updateObservation, updateObservationChecking, observationFromJson, bind_eq_ok] at accepted
  obtain ⟨_, _, _, _, _, _, _, _, _, _, _, _, _, _, data, dataSet, _, _, assigned⟩ := accepted
  obtain ⟨few, sameTask⟩ := updateObservationData_few tasked.few dataSet
  apply Tasked.of_fits
  · rw [(updateObservationDataAssignmentsTask_ok assigned).1]
    exact few
  · have fits := tasked.task
    rw [← sameTask] at fits
    exact updateObservationDataAssignmentsTask_fits suggestions fits assigned

/-- Whatever is created and updated, every stored observation of a multitask experiment is of one of its tasks, and
    every other one is of none. -/
theorem observations_tasked (suggestions : SuggestionsFit sections experiment)
    {steps : List (Operation × List Observation)}
    (accepted : Trace.Every (fun before operation after => perform sections experiment before operation = .ok after)
      [] steps) :
    ∀ observations ∈ Trace.reached [] steps, ∀ observation ∈ observations, Tasked experiment observation.data := by
  have preserved : ∀ (before : List Observation) (operation : Operation) (after : List Observation),
      (∀ observation ∈ before, Tasked experiment observation.data) →
        perform sections experiment before operation = .ok after →
          ∀ observation ∈ after, Tasked experiment observation.data := by
    intro before operation after stored performed
    exact perform_keeps (fun _ _ created => createObservation_tasked suggestions created)
      (fun _ _ _ tasked updated => updateObservation_tasked suggestions tasked updated) stored performed
  apply Trace.every_invariant preserved _ accepted
  intro observation impossible
  cases impossible

end Requests

/-! ### A run with two tasks -/

def fullAndHalf : MetricsExperiment where
  metrics := [{ name := "loss" }]
  tasks := [{ name := "full" }, { name := "half", cost := 1 / 2 }]

/-- One suggestion, which is made for half of the data. -/
def sectionsWithSuggestion : ObservationSections where
  findSuggestion id :=
    if id = 7 then some { id := 7, assignmentsMap := [("x", 1)], task := some ⟨"half", 1 / 2⟩ } else none
  assignmentsFromJson _ := pure [("x", 0)]
  validateClientProvidedData _ := pure ()

def valueRequest (value : ℚ) : String × Json := ("values", .array [.object [("value", .number value)]])

def reported (processedSuggestionId : Option Nat) (assignment value : ℚ) (task : Task) : Observation where
  processedSuggestionId := processedSuggestionId
  data := { values := [{ value := some value }], assignmentsMap := [("x", assignment)], task := some task }

/-- An observation of the suggestion, and one with a task of its own that an update changes with its value. -/
def reportedTasks : List (Operation × List Observation) :=
  [(.create [("suggestion", .number 7), valueRequest 3], [reported (some 7) 1 3 ⟨"half", 1 / 2⟩]),
    (.create [("assignments", .object [("x", .number 0)]), ("task", .string "full"), valueRequest 5],
      [reported (some 7) 1 3 ⟨"half", 1 / 2⟩, reported none 0 5 ⟨"full", 1⟩]),
    (.update 1 [("task", .object [("name", .string "half")]), ("assignments", .object [("x", .number 0)]),
        valueRequest 6],
      [reported (some 7) 1 3 ⟨"half", 1 / 2⟩, reported none 0 6 ⟨"half", 1 / 2⟩])]

/-- The suggestion and both requests name tasks of the experiment. -/
theorem observations_tasked_reportedTasks :
    Trace.Every (fun before operation after =>
        perform sectionsWithSuggestion fullAndHalf before operation = .ok after) [] reportedTasks ∧
      ∀ observations ∈ Trace.reached [] reportedTasks, ∀ observation ∈ observations,
        Tasked fullAndHalf observation.data := by
  have accepted : Trace.Every (fun before operation after =>
      perform sectionsWithSuggestion fullAndHalf before operation = .ok after) [] reportedTasks := by
    refine ⟨?_, ?_, ?_, trivial⟩
    · decide +kernel
    · decide +kernel
    · decide +kernel
  refine ⟨accepted, observations_tasked ?_ accepted⟩
  intro several id suggestion found
  simp only [sectionsWithSuggestion] at found
  split at found
  · cases found
    rw [TaskFits, if_pos several]
    exact ⟨⟨"half", 1 / 2⟩, List.mem_cons_of_mem _ List.mem_cons_self, rfl⟩
  · cases found

end Zigopt.Observations
