/-
Module: Zigopt.TrainingRuns.ObservationsAlike
Layer: Proofs
Purpose: The two observations that a run can get when it ends: of the assignments of the request that creates it
  finished, or of the suggestion that was made of such assignments. Both have the same data, or there is neither.
Main exports: reportsOf, explicitSuggestion, ExplicitBroker, acceptedAssignments, createObservation_of_accepted,
  createObservation_of_refused, observationOfRun_of_suggestion
-/
import Mathlib.Algebra.Order.Ring.Rat
import Zigopt.TrainingRuns.Alone
import Zigopt.TrainingRuns.Documents
import Zigopt.TrainingRuns.Reported

namespace Zigopt.TrainingRuns

open Raising Observations

/-! ### The values of a finished run -/

section Reports

variable {calls : Calls} {values : ReportedValues} {state : TrainingRunState} {data : JsonObject}

/-- The values to report of a run with this data, or none if it counts as failed. -/
def reportsOf (calls : Calls) (metrics : List ExperimentMetric) (data : JsonObject) : Option (List JsonObject) :=
  if stateOf data ≠ .failed ∧ (metrics.filterMap (reportOf calls data)).length = metrics.length then
    some (metrics.filterMap (reportOf calls data))
  else none

theorem Finished.variancesNonneg (finished : Finished values state data) (metrics : List ExperimentMetric) :
    VariancesNonneg data metrics := by
  intro metric _ value named
  rw [finished.values, Option.map_eq_some_iff] at named
  obtain ⟨reported, _, rfl⟩ := named
  obtain ⟨number, deviation⟩ := reported
  cases deviation with
  | none => exact le_refl (0 : ℚ)
  | some deviation => exact mul_self_nonneg deviation

theorem reportsOf_congr {other : JsonObject} (finished : Finished values state data)
    (otherFinished : Finished values state other) (metrics : List ExperimentMetric) :
    reportsOf calls metrics data = reportsOf calls metrics other := by
  have sameReports : reportOf calls data = reportOf calls other := by
    funext metric
    rw [reportOf, finished.values, reportOf, otherFinished.values]
  rw [reportsOf, finished.state, sameReports, reportsOf, otherFinished.state]

theorem createdValues_finished {calls : CreateCalls} (finished : Finished values state data)
    (experiment : Experiment) :
    createdValues calls experiment data =
      .ok (reportsOf calls.toCalls experiment.allMetrics.allMetrics data,
        (reportsOf calls.toCalls experiment.allMetrics.allMetrics data).isNone) := by
  rw [createdValues, reportsOf]
  by_cases failed : stateOf data = .failed
  · rw [if_pos failed, if_neg fun both => both.1 failed]
    rfl
  · rw [if_neg failed, getObservationValues_ok (finished.variancesNonneg _), ok_bind]
    by_cases complete : (experiment.allMetrics.allMetrics.filterMap (reportOf calls.toCalls data)).length =
        experiment.allMetrics.allMetrics.length
    · rw [if_pos complete, if_pos ⟨failed, complete⟩]
      rfl
    · rw [if_neg complete, if_neg fun both => complete both.2]
      rfl

theorem reportedValues_finished (finished : Finished values state data) (experiment : Experiment) :
    reportedValues calls experiment data =
      .ok ((reportsOf calls experiment.allMetrics.allMetrics data).getD [],
        (reportsOf calls experiment.allMetrics.allMetrics data).isNone) := by
  rw [reportedValues, reportsOf]
  by_cases failed : stateOf data = .failed
  · rw [if_pos failed, if_neg fun both => both.1 failed]
    rfl
  · rw [if_neg failed, getObservationValues_ok (finished.variancesNonneg _), ok_bind]
    by_cases complete : (experiment.allMetrics.allMetrics.filterMap (reportOf calls data)).length =
        experiment.allMetrics.allMetrics.length
    · rw [if_pos complete, if_pos ⟨failed, complete⟩]
      rfl
    · rw [if_neg complete, if_neg fun both => complete both.2]
      rfl

theorem reportsOf_accepted {metrics : List ExperimentMetric} {value : JsonObject}
    (reported : value ∈ (reportsOf calls metrics data).getD []) : valueItemAccepted (.object value) = true := by
  rw [reportsOf] at reported
  split at reported
  · obtain ⟨metric, _, isReport⟩ := List.mem_filterMap.mp reported
    exact valueItemAccepted_report isReport
  · cases reported

theorem reportsOf_eq_nil_iff (experiment : MetricsExperiment) :
    (reportsOf calls experiment.allMetrics data).getD [] = [] ↔
      (reportsOf calls experiment.allMetrics data).isNone = true := by
  rw [reportsOf]
  split
  · rename_i complete
    apply iff_of_false
    · intro noValues
      have sameLength := complete.2
      rw [Option.getD_some] at noValues
      rw [noValues] at sameLength
      exact experiment.allMetrics_ne_nil (List.eq_nil_of_length_eq_zero sameLength.symm)
    · exact Bool.false_ne_true
  · exact iff_of_true rfl rfl

/-- The data of the observation of a finished run, which the names of the metrics do not stop. Whether the values
    that a failed run lacks are null or an empty list makes no difference. -/
theorem createObservationData_reports (calls : Calls) (data : JsonObject) {experiment : MetricsExperiment}
    (named : ¬NamesRefused experiment.allMetrics) :
    let reports := reportsOf calls experiment.allMetrics data
    ∃ observationData, createObservationData {} reports experiment (some reports.isNone) = .ok observationData ∧
      createObservationData {} (some (reports.getD [])) experiment (some reports.isNone) = .ok observationData := by
  dsimp only
  rw [reportsOf]
  split
  · rename_i complete
    have reported := getFormattedValues_reports calls experiment ((length_reports_iff _ _).mp complete.2)
    cases formatted : getFormattedValues (experiment.allMetrics.filterMap (reportOf calls data)) experiment [] with
    | error failure => exact absurd (reported.mp ⟨failure, formatted⟩) named
    | ok formattedValues =>
        refine ⟨{ reportedFailure := false, values := formattedValues }, ?_, ?_⟩
        · rw [Option.isNone_some]
          dsimp only [createObservationData]
          rw [formatted]
          rfl
        · rw [Option.isNone_some, Option.getD_some]
          dsimp only [createObservationData]
          rw [formatted]
          rfl
  · exact ⟨{ reportedFailure := true }, rfl, rfl⟩

end Reports

/-! ### An observation with the assignments of the request -/

section Request

variable {assignments : JsonObject} {values : Option (List JsonObject)} {failed : Bool}

theorem createJsonOf_assignments :
    JsonObject.get (createJsonOf assignments values failed) "assignments" = .object assignments := by
  simp [createJsonOf, JsonObject.get]

theorem createJsonOf_values :
    JsonObject.get (createJsonOf assignments values failed) "values" =
      (values.map fun given => Json.array (given.map .object)).getD .null := by
  simp [createJsonOf, JsonObject.get, List.lookup_cons]

theorem createJsonOf_failed :
    JsonObject.get (createJsonOf assignments values failed) "failed" = .boolean failed := by
  simp [createJsonOf, JsonObject.get, List.lookup_cons]

theorem readValues_createJsonOf : readValues (createJsonOf assignments values failed) = .ok values := by
  cases values with
  | none =>
      rw [readValues, getOptWithValidation, createJsonOf_values]
      rfl
  | some given => exact readValues_eq_some.mpr createJsonOf_values

theorem readFailed_createJsonOf :
    getOptWithValidation (createJsonOf assignments values failed) "failed" .boolean = .ok (some failed) := by
  rw [getOptWithValidation, createJsonOf_failed]
  rfl

theorem readAssignments_createJsonOf :
    getOptWithValidation (createJsonOf assignments values failed) "assignments" .object = .ok (some assignments) := by
  rw [getOptWithValidation, createJsonOf_assignments]
  rfl

theorem validateObservationJsonDictForCreate_createJsonOf
    (accepted : ∀ value ∈ values.getD [], valueItemAccepted (.object value) = true)
    (valuesOrFailed : values.getD [] = [] ↔ failed = true) :
    validateObservationJsonDictForCreate (createJsonOf assignments values failed) = .ok () := by
  have schema : validateObservationSchema (createJsonOf assignments values failed) = .ok () := by
    rw [validateObservationSchema, raiseIf_eq_ok]
    cases values with
    | none => simp [createJsonOf, memberAccepted]
    | some given =>
        simp only [createJsonOf, List.all_cons, List.all_nil, memberAccepted, Bool.and_true, Bool.true_and,
          List.all_map, Bool.not_eq_false, Option.map_some, Option.getD_some]
        exact List.all_eq_true.mpr accepted
  have suggestionMissing : JsonObject.isPresent (createJsonOf assignments values failed) "suggestion" = false := by
    simp [createJsonOf, JsonObject.isPresent, JsonObject.get, List.lookup_cons]
  have hasAssignments : JsonObject.hasKey (createJsonOf assignments values failed) "assignments" = true := by
    simp [createJsonOf, JsonObject.hasKey]
  rw [validateObservationJsonDictForCreate, schema, ok_bind, readFailed_createJsonOf, ok_bind,
    readValues_createJsonOf, ok_bind, raiseIf, if_neg, ok_bind, raiseIf, if_neg, ok_bind, raiseIf, if_neg,
    ok_bind, raiseIf, if_neg]
  · rintro ⟨notFailed, noValues⟩
    exact notFailed (congrArg some (valuesOrFailed.mp noValues))
  · intro neither
    exact neither (.inr hasAssignments)
  · rintro ⟨suggestionPresent, _⟩
    rw [suggestionMissing] at suggestionPresent
    cases suggestionPresent
  · rintro ⟨hasFailed, someValues⟩
    exact someValues (valuesOrFailed.mpr (Option.some.inj hasFailed))

/-- What is left of the creation: the data from the values, then the assignments; a multitask experiment would
    want a task, which no run has. -/
theorem createObservation_createJsonOf (sections : ObservationSections) (experiment : MetricsExperiment)
    (accepted : ∀ value ∈ values.getD [], valueItemAccepted (.object value) = true)
    (valuesOrFailed : values.getD [] = [] ↔ failed = true) (someAssignments : assignments ≠ []) :
    createObservation sections experiment (createJsonOf assignments values failed) =
      createObservationData {} values experiment (some failed) >>= fun data =>
        sections.assignmentsFromJson assignments >>= fun assignmentsMap =>
          raiseIf (experiment.isMultitask = true) (.sigoptValidation
            "Must provide `assignments` and `task` when creating observations manually") >>= fun _ =>
              pure { data := { data with assignmentsMap := assignmentsMap } } := by
  have keptFailed : failedOrKept (some failed) values {} = some failed := by
    rw [failedOrKept, if_neg]
    rintro ⟨impossible, _⟩
    cases impossible
  have noMetadata : readClientProvidedData sections (createJsonOf assignments values failed) = .ok () := by
    rfl
  rw [createObservation, validateObservationJsonDictForCreate_createJsonOf accepted valuesOrFailed, ok_bind,
    observationFromJson, readFailed_createJsonOf, ok_bind, readValues_createJsonOf, ok_bind, keptFailed]
  congr 1
  funext data
  rw [noMetadata, ok_bind, setObservationDataAssignmentsTaskFromJson, readAssignments_createJsonOf, ok_bind]
  have noSuggestion : getOptWithValidation (createJsonOf assignments values failed) "suggestion" idType = .ok none := by
    rfl
  rw [noSuggestion, ok_bind]
  dsimp only
  rw [setObservationAssignmentsMap, readAssignments_createJsonOf, ok_bind, Option.getD_some]
  have provided : raiseIf (assignments = [])
      (ValidationError.sigoptValidation "Cannot provide null or empty `assignments`") = .ok () := by
    rw [raiseIf, if_neg someAssignments]
  rw [provided, ok_bind]
  cases sections.assignmentsFromJson assignments with
  | error failure => rfl
  | ok assignmentsMap =>
      cases multitask : experiment.isMultitask with
      | false =>
          simp only [ok_bind, setTaskOfCreate, multitask, Bool.false_eq_true, if_false, raiseIf]
          rfl
      | true =>
          simp only [ok_bind, setTaskOfCreate, multitask, if_true, raiseIf]
          rfl

end Request

/-! ### The suggestion with given assignments -/

/-- `build_suggestion_data_from_json`, and what the broker makes of it. -/
def explicitSuggestion (calls : Calls) (experiment : Experiment) (assignments : JsonObject) (id : Nat) :
    Except RunError UnprocessedSuggestion :=
  check (do
    let task ← extractTaskFromJson experiment.allMetrics [("assignments", .object assignments)]
    let assignmentsMap ← calls.assignmentsFromJson experiment assignments
    pure { id := id, assignmentsMap := assignmentsMap, task := task })

/-- The calls make a suggestion of the assignments of the request, under the next id of the sequence; and
    assignments that the experiment accepts are rendered without nulls. -/
structure ExplicitBroker (calls : CreateCalls) where
  nextSuggestionId : Store → Nat
  fresh : ∀ store, isProcessed store (nextSuggestionId store) = false
  explicit : ∀ experiment assignments store, calls.explicitSuggestion experiment assignments store =
    explicitSuggestion calls.toCalls experiment assignments (nextSuggestionId store)
  rendered : ∀ experiment json assignmentsMap, calls.assignmentsFromJson experiment json = .ok assignmentsMap →
    stripMembers (calls.assignmentsJson experiment assignmentsMap) = calls.assignmentsJson experiment assignmentsMap

section Accepted

variable {calls : Calls} {experiment : Experiment} {assignments : JsonObject}

/-- The assignments as the experiment accepts them, without a task. -/
def acceptedAssignments (calls : Calls) (experiment : Experiment) (assignments : JsonObject) :
    Option (List (String × ℚ)) :=
  if experiment.allMetrics.isMultitask then none
  else
    match calls.assignmentsFromJson experiment assignments with
    | .ok assignmentsMap => some assignmentsMap
    | .error _ => none

theorem acceptedAssignments_eq_some {assignmentsMap : List (String × ℚ)} :
    acceptedAssignments calls experiment assignments = some assignmentsMap ↔
      experiment.allMetrics.isMultitask = false ∧
        calls.assignmentsFromJson experiment assignments = .ok assignmentsMap := by
  rw [acceptedAssignments]
  cases experiment.allMetrics.isMultitask with
  | true => simp
  | false =>
      cases calls.assignmentsFromJson experiment assignments with
      | error failure => simp
      | ok other => simp

theorem explicitSuggestion_of_accepted {assignmentsMap : List (String × ℚ)}
    (accepted : acceptedAssignments calls experiment assignments = some assignmentsMap) (id : Nat) :
    explicitSuggestion calls experiment assignments id = .ok { id := id, assignmentsMap := assignmentsMap } := by
  obtain ⟨oneTask, read⟩ := acceptedAssignments_eq_some.mp accepted
  rw [explicitSuggestion, extractTaskFromJson, oneTask, if_neg Bool.false_ne_true, read]
  rfl

theorem explicitSuggestion_of_refused (refused : acceptedAssignments calls experiment assignments = none) (id : Nat) :
    ∃ failure, explicitSuggestion calls experiment assignments id = .error (.validation failure) := by
  rw [explicitSuggestion, extractTaskFromJson]
  rw [acceptedAssignments] at refused
  cases multitask : experiment.allMetrics.isMultitask with
  | true => exact ⟨_, rfl⟩
  | false =>
      rw [multitask, if_neg Bool.false_ne_true] at refused
      cases read : calls.assignmentsFromJson experiment assignments with
      | ok assignmentsMap =>
          rw [read] at refused
          cases refused
      | error failure => exact ⟨failure, rfl⟩

variable {values : ReportedValues} {state : TrainingRunState} {data : JsonObject} {observationData : ObservationData}

/-- The observation of a run that is created finished. -/
theorem createObservation_of_accepted (store : Store) {assignmentsMap : List (String × ℚ)}
    (accepted : acceptedAssignments calls experiment assignments = some assignmentsMap)
    (someAssignments : assignments ≠ []) :
    let reports := reportsOf calls experiment.allMetrics.allMetrics data
    createObservationData {} reports experiment.allMetrics (some reports.isNone) = .ok observationData →
      createObservation (observationSections calls experiment store) experiment.allMetrics
        (createJsonOf assignments reports reports.isNone) =
          .ok { data := { observationData with assignmentsMap := assignmentsMap } } := by
  dsimp only
  intro created
  obtain ⟨oneTask, read⟩ := acceptedAssignments_eq_some.mp accepted
  rw [createObservation_createJsonOf _ _ (fun _ => reportsOf_accepted) (reportsOf_eq_nil_iff _) someAssignments,
    created, ok_bind]
  change (calls.assignmentsFromJson experiment assignments >>= _) = _
  rw [read, ok_bind, oneTask]
  rfl

/-- Assignments that are refused of a new run are refused of its observation as well. -/
theorem createObservation_of_refused (store : Store)
    (refused : acceptedAssignments calls experiment assignments = none) (someAssignments : assignments ≠ []) :
    let reports := reportsOf calls experiment.allMetrics.allMetrics data
    createObservationData {} reports experiment.allMetrics (some reports.isNone) = .ok observationData →
      ∃ failure, createObservation (observationSections calls experiment store) experiment.allMetrics
        (createJsonOf assignments reports reports.isNone) = .error failure := by
  dsimp only
  intro created
  rw [createObservation_createJsonOf _ _ (fun _ => reportsOf_accepted) (reportsOf_eq_nil_iff _) someAssignments,
    created, ok_bind]
  change ∃ failure, (calls.assignmentsFromJson experiment assignments >>= _) = _
  rw [acceptedAssignments] at refused
  cases read : calls.assignmentsFromJson experiment assignments with
  | error failure => exact ⟨failure, rfl⟩
  | ok assignmentsMap =>
      rw [read] at refused
      cases multitask : experiment.allMetrics.isMultitask with
      | true => exact ⟨_, rfl⟩
      | false =>
          rw [multitask, if_neg Bool.false_ne_true] at refused
          cases refused

/-- The observation of a run that is finished by an update. -/
theorem observationOfRun_of_suggestion {store : Store} {suggestion : ProcessedSuggestion}
    (finished : Finished values state data) (found : store.findSuggestion suggestion.suggestionId = some suggestion)
    (ofExperiment : suggestion.experimentId = experiment.id) (oneTask : experiment.allMetrics.isMultitask = false) :
    let reports := reportsOf calls experiment.allMetrics.allMetrics data
    createObservationData {} (some (reports.getD [])) experiment.allMetrics (some reports.isNone) =
        .ok observationData →
      observationOfRun calls experiment data suggestion.suggestionId store =
        .ok {
          processedSuggestionId := some suggestion.suggestionId
          data := { observationData with assignmentsMap := suggestion.assignmentsMap } } := by
  dsimp only
  intro created
  have isFound : (observationSections calls experiment store).findSuggestion (suggestion.suggestionId : ℤ) =
      some (servedSuggestion suggestion) := by
    change findSuggestionOf experiment store suggestion.suggestionId = _
    rw [findSuggestionOf_natCast found, if_pos ofExperiment]
  rw [observationOfRun, reportedValues_finished finished, ok_bind,
    createObservation_observationJsonOf _ _ (fun _ => reportsOf_accepted) (reportsOf_eq_nil_iff _), created, ok_bind,
    setObservationSuggestion, isFound]
  dsimp only
  rw [oneTask]
  rfl

end Accepted

end Zigopt.TrainingRuns
