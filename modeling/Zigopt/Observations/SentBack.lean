/-
Module: Zigopt.Observations.SentBack
Layer: Observations
Purpose: What an update makes of the `values` and `failed` that an observation was rendered with. As they
  were rendered they are refused: a rendered value says what kind of object it is, and a failed observation
  has a list of values. As the web client sends them they change nothing.
Main exports: valueJson, renderedUpdate, sanitizedUpdate, RenderedAsStored, sentBack_unchanged
-/
import Mathlib.Data.Rat.Sqrt
import Zigopt.Observations.WellFormed

namespace Zigopt.Observations

open Raising

/-! ### Rendering -/

/-- The name of a stored value, as it is rendered. -/
def shownName (value : ObservationValue) : Option String :=
  if value.name = "" then none else some value.name

/-- `ValueJsonBuilder`, which shows the kind of object with the other fields. -/
def valueJson (value : ObservationValue) : JsonObject :=
  [("name", (shownName value).elim .null .string),
    ("object", .string "metric_evaluation"),
    ("value", value.value.elim .null .number),
    ("value_stddev", value.valueVar.elim .null fun variance => .number (Rat.sqrt variance))]

/-- `values` of `ObservationDataJsonBuilder`. -/
def valuesJson (experiment : MetricsExperiment) (data : ObservationData) : List JsonObject :=
  (data.getAllMeasurements experiment).map valueJson

/-- An update with `values` and `failed` as they were rendered. -/
def renderedUpdate (experiment : MetricsExperiment) (data : ObservationData) : JsonObject :=
  [("failed", .boolean data.reportedFailure), ("values", .array ((valuesJson experiment data).map .object))]

/-- `sanitizeValues` of the web client; a rendered name is a string or null, and a rendered number is a
    number. -/
def sanitizeValues (values : List JsonObject) : List JsonObject :=
  values.map fun value =>
    [("name", value.get "name"), ("value", value.get "value"), ("value_stddev", value.get "value_stddev")]

/-- What `sanitizeObservation` of the web client makes of `failed` and `values`. -/
def sanitizedUpdate (experiment : MetricsExperiment) (data : ObservationData) : JsonObject :=
  [("failed", .boolean data.reportedFailure),
    ("values", if data.reportedFailure then .null
      else .array ((sanitizeValues (valuesJson experiment data)).map .object))]

/-- A rendered value without the kind of object. -/
def sentValue (value : ObservationValue) : JsonObject :=
  [("name", (shownName value).elim .null .string), ("value", value.value.elim .null .number),
    ("value_stddev", value.valueVar.elim .null fun variance => .number (Rat.sqrt variance))]

theorem sanitizeValues_valuesJson (experiment : MetricsExperiment) (data : ObservationData) :
    sanitizeValues (valuesJson experiment data) = (data.getAllMeasurements experiment).map sentValue := by
  rw [sanitizeValues, valuesJson, List.map_map]
  rfl

/-! ### What is stored -/

/-- The names that `validate_metric_names` accepts. -/
structure NamesAccepted (experiment : MetricsExperiment) (names : List (Option String)) : Prop where
  distinct : names.Nodup
  named : 2 ≤ names.length → ∀ name ∈ names, name ≠ none ∧ name ≠ some ""
  covering : (names.length = 1 ∧ (nonEmptyNames names).length = 0 ∧
      (experiment.allMetrics.map (·.name)).eraseDups.length ≤ 1) ∨
    ∀ metric ∈ experiment.allMetrics, some metric.name ∈ names

theorem validateMetricNames_eq_ok {experiment : MetricsExperiment} {values : List JsonObject} :
    validateMetricNames values experiment = .ok () ↔ NamesAccepted experiment (values.map valueName) := by
  have someMetric : experiment.allMetrics.map (·.name) ≠ [] := by
    simpa using experiment.allMetrics_ne_nil
  have keepsAll : (values.map valueName).length > (nonEmptyNames (values.map valueName)).length ↔
      ¬∀ name ∈ values.map valueName, name ≠ none ∧ name ≠ some "" := by
    have atMost := List.length_filter_le (fun name : Option String => name ≠ none && name ≠ some "")
      (values.map valueName)
    have equal := List.length_filter_eq_length_iff (l := values.map valueName)
      (p := fun name : Option String => name ≠ none && name ≠ some "")
    rw [nonEmptyNames, gt_iff_lt, lt_iff_le_and_ne, and_iff_right atMost, Ne, equal]
    simp
  simp only [validateMetricNames, bind_eq_ok, raiseIf_eq_ok, not_not, keepsAll]
  constructor
  · rintro ⟨_, distinct, _, allNamed, _, _, matched⟩
    refine ⟨distinct, fun several => not_not.mp fun missing => allNamed ⟨several, missing⟩, ?_⟩
    split at matched
    · rename_i unnamed
      exact .inl unnamed
    · rw [raiseIf_eq_ok] at matched
      right
      intro metric member
      by_contra absent
      exact matched ⟨metric.name, List.mem_map_of_mem member, absent⟩
  · intro accepted
    refine ⟨(), accepted.distinct, (), fun ⟨several, missing⟩ => missing (accepted.named several), (),
      fun impossible => someMetric impossible.1, ?_⟩
    split
    · rfl
    · rename_i notUnnamed
      rw [raiseIf_eq_ok]
      rintro ⟨name, isMetric, absent⟩
      obtain ⟨metric, member, rfl⟩ := List.mem_map.mp isMetric
      rcases accepted.covering with unnamed | covered
      · exact notUnnamed unnamed
      · exact absent (covered metric member)

/-- What is stored under the names of a request that was accepted: the names it would show are accepted
    again, and each variance is the square of a deviation. -/
structure Recorded (experiment : MetricsExperiment) (data : ObservationData) : Prop where
  named : data.values = [] ∨ (data.values.length = experiment.allMetrics.length ∧
    NamesAccepted experiment (data.values.map shownName))
  squares : ∀ value ∈ data.values, ∀ variance ∈ value.valueVar, ∃ deviation, variance = deviation * deviation

/-- Being recorded is about the values only. -/
theorem Recorded.congr {experiment : MetricsExperiment} {data other : ObservationData}
    (recorded : Recorded experiment data) (sameValues : other.values = data.values) :
    Recorded experiment other where
  named := by
    rw [sameValues]
    exact recorded.named
  squares := by
    rw [sameValues]
    exact recorded.squares

theorem Recorded.cleared {experiment : MetricsExperiment} {data : ObservationData}
    (recorded : Recorded experiment data) :
    Recorded experiment { data with reportedFailure := true, values := data.values.map (·.clear) } where
  named := by
    rcases recorded.named with noValues | ⟨sameLength, accepted⟩
    · simp [noValues]
    · right
      rw [List.length_map, List.map_map]
      exact ⟨sameLength, accepted⟩
  squares := by
    intro value member variance isVariance
    obtain ⟨old, _, rfl⟩ := List.mem_map.mp member
    cases isVariance

section Formatted

variable {experiment : MetricsExperiment} {values : List JsonObject}
  {oldValues formatted : List ObservationValue}

/-- The schema of a request leaves no `value_var` in its values. -/
theorem not_hasKey_valueVar {json : JsonObject} (schema : validateObservationSchema json = .ok ())
    (valuesRead : readValues json = .ok (some values)) : ∀ value ∈ values, value.hasKey "value_var" = false := by
  have given := readValues_eq_some.mp valuesRead
  simp only [validateObservationSchema, raiseIf_eq_ok, Bool.not_eq_false] at schema
  intro value member
  have isMember : ("values", Json.array (values.map .object)) ∈ json := by
    apply JsonObject.mem_of_lookup
    cases found : json.lookup "values" with
    | none => simp [JsonObject.get, found] at given
    | some other => rw [← given, JsonObject.get, found, Option.getD_some]
  have itemsAccepted := List.all_eq_true.mp schema _ isMember
  have itemAccepted : valueItemAccepted (.object value) = true :=
    List.all_eq_true.mp itemsAccepted _ (List.mem_map_of_mem member)
  simp only [valueItemAccepted, Bool.and_eq_true, List.all_eq_true, decide_eq_true_eq] at itemAccepted
  by_contra hasKey
  rw [Bool.not_eq_false, JsonObject.hasKey, Option.isSome_iff_exists] at hasKey
  obtain ⟨variance, found⟩ := hasKey
  have isKey := itemAccepted.1.1.1 _ (JsonObject.mem_of_lookup found)
  simp at isKey

/-- A new variance is the square of the deviation that the request gives, or an old one. -/
theorem formattedValue_squares {json : JsonObject} {value : ObservationValue}
    (squares : ∀ old ∈ oldValues, ∀ variance ∈ old.valueVar, ∃ deviation, variance = deviation * deviation)
    (noVariance : json.hasKey "value_var" = false) (accepted : formattedValue oldValues json = .ok value) :
    ∀ variance ∈ value.valueVar, ∃ deviation, variance = deviation * deviation := by
  simp only [formattedValue, bind_eq_ok] at accepted
  obtain ⟨name, _, _, _, number, _, valueVar, varianceRead, finished⟩ := accepted
  have varianceIs : value.valueVar = valueVar := by
    split at finished
    · rw [pure_eq_ok] at finished
      rw [← finished]
    · cases finished
  intro variance isVariance
  rw [varianceIs] at isVariance
  unfold valueVarFromJson at varianceRead
  split at varianceRead
  · simp only [bind_eq_ok, pure_eq_ok] at varianceRead
    obtain ⟨stddev, _, rfl⟩ := varianceRead
    obtain ⟨deviation, _, rfl⟩ := Option.map_eq_some_iff.mp isVariance
    exact ⟨deviation, rfl⟩
  · rw [if_neg (by simp [noVariance]), pure_eq_ok] at varianceRead
    rw [← varianceRead] at isVariance
    obtain ⟨old, found, oldVariance⟩ := Option.bind_eq_some_iff.mp isVariance
    exact squares old (List.mem_reverse.mp (List.mem_of_find?_eq_some found)) variance oldVariance

/-- An empty name in a request is stored as no name. -/
theorem NamesAccepted.stored {names : List (Option String)} (accepted : NamesAccepted experiment names)
    (sameLength : names.length = experiment.allMetrics.length)
    (namesAre : formatted.map (·.name) = names.map fun name => name.getD "") :
    NamesAccepted experiment (formatted.map shownName) := by
  have shown : formatted.map shownName =
      names.map fun name => if name.getD "" = "" then none else some (name.getD "") := by
    have mapped := congrArg (List.map fun text : String => if text = "" then none else some text) namesAre
    rw [List.map_map, List.map_map] at mapped
    exact mapped
  rw [shown]
  by_cases several : 2 ≤ names.length
  · have unchanged : (names.map fun name => if name.getD "" = "" then none else some (name.getD "")) = names := by
      conv_rhs => rw [← List.map_id names]
      apply List.map_congr_left
      intro name member
      obtain ⟨notNone, notEmpty⟩ := accepted.named several name member
      cases name with
      | none => exact absurd rfl notNone
      | some text => simpa using fun isEmpty => notEmpty (congrArg some isEmpty)
    rw [unchanged]
    exact accepted
  · have one : experiment.allMetrics.length = 1 := by
      have some := List.length_pos_of_ne_nil experiment.allMetrics_ne_nil
      omega
    obtain ⟨name, rfl⟩ := List.length_eq_one_iff.mp (sameLength.trans one)
    obtain ⟨metric, metricsAre⟩ := List.length_eq_one_iff.mp one
    rw [List.map_singleton]
    by_cases empty : name.getD "" = ""
    · rw [if_pos empty]
      refine ⟨List.nodup_singleton _, fun several => by simp at several, .inl ⟨rfl, rfl, ?_⟩⟩
      simp [metricsAre, List.eraseDups_cons]
    · rw [if_neg empty]
      cases name with
      | none => exact absurd rfl empty
      | some text => exact accepted

theorem getFormattedValues_recorded {data : ObservationData}
    (squares : ∀ old ∈ oldValues, ∀ variance ∈ old.valueVar, ∃ deviation, variance = deviation * deviation)
    (noVariance : ∀ value ∈ values, value.hasKey "value_var" = false)
    (accepted : getFormattedValues values experiment oldValues = .ok formatted)
    (stored : data.values = formatted) : Recorded experiment data := by
  have formattedAs := getFormattedValues_ok accepted
  simp only [getFormattedValues, bind_eq_ok, raiseIf_eq_ok, not_not] at accepted
  obtain ⟨_, sameLength, _, namesChecked, mapped⟩ := accepted
  subst stored
  constructor
  · refine .inr ⟨formattedAs.length, ?_⟩
    refine (validateMetricNames_eq_ok.mp namesChecked).stored ?_ formattedAs.names
    rw [List.length_map, sameLength]
  · intro value member
    obtain ⟨json, isGiven, read⟩ := exists_item (mapM_eq_ok.mp mapped) member
    exact formattedValue_squares squares (noVariance json isGiven) read

end Formatted

section Requests

variable {sections : ObservationSections} {experiment : MetricsExperiment}

theorem createObservation_recorded {json : JsonObject} {observation : Observation}
    (accepted : createObservation sections experiment json = .ok observation) :
    Recorded experiment observation.data := by
  simp only [createObservation, validateObservationJsonDictForCreate, observationFromJson, bind_eq_ok] at accepted
  obtain ⟨_, ⟨_, schema, _⟩, _, _, values, valuesRead, data, dataSet, _, _, assigned⟩ := accepted
  apply Recorded.congr ?_ (setObservationDataAssignmentsTask_ok assigned).1
  have nothingYet : ∀ stored : ObservationData, stored.values = [] → Recorded experiment stored := by
    intro stored noValues
    exact ⟨.inl noValues, by simp [noValues]⟩
  unfold createObservationData at dataSet
  split at dataSet
  · rw [pure_eq_ok] at dataSet
    exact nothingYet _ (by rw [← dataSet])
  · rw [pure_eq_ok] at dataSet
    exact nothingYet _ (by rw [← dataSet])
  · simp only [bind_eq_ok, pure_eq_ok] at dataSet
    obtain ⟨formatted, formattedOk, rfl⟩ := dataSet
    exact getFormattedValues_recorded (by simp) (not_hasKey_valueVar schema valuesRead) formattedOk rfl

theorem updateObservation_recorded {observation result : Observation} {json : JsonObject}
    (recorded : Recorded experiment observation.data)
    (accepted : updateObservation sections experiment observation json = .ok result) :
    Recorded experiment result.data := by
  simp only [updateObservation, updateObservationChecking, observationFromJson, bind_eq_ok] at accepted
  obtain ⟨_, schema, _, _, _, _, _, _, _, _, _, _, values, valuesRead, data, dataSet, _, _, assigned⟩ := accepted
  apply Recorded.congr ?_ (updateObservationDataAssignmentsTask_ok assigned).1
  unfold updateObservationData at dataSet
  split at dataSet
  · rw [pure_eq_ok] at dataSet
    rw [← dataSet]
    exact recorded.cleared
  · rw [pure_eq_ok] at dataSet
    exact recorded.congr (by rw [← dataSet])
  · simp only [bind_eq_ok, pure_eq_ok] at dataSet
    obtain ⟨formatted, formattedOk, rfl⟩ := dataSet
    exact getFormattedValues_recorded recorded.squares (not_hasKey_valueVar schema valuesRead) formattedOk rfl

/-- Whatever is created and updated, what is stored is recorded. -/
theorem observations_recorded {steps : List (Operation × List Observation)}
    (accepted : Trace.Every (fun before operation after => perform sections experiment before operation = .ok after)
      [] steps) :
    ∀ observations ∈ Trace.reached [] steps, ∀ observation ∈ observations, Recorded experiment observation.data :=
  Trace.every_invariant
    (fun _ _ _ good performed => perform_keeps (fun _ _ created => createObservation_recorded created)
      (fun _ _ _ stored updated => updateObservation_recorded stored updated) good performed)
    (by simp) accepted

end Requests

/-! ### What is rendered -/

/-- Each value is rendered as it is stored: under its own name, and with a number. -/
def RenderedAsStored (experiment : MetricsExperiment) (data : ObservationData) : Prop :=
  ∀ measurement ∈ data.getAllMeasurements experiment, measurement ∈ data.values ∧ measurement.value.isSome

instance decidableRenderedAsStored (experiment : MetricsExperiment) (data : ObservationData) :
    Decidable (RenderedAsStored experiment data) :=
  inferInstanceAs (Decidable (∀ measurement ∈ data.getAllMeasurements experiment,
    measurement ∈ data.values ∧ measurement.value.isSome))

section Rendered

variable {experiment : MetricsExperiment} {data : ObservationData}

/-- Values in order of their names are measured in their order. -/
theorem sortedMeasurements_of_sorted {measurements : List ObservationValue} (succeeded : data.reportedFailure = false)
    (some : measurements ≠ []) (sorted : measurements.Pairwise fun first second => first.name ≤ second.name) :
    ObservationData.sortedMeasurements { data with values := measurements } = measurements := by
  rw [ObservationData.sortedMeasurements, if_neg (by simp [succeeded]), if_neg some]
  exact sorted.insertionSort_eq

theorem sortedMeasurements_ne_nil (succeeded : data.reportedFailure = false) : data.sortedMeasurements ≠ [] := by
  by_cases noValues : data.values = []
  · simp [ObservationData.sortedMeasurements, succeeded, noValues]
  · intro empty
    have perm := ObservationData.sortedMeasurements_perm succeeded noValues
    rw [empty] at perm
    exact noValues perm.nil_eq.symm

/-- The naming of a single measurement, apart from the observation. -/
def namedMeasurements (experiment : MetricsExperiment) (measurements : List ObservationValue) :
    List ObservationValue :=
  match measurements, experiment.hasMultipleMetrics, experiment.allMetrics with
  | [onlyMeasurement], false, metric :: _ =>
      if metric.hasName then [{ onlyMeasurement with name := metric.name }] else [onlyMeasurement]
  | others, _, _ => others

theorem getAllMeasurements_eq (experiment : MetricsExperiment) (data : ObservationData) :
    data.getAllMeasurements experiment = namedMeasurements experiment data.sortedMeasurements := rfl

theorem length_namedMeasurements (experiment : MetricsExperiment) (measurements : List ObservationValue) :
    (namedMeasurements experiment measurements).length = measurements.length := by
  unfold namedMeasurements
  split
  · split <;> rfl
  · rfl

/-- A measurement that has the name of the metric is given the same name. -/
theorem namedMeasurements_again (experiment : MetricsExperiment) (measurements : List ObservationValue) :
    namedMeasurements experiment (namedMeasurements experiment measurements) =
      namedMeasurements experiment measurements := by
  cases single : experiment.hasMultipleMetrics with
  | true => simp [namedMeasurements, single]
  | false =>
      obtain ⟨metric, rest, metricsAre⟩ := List.exists_cons_of_ne_nil experiment.allMetrics_ne_nil
      match measurements with
      | [] => simp [namedMeasurements]
      | [only] =>
          by_cases hasName : metric.hasName
          · simp [namedMeasurements, single, metricsAre, hasName]
          · simp [namedMeasurements, single, metricsAre, hasName]
      | first :: second :: others => simp [namedMeasurements]

theorem getAllMeasurements_ne_nil (succeeded : data.reportedFailure = false) :
    data.getAllMeasurements experiment ≠ [] := by
  rw [getAllMeasurements_eq, ← List.length_pos_iff, length_namedMeasurements, List.length_pos_iff]
  exact sortedMeasurements_ne_nil succeeded

/-- Measurements that are stored are measured as they are. -/
theorem getAllMeasurements_of_measurements (succeeded : data.reportedFailure = false) :
    ObservationData.getAllMeasurements { data with values := data.getAllMeasurements experiment } experiment =
      data.getAllMeasurements experiment := by
  have sorted : (data.getAllMeasurements experiment).Pairwise fun first second => first.name ≤ second.name :=
    List.pairwise_map.mp (getAllMeasurements_sorted data experiment)
  rw [getAllMeasurements_eq,
    sortedMeasurements_of_sorted succeeded (getAllMeasurements_ne_nil succeeded) sorted, getAllMeasurements_eq,
    namedMeasurements_again]

/-- The order of the names does not matter. -/
theorem NamesAccepted.perm {names others : List (Option String)} (accepted : NamesAccepted experiment names)
    (perm : others.Perm names) : NamesAccepted experiment others where
  distinct := perm.nodup_iff.mpr accepted.distinct
  named several name member := accepted.named (perm.length_eq ▸ several) name (perm.mem_iff.mp member)
  covering := by
    rcases accepted.covering with ⟨one, unnamed, few⟩ | covered
    · refine .inl ⟨perm.length_eq.trans one, ?_, few⟩
      rw [nonEmptyNames, (perm.filter _).length_eq]
      exact unnamed
    · exact .inr fun metric member => perm.mem_iff.mpr (covered metric member)

/-- What is rendered as it is stored is all that is stored. -/
theorem Recorded.perm (recorded : Recorded experiment data) (rendered : RenderedAsStored experiment data)
    (succeeded : data.reportedFailure = false) :
    (data.getAllMeasurements experiment).Perm data.values ∧
      data.values.length = experiment.allMetrics.length ∧
        NamesAccepted experiment (data.values.map shownName) := by
  obtain ⟨first, firstMember⟩ := List.exists_mem_of_ne_nil _ (getAllMeasurements_ne_nil succeeded : data.getAllMeasurements experiment ≠ [])
  have hasValues : data.values ≠ [] := List.ne_nil_of_mem (rendered first firstMember).1
  have perm := ObservationData.sortedMeasurements_perm succeeded hasValues
  obtain ⟨sameLength, accepted⟩ := recorded.named.resolve_left hasValues
  refine ⟨?_, sameLength, accepted⟩
  cases multiple : experiment.hasMultipleMetrics with
  | true =>
      rw [getAllMeasurements_of_multiple multiple]
      exact perm
  | false =>
      have one : data.values.length = 1 := by
        have nonempty := List.length_pos_of_ne_nil hasValues
        have notSeveral : ¬1 < experiment.allMetrics.length := by
          simpa [MetricsExperiment.hasMultipleMetrics] using multiple
        omega
      have measuredOne : (data.getAllMeasurements experiment).length = 1 := by
        rw [getAllMeasurements_eq, length_namedMeasurements, perm.length_eq, one]
      obtain ⟨value, valuesAre⟩ := List.length_eq_one_iff.mp one
      obtain ⟨measurement, measurementsAre⟩ := List.length_eq_one_iff.mp measuredOne
      have isStored := (rendered measurement (by simp [measurementsAre])).1
      rw [valuesAre, List.mem_singleton] at isStored
      rw [valuesAre, measurementsAre, isStored]

end Rendered

/-! ### The update as the web client sends it -/

section Sent

variable {sections : ObservationSections} {experiment : MetricsExperiment} {observation : Observation}

theorem valueName_sentValue (value : ObservationValue) : valueName (sentValue value) = shownName value := by
  cases shown : shownName value with
  | none => simp [valueName, sentValue, JsonObject.get, shown, ValidationType.string]
  | some name => simp [valueName, sentValue, JsonObject.get, shown, ValidationType.string]

theorem valueItemAccepted_sentValue {value : ObservationValue} (number : value.value.isSome) :
    valueItemAccepted (.object (sentValue value)) = true := by
  obtain ⟨given, isGiven⟩ := Option.isSome_iff_exists.mp number
  have deviationAccepted : ∀ variance, 0 ≤ Rat.sqrt variance := Rat.sqrt_nonneg
  cases shown : shownName value with
  | none =>
      cases varianceIs : value.valueVar with
      | none =>
          simp [valueItemAccepted, sentValue, JsonObject.get, List.lookup_cons, shown, isGiven, varianceIs,
            ValidationType.number, isStringOrNull]
      | some variance =>
          simp [valueItemAccepted, sentValue, JsonObject.get, List.lookup_cons, shown, isGiven, varianceIs,
            ValidationType.number, isStringOrNull, deviationAccepted]
  | some name =>
      cases varianceIs : value.valueVar with
      | none =>
          simp [valueItemAccepted, sentValue, JsonObject.get, List.lookup_cons, shown, isGiven, varianceIs,
            ValidationType.number, isStringOrNull]
      | some variance =>
          simp [valueItemAccepted, sentValue, JsonObject.get, List.lookup_cons, shown, isGiven, varianceIs,
            ValidationType.number, isStringOrNull, deviationAccepted]

theorem shownName_getD (value : ObservationValue) : (shownName value).getD "" = value.name := by
  unfold shownName
  split
  · rename_i empty
    exact empty.symm
  · rfl

theorem readName_sentValue (value : ObservationValue) :
    getOptWithValidation (sentValue value) "name" .string = .ok (shownName value) := by
  cases shown : shownName value with
  | none => simp [getOptWithValidation, sentValue, JsonObject.get, shown]
  | some name =>
      simp [getOptWithValidation, sentValue, JsonObject.get, shown, validateType, ValidationType.string, Except.map]

theorem valueFromJson_sentValue (value : ObservationValue) (default : Option ℚ) :
    valueFromJson (sentValue value) default = .ok value.value := by
  rw [valueFromJson, if_pos (by rfl)]
  cases given : value.value with
  | none => simp [getOptWithValidation, sentValue, JsonObject.get, List.lookup_cons, given]
  | some number =>
      simp [getOptWithValidation, sentValue, JsonObject.get, List.lookup_cons, given, validateType,
        ValidationType.number, Except.map]

/-- The square of the root of a square is the square. -/
theorem valueVarFromJson_sentValue {value : ObservationValue} (default : Option ℚ)
    (square : ∀ variance ∈ value.valueVar, ∃ deviation, variance = deviation * deviation) :
    valueVarFromJson (sentValue value) default = .ok value.valueVar := by
  rw [valueVarFromJson, if_pos (by rfl)]
  cases given : value.valueVar with
  | none => simp [getOptWithValidation, sentValue, JsonObject.get, List.lookup_cons, given, pure, Except.pure]
  | some variance =>
      obtain ⟨deviation, rfl⟩ := square variance given
      have root : Rat.sqrt (deviation * deviation) * Rat.sqrt (deviation * deviation) = deviation * deviation :=
        (Rat.exists_mul_self _).mp ⟨deviation, rfl⟩
      simp [getOptWithValidation, sentValue, JsonObject.get, List.lookup_cons, given, validateType,
        ValidationType.number, Except.map, root, pure, Except.pure]

/-- A stored value that is sent back is stored again. -/
theorem formattedValue_sentValue {oldValues : List ObservationValue} {value : ObservationValue}
    (stored : value ∈ oldValues) (number : value.value.isSome)
    (square : ∀ variance ∈ value.valueVar, ∃ deviation, variance = deviation * deviation) :
    formattedValue oldValues (sentValue value) = .ok value := by
  obtain ⟨given, isGiven⟩ := Option.isSome_iff_exists.mp number
  simp only [formattedValue, bind_eq_ok, raiseIf_eq_ok]
  refine ⟨shownName value, readName_sentValue value, (), ?_, value.value, valueFromJson_sentValue value _,
    value.valueVar, valueVarFromJson_sentValue _ square, ?_⟩
  · rintro ⟨_, notFound⟩
    rw [shownName_getD, List.find?_eq_none] at notFound
    exact notFound value (List.mem_reverse.mpr stored) (by simp)
  · rw [isGiven, shownName_getD]
    dsimp only
    rw [pure_eq_ok, ← isGiven]

/-- The values that are sent back are those that are stored, in order of their names. -/
theorem getFormattedValues_sent {data : ObservationData} (recorded : Recorded experiment data)
    (rendered : RenderedAsStored experiment data) (succeeded : data.reportedFailure = false) :
    getFormattedValues ((data.getAllMeasurements experiment).map sentValue) experiment data.values =
      .ok (data.getAllMeasurements experiment) := by
  obtain ⟨perm, sameLength, accepted⟩ := recorded.perm rendered succeeded
  have names : ((data.getAllMeasurements experiment).map sentValue).map valueName =
      (data.getAllMeasurements experiment).map shownName := by
    rw [List.map_map]
    exact List.map_congr_left fun value _ => valueName_sentValue value
  simp only [getFormattedValues, bind_eq_ok, raiseIf_eq_ok, not_not]
  refine ⟨(), ?_, (), ?_, ?_⟩
  · rw [List.length_map, perm.length_eq, sameLength]
  · rw [validateMetricNames_eq_ok, names]
    exact accepted.perm (perm.map shownName)
  · rw [mapM_eq_ok, List.forall₂_map_left_iff, List.forall₂_same]
    intro value member
    obtain ⟨stored, number⟩ := rendered value member
    exact formattedValue_sentValue stored number (recorded.squares value stored)

/-- An update of nothing but `failed` and `values`. -/
def report (failed : Bool) (values : Json) : JsonObject := [("failed", .boolean failed), ("values", values)]

/-- A report has either failed or values that are not null. -/
theorem checkFailedAndValues_report {failed : Bool} {values : Json} :
    checkFailedAndValues experiment (report failed values) observation = .ok () ↔
      JsonObject.isPresent (report failed values) "values" = !failed := by
  have failedIs : failedOfUpdate (report failed values) observation = some failed := rfl
  have measured : measurementsGiven (report failed values) = JsonObject.isPresent (report failed values) "values" := rfl
  have valued : valueGiven experiment (report failed values) observation =
      JsonObject.isPresent (report failed values) "values" := rfl
  unfold checkFailedAndValues
  rw [failedIs, measured, valued]
  split
  · cases JsonObject.isPresent (report failed values) "values" <;> cases failed <;> simp [raiseIf]
  · cases JsonObject.isPresent (report failed values) "values" <;> cases failed <;> simp [raiseIf]

/-- An accepted report changes what it speaks of. -/
theorem updateObservation_report {failed : Bool} {given : Json} {values : Option (List JsonObject)}
    {data : ObservationData} (schema : validateObservationSchema (report failed given) = .ok ())
    (present : JsonObject.isPresent (report failed given) "values" = !failed)
    (valuesRead : readValues (report failed given) = .ok values)
    (dataSet : updateObservationData observation.data values experiment (some failed) = .ok data) :
    updateObservation sections experiment observation (report failed given) =
      .ok { observation with data := data } := by
  have differ : (observation.processedSuggestionId.isSome = observation.processedSuggestionId.isNone) ↔ False := by
    cases observation.processedSuggestionId <;> simp
  simp only [updateObservation, updateObservationChecking, observationFromJson, bind_eq_ok]
  refine ⟨(), schema, (), ?_, (), checkFailedAndValues_report.mpr present, (), rfl, none, rfl, some failed, rfl,
    values, valuesRead, data, ?_, (), rfl, ?_⟩
  · simp [checkSuggestionOrAssignments, report, JsonObject.hasKey, List.lookup_cons, differ]
  · rw [failedOrKept, if_neg (by simp)]
    exact dataSet
  · simp only [updateObservationDataAssignmentsTaskFromJson, bind_eq_ok]
    refine ⟨none, rfl, none, rfl, (), rfl, (), ?_, ?_⟩
    · cases multitask : experiment.isMultitask <;>
        simp [checkTaskUpdate, report, JsonObject.hasKey, List.lookup_cons, multitask, raiseIf]
    · simp [updateAssignments, updateTask, report, JsonObject.hasKey, List.lookup_cons, pure, Except.pure, bind,
        Except.bind]

/-- Neither the failure nor a value or variance of any metric is changed. -/
def Unchanged (experiment : MetricsExperiment) (data other : ObservationData) : Prop :=
  other.reportedFailure = data.reportedFailure ∧
    other.getAllMeasurements experiment = data.getAllMeasurements experiment

theorem validateObservationSchema_report {failed : Bool} {given : Json}
    (accepted : memberAccepted ("values", given) = true) :
    validateObservationSchema (report failed given) = .ok () := by
  have failedAccepted : memberAccepted ("failed", .boolean failed) = true := rfl
  simp [validateObservationSchema, report, failedAccepted, accepted, raiseIf]

/-- A failed observation is reported as failed again. -/
theorem updateObservation_sanitized_failed (failed : observation.data.reportedFailure = true) :
    ∃ result, updateObservation sections experiment observation (sanitizedUpdate experiment observation.data) =
      .ok result ∧ Unchanged experiment observation.data result.data := by
  have isReport : sanitizedUpdate experiment observation.data = report true .null := by
    simp [sanitizedUpdate, report, failed]
  let cleared : ObservationData :=
    { observation.data with reportedFailure := true, values := observation.data.values.map (·.clear) }
  have accepted : updateObservation sections experiment observation (report true .null) =
      .ok { observation with data := cleared } :=
    updateObservation_report (validateObservationSchema_report rfl) rfl rfl rfl
  rw [isReport]
  refine ⟨_, accepted, failed.symm, ?_⟩
  rw [ObservationData.getAllMeasurements_of_failure failed,
    ObservationData.getAllMeasurements_of_failure (by rfl : cleared.reportedFailure = true)]

theorem updateObservation_sanitized_succeeded (succeeded : observation.data.reportedFailure = false)
    (recorded : Recorded experiment observation.data) (rendered : RenderedAsStored experiment observation.data) :
    ∃ result, updateObservation sections experiment observation (sanitizedUpdate experiment observation.data) =
      .ok result ∧ Unchanged experiment observation.data result.data := by
  let sent : List JsonObject := (observation.data.getAllMeasurements experiment).map sentValue
  have isReport : sanitizedUpdate experiment observation.data = report false (.array (sent.map .object)) := by
    simp [sanitizedUpdate, report, succeeded, sanitizeValues_valuesJson, sent]
  let stored : ObservationData :=
    { observation.data with
      reportedFailure := false
      values := observation.data.getAllMeasurements experiment }
  have itemsAccepted : memberAccepted ("values", .array (sent.map .object)) = true := by
    refine List.all_eq_true.mpr ?_
    intro item member
    simp only [sent, List.map_map, List.mem_map, Function.comp_apply] at member
    obtain ⟨value, isMeasured, rfl⟩ := member
    exact valueItemAccepted_sentValue (rendered value isMeasured).2
  have dataSet : updateObservationData observation.data (some sent) experiment (some false) = .ok stored := by
    simp only [updateObservationData, bind_eq_ok]
    exact ⟨_, getFormattedValues_sent recorded rendered succeeded, rfl⟩
  have accepted : updateObservation sections experiment observation (report false (.array (sent.map .object))) =
      .ok { observation with data := stored } :=
    updateObservation_report (validateObservationSchema_report itemsAccepted) rfl (readValues_eq_some.mpr rfl) dataSet
  rw [isReport]
  refine ⟨_, accepted, succeeded.symm, ?_⟩
  have sameData : stored =
      { observation.data with values := observation.data.getAllMeasurements experiment } := by
    simp [stored, succeeded]
  rw [sameData]
  exact getAllMeasurements_of_measurements succeeded

/-- What was rendered is refused as it is, whatever the observation. -/
theorem updateObservation_rendered_error :
    ∃ failure, updateObservation sections experiment observation (renderedUpdate experiment observation.data) =
      .error failure := by
  have isReport : renderedUpdate experiment observation.data = report observation.data.reportedFailure
      (.array ((valuesJson experiment observation.data).map .object)) := rfl
  cases answered : updateObservation sections experiment observation (renderedUpdate experiment observation.data) with
  | error failure => exact ⟨failure, rfl⟩
  | ok result =>
      exfalso
      simp only [updateObservation, updateObservationChecking, bind_eq_ok] at answered
      obtain ⟨_, schema, _, _, _, checked, _⟩ := answered
      cases failed : observation.data.reportedFailure with
      | true =>
          rw [isReport, checkFailedAndValues_report, failed] at checked
          cases checked
      | false =>
          obtain ⟨value, member⟩ :=
            List.exists_mem_of_ne_nil _ (getAllMeasurements_ne_nil failed : observation.data.getAllMeasurements experiment ≠ [])
          simp only [validateObservationSchema, raiseIf_eq_ok, Bool.not_eq_false] at schema
          have itemsAccepted := List.all_eq_true.mp schema
            ("values", .array ((valuesJson experiment observation.data).map .object)) (by simp [renderedUpdate])
          have itemAccepted : valueItemAccepted (.object (valueJson value)) = true :=
            List.all_eq_true.mp itemsAccepted _
              (List.mem_map_of_mem (List.mem_map_of_mem member))
          simp [valueItemAccepted, valueJson] at itemAccepted

/-- In every run of creates and updates, an observation that is sent back as it was rendered is refused. As
    the web client sends it, it is accepted if its values are rendered as they are stored, and nothing that
    was reported is changed. -/
theorem sentBack_unchanged {steps : List (Operation × List Observation)}
    (accepted : Trace.Every (fun before operation after => perform sections experiment before operation = .ok after)
      [] steps) :
    ∀ observations ∈ Trace.reached [] steps, ∀ observation ∈ observations,
      (∃ failure, updateObservation sections experiment observation (renderedUpdate experiment observation.data) =
        .error failure) ∧
      (RenderedAsStored experiment observation.data →
        ∃ result, updateObservation sections experiment observation
            (sanitizedUpdate experiment observation.data) = .ok result ∧
          Unchanged experiment observation.data result.data) := by
  intro observations isReached observation member
  have recorded := observations_recorded accepted observations isReached observation member
  refine ⟨updateObservation_rendered_error, fun rendered => ?_⟩
  cases failed : observation.data.reportedFailure with
  | true => exact updateObservation_sanitized_failed failed
  | false => exact updateObservation_sanitized_succeeded failed recorded rendered

end Sent

/-! ### An observation with a variance, and one that has failed -/

def unnamedMetric : MetricsExperiment := { metrics := [] }

def measuredRequest : JsonObject :=
  [("assignments", .object [("x", .number 0)]),
    ("values", .array [.object [("value", .number 1), ("value_stddev", .number (3 / 10))]])]

def measuredObservation : Observation :=
  { data := { values := [{ value := some 1, valueVar := some (9 / 100) }], assignmentsMap := [("x", 0)] } }

def measuredThenFailed : List (Operation × List Observation) :=
  [(.create measuredRequest, [measuredObservation]),
    (.create failedRequest, [measuredObservation, failedObservation])]

/-- Both are accepted again, without a change. -/
theorem sentBack_unchanged_both :
    (∃ result, updateObservation permissiveObservationSections unnamedMetric measuredObservation
          (sanitizedUpdate unnamedMetric measuredObservation.data) = .ok result ∧
        Unchanged unnamedMetric measuredObservation.data result.data) ∧
      ∃ result, updateObservation permissiveObservationSections unnamedMetric failedObservation
          (sanitizedUpdate unnamedMetric failedObservation.data) = .ok result ∧
        Unchanged unnamedMetric failedObservation.data result.data := by
  have accepted : Trace.Every (fun before operation after =>
      perform permissiveObservationSections unnamedMetric before operation = .ok after) [] measuredThenFailed := by
    refine ⟨?_, ?_, trivial⟩
    · decide +kernel
    · decide +kernel
  have isReached : [measuredObservation, failedObservation] ∈ Trace.reached [] measuredThenFailed :=
    List.mem_of_getLast? rfl
  constructor
  · exact (sentBack_unchanged accepted _ isReached measuredObservation (by simp)).2 (by decide +kernel)
  · exact (sentBack_unchanged accepted _ isReached failedObservation (by simp)).2 (by decide +kernel)

def accuracyOnly : MetricsExperiment := { metrics := [{ name := "accuracy" }] }

/-- A value without a name, of an experiment whose metric has one. -/
def unnamedObservation : Observation :=
  { data := { values := [{ value := some 1, valueVar := some (9 / 100) }], assignmentsMap := [("x", 0)] } }

/-- As it was rendered, the observation with a variance is not accepted again. An unnamed value of a named
    metric is not accepted under the name it is rendered with, and neither is what is left of a failed
    observation that was said not to have failed, without values. -/
theorem sentBack_refused :
    (Trace.Every (fun before operation after =>
          perform permissiveObservationSections unnamedMetric before operation = .ok after)
        [] [(.create measuredRequest, [measuredObservation])] ∧
      ¬∃ result, updateObservation permissiveObservationSections unnamedMetric measuredObservation
          (renderedUpdate unnamedMetric measuredObservation.data) = .ok result ∧
        Unchanged unnamedMetric measuredObservation.data result.data) ∧
    (Trace.Every (fun before operation after =>
          perform permissiveObservationSections accuracyOnly before operation = .ok after)
        [] [(.create measuredRequest, [unnamedObservation])] ∧
      ∀ result, updateObservation permissiveObservationSections accuracyOnly unnamedObservation
        (sanitizedUpdate accuracyOnly unnamedObservation.data) ≠ .ok result) ∧
    (Trace.Every (fun before operation after =>
          perform permissiveObservationSections accuracyAndLoss before operation = .ok after)
        [] [(.create failedRequest, [failedObservation]),
          (.update 0 [("failed", .boolean false)], [{ data := { assignmentsMap := [("x", 0)] } }])] ∧
      ∀ result, updateObservation permissiveObservationSections accuracyAndLoss
          { data := { assignmentsMap := [("x", 0)] } }
          (sanitizedUpdate accuracyAndLoss { assignmentsMap := [("x", 0)] }) ≠ .ok result) := by
  refine ⟨⟨⟨by decide +kernel, trivial⟩, ?_⟩, ⟨⟨by decide +kernel, trivial⟩, ?_⟩,
    ⟨⟨by decide +kernel, by decide +kernel, trivial⟩, ?_⟩⟩
  · rintro ⟨result, accepted, _⟩
    obtain ⟨failure, refused⟩ : ∃ failure, updateObservation permissiveObservationSections unnamedMetric
        measuredObservation (renderedUpdate unnamedMetric measuredObservation.data) = .error failure :=
      updateObservation_rendered_error
    rw [refused] at accepted
    cases accepted
  · intro result accepted
    have refused : updateObservation permissiveObservationSections accuracyOnly unnamedObservation
        (sanitizedUpdate accuracyOnly unnamedObservation.data) =
          .error (.sigoptValidation "Invalid metric name accuracy") := by
      decide +kernel
    rw [refused] at accepted
    cases accepted
  · intro result accepted
    have refused : updateObservation permissiveObservationSections accuracyAndLoss
        { data := { assignmentsMap := [("x", 0)] } }
        (sanitizedUpdate accuracyAndLoss { assignmentsMap := [("x", 0)] }) =
          .error (.sigoptValidation "The request does not match its schema") := by
      decide +kernel
    rw [refused] at accepted
    cases accepted

end Zigopt.Observations
