/-
Module: Zigopt.Observations.Reportable
Layer: Observations
Purpose: Whether the metrics of a created experiment have distinct names, so that an observation can
  report each of them. The create looks up the name of an object among the earlier ones, but not a plain
  string, and it compares the names before their whitespace is stripped.
Main exports: Reportable, NamesKeptApart, metricNames_reportable_iff
-/
import Zigopt.Experiment.Metrics
import Zigopt.Observations.Handlers

namespace Zigopt.Observations

open Raising
open Zigopt.Experiment (MetricEntry MetricsRead getMetricListFromJson getMetricListFromJson_ok metricEntries
  rawName storedName strip)

/-- One entry for each metric, by name; an unnamed metric is reported without a name. -/
def ReportsEachMetric (experiment : MetricsExperiment) (values : List JsonObject) : Prop :=
  (values.map fun value => (valueName value).getD "").Perm (experiment.allMetrics.map (·.name))

/-- Some report of each metric by name is accepted. -/
def Reportable (experiment : MetricsExperiment) : Prop :=
  ∃ values, ReportsEachMetric experiment values ∧ (∀ value ∈ values, valueItemAccepted (.object value)) ∧
    ∃ data, createObservationData {} (some values) experiment (some false) = .ok data

/-- No plain string repeats the name of an earlier item, and no two items have names that differ only in
    the whitespace around them. -/
structure NamesKeptApart (entries : List MetricEntry) : Prop where
  strings : entries.Pairwise fun earlier later => later.isLeft → rawName earlier ≠ rawName later
  whitespace : ∀ first ∈ entries, ∀ second ∈ entries,
    (rawName first).map strip = (rawName second).map strip → rawName first = rawName second

/-! ### Reports by name -/

/-- The entry of a metric in a report. -/
def reportOf (name : String) : JsonObject :=
  if name = "" then
    [("value", .number 0)]
  else
    [("name", .string name), ("value", .number 0)]

theorem valueName_reportOf (name : String) : valueName (reportOf name) = if name = "" then none else some name := by
  unfold reportOf
  split
  · rfl
  · rfl

theorem valueItemAccepted_reportOf (name : String) : valueItemAccepted (.object (reportOf name)) = true := by
  unfold reportOf
  split
  · rfl
  · rfl

theorem formattedValue_reportOf (name : String) :
    formattedValue [] (reportOf name) = .ok { name := name, value := some 0 } := by
  unfold reportOf
  split
  · rename_i unnamed
    rw [unnamed]
    rfl
  · rfl

/-- The report of a metric without a name passes alone. -/
theorem validateMetricNames_unnamed {experiment : MetricsExperiment} {metric : ExperimentMetric}
    (single : experiment.allMetrics = [metric]) (unnamed : metric.name = "") :
    validateMetricNames [reportOf metric.name] experiment = .ok () := by
  have names : [reportOf metric.name].map valueName = [none] := by
    rw [List.map_singleton, valueName_reportOf, if_pos unnamed]
  rw [validateMetricNames, names, single]
  rfl

/-- The reports of named metrics pass if the names are distinct. -/
theorem validateMetricNames_named {experiment : MetricsExperiment}
    (distinct : (experiment.allMetrics.map (·.name)).Nodup)
    (named : ∀ metric ∈ experiment.allMetrics, metric.name ≠ "") :
    validateMetricNames (experiment.allMetrics.map fun metric => reportOf metric.name) experiment = .ok () := by
  have names : (experiment.allMetrics.map fun metric => reportOf metric.name).map valueName =
      (experiment.allMetrics.map (·.name)).map some := by
    rw [List.map_map, List.map_map]
    apply List.map_congr_left
    intro metric member
    rw [Function.comp_apply, valueName_reportOf, if_neg (named metric member)]
    rfl
  have allNamed : nonEmptyNames ((experiment.allMetrics.map (·.name)).map some) =
      (experiment.allMetrics.map (·.name)).map some := by
    apply List.filter_eq_self.mpr
    intro name member
    simp only [List.map_map, List.mem_map, Function.comp_apply] at member
    obtain ⟨metric, isMetric, rfl⟩ := member
    simpa using named metric isMetric
  have someMetric : experiment.allMetrics.map (·.name) ≠ [] := by
    rw [Ne, List.map_eq_nil_iff]
    exact experiment.allMetrics_ne_nil
  rw [validateMetricNames, names, allNamed]
  dsimp only
  rw [raiseIf, if_neg, ok_bind, raiseIf, if_neg (by simp), ok_bind, raiseIf, if_neg, ok_bind, if_neg, raiseIf,
    if_neg]
  · rintro ⟨name, member, absent⟩
    exact absent (List.mem_map_of_mem member)
  · rintro ⟨_, noNames, _⟩
    rw [List.length_eq_zero_iff, List.map_eq_nil_iff] at noNames
    exact someMetric noNames
  · rintro ⟨noNames, _⟩
    exact someMetric noNames
  · rw [not_not]
    exact distinct.map (Option.some_injective _)

theorem validateMetricNames_reports {experiment : MetricsExperiment}
    (distinct : (experiment.allMetrics.map (·.name)).Nodup)
    (named : 1 < experiment.allMetrics.length → ∀ metric ∈ experiment.allMetrics, metric.name ≠ "") :
    validateMetricNames (experiment.allMetrics.map fun metric => reportOf metric.name) experiment = .ok () := by
  cases metrics : experiment.allMetrics with
  | nil => exact absurd metrics experiment.allMetrics_ne_nil
  | cons metric others =>
      rw [← metrics]
      by_cases unnamed : others = [] ∧ metric.name = ""
      · obtain ⟨rfl, unnamed⟩ := unnamed
        rw [metrics]
        exact validateMetricNames_unnamed metrics unnamed
      · apply validateMetricNames_named distinct
        cases others with
        | nil =>
            intro other member
            rw [metrics, List.mem_singleton] at member
            subst member
            exact fun blank => unnamed ⟨rfl, blank⟩
        | cons second rest =>
            apply named
            rw [metrics]
            simp

/-- The metrics can be reported by name if their names are distinct, and empty at most for a single one. -/
theorem reportable_of_distinct {experiment : MetricsExperiment}
    (distinct : (experiment.allMetrics.map (·.name)).Nodup)
    (named : 1 < experiment.allMetrics.length → ∀ metric ∈ experiment.allMetrics, metric.name ≠ "") :
    Reportable experiment := by
  have formatted : ∀ metrics : List ExperimentMetric,
      (metrics.map fun metric => reportOf metric.name).mapM (formattedValue []) =
        .ok (metrics.map fun metric => { name := metric.name, value := some 0 }) := by
    intro metrics
    rw [mapM_eq_ok, List.forall₂_map_left_iff, List.forall₂_map_right_iff, List.forall₂_same]
    intro metric _
    exact formattedValue_reportOf metric.name
  refine ⟨experiment.allMetrics.map fun metric => reportOf metric.name, ?_, ?_, ?_⟩
  · rw [ReportsEachMetric, List.map_map]
    apply List.Perm.of_eq
    apply List.map_congr_left
    intro metric _
    rw [Function.comp_apply, valueName_reportOf]
    split
    · rename_i unnamed
      exact unnamed.symm
    · rfl
  · intro value member
    obtain ⟨metric, _, rfl⟩ := List.mem_map.mp member
    exact valueItemAccepted_reportOf metric.name
  · rw [createObservationData, getFormattedValues, raiseIf, if_neg (by simp), ok_bind,
      validateMetricNames_reports distinct named, ok_bind, formatted, ok_bind]
    · exact ⟨_, rfl⟩
    · intro noNames
      cases noNames

/-! ### Names that are kept apart -/

/-- Two items are stored under the same name only if their own names agree once stripped: only a single
    metric is unnamed. -/
theorem map_strip_eq_of_storedName_eq {entries : List MetricEntry}
    {state : List (Option String) × List ExperimentMetric} (read : MetricsRead entries.length entries state)
    {first second : MetricEntry} (isFirst : first ∈ entries) (isSecond : second ∈ entries)
    (same : storedName first = storedName second) : (rawName first).map strip = (rawName second).map strip := by
  by_cases several : 1 < entries.length
  · have firstNamed := read.named first isFirst several
    have secondNamed := read.named second isSecond several
    unfold storedName at same firstNamed secondNamed
    cases firstRaw : (rawName first).map strip with
    | none => exact absurd (by rw [firstRaw]; rfl) firstNamed
    | some firstName =>
        cases secondRaw : (rawName second).map strip with
        | none => exact absurd (by rw [secondRaw]; rfl) secondNamed
        | some secondName =>
            rw [firstRaw, secondRaw] at same
            exact congrArg some same
  · have single : entries.length = 1 := by
      have someEntry := List.length_pos_of_mem isFirst
      omega
    obtain ⟨entry, rfl⟩ := List.length_eq_one_iff.mp single
    rw [List.mem_singleton.mp isFirst, List.mem_singleton.mp isSecond]

/-- Objects are compared with everything before them, so the stored names are distinct exactly if strings
    are new too and whitespace does not make names equal. -/
theorem nodup_storedName_iff {entries : List MetricEntry}
    {state : List (Option String) × List ExperimentMetric} (read : MetricsRead entries.length entries state) :
    (entries.map storedName).Nodup ↔ NamesKeptApart entries := by
  constructor
  · intro distinct
    constructor
    · refine (List.pairwise_map.mp distinct).imp ?_
      intro earlier later apart _ same
      exact apart (by rw [storedName, storedName, same])
    · intro first isFirst second isSecond same
      have sameStored : storedName first = storedName second := by rw [storedName, storedName, same]
      rw [List.inj_on_of_nodup_map distinct isFirst isSecond sameStored]
  · intro apart
    have rawApart : entries.Pairwise fun earlier later => rawName earlier ≠ rawName later := by
      refine (apart.strings.and read.objectsNew).imp ?_
      rintro earlier later ⟨newString, newObject⟩
      cases later with
      | inl name => exact newString rfl
      | inr metric => exact newObject rfl
    apply List.pairwise_map.mpr
    refine rawApart.imp_of_mem ?_
    intro earlier later isEarlier isLater different same
    have sameStripped := map_strip_eq_of_storedName_eq read isEarlier isLater same
    exact different (apart.whitespace earlier isEarlier later isLater sameStripped)

/-- The metrics of a created experiment are named apart exactly if their names in the request are. -/
theorem nodup_metricNames_iff {userFacingClassName : String} {json : JsonObject}
    {metrics : List ExperimentMetric} (accepted : getMetricListFromJson userFacingClassName json = .ok metrics) :
    (metrics.map (·.name)).Nodup ↔ NamesKeptApart (metricEntries json) := by
  rcases getMetricListFromJson_ok accepted with ⟨noEntries, rfl⟩ | ⟨_, seenNames, read⟩
  · rw [noEntries]
    exact iff_of_true (List.nodup_singleton _) ⟨List.Pairwise.nil, nofun⟩
  · rw [read.names]
    exact nodup_storedName_iff read

/-- Only a single metric is stored without a name. -/
theorem metricNames_named {userFacingClassName : String} {json : JsonObject} {metrics : List ExperimentMetric}
    (accepted : getMetricListFromJson userFacingClassName json = .ok metrics) (several : 1 < metrics.length) :
    ∀ metric ∈ metrics, metric.name ≠ "" := by
  rcases getMetricListFromJson_ok accepted with ⟨_, rfl⟩ | ⟨_, seenNames, read⟩
  · exact absurd several (by decide)
  · have sameLength : metrics.length = (metricEntries json).length := by
      rw [← List.length_map ExperimentMetric.name, read.names, List.length_map]
    intro metric member
    have isStored : metric.name ∈ (metricEntries json).map storedName :=
      read.names ▸ List.mem_map_of_mem member
    obtain ⟨entry, isEntry, name⟩ := List.mem_map.mp isStored
    rw [← name]
    exact read.named entry isEntry (sameLength ▸ several)

theorem metrics_ne_nil {userFacingClassName : String} {json : JsonObject} {metrics : List ExperimentMetric}
    (accepted : getMetricListFromJson userFacingClassName json = .ok metrics) : metrics ≠ [] := by
  rintro rfl
  rcases getMetricListFromJson_ok accepted with ⟨_, impossible⟩ | ⟨someEntries, seenNames, read⟩
  · cases impossible
  · exact someEntries (List.map_eq_nil_iff.mp read.names.symm)

/-- The metrics of a created experiment have distinct names, and can all be reported by name, exactly if no
    plain string repeats an earlier name and no two names differ only in the whitespace around them. -/
theorem metricNames_reportable_iff {userFacingClassName : String} {json : JsonObject}
    {experiment : MetricsExperiment}
    (accepted : getMetricListFromJson userFacingClassName json = .ok experiment.metrics) :
    ((experiment.metrics.map (·.name)).Nodup ∧ Reportable experiment) ↔
      NamesKeptApart (metricEntries json) := by
  have perm : experiment.allMetrics.Perm experiment.metrics := by
    have permSome := experiment.allMetrics_perm
    rwa [MetricsExperiment.someMetrics, if_neg (metrics_ne_nil accepted)] at permSome
  rw [← nodup_metricNames_iff accepted]
  constructor
  · exact And.left
  · intro distinct
    refine ⟨distinct, reportable_of_distinct ((perm.map _).nodup_iff.mpr distinct) ?_⟩
    intro several metric member
    exact metricNames_named accepted (perm.length_eq ▸ several) metric (perm.subset member)

/-- A plain name, and metrics with thresholds of which one is not optimized. -/
def severalMetrics : JsonObject :=
  [("metrics", .array [.string "latency",
    .object [("name", .string " accuracy"), ("threshold", .number (1 / 2))],
    .object [("name", .string "memory"), ("objective", .string "minimize"), ("strategy", .string "constraint"),
      ("threshold", .number 8)]])]

def severalMetricsCreated : MetricsExperiment where
  metrics := [{ name := "latency" }, { name := "accuracy", threshold := some (1 / 2) },
    { name := "memory", objective := .minimize, threshold := some 8, strategy := .constraint }]

/-- Several metrics whose names are apart, whatever whitespace is around them, can all be reported. -/
theorem metricNames_reportable_severalMetrics :
    getMetricListFromJson "Experiment" severalMetrics = .ok severalMetricsCreated.metrics ∧
      (severalMetricsCreated.metrics.map (·.name)).Nodup ∧ Reportable severalMetricsCreated := by
  have accepted : getMetricListFromJson "Experiment" severalMetrics = .ok severalMetricsCreated.metrics := by
    decide +kernel
  have entries : metricEntries severalMetrics = [.inl "latency",
      .inr [("name", .string " accuracy"), ("threshold", .number (1 / 2))],
      .inr [("name", .string "memory"), ("objective", .string "minimize"), ("strategy", .string "constraint"),
        ("threshold", .number 8)]] := rfl
  refine ⟨accepted, (metricNames_reportable_iff accepted).mpr ?_⟩
  rw [entries]
  constructor
  · decide +kernel
  · decide +kernel

/-- Two metrics named by the same string are accepted. -/
theorem strings_repeat :
    ¬∀ (json : JsonObject) (experiment : MetricsExperiment),
      getMetricListFromJson "Experiment" json = .ok experiment.metrics →
        (experiment.metrics.map (·.name)).Nodup ∧ Reportable experiment := by
  intro supposed
  have distinct := (supposed [("metrics", .array [.string "accuracy", .string "accuracy"])]
    { metrics := [{ name := "accuracy" }, { name := "accuracy" }] } rfl).1
  exact absurd distinct (by decide)

end Zigopt.Observations
