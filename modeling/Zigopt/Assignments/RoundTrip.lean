/-
Module: Zigopt.Assignments.RoundTrip
Layer: Assignments
Purpose: Rendering an assignments map and reading it back. Every item is rendered and read on its own, so
  the round trip is settled item by item: it fails for a categorical parameter that has a grid, for a
  value whose name a later value of the parameter has taken, and for a conditional whose name a parameter
  has taken.
Main exports: ValidFull, ReadsBack, roundTrips_iff, grid_category_does_not_return
-/
import Zigopt.Assignments.Render
import Zigopt.Experiment.Identity

namespace Zigopt.Assignments

open Raising Experiment

/-! ### Valid maps -/

/-- A value that the parameter can have; the bounds are not asked for, nor are they when it is read. -/
def ValidValue (parameter : ExperimentParameter) (assignment : ℚ) : Prop :=
  match parameter.paramType with
  | .categorical => ∃ value ∈ parameter.activeCategoricalValues, (value.enumIndex : ℚ) = assignment
  | .int => assignment.den = 1 ∧ (parameter.isGrid = true → assignment ∈ parameter.gridValues)
  | .double => parameter.isGrid = true → assignment ∈ parameter.gridValues

/-- A valid full map: it passes the validation, and gives conditionals and active parameters, and nothing
    else, values that they can have. -/
structure ValidFull (experiment : ExperimentMeta) (assignments : AssignmentsMap) : Prop where
  validated : validateAssignmentsMap assignments experiment = .ok ()
  known : ∀ name assignment, assignments name = some assignment →
    name ∈ experiment.conditionalNames ∨ name ∈ experiment.activeParameterNames
  conditionals : ∀ conditional ∈ experiment.conditionals, ∀ assignment,
    assignments conditional.name = some assignment →
      ∃ value ∈ conditional.values, (value.enumIndex : ℚ) = assignment
  parameters : ∀ parameter ∈ experiment.allParametersUnsorted, parameter.deleted = false →
    ∀ assignment, assignments parameter.name = some assignment → ValidValue parameter assignment

/-! ### The condition -/

/-- A category reads back if its parameter has no grid and the name leads to it again. -/
def CategoryReadsBack (parameter : ExperimentParameter) (assignment : ℚ) : Prop :=
  parameter.isCategorical = true → parameter.isGrid = false ∧
    ∀ value ∈ parameter.allCategoricalValues, (value.enumIndex : ℚ) = assignment →
      parameter.categoricalValueNamed value.name = some value

/-- A conditional reads back through a parameter of its name, active or deleted, if that parameter is
    rendered as the name of the assigned value. -/
def ConditionalReadsBack (parameter : ExperimentParameter) (conditional : ExperimentConditional)
    (assignment : ℚ) : Prop :=
  parameter.isCategorical = true ∧
    ∃ value ∈ parameter.allCategoricalValues, (value.enumIndex : ℚ) = assignment ∧
      ∃ other ∈ conditional.values, (other.enumIndex : ℚ) = assignment ∧ other.name = value.name

/-- What makes the rendered assignments read back: each category does, and each conditional whose name a parameter
    has as well. -/
structure ReadsBack (experiment : ExperimentMeta) (assignments : AssignmentsMap) : Prop where
  categories : ∀ parameter assignment, parameter.name ∉ experiment.conditionalNames →
    parameterNamed experiment parameter.name = some parameter →
      assignments parameter.name = some assignment → CategoryReadsBack parameter assignment
  conditionals : ∀ conditional ∈ experiment.conditionals, ∀ parameter,
    parameterIncludingDeletedNamed experiment conditional.name = some parameter →
      parameterConditionsSatisfied parameter assignments = true ∧
        ∀ assignment, assignments conditional.name = some assignment →
          ConditionalReadsBack parameter conditional assignment

/-! ### Reading member by member -/

/-- What a member of the request gives for its name. -/
def readMember (experiment : ExperimentMeta) (name : String) (json : Json) : Except ValidationError ℚ :=
  match conditionalNamed experiment name, parameterNamed experiment name with
  | some conditional, _ => conditionalAssignment conditional json
  | none, some parameter => getJsonAssignment parameter json
  | none, none => .error (.sigoptValidation s!"Invalid assignment, parameter does not exist: \"{name}\"")

theorem conditionalNamed_some {experiment : ExperimentMeta} {name : String} {conditional : ExperimentConditional}
    (found : conditionalNamed experiment name = some conditional) :
    conditional ∈ experiment.conditionals ∧ conditional.name = name :=
  ⟨List.mem_reverse.mp (List.mem_of_find?_eq_some found), by simpa using List.find?_some found⟩

theorem conditionalNamed_none {experiment : ExperimentMeta} {name : String} :
    conditionalNamed experiment name = none ↔ name ∉ experiment.conditionalNames := by
  simp [conditionalNamed, ExperimentMeta.conditionalNames]

theorem parameterNamed_name {experiment : ExperimentMeta} {name : String} {parameter : ExperimentParameter}
    (found : parameterNamed experiment name = some parameter) : parameter.name = name := by
  simpa using List.find?_some found

theorem setAssignmentFromJson_eq (experiment : ExperimentMeta) (assignments : AssignmentsMap) (name : String)
    (json : Json) :
    setAssignmentFromJson experiment assignments (name, json) =
      (do pure (assignments.set name (← readMember experiment name json))) := by
  unfold setAssignmentFromJson readMember
  dsimp only
  cases foundConditional : conditionalNamed experiment name with
  | some conditional =>
      obtain ⟨_, rfl⟩ := conditionalNamed_some foundConditional
      rfl
  | none =>
      cases foundParameter : parameterNamed experiment name with
      | some parameter =>
          obtain rfl := parameterNamed_name foundParameter
          rfl
      | none => rfl

theorem set_self (assignments : AssignmentsMap) (name : String) (assignment : ℚ) :
    assignments.set name assignment name = some assignment :=
  Function.update_self ..

theorem set_of_ne (assignments : AssignmentsMap) {name other : String} (assignment : ℚ) (apart : other ≠ name) :
    assignments.set name assignment other = assignments other :=
  Function.update_of_ne apart _ _

/-- Members with distinct names set each its own assignment. -/
theorem setAssignmentsMapFromJson_iff {experiment : ExperimentMeta} {json : JsonObject}
    (distinct : (json.map Prod.fst).Nodup) {start result : AssignmentsMap} :
    setAssignmentsMapFromJson experiment start json = .ok result ↔
      (∀ member ∈ json, ∃ assignment, readMember experiment member.1 member.2 = .ok assignment ∧
        result member.1 = some assignment) ∧
      ∀ name, name ∉ json.map Prod.fst → result name = start name := by
  unfold setAssignmentsMapFromJson
  induction json generalizing start with
  | nil =>
      simp only [List.foldlM_nil, pure_eq_ok]
      constructor
      · rintro rfl
        exact ⟨by simp, fun _ _ => rfl⟩
      · rintro ⟨_, unset⟩
        exact (funext fun name => unset name (by simp)).symm
  | cons member rest inductionHypothesis =>
      rcases member with ⟨name, value⟩
      rw [List.map_cons, List.nodup_cons] at distinct
      rw [List.foldlM_cons, setAssignmentFromJson_eq]
      simp only [bind_eq_ok, pure_eq_ok]
      constructor
      · rintro ⟨_, ⟨assignment, read, rfl⟩, looped⟩
        obtain ⟨members, others⟩ := (inductionHypothesis distinct.2).mp looped
        constructor
        · rintro other inMembers
          rcases List.mem_cons.mp inMembers with rfl | later
          · refine ⟨assignment, read, ?_⟩
            rw [others name distinct.1]
            exact set_self ..
          · exact members other later
        · intro other absent
          rw [List.map_cons, List.mem_cons, not_or] at absent
          rw [others other absent.2]
          exact set_of_ne _ _ absent.1
      · rintro ⟨members, others⟩
        obtain ⟨assignment, read, isSet⟩ := members (name, value) List.mem_cons_self
        refine ⟨_, ⟨assignment, read, rfl⟩, (inductionHypothesis distinct.2).mpr ⟨?_, ?_⟩⟩
        · exact fun other later => members other (List.mem_cons_of_mem _ later)
        · intro other absent
          by_cases same : other = name
          · subst same
            rw [isSet]
            exact (set_self ..).symm
          · have unlisted : other ∉ ((name, value) :: rest).map Prod.fst := by
              rw [List.map_cons, List.mem_cons, not_or]
              exact ⟨same, absent⟩
            rw [others other unlisted]
            exact (set_of_ne _ _ same).symm

/-! ### Rendering member by member -/

/-- The members of a part of the JSON, one for each item that has an entry. -/
structure Rendered {α : Type} (entry : String → Option α) (render : α → ℚ → Except RenderError Json)
    (items : List (String × ℚ)) (members : JsonObject) : Prop where
  sublist : (members.map Prod.fst).Sublist (items.map Prod.fst)
  entries : ∀ name ∈ members.map Prod.fst, ∃ found, entry name = some found
  rendered : ∀ item ∈ items, ∀ found, entry item.1 = some found →
    ∃ value, render found item.2 = .ok value ∧ (item.1, value) ∈ members

theorem renderItems_ok {α : Type} {entry : String → Option α} {render : α → ℚ → Except RenderError Json}
    {items : List (String × ℚ)} {members : JsonObject} (done : renderItems entry render items = .ok members) :
    Rendered entry render items members := by
  induction items generalizing members with
  | nil =>
      cases done
      exact ⟨List.Sublist.refl _, by simp, by simp⟩
  | cons item rest inductionHypothesis =>
      rcases item with ⟨name, assignment⟩
      unfold renderItems at done
      cases found : entry name with
      | none =>
          rw [found] at done
          have later := inductionHypothesis done
          refine ⟨later.sublist.cons _, later.entries, ?_⟩
          intro item member other isEntry
          rcases List.mem_cons.mp member with rfl | inRest
          · rw [found] at isEntry
            cases isEntry
          · exact later.rendered item inRest other isEntry
      | some entryFound =>
          rw [found] at done
          simp only [bind_eq_ok, pure_eq_ok] at done
          obtain ⟨value, isRendered, others, renderedRest, rfl⟩ := done
          have later := inductionHypothesis renderedRest
          refine ⟨later.sublist.cons_cons _, ?_, ?_⟩
          · intro other isName
            rcases List.mem_cons.mp isName with rfl | inRest
            · exact ⟨entryFound, found⟩
            · exact later.entries other inRest
          · intro item member other isEntry
            rcases List.mem_cons.mp member with rfl | inRest
            · rw [found] at isEntry
              injection isEntry with same
              exact ⟨value, same ▸ isRendered, List.mem_cons_self⟩
            · obtain ⟨otherValue, isOther, inMembers⟩ := later.rendered item inRest other isEntry
              exact ⟨otherValue, isOther, List.mem_cons_of_mem _ inMembers⟩

theorem renderItems_of_items {α : Type} {entry : String → Option α} {render : α → ℚ → Except RenderError Json}
    {items : List (String × ℚ)}
    (each : ∀ item ∈ items, ∀ found, entry item.1 = some found → ∃ value, render found item.2 = .ok value) :
    ∃ members, renderItems entry render items = .ok members := by
  induction items with
  | nil => exact ⟨[], rfl⟩
  | cons item rest inductionHypothesis =>
      rcases item with ⟨name, assignment⟩
      obtain ⟨members, renderedRest⟩ := inductionHypothesis fun other member => each other (List.mem_cons_of_mem _ member)
      unfold renderItems
      cases found : entry name with
      | none => exact ⟨members, renderedRest⟩
      | some entryFound =>
          obtain ⟨value, isRendered⟩ := each (name, assignment) List.mem_cons_self entryFound found
          refine ⟨(name, value) :: members, ?_⟩
          simp only [isRendered, renderedRest]
          rfl

/-- What the JSON says of one item: a parameter of the name comes before a conditional. -/
def renderItem (experiment : ExperimentMeta) (assignments : AssignmentsMap) (name : String) (assignment : ℚ) :
    Except RenderError Json :=
  match parameterIncludingDeletedNamed experiment name, conditionalNamed experiment name with
  | some parameter, _ => conditionallyRenderParamValue parameter assignment assignments
  | none, some conditional => renderConditionalValue conditional assignment
  | none, none => .error (.unknownKeys "Attempting to render assignments, unknown keys")

section Json

variable {experiment : ExperimentMeta} {assignments : AssignmentsDict}

theorem assignmentsJson_ok {json : JsonObject} (done : assignmentsJson experiment assignments = .ok json) :
    (json.map Prod.fst).Nodup ∧ (∀ name, name ∈ json.map Prod.fst ↔ name ∈ assignments.items.map Prod.fst) ∧
      ∀ item ∈ assignments.items, ∃ value,
        renderItem experiment assignments.toMap item.1 item.2 = .ok value ∧ (item.1, value) ∈ json := by
  simp only [assignmentsJson, bind_eq_ok, raiseIf_eq_ok, pure_eq_ok] at done
  obtain ⟨conditionals, conditionalsDone, parameters, parametersDone, _, known, rfl⟩ := done
  have first := renderItems_ok conditionalsDone
  have second := renderItems_ok parametersDone
  have firstDistinct := assignments.distinct.sublist first.sublist
  have secondDistinct := assignments.distinct.sublist second.sublist
  have keys : ∀ name, name ∈ (JsonObject.merge conditionals parameters).map Prod.fst ↔
      name ∈ assignments.items.map Prod.fst := by
    intro name
    constructor
    · intro inJson
      rw [JsonObject.merge_keys] at inJson
      rcases List.mem_append.mp inJson with inFirst | inSecond
      · exact first.sublist.subset inFirst
      · exact second.sublist.subset (List.mem_of_mem_filter inSecond)
    · intro isItem
      by_contra absent
      exact known ⟨name, isItem, absent⟩
  refine ⟨JsonObject.nodup_merge firstDistinct secondDistinct, keys, ?_⟩
  intro item isItem
  unfold renderItem
  cases foundParameter : parameterIncludingDeletedNamed experiment item.1 with
  | some parameter =>
      obtain ⟨value, isRendered, inSecond⟩ := second.rendered item isItem parameter foundParameter
      exact ⟨value, isRendered, JsonObject.mem_merge_of_second secondDistinct inSecond⟩
  | none =>
      have absent : item.1 ∉ parameters.map Prod.fst := by
        intro inSecond
        obtain ⟨found, isFound⟩ := second.entries item.1 inSecond
        rw [foundParameter] at isFound
        cases isFound
      cases foundConditional : conditionalNamed experiment item.1 with
      | some conditional =>
          obtain ⟨value, isRendered, inFirst⟩ := first.rendered item isItem conditional foundConditional
          exact ⟨value, isRendered, JsonObject.mem_merge_of_first inFirst absent⟩
      | none =>
          exfalso
          have inJson := (keys item.1).mpr (List.mem_map_of_mem isItem)
          rw [JsonObject.merge_keys] at inJson
          rcases List.mem_append.mp inJson with inFirst | inSecond
          · obtain ⟨found, isFound⟩ := first.entries item.1 inFirst
            rw [foundConditional] at isFound
            cases isFound
          · exact absent (List.mem_of_mem_filter inSecond)

theorem assignmentsJson_of_items
    (conditionals : ∀ item ∈ assignments.items, ∀ conditional, conditionalNamed experiment item.1 = some conditional →
      ∃ value, renderConditionalValue conditional item.2 = .ok value)
    (each : ∀ item ∈ assignments.items, ∃ value,
      renderItem experiment assignments.toMap item.1 item.2 = .ok value) :
    ∃ json, assignmentsJson experiment assignments = .ok json := by
  obtain ⟨conditionalMembers, conditionalsDone⟩ := renderItems_of_items conditionals
  have parameters : ∀ item ∈ assignments.items, ∀ parameter,
      parameterIncludingDeletedNamed experiment item.1 = some parameter →
        ∃ value, conditionallyRenderParamValue parameter item.2 assignments.toMap = .ok value := by
    intro item isItem parameter found
    obtain ⟨value, isRendered⟩ := each item isItem
    unfold renderItem at isRendered
    rw [found] at isRendered
    exact ⟨value, isRendered⟩
  have parametersRendered : ∃ members, renderItems (parameterIncludingDeletedNamed experiment)
      (fun parameter assignment => conditionallyRenderParamValue parameter assignment assignments.toMap)
      assignments.items = .ok members := renderItems_of_items parameters
  obtain ⟨parameterMembers, parametersDone⟩ := parametersRendered
  refine ⟨JsonObject.merge conditionalMembers parameterMembers, ?_⟩
  simp only [assignmentsJson, bind_eq_ok, raiseIf_eq_ok, pure_eq_ok]
  refine ⟨conditionalMembers, conditionalsDone, parameterMembers, parametersDone, (), ?_, rfl⟩
  rintro ⟨name, isName, absent⟩
  obtain ⟨item, isItem, rfl⟩ := List.mem_map.mp isName
  rw [JsonObject.merge_keys, List.mem_append, not_or] at absent
  obtain ⟨value, isRendered⟩ := each item isItem
  unfold renderItem at isRendered
  cases foundParameter : parameterIncludingDeletedNamed experiment item.1 with
  | some parameter =>
      obtain ⟨_, _, inSecond⟩ := (renderItems_ok parametersDone).rendered item isItem parameter foundParameter
      exact absent.2 (List.mem_filter.mpr ⟨List.mem_map_of_mem inSecond, by simpa using absent.1⟩)
  | none =>
      cases foundConditional : conditionalNamed experiment item.1 with
      | some conditional =>
          obtain ⟨_, _, inFirst⟩ := (renderItems_ok conditionalsDone).rendered item isItem conditional foundConditional
          exact absent.1 (List.mem_map_of_mem inFirst)
      | none =>
          rw [foundParameter, foundConditional] at isRendered
          cases isRendered

theorem toMap_of_item {item : String × ℚ} (isItem : item ∈ assignments.items) :
    assignments.toMap item.1 = some item.2 :=
  JsonObject.lookup_of_mem assignments.distinct isItem

theorem toMap_of_not_item {name : String} (absent : name ∉ assignments.items.map Prod.fst) :
    assignments.toMap name = none := by
  unfold AssignmentsDict.toMap
  rw [List.lookup_eq_none_iff]
  intro item isItem
  simp only [bne_iff_ne, ne_eq]
  intro same
  exact absent (same ▸ List.mem_map_of_mem isItem)

/-- A map returns exactly if each of its items does. -/
theorem roundTrips_iff_items
    (validated : validateAssignmentsMap assignments.toMap experiment = .ok ())
    (conditionals : ∀ item ∈ assignments.items, ∀ conditional, conditionalNamed experiment item.1 = some conditional →
      ∃ value, renderConditionalValue conditional item.2 = .ok value) :
    RoundTrips experiment assignments ↔
      ∀ item ∈ assignments.items, ∃ value, renderItem experiment assignments.toMap item.1 item.2 = .ok value ∧
        readMember experiment item.1 value = .ok item.2 := by
  constructor
  · rintro ⟨json, rendered, read, _⟩ item isItem
    obtain ⟨distinct, _, each⟩ := assignmentsJson_ok rendered
    obtain ⟨value, isRendered, inJson⟩ := each item isItem
    obtain ⟨assignment, isRead, isSet⟩ := ((setAssignmentsMapFromJson_iff distinct).mp read).1 _ inJson
    have same : item.2 = assignment := Option.some.inj ((toMap_of_item isItem).symm.trans isSet)
    exact ⟨value, isRendered, same ▸ isRead⟩
  · intro returns
    obtain ⟨json, rendered⟩ := assignmentsJson_of_items conditionals fun item isItem => by
      obtain ⟨value, isRendered, _⟩ := returns item isItem
      exact ⟨value, isRendered⟩
    obtain ⟨distinct, keys, each⟩ := assignmentsJson_ok rendered
    refine ⟨json, rendered, (setAssignmentsMapFromJson_iff distinct).mpr ⟨?_, ?_⟩, validated⟩
    · rintro ⟨name, memberValue⟩ inJson
      obtain ⟨item, isItem, rfl⟩ := List.mem_map.mp ((keys name).mp (List.mem_map_of_mem inJson))
      obtain ⟨value, isRendered, isRead⟩ := returns item isItem
      obtain ⟨other, isOther, otherInJson⟩ := each item isItem
      have sameRendered : value = other := Except.ok.inj (isRendered.symm.trans isOther)
      have sameMember : memberValue = other := Option.some.inj
        ((JsonObject.lookup_of_mem distinct inJson).symm.trans (JsonObject.lookup_of_mem distinct otherInJson))
      exact ⟨item.2, sameMember ▸ sameRendered ▸ isRead, toMap_of_item isItem⟩
    · intro name absent
      exact toMap_of_not_item fun isItem => absent ((keys name).mpr isItem)

end Json

/-! ### Parameters by name -/

theorem find_reverse {α : Type} (items : List α) (property : α → Bool) :
    items.reverse.find? property = (items.filter property).getLast? := by
  rw [← List.head?_filter, List.filter_reverse, List.head?_reverse]

theorem getLast_filter {α : Type} {items : List α} {property : α → Bool} {last : α}
    (isLast : items.getLast? = some last) (holds : property last = true) :
    (items.filter property).getLast? = some last := by
  obtain ⟨front, rfl⟩ := List.getLast?_eq_some_iff.mp isLast
  simp [holds]

/-- A name of an active parameter leads to the same parameter in both maps. -/
theorem parameterNamed_of_active {experiment : ExperimentMeta} (identified : Identified experiment)
    {name : String} (active : name ∈ experiment.activeParameterNames) :
    ∃ parameter ∈ experiment.allParametersUnsorted, parameter.deleted = false ∧ parameter.name = name ∧
      parameterNamed experiment name = some parameter ∧
        parameterIncludingDeletedNamed experiment name = some parameter := by
  obtain ⟨other, isOther, otherNamed⟩ := List.mem_map.mp active
  obtain ⟨otherStored, otherActive⟩ := List.mem_filter.mp isOther
  simp only [Bool.not_eq_true'] at otherActive
  cases found : parameterIncludingDeletedNamed experiment name with
  | none =>
      have unnamed := List.find?_eq_none.mp found other (List.mem_reverse.mpr otherStored)
      simp [otherNamed] at unnamed
  | some parameter =>
      have stored := List.mem_reverse.mp (List.mem_of_find?_eq_some found)
      have named : parameter.name = name := by simpa using List.find?_some found
      obtain ⟨position, isLast, atPosition⟩ := Registry.lastIndexOf_of_find found
      have notDeleted := identified.lastActive position parameter atPosition (named.symm ▸ isLast)
        ⟨other, otherStored, otherActive, otherNamed.trans named.symm⟩
      refine ⟨parameter, stored, notDeleted, named, ?_, rfl⟩
      rw [parameterIncludingDeletedNamed, find_reverse] at found
      rw [parameterNamed, find_reverse, allParameters, filter_insertionSort, List.filter_comm]
      exact getLast_filter found (by simp [notDeleted])

theorem parameterNamed_mem {experiment : ExperimentMeta} {name : String} {parameter : ExperimentParameter}
    (found : parameterNamed experiment name = some parameter) :
    parameter ∈ experiment.allParametersUnsorted ∧ parameter.deleted = false := by
  have isActive := List.mem_reverse.mp (List.mem_of_find?_eq_some found)
  rw [allParameters, List.mem_insertionSort] at isActive
  obtain ⟨stored, active⟩ := List.mem_filter.mp isActive
  exact ⟨stored, by simpa using active⟩

/-! ### What a valid map has -/

section Valid

variable {experiment : ExperimentMeta} {assignments : AssignmentsMap}

theorem ValidFull.conditional_assigned (valid : ValidFull experiment assignments)
    {conditional : ExperimentConditional} (isConditional : conditional ∈ experiment.conditionals) :
    ∃ assignment, assignments conditional.name = some assignment := by
  have validated := valid.validated
  simp only [validateAssignmentsMap, bind_eq_ok] at validated
  obtain ⟨_, conditionals, _⟩ := validated
  have passed := forM_eq_ok.mp conditionals conditional isConditional
  rw [validateConditional, raiseIf_eq_ok] at passed
  exact Option.ne_none_iff_exists'.mp passed

theorem ValidFull.conditions_satisfied (valid : ValidFull experiment assignments)
    {parameter : ExperimentParameter} (stored : parameter ∈ experiment.allParametersUnsorted)
    (active : parameter.deleted = false) {assignment : ℚ} (assigned : assignments parameter.name = some assignment) :
    parameterConditionsSatisfied parameter assignments = true := by
  have validated := valid.validated
  simp only [validateAssignmentsMap, bind_eq_ok] at validated
  obtain ⟨_, _, _, parameters, _⟩ := validated
  have isActive : parameter ∈ allParameters experiment := by
    rw [allParameters, List.mem_insertionSort]
    exact List.mem_filter.mpr ⟨stored, by simp [active]⟩
  have passed := forM_eq_ok.mp parameters parameter isActive
  rw [validateParameter, assigned] at passed
  simp only [bind_eq_ok, raiseIf_eq_ok] at passed
  obtain ⟨_, satisfied, _⟩ := passed
  simpa using satisfied

end Valid

/-! ### One item -/

theorem find_indexed {parameter : ExperimentParameter} (indices : parameter.enumIndices.Nodup)
    {value : ExperimentCategoricalValue} (isValue : value ∈ parameter.allCategoricalValues) {assignment : ℚ}
    (indexed : (value.enumIndex : ℚ) = assignment) : categoricalValueIndexed parameter assignment = some value := by
  cases found : categoricalValueIndexed parameter assignment with
  | none =>
      have unindexed := List.find?_eq_none.mp found value (List.mem_reverse.mpr isValue)
      simp [indexed] at unindexed
  | some other =>
      have otherIndexed : (other.enumIndex : ℚ) = assignment := by simpa using List.find?_some found
      have isOther := List.mem_reverse.mp (List.mem_of_find?_eq_some found)
      have sameIndex : other.enumIndex = value.enumIndex := Rat.natCast_inj.mp (otherIndexed.trans indexed.symm)
      rw [List.inj_on_of_nodup_map indices isOther isValue sameIndex]

theorem category_returns_iff {parameter : ExperimentParameter} (indices : parameter.enumIndices.Nodup)
    (categorical : parameter.paramType = .categorical) {assignment : ℚ} (valid : ValidValue parameter assignment) :
    (∃ json, renderParamValue parameter assignment = .ok json ∧ getJsonAssignment parameter json = .ok assignment) ↔
      CategoryReadsBack parameter assignment := by
  unfold ValidValue at valid
  rw [categorical] at valid
  obtain ⟨value, isActive, indexed⟩ := valid
  obtain ⟨isValue, active⟩ := List.mem_filter.mp isActive
  simp only [Bool.not_eq_true'] at active
  have isCategorical : parameter.isCategorical = true := by simp [ExperimentParameter.isCategorical, categorical]
  have rendered : renderParamValue parameter assignment = .ok (.string value.name) := by
    rw [renderParamValue, categorical]
    dsimp only
    rw [find_indexed indices isValue indexed]
    rfl
  have unique : ∀ other ∈ parameter.allCategoricalValues, (other.enumIndex : ℚ) = assignment → other = value := by
    intro other isOther otherIndexed
    have sameIndex : other.enumIndex = value.enumIndex := Rat.natCast_inj.mp (otherIndexed.trans indexed.symm)
    exact List.inj_on_of_nodup_map indices isOther isValue sameIndex
  have reads : getJsonAssignment parameter (.string value.name) = .ok assignment ↔
      parameter.isGrid = false ∧ parameter.categoricalValueNamed value.name = some value := by
    simp only [getJsonAssignment, getAssignment, bind_eq_ok, raiseIf_eq_ok, isCategorical, if_true,
      Assignment.inGrid, and_true, exists_const, Bool.not_eq_true]
    refine and_congr_right fun _ => ?_
    unfold getCategoricalAssignment
    dsimp only
    cases named : parameter.categoricalValueNamed value.name with
    | none => simp
    | some other =>
        simp only [bind_eq_ok, raiseIf_eq_ok, pure_eq_ok, exists_const, Option.some.injEq]
        constructor
        · rintro ⟨_, otherIndexed⟩
          exact unique other (List.mem_reverse.mp (List.mem_of_find?_eq_some named)) otherIndexed
        · rintro rfl
          exact ⟨by simp [active], indexed⟩
  constructor
  · rintro ⟨json, isRendered, isRead⟩ _
    obtain rfl : json = .string value.name := Except.ok.inj (isRendered.symm.trans rendered)
    obtain ⟨noGrid, named⟩ := reads.mp isRead
    refine ⟨noGrid, ?_⟩
    intro other isOther otherIndexed
    rw [unique other isOther otherIndexed]
    exact named
  · intro readsBack
    obtain ⟨noGrid, named⟩ := readsBack isCategorical
    exact ⟨_, rendered, reads.mpr ⟨noGrid, named value isValue indexed⟩⟩

theorem truncated_of_integer {value : ℚ} (integer : value.den = 1) : truncated value = value := by
  rw [truncated, integer, Nat.cast_one, Int.tdiv_one]
  exact Rat.coe_int_num_of_den_eq_one integer

/-- A number is rendered as itself and read as itself. -/
theorem number_returns {parameter : ExperimentParameter} (numerical : parameter.paramType ≠ .categorical)
    {assignment : ℚ} (valid : ValidValue parameter assignment) :
    ∃ json, renderParamValue parameter assignment = .ok json ∧ getJsonAssignment parameter json = .ok assignment := by
  have grid : parameter.isGrid = true → assignment ∈ parameter.gridValues := by
    unfold ValidValue at valid
    split at valid
    · exact absurd ‹_› numerical
    · exact valid.2
    · exact valid
  have integer : parameter.isInteger = true → assignment.den = 1 := by
    intro isInteger
    simp only [ExperimentParameter.isInteger, decide_eq_true_eq] at isInteger
    rw [ValidValue, isInteger] at valid
    exact valid.1
  have notCategorical : parameter.isCategorical = false := by simp [ExperimentParameter.isCategorical, numerical]
  have reads : getJsonAssignment parameter (.number assignment) = .ok assignment := by
    simp only [getJsonAssignment, getAssignment, bind_eq_ok, raiseIf_eq_ok, notCategorical, Bool.false_eq_true, if_false,
      Assignment.inGrid, exists_const, decide_eq_false_iff_not, not_and, not_not, getNumericalAssignment, pure_eq_ok,
      and_true]
    exact ⟨grid, integer⟩
  refine ⟨.number assignment, ?_, reads⟩
  unfold renderParamValue
  cases kind : parameter.paramType with
  | categorical => exact absurd kind numerical
  | int =>
      dsimp only
      rw [truncated_of_integer (integer (by simp [ExperimentParameter.isInteger, kind]))]
      rfl
  | double => rfl

theorem find_conditional_value {conditional : ExperimentConditional} (distinct : ValuesDistinct conditional)
    {value : ExperimentConditionalValue} (isValue : value ∈ conditional.values) :
    (conditional.values.find? fun other => (other.enumIndex : ℚ) = value.enumIndex) = some value ∧
      (conditional.values.find? fun other => other.name = value.name) = some value := by
  constructor
  · cases found : conditional.values.find? fun other => (other.enumIndex : ℚ) = value.enumIndex with
    | none => simpa using List.find?_eq_none.mp found value isValue
    | some other =>
        have sameIndex : (other.enumIndex : ℚ) = value.enumIndex := by simpa using List.find?_some found
        rw [List.inj_on_of_nodup_map distinct.2 (List.mem_of_find?_eq_some found) isValue
          (Rat.natCast_inj.mp sameIndex)]
  · cases found : conditional.values.find? fun other => other.name = value.name with
    | none => simpa using List.find?_eq_none.mp found value isValue
    | some other =>
        have sameName : other.name = value.name := by simpa using List.find?_some found
        rw [List.inj_on_of_nodup_map distinct.1 (List.mem_of_find?_eq_some found) isValue sameName]

/-- A conditional returns through a parameter of its name exactly if that is rendered as the value's name. -/
theorem conditional_returns_iff {parameter : ExperimentParameter} (indices : parameter.enumIndices.Nodup)
    {conditional : ExperimentConditional} (distinct : ValuesDistinct conditional) {assignment : ℚ} :
    (∃ json, renderParamValue parameter assignment = .ok json ∧ conditionalAssignment conditional json = .ok assignment) ↔
      ConditionalReadsBack parameter conditional assignment := by
  have readsName : ∀ name, conditionalAssignment conditional (.string name) = .ok assignment ↔
      ∃ other ∈ conditional.values, (other.enumIndex : ℚ) = assignment ∧ other.name = name := by
    intro name
    unfold conditionalAssignment conditionalValueNamed
    dsimp only
    constructor
    · intro isRead
      split at isRead
      · rename_i other found
        rw [pure_eq_ok] at isRead
        exact ⟨other, List.mem_of_find?_eq_some found, isRead, by simpa using List.find?_some found⟩
      · cases isRead
    · rintro ⟨other, isOther, indexed, rfl⟩
      rw [(find_conditional_value distinct isOther).2, ← indexed]
      rfl
  unfold renderParamValue ConditionalReadsBack ExperimentParameter.isCategorical
  cases parameter.paramType with
  | categorical =>
      simp only [decide_true, true_and]
      constructor
      · rintro ⟨json, isRendered, isRead⟩
        split at isRendered
        · rename_i value found
          rw [pure_eq_ok] at isRendered
          subst isRendered
          exact ⟨value, List.mem_reverse.mp (List.mem_of_find?_eq_some found), by simpa using List.find?_some found,
            (readsName value.name).mp isRead⟩
        · cases isRendered
      · rintro ⟨value, isValue, indexed, other⟩
        refine ⟨.string value.name, ?_, (readsName value.name).mpr other⟩
        rw [find_indexed indices isValue indexed]
        rfl
  | int =>
      constructor
      · rintro ⟨json, isRendered, isRead⟩
        cases isRendered
        cases isRead
      · rintro ⟨isCategorical, _⟩
        cases isCategorical
  | double =>
      constructor
      · rintro ⟨json, isRendered, isRead⟩
        cases isRendered
        cases isRead
      · rintro ⟨isCategorical, _⟩
        cases isCategorical

/-! ### The whole map -/

section Whole

variable {experiment : ExperimentMeta} {assignments : AssignmentsDict}

/-- An item that belongs to a parameter only. -/
theorem parameter_item_returns_iff (identified : Identified experiment)
    (valid : ValidFull experiment assignments.toMap) {name : String} {assignment : ℚ}
    (assigned : assignments.toMap name = some assignment) (unconditional : name ∉ experiment.conditionalNames) :
    ∃ parameter, parameter.name = name ∧ parameterNamed experiment name = some parameter ∧
      ((∃ json, renderItem experiment assignments.toMap name assignment = .ok json ∧
          readMember experiment name json = .ok assignment) ↔ CategoryReadsBack parameter assignment) := by
  have active := (valid.known name assignment assigned).resolve_left unconditional
  obtain ⟨parameter, stored, notDeleted, rfl, named, namedAmongAll⟩ := parameterNamed_of_active identified active
  refine ⟨parameter, rfl, named, ?_⟩
  have satisfied := valid.conditions_satisfied stored notDeleted assigned
  have value := valid.parameters parameter stored notDeleted assignment assigned
  have rendered : renderItem experiment assignments.toMap parameter.name assignment =
      renderParamValue parameter assignment := by
    simp [renderItem, namedAmongAll, conditionallyRenderParamValue, satisfied]
  have read : readMember experiment parameter.name = getJsonAssignment parameter := by
    funext json
    simp [readMember, conditionalNamed_none.mpr unconditional, named]
  rw [rendered, read]
  by_cases categorical : parameter.paramType = .categorical
  · exact category_returns_iff (identified.indices parameter stored) categorical value
  · apply iff_of_true (number_returns categorical value)
    intro isCategorical
    simp [ExperimentParameter.isCategorical, categorical] at isCategorical

/-- An item that belongs to a conditional. -/
theorem conditional_item_returns_iff (identified : Identified experiment)
    (valid : ValidFull experiment assignments.toMap) {conditional : ExperimentConditional} {assignment : ℚ}
    (isConditional : conditional ∈ experiment.conditionals)
    (assigned : assignments.toMap conditional.name = some assignment) :
    (∃ json, renderItem experiment assignments.toMap conditional.name assignment = .ok json ∧
        readMember experiment conditional.name json = .ok assignment) ↔
      ∀ parameter, parameterIncludingDeletedNamed experiment conditional.name = some parameter →
        parameterConditionsSatisfied parameter assignments.toMap = true ∧
          ConditionalReadsBack parameter conditional assignment := by
  have found : conditionalNamed experiment conditional.name = some conditional := by
    cases named : conditionalNamed experiment conditional.name with
    | none => exact absurd (List.mem_map_of_mem isConditional) (conditionalNamed_none.mp named)
    | some other =>
        obtain ⟨isOther, sameName⟩ := conditionalNamed_some named
        rw [List.inj_on_of_nodup_map identified.conditionals isOther isConditional sameName]
  have distinct := identified.values conditional isConditional
  have read : readMember experiment conditional.name = conditionalAssignment conditional := by
    funext json
    simp [readMember, found]
  rw [read]
  unfold renderItem
  rw [found]
  cases named : parameterIncludingDeletedNamed experiment conditional.name with
  | none =>
      simp only [reduceCtorEq, false_imp_iff, implies_true, iff_true]
      obtain ⟨value, isValue, rfl⟩ := valid.conditionals conditional isConditional assignment assigned
      obtain ⟨byIndex, byName⟩ := find_conditional_value distinct isValue
      refine ⟨.string value.name, ?_, ?_⟩
      · rw [renderConditionalValue, byIndex]
        rfl
      · rw [conditionalAssignment, conditionalValueNamed, byName]
        rfl
  | some parameter =>
      have stored := List.mem_reverse.mp (List.mem_of_find?_eq_some named)
      simp only [Option.some.injEq, forall_eq']
      unfold conditionallyRenderParamValue
      cases satisfied : parameterConditionsSatisfied parameter assignments.toMap with
      | true =>
          simp only [if_true, true_and]
          exact conditional_returns_iff (identified.indices parameter stored) distinct
      | false =>
          simp only [Bool.false_eq_true, if_false, false_and, iff_false]
          rintro ⟨json, isRendered, isRead⟩
          cases isRendered
          cases isRead

theorem roundTrips_iff_readsBack (identified : Identified experiment)
    (valid : ValidFull experiment assignments.toMap) :
    RoundTrips experiment assignments ↔ ReadsBack experiment assignments.toMap := by
  have conditionals : ∀ item ∈ assignments.items, ∀ conditional,
      conditionalNamed experiment item.1 = some conditional →
        ∃ value, renderConditionalValue conditional item.2 = .ok value := by
    intro item isItem conditional found
    obtain ⟨isConditional, named⟩ := conditionalNamed_some found
    obtain ⟨value, isValue, indexed⟩ := valid.conditionals conditional isConditional item.2
      (named.symm ▸ toMap_of_item isItem)
    refine ⟨.string value.name, ?_⟩
    rw [renderConditionalValue, ← indexed, (find_conditional_value (identified.values conditional isConditional) isValue).1]
    rfl
  rw [roundTrips_iff_items valid.validated conditionals]
  constructor
  · intro returns
    constructor
    · intro parameter assignment unconditional named assigned
      obtain ⟨other, _, otherNamed, exact⟩ :=
        parameter_item_returns_iff identified valid assigned unconditional
      obtain rfl : parameter = other := Option.some.inj (named.symm.trans otherNamed)
      exact exact.mp (returns _ (JsonObject.mem_of_lookup assigned))
    · intro conditional isConditional parameter named
      obtain ⟨assignment, assigned⟩ := valid.conditional_assigned isConditional
      have both := (conditional_item_returns_iff identified valid isConditional assigned).mp
        (returns _ (JsonObject.mem_of_lookup assigned)) parameter named
      refine ⟨both.1, ?_⟩
      intro other otherAssigned
      obtain rfl : assignment = other := Option.some.inj (assigned.symm.trans otherAssigned)
      exact both.2
  · rintro readsBack ⟨name, assignment⟩ isItem
    have assigned := toMap_of_item isItem
    by_cases conditioned : name ∈ experiment.conditionalNames
    · obtain ⟨conditional, isConditional, rfl⟩ := List.mem_map.mp conditioned
      apply (conditional_item_returns_iff identified valid isConditional assigned).mpr
      intro parameter named
      obtain ⟨satisfied, each⟩ := readsBack.conditionals conditional isConditional parameter named
      exact ⟨satisfied, each assignment assigned⟩
    · obtain ⟨parameter, rfl, named, exact⟩ := parameter_item_returns_iff identified valid assigned conditioned
      exact exact.mpr (readsBack.categories parameter assignment conditioned named assigned)

end Whole

/-- For every experiment that an accepted create and accepted updates lead to, and every valid full map of
    assignments: the map survives being rendered and submitted exactly if its categories and conditionals
    read back. -/
theorem roundTrips_iff {sections : OtherSections} {className : String} {body : JsonObject}
    {created : ExperimentMeta} (accepted : createExperiment sections className body = .ok created)
    {updates : List (JsonObject × ExperimentMeta)} (run : AcceptedUpdates sections created updates)
    {experiment : ExperimentMeta} (reached : experiment ∈ Trace.reached created updates)
    {assignments : AssignmentsDict} (valid : ValidFull experiment assignments.toMap) :
    RoundTrips experiment assignments ↔ ReadsBack experiment assignments.toMap :=
  roundTrips_iff_readsBack (identified_of_run accepted run experiment reached) valid

/-- A conditional `c`, a categorical parameter `k` under its value `a`, and an integer `n`. -/
def experimentWithCategories : JsonObject :=
  [("name", .string "an experiment"),
    ("conditionals", .array [.object [("name", .string "c"), ("values", .array [.string "a", .string "b"])]]),
    ("parameters", .array [
      .object [("name", .string "k"), ("type", .string "categorical"),
        ("categorical_values", .array [.string "u", .string "v"]), ("conditions", .object [("c", .string "a")])],
      .object [("name", .string "n"), ("type", .string "int"),
        ("bounds", .object [("min", .number 0), ("max", .number 9)])]])]

def categoriesMeta : ExperimentMeta where
  conditionals := [⟨"c", [⟨"a", 1⟩, ⟨"b", 2⟩]⟩]
  allParametersUnsorted :=
    [{ name := "k", paramType := .categorical, allCategoricalValues := [⟨"u", 1, false⟩, ⟨"v", 2, false⟩],
       conditions := [⟨"c", [1]⟩] },
      { name := "n", paramType := .int, bounds := ⟨0, 9⟩ }]

/-- `c` is `a`, `k` is `v`, `n` is 3. -/
def categoriesAssigned : AssignmentsDict := ⟨[("c", 1), ("k", 2), ("n", 3)], by decide⟩

theorem experimentWithCategories_created :
    createExperiment permissiveSections "Experiment" experimentWithCategories = .ok categoriesMeta := by
  decide +kernel

theorem categoriesAssigned_valid : ValidFull categoriesMeta categoriesAssigned.toMap where
  validated := by decide +kernel
  known := by
    intro name assignment assigned
    have isItem := JsonObject.mem_of_lookup assigned
    simp only [categoriesAssigned, List.mem_cons, Prod.mk.injEq, List.not_mem_nil, or_false] at isItem
    rcases isItem with ⟨rfl, _⟩ | ⟨rfl, _⟩ | ⟨rfl, _⟩
    · exact Or.inl (by decide)
    · exact Or.inr (by decide)
    · exact Or.inr (by decide)
  conditionals := by
    intro conditional isConditional assignment assigned
    rw [List.mem_singleton.mp isConditional] at assigned ⊢
    obtain rfl : 1 = assignment := Option.some.inj assigned
    exact ⟨⟨"a", 1⟩, by decide, by decide +kernel⟩
  parameters := by
    intro parameter isParameter _ assignment assigned
    simp only [categoriesMeta, List.mem_cons, List.not_mem_nil, or_false] at isParameter
    rcases isParameter with rfl | rfl
    · obtain rfl : 2 = assignment := Option.some.inj assigned
      exact ⟨⟨"v", 2, false⟩, by decide, by decide +kernel⟩
    · obtain rfl : 3 = assignment := Option.some.inj assigned
      exact ⟨by decide +kernel, by decide⟩

/-- A categorical parameter, a numerical one with a condition, and the conditional come back from their JSON. -/
theorem categories_return : RoundTrips categoriesMeta categoriesAssigned := by
  have run : AcceptedUpdates permissiveSections categoriesMeta [] := trivial
  apply (roundTrips_iff experimentWithCategories_created run List.mem_cons_self categoriesAssigned_valid).mpr
  constructor
  · intro parameter assignment _ named assigned isCategorical
    have readBack : ∀ parameter ∈ categoriesMeta.allParametersUnsorted, parameter.isCategorical = true →
        parameter.isGrid = false ∧ ∀ value ∈ parameter.allCategoricalValues,
          parameter.categoricalValueNamed value.name = some value := by decide
    obtain ⟨noGrid, named⟩ := readBack parameter (parameterNamed_mem named).1 isCategorical
    exact ⟨noGrid, fun value isValue _ => named value isValue⟩
  · intro conditional isConditional parameter named
    rw [List.mem_singleton.mp isConditional] at named
    revert named
    rw [show parameterIncludingDeletedNamed categoriesMeta "c" = none by decide]
    rintro ⟨⟩

/-- A grid experiment over a categorical parameter. -/
def gridOfCategories : JsonObject :=
  [("name", .string "an experiment"), ("type", .string "grid"),
    ("parameters", .array [
      .object [("name", .string "k"), ("type", .string "categorical"),
        ("categorical_values", .array [.string "u", .string "v"])]])]

def gridMeta : ExperimentMeta where
  experimentType := .grid
  allParametersUnsorted :=
    [{ name := "k", paramType := .categorical, allCategoricalValues := [⟨"u", 1, false⟩, ⟨"v", 2, false⟩],
       gridValues := [1, 2] }]
  observationBudget := some 2

/-- The category `u` is rendered as its name, and no name is in the grid, which has the indices. -/
theorem grid_category_does_not_return : ∃ body created assignments,
    createExperiment permissiveSections "Experiment" body = .ok created ∧
      ValidFull created assignments.toMap ∧ ¬RoundTrips created assignments := by
  refine ⟨gridOfCategories, gridMeta, ⟨[("k", 1)], by decide⟩, by decide +kernel, ?_, ?_⟩
  · constructor
    · decide +kernel
    · intro name assignment assigned
      have isItem := JsonObject.mem_of_lookup assigned
      rw [List.mem_singleton, Prod.mk.injEq] at isItem
      exact Or.inr (by rw [isItem.1]; decide)
    · intro conditional isConditional
      cases isConditional
    · intro parameter isParameter _ assignment assigned
      rw [List.mem_singleton.mp isParameter] at assigned ⊢
      obtain rfl : 1 = assignment := Option.some.inj assigned
      exact ⟨⟨"u", 1, false⟩, by decide, by decide +kernel⟩
  · rintro ⟨json, rendered, read, _⟩
    have isJson : assignmentsJson gridMeta ⟨[("k", 1)], by decide⟩ = .ok [("k", .string "u")] := by rfl
    obtain rfl := Except.ok.inj (rendered.symm.trans isJson)
    cases read

end Zigopt.Assignments
