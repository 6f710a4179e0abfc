/-
Module: Zigopt.Experiment.CategoricalValues
Layer: Experiment
Purpose: Whether the values of a categorical parameter keep their names and enum indices over the life of
  an experiment. An update looks a value up by the name in the request, and gives any other the next
  index and the name without surrounding whitespace, which may be a name that is stored already.
Main exports: ValuesUnique, ValuesStable, ActiveValuesAsRequested, SettledValueNames, values_kept_iff
-/
import Mathlib.Data.List.Infix
import Zigopt.Experiment.Revision

namespace Zigopt.Experiment

open Raising

/-- What observations rely on: which index a value has. -/
def ExperimentCategoricalValue.assignment (value : ExperimentCategoricalValue) : String × Nat :=
  (value.name, value.enumIndex)

/-- The stored values, active and deleted, have distinct names and distinct enum indices. -/
def ValuesUnique (values : List ExperimentCategoricalValue) : Prop :=
  (values.map (·.name)).Nodup ∧ (values.map (·.enumIndex)).Nodup

/-- Every stored name has been validated. -/
def ValuesValidated (values : List ExperimentCategoricalValue) : Prop :=
  ∀ value ∈ values, validateCategoricalValue value.name = .ok value.name

def rawValueName? : JsonObject ⊕ String → Option String
  | .inl members => ValidationType.string.read (members.get "name")
  | .inr name => some name

/-- The names that a request lists for a parameter, before validation. -/
def requestedValueNames (valuesJson : List (JsonObject ⊕ String)) : List String :=
  valuesJson.filterMap rawValueName?

theorem requestedValueNames_append_singleton {valuesJson : List (JsonObject ⊕ String)}
    {valueJson : JsonObject ⊕ String} {rawName : String} (named : rawValueName? valueJson = some rawName) :
    requestedValueNames (valuesJson ++ [valueJson]) = requestedValueNames valuesJson ++ [rawName] := by
  simp [requestedValueNames, named]

theorem strip_of_validatedValue {rawName name : String}
    (validated : validateCategoricalValue rawName = .ok name) : strip rawName = name :=
  (validateNameLength_eq_ok.mp validated).2.2.2

theorem categoricalValueRawName_eq_ok {valueJson : JsonObject ⊕ String} {rawName : String} :
    categoricalValueRawName valueJson = .ok rawName ↔ rawValueName? valueJson = some rawName := by
  cases valueJson with
  | inl members => exact getWithValidation_eq_ok rfl
  | inr name => simp [categoricalValueRawName, rawValueName?]

theorem setCategoricalValueFromJson_ok {valueJson : JsonObject ⊕ String} {enumIndex : Nat}
    {value : ExperimentCategoricalValue} (accepted : setCategoricalValueFromJson valueJson enumIndex = .ok value) :
    ∃ rawName, rawValueName? valueJson = some rawName ∧ validateCategoricalValue rawName = .ok (strip rawName) ∧
      value = { name := strip rawName, enumIndex := enumIndex } := by
  simp only [setCategoricalValueFromJson, bind_eq_ok, pure_eq_ok] at accepted
  rcases accepted with ⟨rawName, read, _, _, name, validated, rfl⟩
  have stripped := strip_of_validatedValue validated
  subst stripped
  exact ⟨rawName, categoricalValueRawName_eq_ok.mp read, validated, rfl⟩

/-! ### Values of a new parameter -/

/-- The values after a part of the loop of a create. -/
structure ValuesCreated (rawNames : List String) (values : List ExperimentCategoricalValue) : Prop where
  validated : ∀ rawName ∈ rawNames, validateCategoricalValue rawName = .ok (strip rawName)
  names : values.map (·.name) = rawNames.map strip
  distinct : (values.map (·.name)).Nodup
  indices : values.map (·.enumIndex) = List.range' 1 values.length
  active : ∀ value ∈ values, value.deleted = false

theorem ValuesCreated.add {valuesJson : List (JsonObject ⊕ String)}
    {values next : List ExperimentCategoricalValue} {valueJson : JsonObject ⊕ String}
    (before : ValuesCreated (requestedValueNames valuesJson) values)
    (added : addCategoricalValue values valueJson = .ok next) :
    ValuesCreated (requestedValueNames (valuesJson ++ [valueJson])) next := by
  simp only [addCategoricalValue, bind_eq_ok, raiseIf_eq_ok, pure_eq_ok] at added
  rcases added with ⟨value, read, _, notSeen, rfl⟩
  rcases setCategoricalValueFromJson_ok read with ⟨rawName, named, validated, rfl⟩
  rw [requestedValueNames_append_singleton named]
  exact {
    validated := by
      intro other member
      rcases List.mem_append.mp member with earlier | last
      · exact before.validated other earlier
      · rw [List.mem_singleton.mp last]
        exact validated
    names := by simp [before.names]
    distinct := by
      rw [List.map_append, List.nodup_append']
      exact ⟨before.distinct, by simp, by simpa using notSeen⟩
    indices := by
      rw [List.map_append, before.indices, List.length_append, List.length_singleton, List.range'_concat]
      simp [Nat.add_comm]
    active := by
      intro other member
      rcases List.mem_append.mp member with earlier | last
      · exact before.active other earlier
      · rw [List.mem_singleton.mp last] }

/-- The created values are those of the request, in its order. -/
theorem CreatedValues.values {json : JsonObject} {values : List ExperimentCategoricalValue}
    (created : CreatedValues json values) :
    ∃ rawNames, ValuesCreated rawNames values ∧
      ∀ valuesJson, categoricalValuesType.read (json.get "categorical_values") = some valuesJson →
        rawNames = requestedValueNames valuesJson := by
  rcases created with ⟨absent, rfl⟩ | ⟨valuesJson, read, looped⟩
  · refine ⟨[], ⟨by simp, rfl, by simp, rfl, by simp⟩, ?_⟩
    intro valuesJson read
    unfold JsonObject.isPresent at absent
    split at absent
    · rename_i isNull
      rw [isNull] at read
      cases read
    · cases absent
  · refine ⟨requestedValueNames valuesJson, ?_, ?_⟩
    · refine foldlM_induction (fun done values => ValuesCreated (requestedValueNames done) values) ?_
        ⟨by simp [requestedValueNames], rfl, by simp, rfl, by simp⟩ looped
      intro done state valueJson next before added
      exact before.add added
    · intro other readOther
      rw [read, Option.some.injEq] at readOther
      rw [readOther]

theorem ValuesCreated.unique {rawNames : List String} {values : List ExperimentCategoricalValue}
    (created : ValuesCreated rawNames values) : ValuesUnique values := by
  refine ⟨created.distinct, ?_⟩
  rw [created.indices]
  exact List.nodup_range'

theorem ValuesCreated.valuesValidated {rawNames : List String} {values : List ExperimentCategoricalValue}
    (created : ValuesCreated rawNames values) : ValuesValidated values := by
  intro value member
  have nameMember : value.name ∈ values.map (·.name) := List.mem_map_of_mem member
  rw [created.names] at nameMember
  rcases List.mem_map.mp nameMember with ⟨rawName, isRequested, same⟩
  rw [← same]
  exact validateNameLength_stored (created.validated rawName isRequested)

/-- The names of the values that are not deleted. -/
def activeNames (values : List ExperimentCategoricalValue) : List String :=
  (values.filter fun value => !value.deleted).map (·.name)

/-- The names that are requested, as validated. -/
def RequestedAsValidated (rawNames : List String) (name : String) : Prop :=
  ∃ rawName ∈ rawNames, validateCategoricalValue rawName = .ok name

theorem requestedAsValidated_iff {rawNames : List String}
    (validated : ∀ rawName ∈ rawNames, validateCategoricalValue rawName = .ok (strip rawName)) {name : String} :
    RequestedAsValidated rawNames name ↔ name ∈ rawNames.map strip := by
  rw [List.mem_map]
  constructor
  · rintro ⟨rawName, isRequested, valid⟩
    exact ⟨rawName, isRequested, strip_of_validatedValue valid⟩
  · rintro ⟨rawName, isRequested, rfl⟩
    exact ⟨rawName, isRequested, validated rawName isRequested⟩

theorem ValuesCreated.activeNames_iff {rawNames : List String} {values : List ExperimentCategoricalValue}
    (created : ValuesCreated rawNames values) {name : String} :
    name ∈ activeNames values ↔ RequestedAsValidated rawNames name := by
  have allActive : (values.filter fun value => !value.deleted) = values :=
    List.filter_eq_self.mpr fun value member => by simp [created.active value member]
  rw [requestedAsValidated_iff created.validated, activeNames, allActive, created.names]

/-! ### Values of an update -/

/-- The values after a part of the loop of an update: the stored ones, some of them revived, and the
    added ones. -/
structure ValuesLooped (stored : List ExperimentCategoricalValue) (rawNames : List String)
    (kept added : List ExperimentCategoricalValue) (loop : CategoricalLoop) : Prop where
  values : loop.values = kept ++ added
  validated : ∀ rawName ∈ rawNames, validateCategoricalValue rawName = .ok (strip rawName)
  distinct : (rawNames.map strip).Nodup
  seen : ∀ name, name ∈ loop.seenNames ↔ name ∈ rawNames.map strip
  assignments : kept.map (·.assignment) = stored.map (·.assignment)
  addedNames : added.map (·.name) = (rawNames.filter (· ∉ stored.map (·.name))).map strip
  addedIndices : added.map (·.enumIndex) = List.range' (nextEnumIndex stored) added.length
  nextIndex : loop.enumIndex = nextEnumIndex stored + added.length
  revived : ∀ value ∈ kept, value.name ∈ rawNames → value.deleted = false
  active : ∀ value ∈ added, value.deleted = false

theorem map_name_eq_of_assignments {values others : List ExperimentCategoricalValue}
    (same : values.map (·.assignment) = others.map (·.assignment)) :
    values.map (·.name) = others.map (·.name) := by
  have names := congrArg (List.map Prod.fst) same
  rw [List.map_map, List.map_map] at names
  exact names

theorem map_index_eq_of_assignments {values others : List ExperimentCategoricalValue}
    (same : values.map (·.assignment) = others.map (·.assignment)) :
    values.map (·.enumIndex) = others.map (·.enumIndex) := by
  have indices := congrArg (List.map Prod.snd) same
  rw [List.map_map, List.map_map] at indices
  exact indices

theorem map_assignment_modify (values : List ExperimentCategoricalValue) (position : Nat) :
    (values.modify position fun value => { value with deleted := false }).map (·.assignment) =
      values.map (·.assignment) := by
  apply List.ext_getElem?
  intro index
  rw [List.getElem?_map, List.getElem?_map, List.getElem?_modify]
  cases values[index]? with
  | none => rfl
  | some value =>
      simp only [Option.map_some]
      split <;> rfl

theorem modify_append_of_lt {front back : List ExperimentCategoricalValue} {position : Nat}
    {change : ExperimentCategoricalValue → ExperimentCategoricalValue} (inFront : position < front.length) :
    (front ++ back).modify position change = front.modify position change ++ back := by
  induction front generalizing position with
  | nil => simp at inFront
  | cons value front inductionHypothesis =>
      cases position with
      | zero => rfl
      | succ position =>
          simp only [List.cons_append, List.modify_succ_cons]
          rw [inductionHypothesis (by simpa using inFront)]

section Loop

variable {stored : List ExperimentCategoricalValue} {rawNames : List String}
  {kept added : List ExperimentCategoricalValue} {loop : CategoricalLoop}

/-- Before the first value of the request the stored ones are as they were. -/
theorem ValuesLooped.start (stored : List ExperimentCategoricalValue) :
    ValuesLooped stored [] stored [] { values := stored, enumIndex := nextEnumIndex stored } where
  values := by simp
  validated := by simp
  distinct := by simp
  seen := by simp
  assignments := rfl
  addedNames := rfl
  addedIndices := rfl
  nextIndex := rfl
  revived := by simp
  active := by simp

theorem ValuesLooped.validated_append {rawName : String}
    (looped : ValuesLooped stored rawNames kept added loop)
    (valid : validateCategoricalValue rawName = .ok (strip rawName)) :
    ∀ other ∈ rawNames ++ [rawName], validateCategoricalValue other = .ok (strip other) := by
  intro other member
  rcases List.mem_append.mp member with earlier | last
  · exact looped.validated other earlier
  · rw [List.mem_singleton.mp last]
    exact valid

theorem ValuesLooped.distinct_append {rawName : String}
    (looped : ValuesLooped stored rawNames kept added loop) (unseen : strip rawName ∉ loop.seenNames) :
    ((rawNames ++ [rawName]).map strip).Nodup := by
  rw [List.map_append, List.nodup_append']
  refine ⟨looped.distinct, by simp, ?_⟩
  rw [looped.seen] at unseen
  simpa using unseen

theorem ValuesLooped.seen_append (rawName : String) (looped : ValuesLooped stored rawNames kept added loop) :
    ∀ name, name ∈ strip rawName :: loop.seenNames ↔ name ∈ (rawNames ++ [rawName]).map strip := by
  intro name
  rw [List.mem_cons, looped.seen, List.map_append, List.mem_append, List.map_singleton, List.mem_singleton]
  exact or_comm

/-- A round that finds a stored value: it is revived in its position. -/
theorem ValuesLooped.revive {rawName : String} {position : Nat}
    (looped : ValuesLooped stored rawNames kept added loop) (distinctNames : (stored.map (·.name)).Nodup)
    (validatedStored : ValuesValidated stored)
    (found : Registry.lastIndexOf rawName (stored.map (·.name)) = some position)
    (unseen : rawName ∉ loop.seenNames) :
    ValuesLooped stored (rawNames ++ [rawName])
      (kept.modify position fun value => { value with deleted := false }) added
      { loop with
        values := loop.values.modify position fun value => { value with deleted := false }
        seenNames := rawName :: loop.seenNames } := by
  have atPosition := Registry.getElem?_of_lastIndexOf found
  have isStored : rawName ∈ stored.map (·.name) := List.mem_of_getElem? atPosition
  have valid : validateCategoricalValue rawName = .ok rawName := by
    rcases List.mem_map.mp isStored with ⟨value, member, rfl⟩
    exact validatedStored value member
  have plain := strip_of_validatedValue valid
  have keptNames := map_name_eq_of_assignments looped.assignments
  have inRange : position < kept.length := by
    have bound := (List.getElem?_eq_some_iff.mp atPosition).1
    rw [← keptNames, List.length_map] at bound
    exact bound
  exact {
    values := by
      simp only [looped.values]
      exact modify_append_of_lt inRange
    validated := looped.validated_append (by rw [plain]; exact valid)
    distinct := looped.distinct_append (by rw [plain]; exact unseen)
    seen := by
      have afterSeen := looped.seen_append rawName
      rw [plain] at afterSeen
      exact afterSeen
    assignments := by rw [map_assignment_modify, looped.assignments]
    addedNames := by
      rw [List.filter_append, List.filter_cons_of_neg (by simpa using isStored), List.filter_nil, List.append_nil]
      exact looped.addedNames
    addedIndices := looped.addedIndices
    nextIndex := looped.nextIndex
    revived := by
      intro value member isRequested
      rcases List.getElem?_of_mem member with ⟨index, atIndex⟩
      rw [List.getElem?_modify] at atIndex
      rcases Option.map_eq_some_iff.mp atIndex with ⟨before, atKept, rfl⟩
      by_cases here : position = index
      · simp [here]
      · simp only [here, if_false] at isRequested ⊢
        rcases List.mem_append.mp isRequested with earlier | last
        · exact looped.revived before (List.mem_of_getElem? atKept) earlier
        · -- the name is in one position only
          have atIndexName : (stored.map (·.name))[index]? = some rawName := by
            rw [← keptNames, List.getElem?_map, atKept, Option.map_some, List.mem_singleton.mp last]
          have foundThere := Registry.lastIndexOf_of_getElem? distinctNames atIndexName
          rw [found, Option.some.injEq] at foundThere
          exact absurd foundThere here
    active := looped.active }

/-- A round that adds a value. -/
theorem ValuesLooped.add {rawName : String} (looped : ValuesLooped stored rawNames kept added loop)
    (notStored : rawName ∉ stored.map (·.name))
    (valid : validateCategoricalValue rawName = .ok (strip rawName)) (unseen : strip rawName ∉ loop.seenNames) :
    ValuesLooped stored (rawNames ++ [rawName]) kept
      (added ++ [{ name := strip rawName, enumIndex := loop.enumIndex }])
      { values := loop.values ++ [{ name := strip rawName, enumIndex := loop.enumIndex }]
        enumIndex := loop.enumIndex + 1
        seenNames := strip rawName :: loop.seenNames } where
  values := by simp [looped.values]
  validated := looped.validated_append valid
  distinct := looped.distinct_append unseen
  seen := looped.seen_append rawName
  assignments := looped.assignments
  addedNames := by
    rw [List.filter_append, List.filter_cons_of_pos (by simpa using notStored), List.filter_nil, List.map_append,
      List.map_append, looped.addedNames]
    rfl
  addedIndices := by
    rw [List.map_append, looped.addedIndices, List.length_append, List.length_singleton, List.range'_concat,
      looped.nextIndex]
    simp
  nextIndex := by
    rw [List.length_append, List.length_singleton, looped.nextIndex, Nat.add_assoc]
  revived := by
    intro value member isRequested
    rcases List.mem_append.mp isRequested with earlier | last
    · exact looped.revived value member earlier
    · apply absurd _ notStored
      rw [← map_name_eq_of_assignments looped.assignments, ← List.mem_singleton.mp last]
      exact List.mem_map_of_mem member
  active := by
    intro value member
    rcases List.mem_append.mp member with earlier | last
    · exact looped.active value earlier
    · rw [List.mem_singleton.mp last]

end Loop

/-- What one round does. -/
theorem CategoricalLoop.next_ok {parameterName : String} {storedNames : List String}
    {loop next : CategoricalLoop} {valueJson : JsonObject ⊕ String}
    (accepted : loop.next parameterName storedNames valueJson = .ok next) :
    ∃ rawName, rawValueName? valueJson = some rawName ∧
      ((∃ position, Registry.lastIndexOf rawName storedNames = some position ∧ rawName ∉ loop.seenNames ∧
          next = { loop with
            values := loop.values.modify position fun value => { value with deleted := false }
            seenNames := rawName :: loop.seenNames }) ∨
        (rawName ∉ storedNames ∧ validateCategoricalValue rawName = .ok (strip rawName) ∧
          strip rawName ∉ loop.seenNames ∧
          next = {
            values := loop.values ++ [{ name := strip rawName, enumIndex := loop.enumIndex }]
            enumIndex := loop.enumIndex + 1
            seenNames := strip rawName :: loop.seenNames })) := by
  simp only [CategoricalLoop.next, bind_eq_ok] at accepted
  rcases accepted with ⟨rawName, read, matched⟩
  have named := categoricalValueRawName_eq_ok.mp read
  refine ⟨rawName, named, ?_⟩
  split at matched
  · rename_i position found
    simp only [bind_eq_ok, raiseIf_eq_ok, pure_eq_ok] at matched
    rcases matched with ⟨_, unseen, rfl⟩
    exact .inl ⟨position, found, unseen, rfl⟩
  · rename_i notFound
    simp only [bind_eq_ok, raiseIf_eq_ok, pure_eq_ok] at matched
    rcases matched with ⟨value, created, _, unseen, rfl⟩
    rcases setCategoricalValueFromJson_ok created with ⟨otherName, otherNamed, valid, rfl⟩
    obtain rfl : rawName = otherName := by
      rw [named] at otherNamed
      exact Option.some.inj otherNamed
    exact .inr ⟨Registry.lastIndexOf_eq_none.mp notFound, valid, unseen, rfl⟩

/-- What the whole loop does. -/
theorem CategoricalLoop.foldlM_ok {parameter : ExperimentParameter} {valuesJson : List (JsonObject ⊕ String)}
    {loop : CategoricalLoop} (distinctNames : parameter.valueNames.Nodup)
    (validatedStored : ValuesValidated parameter.allCategoricalValues)
    (accepted : valuesJson.foldlM (CategoricalLoop.next parameter.name parameter.valueNames)
      { values := parameter.allCategoricalValues
        enumIndex := nextEnumIndex parameter.allCategoricalValues } = .ok loop) :
    ∃ kept added, ValuesLooped parameter.allCategoricalValues (requestedValueNames valuesJson) kept added loop := by
  refine foldlM_induction (fun done loop => ∃ kept added,
    ValuesLooped parameter.allCategoricalValues (requestedValueNames done) kept added loop) ?_
    ⟨_, _, ValuesLooped.start _⟩ accepted
  rintro done loop valueJson next ⟨kept, added, looped⟩ stepped
  rcases CategoricalLoop.next_ok stepped with ⟨rawName, named, ⟨position, found, unseen, rfl⟩ | isNew⟩
  · rw [requestedValueNames_append_singleton named]
    exact ⟨_, _, looped.revive distinctNames validatedStored found unseen⟩
  · rcases isNew with ⟨notStored, valid, unseen, rfl⟩
    rw [requestedValueNames_append_singleton named]
    exact ⟨_, _, looped.add notStored valid unseen⟩

/-- What an accepted list of values makes of the stored ones. -/
structure ValuesRevised (stored : List ExperimentCategoricalValue) (rawNames : List String)
    (after : List ExperimentCategoricalValue) : Prop where
  validated : ∀ rawName ∈ rawNames, validateCategoricalValue rawName = .ok (strip rawName)
  assignments : stored.map (·.assignment) <+: after.map (·.assignment)
  names : after.map (·.name) = Registry.revised strip (stored.map (·.name)) rawNames
  distinct : (rawNames.map strip).Nodup
  indices : ∃ count, after.map (·.enumIndex) =
    stored.map (·.enumIndex) ++ List.range' (nextEnumIndex stored) count
  active : ∀ name, name ∈ activeNames after ↔ name ∈ rawNames.map strip

/-- The last pass over the values, which marks those not seen as deleted. -/
def markUnseenValue (seenNames : List String) (value : ExperimentCategoricalValue) :
    ExperimentCategoricalValue :=
  if value.name ∈ seenNames then value else { value with deleted := true }

theorem markUnseenValue_assignment (seenNames : List String) (value : ExperimentCategoricalValue) :
    (markUnseenValue seenNames value).assignment = value.assignment := by
  unfold markUnseenValue
  split <;> rfl

theorem map_markUnseenValue_assignment (seenNames : List String) (values : List ExperimentCategoricalValue) :
    (values.map (markUnseenValue seenNames)).map (·.assignment) = values.map (·.assignment) := by
  rw [List.map_map]
  exact List.map_congr_left fun value _ => markUnseenValue_assignment seenNames value

theorem mem_activeNames_markUnseen {seenNames : List String} {values : List ExperimentCategoricalValue}
    {name : String} : name ∈ activeNames (values.map (markUnseenValue seenNames)) ↔
      name ∈ seenNames ∧ ∃ value ∈ values, value.name = name ∧ value.deleted = false := by
  simp only [activeNames, List.mem_map, List.mem_filter, Bool.not_eq_true']
  constructor
  · rintro ⟨_, ⟨⟨value, member, rfl⟩, notDeleted⟩, rfl⟩
    unfold markUnseenValue at notDeleted ⊢
    split at notDeleted
    · rename_i wasSeen
      rw [if_pos wasSeen]
      exact ⟨wasSeen, value, member, rfl, notDeleted⟩
    · cases notDeleted
  · rintro ⟨wasSeen, value, member, rfl, notDeleted⟩
    exact ⟨markUnseenValue seenNames value, ⟨⟨value, member, rfl⟩, by rw [markUnseenValue, if_pos wasSeen, notDeleted]⟩,
      by rw [markUnseenValue, if_pos wasSeen]⟩

section Finished

variable {stored : List ExperimentCategoricalValue} {rawNames : List String}
  {kept added : List ExperimentCategoricalValue} {loop : CategoricalLoop}

/-- Every requested name belongs to a value that is not deleted. -/
theorem ValuesLooped.exists_active (looped : ValuesLooped stored rawNames kept added loop)
    {rawName : String} (isRequested : rawName ∈ rawNames) (storedPlain : ValuesValidated stored) :
    ∃ value ∈ loop.values, value.name = strip rawName ∧ value.deleted = false := by
  by_cases isStored : rawName ∈ stored.map (·.name)
  · have plain : strip rawName = rawName := by
      rcases List.mem_map.mp isStored with ⟨value, member, rfl⟩
      exact strip_of_validatedValue (storedPlain value member)
    rw [← map_name_eq_of_assignments looped.assignments] at isStored
    rcases List.mem_map.mp isStored with ⟨value, member, rfl⟩
    refine ⟨value, ?_, plain.symm, looped.revived value member isRequested⟩
    rw [looped.values]
    exact List.mem_append_left _ member
  · have isNew : strip rawName ∈ added.map (·.name) := by
      rw [looped.addedNames]
      exact List.mem_map_of_mem (List.mem_filter.mpr ⟨isRequested, by simpa using isStored⟩)
    rcases List.mem_map.mp isNew with ⟨value, member, same⟩
    refine ⟨value, ?_, same, looped.active value member⟩
    rw [looped.values]
    exact List.mem_append_right _ member

theorem ValuesLooped.revised (looped : ValuesLooped stored rawNames kept added loop)
    (storedPlain : ValuesValidated stored) :
    ValuesRevised stored rawNames (loop.values.map (markUnseenValue loop.seenNames)) := by
  have unmarked := map_markUnseenValue_assignment loop.seenNames loop.values
  exact {
    validated := looped.validated
    distinct := looped.distinct
    assignments := by
      rw [unmarked, looped.values, List.map_append, looped.assignments]
      exact List.prefix_append _ _
    names := by
      rw [map_name_eq_of_assignments unmarked, looped.values, List.map_append,
        map_name_eq_of_assignments looped.assignments, looped.addedNames, Registry.revised]
    indices := by
      refine ⟨added.length, ?_⟩
      rw [map_index_eq_of_assignments unmarked, looped.values, List.map_append,
        map_index_eq_of_assignments looped.assignments, looped.addedIndices]
    active := by
      intro name
      rw [mem_activeNames_markUnseen, looped.seen]
      constructor
      · rintro ⟨wasSeen, _⟩
        exact wasSeen
      · intro isRequested
        rcases List.mem_map.mp isRequested with ⟨rawName, member, rfl⟩
        exact ⟨isRequested, looped.exists_active member storedPlain⟩ }

theorem updateCategoricalValues_ok {parameter : ExperimentParameter} {valuesJson : List (JsonObject ⊕ String)}
    {after : List ExperimentCategoricalValue} (distinctNames : parameter.valueNames.Nodup)
    (storedPlain : ValuesValidated parameter.allCategoricalValues)
    (accepted : updateCategoricalValues parameter valuesJson = .ok after) :
    ValuesRevised parameter.allCategoricalValues (requestedValueNames valuesJson) after := by
  simp only [updateCategoricalValues, bind_eq_ok, pure_eq_ok] at accepted
  rcases accepted with ⟨loop, finished, _, _, rfl⟩
  rcases CategoricalLoop.foldlM_ok distinctNames storedPlain finished with ⟨kept, added, looped⟩
  exact looped.revised storedPlain

end Finished

theorem lt_nextEnumIndex {values : List ExperimentCategoricalValue} {index : Nat}
    (member : index ∈ values.map (·.enumIndex)) : index < nextEnumIndex values := by
  unfold nextEnumIndex
  cases largest : (values.map (·.enumIndex)).max? with
  | none =>
      rw [List.max?_eq_none_iff] at largest
      rw [largest] at member
      cases member
  | some largestIndex =>
      have bound := (List.max?_eq_some_iff.mp largest).2 index member
      exact Nat.lt_succ_of_le bound

section Revised

variable {stored after : List ExperimentCategoricalValue} {rawNames : List String}

/-- Enum indices are never used again. -/
theorem ValuesRevised.indices_nodup (revised : ValuesRevised stored rawNames after)
    (distinct : (stored.map (·.enumIndex)).Nodup) : (after.map (·.enumIndex)).Nodup := by
  rcases revised.indices with ⟨count, indices⟩
  rw [indices, List.nodup_append']
  refine ⟨distinct, List.nodup_range', ?_⟩
  intro index isStored isNew
  have below := lt_nextEnumIndex isStored
  have above := (List.mem_range'_1.mp isNew).1
  omega

/-- The values stay unique exactly if every requested name that is stored in stripped form is stored. -/
theorem ValuesRevised.unique_iff (revised : ValuesRevised stored rawNames after) (unique : ValuesUnique stored) :
    ValuesUnique after ↔
      ∀ rawName ∈ rawNames, strip rawName ∈ stored.map (·.name) → rawName ∈ stored.map (·.name) := by
  have newDistinct : ((rawNames.filter (· ∉ stored.map (·.name))).map strip).Nodup :=
    revised.distinct.sublist ((List.filter_sublist).map strip)
  rw [ValuesUnique, revised.names, Registry.revised_nodup_iff unique.1 newDistinct]
  exact and_iff_left (revised.indices_nodup unique.2)

theorem ValuesRevised.valuesValidated (revised : ValuesRevised stored rawNames after)
    (storedPlain : ValuesValidated stored) : ValuesValidated after := by
  intro value member
  have nameMember : value.name ∈ after.map (·.name) := List.mem_map_of_mem member
  rw [revised.names, Registry.mem_revised] at nameMember
  rcases nameMember with isStored | ⟨rawName, isRequested, _, same⟩
  · rcases List.mem_map.mp isStored with ⟨other, otherMember, same⟩
    rw [← same]
    exact storedPlain other otherMember
  · rw [← same]
    exact validateNameLength_stored (revised.validated rawName isRequested)

end Revised

/-! ### Experiments -/

def AllValuesUnique (experiment : ExperimentMeta) : Prop :=
  ∀ parameter ∈ experiment.allParametersUnsorted, ValuesUnique parameter.allCategoricalValues

def AllValuesValidated (experiment : ExperimentMeta) : Prop :=
  ∀ parameter ∈ experiment.allParametersUnsorted, ValuesValidated parameter.allCategoricalValues

/-- Every stored parameter keeps its position, and its values keep their names and indices. -/
def ValuesGrow (before after : ExperimentMeta) : Prop :=
  ∀ (position : Nat) (parameter : ExperimentParameter), before.allParametersUnsorted[position]? = some parameter →
    ∃ later, after.allParametersUnsorted[position]? = some later ∧ later.name = parameter.name ∧
      parameter.allCategoricalValues.map (·.assignment) <+: later.allCategoricalValues.map (·.assignment)

/-- No value of a parameter is lost, none changes its enum index, and no index belongs to another name. -/
def ValuesStable (before after : ExperimentMeta) : Prop :=
  ∀ (position : Nat) (parameter : ExperimentParameter), before.allParametersUnsorted[position]? = some parameter →
    ∃ later, after.allParametersUnsorted[position]? = some later ∧ later.name = parameter.name ∧
      ∀ value ∈ parameter.allCategoricalValues,
        (∃ same ∈ later.allCategoricalValues, same.name = value.name ∧ same.enumIndex = value.enumIndex) ∧
          ∀ other ∈ later.allCategoricalValues, value.name = other.name ↔ value.enumIndex = other.enumIndex

/-- The parameter in the position is what an update has made of the requested one: it is matched with the
    position, or it is among the new ones, which come behind the stored ones in order. -/
def ComesFrom (before : ExperimentMeta) (requested : List JsonObject) (json : JsonObject) (position : Nat) : Prop :=
  (json ∈ requested ∧ target before.parameterNames json = some position) ∨
    ∃ index, (requested.filter fun other => (target before.parameterNames other).isNone)[index]? = some json ∧
      position = before.allParametersUnsorted.length + index

/-- A parameter for which the body lists values has exactly these as its active ones. A create is read as
    an update of an experiment without parameters. -/
def ActiveValuesAsRequested (before : ExperimentMeta) (body : JsonObject) (after : ExperimentMeta) : Prop :=
  body.hasKey "parameters" = true → ∀ (json : JsonObject) (position : Nat), ComesFrom before (requestedParameters body) json position →
    ∀ parameter, after.allParametersUnsorted[position]? = some parameter →
      ∀ valuesJson, categoricalValuesType.read (json.get "categorical_values") = some valuesJson →
        ∀ name, name ∈ parameter.activeValueNames ↔ RequestedAsValidated (requestedValueNames valuesJson) name

/-- The stored parameter that a requested one is matched with. -/
def matchedParameter (before : ExperimentMeta) (json : JsonObject) : Option ExperimentParameter :=
  (target before.parameterNames json).bind fun position => before.allParametersUnsorted[position]?

/-- The body lists no value whose stripped name is stored for the parameter while the name is not. -/
def SettledValueNames (before : ExperimentMeta) (body : JsonObject) : Prop :=
  body.hasKey "parameters" = true → ∀ json ∈ requestedParameters body,
    ∀ parameter ∈ matchedParameter before json,
      ∀ valuesJson ∈ categoricalValuesType.read (json.get "categorical_values"),
        ∀ rawName ∈ requestedValueNames valuesJson,
          strip rawName ∈ parameter.valueNames → rawName ∈ parameter.valueNames

instance {before : ExperimentMeta} {body : JsonObject} : Decidable (SettledValueNames before body) :=
  inferInstanceAs (Decidable (_ → _))

theorem ValuesGrow.refl (experiment : ExperimentMeta) : ValuesGrow experiment experiment :=
  fun _ parameter stored => ⟨parameter, stored, rfl, List.prefix_refl _⟩

/-- Growth over two updates is growth. -/
theorem ValuesGrow.trans {first second third : ExperimentMeta} (early : ValuesGrow first second)
    (late : ValuesGrow second third) : ValuesGrow first third := by
  intro position parameter stored
  rcases early position parameter stored with ⟨between, storedBetween, sameName, grown⟩
  rcases late position between storedBetween with ⟨later, storedLater, sameNameLater, grownLater⟩
  exact ⟨later, storedLater, sameNameLater.trans sameName, grown.trans grownLater⟩

theorem ValuesGrow.stable {before after : ExperimentMeta} (grown : ValuesGrow before after)
    (unique : AllValuesUnique after) : ValuesStable before after := by
  intro position parameter stored
  rcases grown position parameter stored with ⟨later, storedLater, sameName, assignments⟩
  have uniqueLater := unique later (List.mem_of_getElem? storedLater)
  refine ⟨later, storedLater, sameName, ?_⟩
  intro value member
  have oldMember : value.assignment ∈ parameter.allCategoricalValues.map (·.assignment) :=
    List.mem_map_of_mem member
  constructor
  · rcases List.mem_map.mp (assignments.subset oldMember) with ⟨same, sameMember, equal⟩
    exact ⟨same, sameMember, congrArg Prod.fst equal, congrArg Prod.snd equal⟩
  · intro other otherMember
    apply Registry.same_key_iff_same_index assignments.subset _ _ oldMember (List.mem_map_of_mem otherMember)
    · rw [List.map_map]
      exact uniqueLater.1
    · rw [List.map_map]
      exact uniqueLater.2

theorem categoricalValuesForUpdate_ok {parameter : ExperimentParameter} {json : JsonObject}
    {values : List ExperimentCategoricalValue} (distinctNames : parameter.valueNames.Nodup)
    (storedPlain : ValuesValidated parameter.allCategoricalValues)
    (accepted : categoricalValuesForUpdate parameter json = .ok values) :
    (∃ valuesJson, categoricalValuesType.read (json.get "categorical_values") = some valuesJson ∧
        ValuesRevised parameter.allCategoricalValues (requestedValueNames valuesJson) values) ∨
      (categoricalValuesType.read (json.get "categorical_values") = none ∧
        values = parameter.allCategoricalValues) := by
  simp only [categoricalValuesForUpdate, bind_eq_ok] at accepted
  rcases accepted with ⟨read, opted, matched⟩
  cases read with
  | none =>
      rw [pure_eq_ok] at matched
      refine .inr ⟨?_, matched.symm⟩
      unfold getOptWithValidation at opted
      split at opted
      · rename_i isNull
        rw [isNull]
        rfl
      · rw [map_eq_ok] at opted
        rcases opted with ⟨_, _, impossible⟩
        cases impossible
  | some valuesJson =>
      exact .inl ⟨valuesJson, (getOptWithValidation_eq_some rfl).mp opted,
        updateCategoricalValues_ok distinctNames storedPlain matched⟩

/-- A requested parameter is determined by its name. -/
theorem ParametersRevised.json_eq {experiment : ExperimentMeta} {requested : List JsonObject}
    {revised : List ExperimentParameter} (loop : ParametersRevised experiment requested revised)
    {first second : JsonObject} (firstMember : first ∈ requested) (secondMember : second ∈ requested)
    (sameName : rawName? first = rawName? second) : first = second := by
  have asMap : countedNames requested = requested.map fun json => (rawName? json).getD "" := by
    rw [countedNames, ← List.filterMap_eq_map]
    apply List.filterMap_congr
    intro json member
    rcases Option.isSome_iff_exists.mp (loop.named json member) with ⟨rawName, named⟩
    simp [named]
  have distinct := loop.distinct
  rw [asMap] at distinct
  exact List.inj_on_of_nodup_map distinct firstMember secondMember (by rw [sameName])

/-- What has become of the values of a stored parameter. -/
theorem ParametersRevised.values_at {experiment : ExperimentMeta} {requested : List JsonObject}
    {revised : List ExperimentParameter} (loop : ParametersRevised experiment requested revised)
    {position : Nat} {parameter : ExperimentParameter}
    (stored : experiment.allParametersUnsorted[position]? = some parameter)
    (distinctNames : parameter.valueNames.Nodup)
    (storedPlain : ValuesValidated parameter.allCategoricalValues) :
    ∃ later, revised[position]? = some later ∧ later.name = parameter.name ∧
      ((∃ valuesJson, ValuesRevised parameter.allCategoricalValues (requestedValueNames valuesJson)
            later.allCategoricalValues ∧
          ∃ json ∈ requested, target experiment.parameterNames json = some position ∧
            categoricalValuesType.read (json.get "categorical_values") = some valuesJson) ∨
        ((∀ json ∈ requested, target experiment.parameterNames json = some position →
            categoricalValuesType.read (json.get "categorical_values") = none) ∧
          later.allCategoricalValues = parameter.allCategoricalValues)) := by
  rcases loop.kept position parameter stored with ⟨later, storedLater, revisedThere⟩
  refine ⟨later, storedLater, ?_⟩
  rcases revisedThere with ⟨json, member, matched, updated⟩ | ⟨unmatched, rfl⟩
  · rcases revisedParameter_ok updated with ⟨sameName, _, valuesRead⟩
    refine ⟨sameName, ?_⟩
    rcases categoricalValuesForUpdate_ok distinctNames storedPlain valuesRead with
      ⟨valuesJson, read, valuesRevised⟩ | ⟨notRead, same⟩
    · exact .inl ⟨valuesJson, valuesRevised, json, member, matched, read⟩
    · refine .inr ⟨?_, same⟩
      intro other otherMember otherMatched
      rw [loop.json_eq otherMember member (rawName_eq_of_target_eq otherMatched matched)]
      exact notRead
  · refine ⟨rfl, .inr ⟨?_, rfl⟩⟩
    intro json member matched
    exact absurd matched (unmatched json member)

@[simp] theorem markUnseen_values (requested : List JsonObject) (parameter : ExperimentParameter) :
    (markUnseen requested parameter).allCategoricalValues = parameter.allCategoricalValues := by
  unfold markUnseen
  split <;> rfl

@[simp] theorem markUnseen_name (requested : List JsonObject) (parameter : ExperimentParameter) :
    (markUnseen requested parameter).name = parameter.name := by
  unfold markUnseen
  split <;> rfl

section Step

variable {sections : OtherSections} {experiment updated : ExperimentMeta} {body : JsonObject}

theorem getElem?_map_markUnseen {requested : List JsonObject} {revised : List ExperimentParameter}
    {position : Nat} {later : ExperimentParameter} (atLater : revised[position]? = some later) :
    (revised.map (markUnseen requested))[position]? = some (markUnseen requested later) := by
  rw [List.getElem?_map, atLater, Option.map_some]

theorem update_valuesGrow (accepted : updateExperiment sections experiment body = .ok updated)
    (unique : AllValuesUnique experiment) (validated : AllValuesValidated experiment) :
    ValuesGrow experiment updated := by
  rcases (updateExperiment_ok accepted).2.2 with ⟨_, same⟩ | ⟨_, revised, loop, parametersAre⟩
  · intro position parameter stored
    rw [same]
    exact ⟨parameter, stored, rfl, List.prefix_refl _⟩
  · intro position parameter stored
    have isStored := List.mem_of_getElem? stored
    rcases loop.values_at stored (unique parameter isStored).1 (validated parameter isStored) with
      ⟨later, atLater, sameName, values⟩
    refine ⟨_, by rw [parametersAre]; exact getElem?_map_markUnseen atLater, by simp [sameName], ?_⟩
    rw [markUnseen_values]
    rcases values with ⟨_, valuesRevised, _⟩ | ⟨_, same⟩
    · exact valuesRevised.assignments
    · rw [same]

theorem update_allValuesValidated (accepted : updateExperiment sections experiment body = .ok updated)
    (unique : AllValuesUnique experiment) (validated : AllValuesValidated experiment) :
    AllValuesValidated updated := by
  intro parameter member
  rcases (updateExperiment_ok accepted).2.2 with ⟨_, same⟩ | ⟨_, revised, loop, parametersAre⟩
  · rw [same] at member
    exact validated parameter member
  · rw [parametersAre] at member
    rcases List.mem_map.mp member with ⟨later, laterMember, rfl⟩
    rw [markUnseen_values]
    rcases loop.stored_or_added laterMember with ⟨position, before, stored, atLater, _⟩ | ⟨json, _, _, created⟩
    · have isStored := List.mem_of_getElem? stored
      rcases loop.values_at stored (unique before isStored).1 (validated before isStored) with
        ⟨other, atOther, _, values⟩
      obtain rfl : later = other := Option.some.inj (atLater.symm.trans atOther)
      rcases values with ⟨_, valuesRevised, _⟩ | ⟨_, same⟩
      · exact valuesRevised.valuesValidated (validated before isStored)
      · rw [same]
        exact validated before isStored
    · rcases newParameter_ok created with ⟨_, _, _, _, createdValues⟩
      rcases createdValues.values with ⟨rawNames, valuesCreated, _⟩
      exact valuesCreated.valuesValidated

/-- One accepted update keeps the values unique exactly if it is settled. -/
theorem update_allValuesUnique_iff (accepted : updateExperiment sections experiment body = .ok updated)
    (unique : AllValuesUnique experiment) (validated : AllValuesValidated experiment) :
    AllValuesUnique updated ↔ SettledValueNames experiment body := by
  rcases (updateExperiment_ok accepted).2.2 with ⟨notSent, same⟩ | ⟨sent, revised, loop, parametersAre⟩
  · constructor
    · intro _ sent
      rw [notSent] at sent
      cases sent
    · intro _ parameter member
      rw [same] at member
      exact unique parameter member
  · constructor
    · intro uniqueAfter _ json member parameter isMatched valuesJson read
      rcases Option.bind_eq_some_iff.mp isMatched with ⟨position, matched, stored⟩
      rw [Option.mem_def] at read
      have isStored := List.mem_of_getElem? stored
      rcases loop.values_at stored (unique parameter isStored).1 (validated parameter isStored) with
        ⟨later, atLater, _, values⟩
      have laterUnique : ValuesUnique later.allCategoricalValues := by
        rw [← markUnseen_values (requestedParameters body) later]
        apply uniqueAfter
        rw [parametersAre]
        exact List.mem_map_of_mem (List.mem_of_getElem? atLater)
      rcases values with ⟨otherValues, valuesRevised, other, otherMember, otherMatched, otherRead⟩ | ⟨notRead, _⟩
      · have sameJson := loop.json_eq otherMember member (rawName_eq_of_target_eq otherMatched matched)
        rw [sameJson, read, Option.some.injEq] at otherRead
        subst otherRead
        exact (valuesRevised.unique_iff (unique parameter isStored)).mp laterUnique
      · rw [notRead json member matched] at read
        cases read
    · intro settled parameter member
      rw [parametersAre] at member
      rcases List.mem_map.mp member with ⟨later, laterMember, rfl⟩
      rw [markUnseen_values]
      rcases loop.stored_or_added laterMember with ⟨position, before, stored, atLater, _⟩ | ⟨json, _, _, created⟩
      · have isStored := List.mem_of_getElem? stored
        rcases loop.values_at stored (unique before isStored).1 (validated before isStored) with
          ⟨other, atOther, _, values⟩
        obtain rfl : later = other := Option.some.inj (atLater.symm.trans atOther)
        rcases values with ⟨valuesJson, valuesRevised, json, jsonMember, matched, read⟩ | ⟨_, same⟩
        · apply (valuesRevised.unique_iff (unique before isStored)).mpr
          have isMatched : before ∈ matchedParameter experiment json :=
            Option.bind_eq_some_iff.mpr ⟨position, matched, stored⟩
          exact settled sent json jsonMember before isMatched valuesJson read
        · rw [same]
          exact unique before isStored
      · rcases newParameter_ok created with ⟨_, _, _, _, createdValues⟩
        rcases createdValues.values with ⟨rawNames, valuesCreated, _⟩
        exact valuesCreated.unique

/-- After an accepted update the active values of a parameter are those it lists. -/
theorem update_activeValuesAsRequested (accepted : updateExperiment sections experiment body = .ok updated)
    (unique : AllValuesUnique experiment) (validated : AllValuesValidated experiment) :
    ActiveValuesAsRequested experiment body updated := by
  intro sent json position comesFrom parameter atPosition valuesJson read name
  rcases (updateExperiment_ok accepted).2.2 with ⟨notSent, _⟩ | ⟨_, revised, loop, parametersAre⟩
  · rw [notSent] at sent
    cases sent
  · rw [parametersAre, List.getElem?_map] at atPosition
    rcases Option.map_eq_some_iff.mp atPosition with ⟨later, atLater, rfl⟩
    change name ∈ activeNames (markUnseen (requestedParameters body) later).allCategoricalValues ↔ _
    rw [markUnseen_values]
    rcases comesFrom with ⟨member, matched⟩ | ⟨index, atIndex, rfl⟩
    · have stored := List.getElem?_eq_getElem (target_lt matched)
      have isStored := List.mem_of_getElem? stored
      rcases loop.values_at stored (unique _ isStored).1 (validated _ isStored) with ⟨other, atOther, _, values⟩
      obtain rfl : later = other := Option.some.inj (atLater.symm.trans atOther)
      rcases values with ⟨otherValues, valuesRevised, other, otherMember, otherMatched, otherRead⟩ | ⟨notRead, _⟩
      · have sameJson := loop.json_eq otherMember member (rawName_eq_of_target_eq otherMatched matched)
        rw [sameJson, read, Option.some.injEq] at otherRead
        subst otherRead
        rw [valuesRevised.active, requestedAsValidated_iff valuesRevised.validated]
      · rw [notRead json member matched] at read
        cases read
    · rw [← List.getElem?_drop] at atLater
      rcases List.getElem?_eq_some_iff.mp atIndex with ⟨inNew, isJson⟩
      rcases List.getElem?_eq_some_iff.mp atLater with ⟨inAdded, isLater⟩
      have created := loop.added.get inNew inAdded
      rw [List.get_eq_getElem, List.get_eq_getElem, isJson, isLater] at created
      rcases newParameter_ok created with ⟨_, _, _, _, createdValues⟩
      rcases createdValues.values with ⟨rawNames, valuesCreated, namesRead⟩
      rw [← namesRead valuesJson read]
      exact valuesCreated.activeNames_iff

end Step

section Create

variable {sections : OtherSections} {className : String} {body : JsonObject} {experiment : ExperimentMeta}

theorem create_values (accepted : createExperiment sections className body = .ok experiment)
    {parameter : ExperimentParameter} (member : parameter ∈ experiment.allParametersUnsorted) :
    ∃ rawNames, ValuesCreated rawNames parameter.allCategoricalValues := by
  have created := (setExperimentParameterListFromJson_ok (createExperiment_ok accepted)).created
  rcases exists_item created member with ⟨json, _, read⟩
  rcases setExperimentParameterFromJson_ok read with ⟨_, _, _, _, createdValues⟩
  rcases createdValues.values with ⟨rawNames, valuesCreated, _⟩
  exact ⟨rawNames, valuesCreated⟩

theorem target_nil (json : JsonObject) : target ({} : ExperimentMeta).parameterNames json = none := by
  cases named : rawName? json <;> simp [target, named, ExperimentMeta.parameterNames, Registry.lastIndexOf]

theorem create_activeValuesAsRequested
    (accepted : createExperiment sections className body = .ok experiment) :
    ActiveValuesAsRequested {} body experiment := by
  intro _ json position comesFrom parameter atPosition valuesJson read name
  have created := (setExperimentParameterListFromJson_ok (createExperiment_ok accepted)).created
  rcases comesFrom with ⟨_, matched⟩ | ⟨index, atIndex, rfl⟩
  · rw [target_nil] at matched
    cases matched
  · have allNew : ((requestedParameters body).filter fun other =>
        (target ({} : ExperimentMeta).parameterNames other).isNone) = requestedParameters body :=
      List.filter_eq_self.mpr fun other _ => by rw [target_nil]; rfl
    rw [allNew] at atIndex
    rw [List.length_nil, Nat.zero_add] at atPosition
    rcases List.getElem?_eq_some_iff.mp atIndex with ⟨inRequested, isJson⟩
    rcases List.getElem?_eq_some_iff.mp atPosition with ⟨inParameters, isParameter⟩
    have readThere := created.get inRequested inParameters
    rw [List.get_eq_getElem, List.get_eq_getElem, isJson, isParameter] at readThere
    rcases setExperimentParameterFromJson_ok readThere with ⟨_, _, _, _, createdValues⟩
    rcases createdValues.values with ⟨rawNames, valuesCreated, namesRead⟩
    rw [← namesRead valuesJson read]
    exact valuesCreated.activeNames_iff

end Create

/-- Over a run: in every experiment reached the values of every parameter are unique; of any two of them,
    the later one has the values of the earlier one unchanged; and the active values are the requested
    ones after the create and after every update. -/
structure ValuesKept (body : JsonObject) (experiment : ExperimentMeta)
    (updates : List (JsonObject × ExperimentMeta)) : Prop where
  unique : ∀ present ∈ Trace.reached experiment updates, AllValuesUnique present
  stable : (Trace.reached experiment updates).Pairwise ValuesStable
  created : ActiveValuesAsRequested {} body experiment
  updated : Trace.Every ActiveValuesAsRequested experiment updates

/-- What an accepted update does to unique and validated values: it is exact about the active ones, and
    loses none; and they stay unique exactly if it is settled. -/
theorem update_values {sections : OtherSections} {before after : ExperimentMeta} {body : JsonObject}
    (accepted : updateExperiment sections before body = .ok after)
    (good : AllValuesUnique before ∧ AllValuesValidated before) :
    AllValuesValidated after ∧ ValuesGrow before after ∧ ActiveValuesAsRequested before body after ∧
      (AllValuesUnique after ↔ SettledValueNames before body) :=
  ⟨update_allValuesValidated accepted good.1 good.2, update_valuesGrow accepted good.1 good.2,
    update_activeValuesAsRequested accepted good.1 good.2, update_allValuesUnique_iff accepted good.1 good.2⟩

/-- In a run of settled updates no value is lost and the active ones are the requested ones. -/
theorem values_of_settled {sections : OtherSections} {experiment : ExperimentMeta}
    {updates : List (JsonObject × ExperimentMeta)} (unique : AllValuesUnique experiment)
    (validated : AllValuesValidated experiment) (accepted : AcceptedUpdates sections experiment updates)
    (settled : Trace.Every (fun before body _ => SettledValueNames before body) experiment updates) :
    Trace.Every (fun before body after => ValuesGrow before after ∧ ActiveValuesAsRequested before body after)
      experiment updates := by
  have steps := Trace.every_iff
    (fun before body after =>
      (ValuesGrow before after ∧ ActiveValuesAsRequested before body after) ∧ AllValuesUnique after)
    (fun before body _ => SettledValueNames before body)
    (fun present => AllValuesUnique present ∧ AllValuesValidated present) ?_ ?_ ⟨unique, validated⟩ accepted
  · exact (steps.mpr settled).imp fun _ _ _ holds => holds.1
  · intro before body after good updated
    rcases update_values updated good with ⟨_, grown, active, uniqueIff⟩
    rw [← uniqueIff]
    exact and_iff_right ⟨grown, active⟩
  · intro before body after good updated holds
    exact ⟨holds.2, (update_values updated good).1⟩

/-- The values of categorical parameters are kept over a run exactly if no update lists a value whose
    stripped name is stored while the name itself is not. -/
theorem values_kept_iff {sections : OtherSections} {className : String} {body : JsonObject}
    {experiment : ExperimentMeta} {updates : List (JsonObject × ExperimentMeta)}
    (created : createExperiment sections className body = .ok experiment)
    (accepted : AcceptedUpdates sections experiment updates) :
    ValuesKept body experiment updates ↔
      Trace.Every (fun before body _ => SettledValueNames before body) experiment updates := by
  have unique : AllValuesUnique experiment := by
    intro parameter member
    rcases create_values created member with ⟨rawNames, valuesCreated⟩
    exact valuesCreated.unique
  have validated : AllValuesValidated experiment := by
    intro parameter member
    rcases create_values created member with ⟨rawNames, valuesCreated⟩
    exact valuesCreated.valuesValidated
  have uniqueSteps := Trace.every_iff (fun _ _ after => AllValuesUnique after)
    (fun before body _ => SettledValueNames before body)
    (fun present => AllValuesUnique present ∧ AllValuesValidated present)
    (fun _ _ _ good updated => (update_values updated good).2.2.2)
    (fun _ _ _ good updated uniqueAfter => ⟨uniqueAfter, (update_values updated good).1⟩)
    ⟨unique, validated⟩ accepted
  rw [Trace.every_state_iff] at uniqueSteps
  constructor
  · intro kept
    exact uniqueSteps.mp fun present member => kept.unique present (List.mem_cons_of_mem _ member)
  · intro settled
    have uniqueReached : ∀ present ∈ Trace.reached experiment updates, AllValuesUnique present :=
      List.forall_mem_cons.mpr ⟨unique, uniqueSteps.mpr settled⟩
    have every := values_of_settled unique validated accepted settled
    have growing : Trace.Every (fun before _ after => ValuesGrow before after) experiment updates :=
      every.imp fun _ _ _ holds => holds.1
    have grown : (Trace.reached experiment updates).Pairwise ValuesGrow :=
      Trace.every_pairwise (fun _ _ _ early late => early.trans late) growing
    refine ⟨uniqueReached, ?_, create_activeValuesAsRequested created, every.imp fun _ _ _ holds => holds.2⟩
    apply grown.imp_of_mem
    intro early late _ lateMember grows
    exact grows.stable (uniqueReached late lateMember)

/-- A categorical parameter `c` with the given values. -/
def requestOfValues (names : List String) : JsonObject :=
  [("name", .string "an experiment"),
    ("parameters", .array [.object [("name", .string "c"), ("type", .string "categorical"),
      ("categorical_values", .array (names.map .string))]])]

def updateOfValues (names : List String) : JsonObject :=
  [("parameters", .array [.object [("name", .string "c"),
    ("categorical_values", .array (names.map .string))]])]

def experimentOfValues (values : List ExperimentCategoricalValue) : ExperimentMeta :=
  { allParametersUnsorted := [{ name := "c", paramType := .categorical, allCategoricalValues := values }] }

theorem valuesAB_created : createExperiment permissiveSections "Experiment" (requestOfValues ["a", "b"]) =
    .ok (experimentOfValues [⟨"a", 1, false⟩, ⟨"b", 2, false⟩]) := by
  decide

/-- A run that gives up `a` for `c`, and takes it back instead of `b`. -/
theorem values_kept_revived :
    ValuesKept (requestOfValues ["a", "b"]) (experimentOfValues [⟨"a", 1, false⟩, ⟨"b", 2, false⟩])
      [(updateOfValues ["b", "c"], experimentOfValues [⟨"a", 1, true⟩, ⟨"b", 2, false⟩, ⟨"c", 3, false⟩]),
        (updateOfValues ["c", "a"], experimentOfValues [⟨"a", 1, false⟩, ⟨"b", 2, true⟩, ⟨"c", 3, false⟩])] := by
  have accepted : AcceptedUpdates permissiveSections (experimentOfValues [⟨"a", 1, false⟩, ⟨"b", 2, false⟩])
      [(updateOfValues ["b", "c"], experimentOfValues [⟨"a", 1, true⟩, ⟨"b", 2, false⟩, ⟨"c", 3, false⟩]),
        (updateOfValues ["c", "a"], experimentOfValues [⟨"a", 1, false⟩, ⟨"b", 2, true⟩, ⟨"c", 3, false⟩])] :=
    ⟨by decide, by decide, trivial⟩
  exact (values_kept_iff valuesAB_created accepted).mpr ⟨by decide, by decide, trivial⟩

/-- The update that lists ` a` and `b` is accepted, and `a` is stored with two enum indices. -/
theorem values_not_kept : ∃ body experiment updates,
    createExperiment permissiveSections "Experiment" body = .ok experiment ∧
      AcceptedUpdates permissiveSections experiment updates ∧ ¬ValuesKept body experiment updates := by
  refine ⟨requestOfValues ["a", "b"], experimentOfValues [⟨"a", 1, false⟩, ⟨"b", 2, false⟩],
    [(updateOfValues [" a", "b"],
      experimentOfValues [⟨"a", 1, false⟩, ⟨"b", 2, false⟩, ⟨"a", 3, false⟩])],
    valuesAB_created, ⟨by decide, trivial⟩, ?_⟩
  intro kept
  have unique := kept.unique _ (List.mem_cons_of_mem _ List.mem_cons_self) _ List.mem_cons_self
  exact absurd unique.1 (by decide)

end Zigopt.Experiment
