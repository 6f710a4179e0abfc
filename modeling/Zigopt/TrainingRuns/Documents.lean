/-
Module: Zigopt.TrainingRuns.Documents
Layer: Proofs
Purpose: What a member of the document of a run reads as after the jsonb functions have changed the document:
  a member is set, the nulls are stripped, the assignments are updated, and an update of the values and the
  state is written by replacing or by merging.
Main exports: lookup_setMember, membersOf_stripMembers, strip_merge, ReportedValue, finishingJson, Finished,
  createUpdateClause_of_setAll, finished_createUpdateClause
-/
import Mathlib.Data.List.Nodup
import Mathlib.Tactic.Common
import Zigopt.TrainingRuns.Create

namespace Zigopt.TrainingRuns

/-! ### Setting a member -/

theorem lookup_map_value {object : JsonObject} {key : String} {value : Json} (other : String) :
    (object.map fun member => if member.1 = key then (key, value) else member).lookup other =
      if other = key then (object.lookup other).map fun _ => value else object.lookup other := by
  induction object with
  | nil => simp
  | cons member rest inductionHypothesis =>
      rw [List.map_cons, List.lookup_cons, List.lookup_cons, inductionHypothesis]
      by_cases isMember : member.1 = key
      · rw [if_pos isMember, isMember]
        by_cases same : other = key
        · simp [same]
        · rw [if_neg same, if_neg same, beq_eq_false_iff_ne.mpr same]
      · rw [if_neg isMember]
        by_cases same : other = key
        · have apart : other ≠ member.1 := fun isOther => isMember (isOther.symm.trans same)
          rw [if_pos same, if_pos same, beq_eq_false_iff_ne.mpr apart]
        · rw [if_neg same, if_neg same]

/-- Setting one member changes no other. -/
theorem lookup_setMember (object : JsonObject) (key : String) (value : Json) (other : String) :
    (setMember object key value).lookup other = if other = key then some value else object.lookup other := by
  rw [setMember]
  split
  · rename_i stored
    rw [lookup_map_value]
    split
    · rename_i same
      obtain ⟨before, found⟩ := Option.isSome_iff_exists.mp stored
      rw [same, found, Option.map_some]
    · rfl
  · rename_i missing
    have unfound : object.lookup key = none := by
      rw [Bool.not_eq_true, JsonObject.hasKey, Option.isSome_eq_false_iff, Option.isNone_iff_eq_none] at missing
      exact missing
    rw [List.lookup_append]
    by_cases same : other = key
    · rw [if_pos same, same, unfound, Option.none_or, List.lookup_cons_self]
    · rw [if_neg same, List.lookup_cons, beq_eq_false_iff_ne.mpr same]
      exact Option.or_none

/-- The member that was set is read back. -/
theorem lookup_setMember_self (object : JsonObject) (key : String) (value : Json) :
    (setMember object key value).lookup key = some value := by
  rw [lookup_setMember, if_pos rfl]

/-- The other members are as they were. -/
theorem lookup_setMember_of_ne {object : JsonObject} {key other : String} (value : Json) (apart : other ≠ key) :
    (setMember object key value).lookup other = object.lookup other := by
  rw [lookup_setMember, if_neg apart]

theorem keys_setMember (object : JsonObject) (key : String) (value : Json) :
    (setMember object key value).map Prod.fst =
      object.map Prod.fst ++ if object.hasKey key then [] else [key] := by
  rw [setMember]
  split
  · rw [List.append_nil, List.map_map]
    apply List.map_congr_left
    intro member _
    dsimp only [Function.comp]
    split
    · rename_i same
      exact same.symm
    · rfl
  · rw [List.map_append, List.map_singleton]

theorem nodup_setMember {object : JsonObject} (distinct : (object.map Prod.fst).Nodup) (key : String) (value : Json) :
    ((setMember object key value).map Prod.fst).Nodup := by
  rw [keys_setMember]
  split
  · rw [List.append_nil]
    exact distinct
  · rename_i missing
    rw [List.nodup_append]
    refine ⟨distinct, List.nodup_singleton key, ?_⟩
    intro other isKey new isNew same
    rw [List.mem_singleton] at isNew
    obtain ⟨⟨stored, value⟩, member, isStored⟩ := List.mem_map.mp isKey
    have isKey : stored = key := isStored.trans (same.trans isNew)
    rw [isKey] at member
    rw [JsonObject.hasKey, JsonObject.lookup_of_mem distinct member] at missing
    exact missing rfl

theorem membersOf_congr {data other : JsonObject} {key : String} (same : data.lookup key = other.lookup key) :
    membersOf data key = membersOf other key := by
  rw [membersOf, JsonObject.get, same, membersOf, JsonObject.get]

theorem membersOf_of_lookup {data members : JsonObject} {key : String}
    (found : data.lookup key = some (.object members)) : membersOf data key = members := by
  rw [membersOf, JsonObject.get, found, Option.getD_some]

theorem membersOf_of_missing {data : JsonObject} {key : String} (missing : data.lookup key = none) :
    membersOf data key = [] := by
  rw [membersOf, JsonObject.get, missing, Option.getD_none]

/-! ### Stripping the nulls -/

theorem stripMembers_cons_of_ne {key : String} {value : Json} (notNull : value ≠ .null) (rest : JsonObject) :
    stripMembers ((key, value) :: rest) = (key, jsonbStripNulls value) :: stripMembers rest := by
  cases value with
  | null => exact absurd rfl notNull
  | boolean | number | string | array | object => simp [stripMembers]

theorem keys_stripMembers_sublist (members : JsonObject) :
    ((stripMembers members).map Prod.fst).Sublist (members.map Prod.fst) := by
  induction members with
  | nil => simp [stripMembers]
  | cons member rest inductionHypothesis =>
      obtain ⟨key, value⟩ := member
      by_cases isNull : value = .null
      · rw [isNull, stripMembers, List.map_cons]
        exact inductionHypothesis.cons _
      · rw [stripMembers_cons_of_ne isNull, List.map_cons, List.map_cons]
        exact inductionHypothesis.cons_cons _

theorem nodup_stripMembers {members : JsonObject} (distinct : (members.map Prod.fst).Nodup) :
    ((stripMembers members).map Prod.fst).Nodup :=
  distinct.sublist (keys_stripMembers_sublist members)

/-- A member that is null is missing afterwards, and any other one is stripped itself. -/
def strippedMember : Json → Option Json
  | .null => none
  | value => some (jsonbStripNulls value)

theorem strippedMember_of_ne {value : Json} (notNull : value ≠ .null) :
    strippedMember value = some (jsonbStripNulls value) := by
  cases value with
  | null => exact absurd rfl notNull
  | boolean | number | string | array | object => rfl

theorem lookup_stripMembers {members : JsonObject} (distinct : (members.map Prod.fst).Nodup) (key : String) :
    (stripMembers members).lookup key = (members.lookup key).bind strippedMember := by
  induction members with
  | nil => simp [stripMembers]
  | cons member rest inductionHypothesis =>
      obtain ⟨other, value⟩ := member
      rw [List.map_cons, List.nodup_cons] at distinct
      have later := inductionHypothesis distinct.2
      by_cases isNull : value = .null
      · rw [isNull, stripMembers, later, List.lookup_cons]
        by_cases same : key = other
        · have unfound : rest.lookup other = none := by
            rw [List.lookup_eq_none_iff]
            intro member isMember
            rw [bne_iff_ne]
            intro same
            exact distinct.1 (List.mem_map.mpr ⟨member, isMember, same.symm⟩)
          rw [same, unfound, beq_self_eq_true]
          rfl
        · rw [beq_eq_false_iff_ne.mpr same]
      · rw [stripMembers_cons_of_ne isNull, List.lookup_cons, List.lookup_cons, later]
        by_cases same : key = other
        · rw [same, beq_self_eq_true, Option.bind_some, strippedMember_of_ne isNull]
        · rw [beq_eq_false_iff_ne.mpr same]

/-- Stripping the nulls of a document strips those of each of its members. -/
theorem membersOf_stripMembers {data : JsonObject} (distinct : (data.map Prod.fst).Nodup) (key : String) :
    membersOf (stripMembers data) key = stripMembers (membersOf data key) := by
  rw [membersOf, JsonObject.get, lookup_stripMembers distinct, membersOf, JsonObject.get]
  cases data.lookup key with
  | none => simp [stripMembers]
  | some value =>
      cases value with
      | object members => simp [strippedMember, jsonbStripNulls]
      | null | boolean | number | string | array => simp [strippedMember, jsonbStripNulls, stripMembers]

theorem numberOf_stripMembers {data : JsonObject} (distinct : (data.map Prod.fst).Nodup) (key : String) :
    numberOf (stripMembers data) key = numberOf data key := by
  rw [numberOf, JsonObject.get, lookup_stripMembers distinct, numberOf, JsonObject.get]
  cases data.lookup key with
  | none => rfl
  | some value =>
      cases value with
      | null | boolean | number | string | array | object => simp [strippedMember, jsonbStripNulls]

theorem stateOf_stripMembers {data : JsonObject} (distinct : (data.map Prod.fst).Nodup) :
    stateOf (stripMembers data) = stateOf data := by
  rw [stateOf, numberOf_stripMembers distinct, stateOf]

theorem length_stripMembers_le (members : JsonObject) : (stripMembers members).length ≤ members.length := by
  have sublist := (keys_stripMembers_sublist members).length_le
  rwa [List.length_map, List.length_map] at sublist

/-- A document without nulls, member by member. -/
theorem stripMembers_eq_self_iff {members : JsonObject} :
    stripMembers members = members ↔
      ∀ member ∈ members, member.2 ≠ .null ∧ jsonbStripNulls member.2 = member.2 := by
  induction members with
  | nil => simp [stripMembers]
  | cons member rest inductionHypothesis =>
      obtain ⟨key, value⟩ := member
      rw [List.forall_mem_cons, ← inductionHypothesis]
      by_cases isNull : value = .null
      · apply iff_of_false
        · intro same
          rw [isNull, stripMembers] at same
          have tooLong := length_stripMembers_le rest
          rw [same, List.length_cons] at tooLong
          omega
        · intro stripped
          exact stripped.1.1 isNull
      · rw [stripMembers_cons_of_ne isNull, List.cons.injEq, Prod.mk.injEq]
        constructor
        · rintro ⟨⟨_, same⟩, sameRest⟩
          exact ⟨⟨isNull, same⟩, sameRest⟩
        · rintro ⟨⟨_, same⟩, sameRest⟩
          exact ⟨⟨rfl, same⟩, sameRest⟩

/-- Merging documents without nulls makes no null. -/
theorem strip_merge {first second : JsonObject} (firstStripped : stripMembers first = first)
    (secondStripped : stripMembers second = second) :
    stripMembers (JsonObject.merge first second) = JsonObject.merge first second := by
  rw [stripMembers_eq_self_iff] at firstStripped secondStripped ⊢
  intro member isMember
  rcases List.mem_append.mp isMember with inFirst | inSecond
  · obtain ⟨⟨key, value⟩, original, rfl⟩ := List.mem_map.mp inFirst
    dsimp only
    cases found : second.lookup key with
    | none =>
        rw [Option.getD_none]
        exact firstStripped _ original
    | some replacement =>
        rw [Option.getD_some]
        exact secondStripped _ (JsonObject.mem_of_lookup found)
  · exact secondStripped member (List.mem_filter.mp inSecond).1

/-! ### Values and a state that finish a run -/

/-- A value of a request; its standard deviation is optional. -/
structure ReportedValue where
  value : ℚ
  valueStddev : Option ℚ := none
  deriving DecidableEq, Repr

namespace ReportedValue

/-- `parse_values`: the variance of a value without a deviation is an explicit null. -/
def json (reported : ReportedValue) : Json :=
  .object [("v", .number reported.value),
    ("r", (reported.valueStddev.map fun deviation => Json.number (deviation * deviation)).getD .null)]

/-- The message that is read back. -/
def stored (reported : ReportedValue) : TrainingRunValue where
  value := reported.value
  valueVar := (reported.valueStddev.map fun deviation => deviation * deviation).getD 0

end ReportedValue

abbrev ReportedValues := List (String × ReportedValue)

/-- The member of the document that holds the reported values. -/
def valuesJson (values : ReportedValues) : JsonObject :=
  values.map fun member => (member.1, member.2.json)

/-- `parse_state`, of the enumeration of the states. -/
def stateNumber : TrainingRunState → ℚ
  | .active => 0
  | .completed => 1
  | .failed => 2

/-- The data of a request that sends values and a state. -/
def finishingJson (values : ReportedValues) (state : TrainingRunState) : JsonObject :=
  [("v", .object (valuesJson values)), ("s", .number (stateNumber state))]

/-- Data with a state and values. -/
structure Finished (values : ReportedValues) (state : TrainingRunState) (data : JsonObject) : Prop where
  state : stateOf data = state
  values : ∀ name, valueNamed data name = (values.lookup name).map ReportedValue.stored

theorem stateOf_of_lookup {data : JsonObject} {state : TrainingRunState}
    (found : data.lookup "s" = some (.number (stateNumber state))) : stateOf data = state := by
  have isNumber : numberOf data "s" = stateNumber state := by
    rw [numberOf, JsonObject.get, found, Option.getD_some]
  rw [stateOf, isNumber]
  cases state <;> decide

theorem lookup_valuesJson (values : ReportedValues) (name : String) :
    (valuesJson values).lookup name = (values.lookup name).map ReportedValue.json := by
  induction values with
  | nil => rfl
  | cons member rest inductionHypothesis =>
      rw [valuesJson, List.map_cons, List.lookup_cons, List.lookup_cons]
      cases name == member.1 with
      | true => rfl
      | false => exact inductionHypothesis

theorem valueNamed_of_lookup {data members : JsonObject} {name : String}
    (found : data.lookup "v" = some (.object members)) {reported : Option ReportedValue}
    (value : members.lookup name = reported.map ReportedValue.json) :
    valueNamed data name = reported.map ReportedValue.stored := by
  rw [valueNamed, membersOf_of_lookup found, value]
  cases reported with
  | none => rfl
  | some reported =>
      obtain ⟨number, deviation⟩ := reported
      cases deviation <;> rfl

/-- Stripping keeps the values: a null variance reads as 0, as a missing one does. -/
theorem valueNamed_stripMembers {data members : JsonObject} (distinct : (data.map Prod.fst).Nodup)
    (found : data.lookup "v" = some (.object members)) (membersDistinct : (members.map Prod.fst).Nodup)
    {name : String} {reported : Option ReportedValue}
    (value : members.lookup name = reported.map ReportedValue.json) :
    valueNamed (stripMembers data) name = reported.map ReportedValue.stored := by
  rw [valueNamed, membersOf_stripMembers distinct, membersOf_of_lookup found,
    lookup_stripMembers membersDistinct, value]
  cases reported with
  | none => rfl
  | some reported =>
      obtain ⟨number, deviation⟩ := reported
      cases deviation with
      | none =>
          simp [ReportedValue.json, ReportedValue.stored, strippedMember, jsonbStripNulls, stripMembers, numberOf,
            JsonObject.get, List.lookup_cons]
      | some deviation =>
          simp [ReportedValue.json, ReportedValue.stored, strippedMember, jsonbStripNulls, stripMembers, numberOf,
            JsonObject.get, List.lookup_cons]

/-! ### The update that writes them -/

/-- An object with another value of one member. -/
structure SetAt (members : JsonObject) (key : String) (value : Json) (after : JsonObject) : Prop where
  here : after.lookup key = some value
  elsewhere : ∀ other, other ≠ key → after.lookup other = members.lookup other
  distinct : (members.map Prod.fst).Nodup → (after.map Prod.fst).Nodup

theorem setAt_setMember (members : JsonObject) (key : String) (value : Json) :
    SetAt members key value (setMember members key value) where
  here := lookup_setMember_self members key value
  elsewhere := fun _ apart => lookup_setMember_of_ne value apart
  distinct := fun distinct => nodup_setMember distinct key value

theorem SetAt.trans {members between after : JsonObject} {key : String} {first second : Json}
    (early : SetAt members key first between) (late : SetAt between key second after) :
    SetAt members key second after where
  here := late.here
  elsewhere := fun other apart => (late.elsewhere other apart).trans (early.elsewhere other apart)
  distinct := fun distinct => late.distinct (early.distinct distinct)

def setAll (document : Json) (settings : List (List String × Json)) : Json :=
  settings.foldl (fun document setting => jsonbSet document setting.1 setting.2) document

/-- A setting with the path that the database reads for it. -/
def rendered (setting : List String × Json) : List String × Json := (jsonPathKeys setting.1, setting.2)

/-- A key that the database reads as it is. -/
def isPrintableKey (key : String) : Bool := Db.isPrintableKey (.name key)

theorem jsonPathKeys_eq_self {path : List String} (printable : ∀ key ∈ path, isPrintableKey key = true) :
    jsonPathKeys path = path := by
  rw [jsonPathKeys]
  conv_rhs => rw [← List.map_id path]
  exact List.map_congr_left fun key member => (Db.readText_eq_iff (.name key)).mpr (printable key member)

theorem map_rendered {settings : List (List String × Json)}
    (printable : ∀ setting ∈ settings, ∀ key ∈ setting.1, isPrintableKey key = true) :
    settings.map rendered = settings := by
  conv_rhs => rw [← List.map_id settings]
  apply List.map_congr_left
  intro setting isSetting
  rw [rendered, jsonPathKeys_eq_self (printable setting isSetting), id]

/-- The clause leaves what the rendered settings leave, without its nulls. -/
theorem createUpdateClause_of_setAll {mergeObjects : Bool} {json data after : JsonObject}
    (isAfter : setAll (.object data)
      ((getMembersPathsAndValues mergeObjects [] (some (.object data)) json).map rendered) = .object after) :
    createUpdateClause mergeObjects json data = stripMembers after := by
  rw [setAll, List.foldl_map] at isAfter
  rw [createUpdateClause]
  dsimp only [rendered] at isAfter
  rw [isAfter]

/-- A setting one level further down. -/
def under (key : String) (setting : List String × Json) : List String × Json := (key :: setting.1, setting.2)

theorem jsonbSet_under {members : JsonObject} {key : String} {child : Json}
    (found : members.lookup key = some child) {setting : List String × Json} (inside : setting.1 ≠ []) :
    jsonbSet (.object members) (under key setting).1 (under key setting).2 =
      .object (setMember members key (jsonbSet child setting.1 setting.2)) := by
  obtain ⟨path, value⟩ := setting
  cases path with
  | nil => exact absurd rfl inside
  | cons next rest =>
      rw [under, jsonbSet, found]
      exact List.cons_ne_nil _ _

/-- Settings below one member change this member only. -/
theorem setAll_under {settings : List (List String × Json)} (inside : ∀ setting ∈ settings, setting.1 ≠ [])
    {members : JsonObject} {key : String} {child : Json} (found : members.lookup key = some child) :
    ∃ after, setAll (.object members) (settings.map (under key)) = .object after ∧
      SetAt members key (setAll child settings) after := by
  induction settings generalizing members child with
  | nil => exact ⟨members, rfl, found, fun _ _ => rfl, id⟩
  | cons setting rest inductionHypothesis =>
      rw [List.forall_mem_cons] at inside
      have set := setAt_setMember members key (jsonbSet child setting.1 setting.2)
      obtain ⟨after, isAfter, later⟩ := inductionHypothesis inside.2 set.here
      refine ⟨after, ?_, set.trans later⟩
      rw [List.map_cons, setAll, List.foldl_cons, jsonbSet_under found inside.1]
      exact isAfter

/-- What a merge sets for a value that the run did not have. -/
def settingsOf (member : String × ReportedValue) : List (List String × Json) :=
  ([member.1], .object []) ::
    [(["v"], Json.number member.2.value),
      (["r"], (member.2.valueStddev.map fun deviation => Json.number (deviation * deviation)).getD .null)].map
      (under member.1)

theorem settingsOf_inside {member : String × ReportedValue} {setting : List String × Json}
    (isSetting : setting ∈ settingsOf member) : setting.1 ≠ [] := by
  rw [settingsOf, List.mem_cons] at isSetting
  rcases isSetting with rfl | below
  · exact List.cons_ne_nil _ _
  · obtain ⟨inner, _, rfl⟩ := List.mem_map.mp below
    exact List.cons_ne_nil _ _

theorem setAll_settingsOf (members : JsonObject) (member : String × ReportedValue) :
    ∃ after, setAll (.object members) (settingsOf member) = .object after ∧
      SetAt members member.1 member.2.json after := by
  have set := setAt_setMember members member.1 (.object [])
  have inside : ∀ setting ∈ [(["v"], Json.number member.2.value),
      (["r"], (member.2.valueStddev.map fun deviation => Json.number (deviation * deviation)).getD .null)],
      setting.1 ≠ [] := by
    intro setting isSetting
    rcases List.mem_pair.mp isSetting with rfl | rfl <;> exact List.cons_ne_nil _ _
  obtain ⟨after, isAfter, later⟩ := setAll_under inside set.here
  refine ⟨after, ?_, set.trans later⟩
  rw [settingsOf, setAll, List.foldl_cons, jsonbSet]
  exact isAfter

theorem setAll_append (document : Json) (first second : List (List String × Json)) :
    setAll document (first ++ second) = setAll (setAll document first) second :=
  List.foldl_append

theorem setAll_values {values : ReportedValues} (distinct : (values.map Prod.fst).Nodup) {members : JsonObject}
    (membersDistinct : (members.map Prod.fst).Nodup) :
    ∃ after, setAll (.object members) (values.flatMap settingsOf) = .object after ∧ (after.map Prod.fst).Nodup ∧
      ∀ name, after.lookup name = ((values.lookup name).map ReportedValue.json).or (members.lookup name) := by
  induction values generalizing members with
  | nil => exact ⟨members, rfl, membersDistinct, fun name => rfl⟩
  | cons member rest inductionHypothesis =>
      rw [List.map_cons, List.nodup_cons] at distinct
      obtain ⟨between, isBetween, set⟩ := setAll_settingsOf members member
      obtain ⟨after, isAfter, afterDistinct, later⟩ :=
        inductionHypothesis distinct.2 (set.distinct membersDistinct)
      refine ⟨after, ?_, afterDistinct, ?_⟩
      · rw [List.flatMap_cons, setAll_append, isBetween]
        exact isAfter
      · intro name
        rw [later, List.lookup_cons]
        by_cases same : name = member.1
        · have unfound : rest.lookup member.1 = none := by
            rw [List.lookup_eq_none_iff]
            intro other isOther
            rw [bne_iff_ne]
            intro sameName
            exact distinct.1 (List.mem_map.mpr ⟨other, isOther, sameName.symm⟩)
          rw [same, unfound, set.here, beq_self_eq_true]
          rfl
        · rw [set.elsewhere name same, beq_eq_false_iff_ne.mpr same]

theorem paths_values (values : ReportedValues) :
    getMembersPathsAndValues true ["v"] none (valuesJson values) =
      (values.flatMap settingsOf).map (under "v") := by
  induction values with
  | nil => rfl
  | cons member rest inductionHypothesis =>
      rw [List.flatMap_cons, List.map_append, ← inductionHypothesis]
      obtain ⟨name, number, deviation⟩ := member
      cases deviation <;> rfl

/-- The document with the values and the state, before the nulls go. -/
theorem setAll_finishingJson (mergeObjects : Bool) {values : ReportedValues} (distinct : (values.map Prod.fst).Nodup)
    (state : TrainingRunState) {data : JsonObject} (dataDistinct : (data.map Prod.fst).Nodup)
    (withoutValues : data.lookup "v" = none) :
    ∃ after members, setAll (.object data)
        (getMembersPathsAndValues mergeObjects [] (some (.object data)) (finishingJson values state)) =
          .object after ∧
      (after.map Prod.fst).Nodup ∧
      after.lookup "v" = some (.object members) ∧
      (members.map Prod.fst).Nodup ∧
      (∀ name, members.lookup name = (values.lookup name).map ReportedValue.json) ∧
      after.lookup "s" = some (.number (stateNumber state)) ∧
      ∀ key, key ≠ "v" → key ≠ "s" → after.lookup key = data.lookup key := by
  have written : ∃ between members, setAll (.object data)
        (getJsonPathsAndValues mergeObjects ["v"] (storedAt (some (.object data)) "v") (.object (valuesJson values))) =
          .object between ∧
      SetAt data "v" (.object members) between ∧ (members.map Prod.fst).Nodup ∧
      ∀ name, members.lookup name = (values.lookup name).map ReportedValue.json := by
    cases mergeObjects with
    | false =>
        refine ⟨_, valuesJson values, ?_, setAt_setMember data "v" _, ?_, lookup_valuesJson values⟩
        · rw [getJsonPathsAndValues, if_neg Bool.false_ne_true, setAll, List.foldl_cons, jsonbSet]
          rfl
        · rw [valuesJson, List.map_map]
          exact distinct
    | true =>
        have set := setAt_setMember data "v" (.object [])
        have emptyDistinct : (([] : JsonObject).map Prod.fst).Nodup := List.nodup_nil
        obtain ⟨members, isMembers, membersDistinct, found⟩ := setAll_values distinct emptyDistinct
        have inside : ∀ setting ∈ values.flatMap settingsOf, setting.1 ≠ [] := by
          intro setting isSetting
          obtain ⟨member, _, ofMember⟩ := List.mem_flatMap.mp isSetting
          exact settingsOf_inside ofMember
        obtain ⟨between, isBetween, later⟩ := setAll_under inside set.here
        rw [isMembers] at later
        refine ⟨between, members, ?_, set.trans later, membersDistinct, ?_⟩
        · rw [getJsonPathsAndValues, if_pos rfl, storedAt, withoutValues, Option.getD_none, paths_values, setAll,
            List.foldl_cons, jsonbSet]
          exact isBetween
        · intro name
          rw [found, List.lookup_nil, Option.or_none]
  obtain ⟨between, members, isBetween, set, membersDistinct, found⟩ := written
  have stateSet := setAt_setMember between "s" (.number (stateNumber state))
  refine ⟨_, members, ?_, stateSet.distinct (set.distinct dataDistinct), ?_, membersDistinct, found, stateSet.here,
    ?_⟩
  · rw [finishingJson, getMembersPathsAndValues, setAll_append, List.nil_append, isBetween, getMembersPathsAndValues,
      getJsonPathsAndValues, getMembersPathsAndValues, List.append_nil, setAll, List.foldl_cons, List.nil_append,
      jsonbSet]
    rfl
  · rw [stateSet.elsewhere "v" (by decide), set.here]
  · intro key notValues notState
    rw [stateSet.elsewhere key notState, set.elsewhere key notValues]

/-- The paths of the values and the state, if a merge names no value whose name is rendered as another one. -/
theorem printable_finishingJson {mergeObjects : Bool} {values : ReportedValues}
    (printable : mergeObjects = true → ∀ member ∈ values, isPrintableKey member.1 = true) (state : TrainingRunState)
    {stored : JsonObject} (withoutValues : stored.lookup "v" = none) :
    ∀ setting ∈ getMembersPathsAndValues mergeObjects [] (some (.object stored)) (finishingJson values state),
      ∀ key ∈ setting.1, isPrintableKey key = true := by
  have isValue : isPrintableKey "v" = true := by decide
  have isVariance : isPrintableKey "r" = true := by decide
  have isState : isPrintableKey "s" = true := by decide
  rw [finishingJson, getMembersPathsAndValues, getMembersPathsAndValues, getMembersPathsAndValues,
    getJsonPathsAndValues.eq_4, List.append_nil, List.nil_append, List.nil_append, List.forall_mem_append,
    List.forall_mem_singleton, List.forall_mem_singleton]
  refine ⟨?_, isState⟩
  cases mergeObjects with
  | false =>
      rw [getJsonPathsAndValues, if_neg Bool.false_ne_true, List.forall_mem_singleton, List.forall_mem_singleton]
      exact isValue
  | true =>
      rw [getJsonPathsAndValues, if_pos rfl, storedAt, withoutValues, paths_values, List.forall_mem_cons,
        List.forall_mem_singleton, List.forall_mem_map]
      refine ⟨isValue, ?_⟩
      intro setting isSetting
      obtain ⟨member, isMember, ofMember⟩ := List.mem_flatMap.mp isSetting
      have isName := printable rfl member isMember
      rw [settingsOf, List.mem_cons, List.map_cons, List.map_singleton, List.mem_pair] at ofMember
      rcases ofMember with rfl | rfl | rfl <;> simp [under, isValue, isVariance, isName]

/-- An update with values and a state leaves data with these, and everything else as it was. -/
theorem finished_createUpdateClause {mergeObjects : Bool} {values : ReportedValues}
    (distinct : (values.map Prod.fst).Nodup)
    (printable : mergeObjects = true → ∀ member ∈ values, isPrintableKey member.1 = true) (state : TrainingRunState) {data : JsonObject}
    (dataDistinct : (data.map Prod.fst).Nodup) (withoutValues : data.lookup "v" = none) :
    Finished values state (createUpdateClause mergeObjects (finishingJson values state) data) ∧
      ∀ key, key ≠ "v" → key ≠ "s" →
        membersOf (createUpdateClause mergeObjects (finishingJson values state) data) key =
          stripMembers (membersOf data key) := by
  obtain ⟨after, members, isAfter, afterDistinct, valuesFound, membersDistinct, found, stateFound, elsewhere⟩ :=
    setAll_finishingJson mergeObjects distinct state dataDistinct withoutValues
  have isClause : createUpdateClause mergeObjects (finishingJson values state) data = stripMembers after := by
    apply createUpdateClause_of_setAll
    rw [map_rendered (printable_finishingJson printable state withoutValues)]
    exact isAfter
  rw [isClause]
  constructor
  · constructor
    · rw [stateOf_stripMembers afterDistinct]
      exact stateOf_of_lookup stateFound
    · intro name
      exact valueNamed_stripMembers afterDistinct valuesFound membersDistinct (found name)
  · intro key notValues notState
    rw [membersOf_stripMembers afterDistinct, membersOf_congr (elsewhere key notValues notState)]

end Zigopt.TrainingRuns
