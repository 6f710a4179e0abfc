/-
Module: Zigopt.TrainingRuns.StoredLeaves
Layer: Proofs
Purpose: The leaves that a run stores, as the paths by which the API calls them, and that the counting queries answer
  for each leaf the number of runs that store it.
Main exports: storedLeaves, FieldDetails.HasLeaf, extractInfo_counts
-/
import Mathlib.Data.List.ReduceOption
import Zigopt.Lib.Raising
import Zigopt.TrainingRuns.DefinedFields

namespace Zigopt.TrainingRuns

open DottedText

/-! ### Leaves -/

/-- The members of an object. -/
def jsonMembers : Option Json → JsonObject
  | some (.object members) => members
  | _ => []

/-- The paths of what the run stores of the field. -/
def FieldDetails.leavesOf (field : FieldDetails) (run : StoredRun) : List (List String) :=
  match field.type with
  | .primitive column => if column.isNotNull run then [[field.apiName]] else []
  | .protobufPrimitive jsonName => if (run.trainingRunData.lookup jsonName).isSome then [[field.apiName]] else []
  | .protobufStruct jsonName =>
      (jsonMembers (run.trainingRunData.lookup jsonName)).map fun member => [field.apiName, member.1]
  | .protobufObject jsonName subFields =>
      (subFields.filter fun subField =>
          (jsonItem (run.trainingRunData.lookup jsonName) subField.jsonName).isSome).map fun subField =>
        [field.apiName, subField.name]
  | .protobufMapOfObject jsonName subFields =>
      (jsonMembers (run.trainingRunData.lookup jsonName)).flatMap fun member =>
        (subFields.filter fun subField => (jsonItem (some member.2) subField.jsonName).isSome).map fun subField =>
          [field.apiName, member.1, subField.name]

/-- The paths of all leaves that the fields of the API count in a run. -/
def storedLeaves (run : StoredRun) : List (List String) :=
  trainingRunApiFields.flatMap fun field => field.leavesOf run

/-- The path is one of the field. -/
def FieldDetails.HasLeaf (field : FieldDetails) (leaf : List String) : Prop :=
  match field.type with
  | .primitive _ => leaf = [field.apiName]
  | .protobufPrimitive _ => leaf = [field.apiName]
  | .protobufStruct _ => ∃ key, leaf = [field.apiName, key]
  | .protobufObject _ subFields => ∃ subField ∈ subFields, leaf = [field.apiName, subField.name]
  | .protobufMapOfObject _ subFields => ∃ key, ∃ subField ∈ subFields, leaf = [field.apiName, key, subField.name]

/-- The number of runs that store the leaf. -/
def countOf (runs : List StoredRun) (leaf : List String) : ℕ :=
  runs.countP fun run => leaf ∈ storedLeaves run

theorem apiNames_nodup : Rows.Keyed FieldDetails.apiName trainingRunApiFields := by
  decide

theorem FieldDetails.HasLeaf.head {field : FieldDetails} {leaf : List String} (hasLeaf : field.HasLeaf leaf) :
    leaf.head? = some field.apiName := by
  unfold FieldDetails.HasLeaf at hasLeaf
  split at hasLeaf
  · rw [hasLeaf, List.head?_cons]
  · rw [hasLeaf, List.head?_cons]
  · obtain ⟨key, rfl⟩ := hasLeaf
    rfl
  · obtain ⟨subField, _, rfl⟩ := hasLeaf
    rfl
  · obtain ⟨key, subField, _, rfl⟩ := hasLeaf
    rfl

theorem FieldDetails.hasLeaf_of_mem {field : FieldDetails} {run : StoredRun} {leaf : List String}
    (member : leaf ∈ field.leavesOf run) : field.HasLeaf leaf := by
  unfold FieldDetails.leavesOf at member
  unfold FieldDetails.HasLeaf
  split at member
  · split at member
    · exact List.mem_singleton.mp member
    · cases member
  · split at member
    · exact List.mem_singleton.mp member
    · cases member
  · obtain ⟨stored, _, rfl⟩ := List.mem_map.mp member
    exact ⟨stored.1, rfl⟩
  · obtain ⟨subField, isStored, rfl⟩ := List.mem_map.mp member
    exact ⟨subField, (List.mem_filter.mp isStored).1, rfl⟩
  · obtain ⟨stored, _, inStored⟩ := List.mem_flatMap.mp member
    obtain ⟨subField, isStored, rfl⟩ := List.mem_map.mp inStored
    exact ⟨stored.1, subField, (List.mem_filter.mp isStored).1, rfl⟩

/-- A path of a field is stored exactly if it is stored of that field. -/
theorem mem_storedLeaves {field : FieldDetails} (isField : field ∈ trainingRunApiFields) {run : StoredRun}
    {leaf : List String} (hasLeaf : field.HasLeaf leaf) :
    leaf ∈ storedLeaves run ↔ leaf ∈ field.leavesOf run := by
  rw [storedLeaves, List.mem_flatMap]
  constructor
  · rintro ⟨other, isOther, member⟩
    have sameName : other.apiName = field.apiName :=
      Option.some.inj ((FieldDetails.hasLeaf_of_mem member).head.symm.trans hasLeaf.head)
    rwa [← apiNames_nodup.eq_of_key isOther isField sameName]
  · exact fun member => ⟨field, isField, member⟩

/-! ### The keys that are counted -/

/-- The tuples that count the field. -/
def FieldDetails.HasKeys (field : FieldDetails) (keys : FieldKeys) : Prop :=
  match field.type with
  | .primitive _ => keys = { apiName := field.apiName }
  | .protobufPrimitive _ => keys = { apiName := field.apiName }
  | .protobufStruct _ => ∃ key, keys = { apiName := field.apiName, secondary := some key }
  | .protobufObject _ _ => ∃ jsonName, keys = { apiName := field.apiName, secondary := some jsonName }
  | .protobufMapOfObject _ _ =>
      ∃ key jsonName, keys = { apiName := field.apiName, secondary := some key, tertiary := some jsonName }

/-- The tuples of what the run stores of the field. -/
def FieldDetails.storedKeys (field : FieldDetails) (run : StoredRun) : List FieldKeys :=
  match field.type with
  | .primitive column => if column.isNotNull run then [{ apiName := field.apiName }] else []
  | .protobufPrimitive jsonName =>
      if (run.trainingRunData.lookup jsonName).isSome then [{ apiName := field.apiName }] else []
  | .protobufStruct jsonName =>
      (jsonMembers (run.trainingRunData.lookup jsonName)).map fun member =>
        { apiName := field.apiName, secondary := some member.1 }
  | .protobufObject jsonName subFields =>
      (subFields.filter fun subField =>
          (jsonItem (run.trainingRunData.lookup jsonName) subField.jsonName).isSome).map fun subField =>
        { apiName := field.apiName, secondary := some subField.jsonName }
  | .protobufMapOfObject jsonName _ =>
      (jsonMembers (run.trainingRunData.lookup jsonName)).flatMap fun member =>
        (jsonMembers (some member.2)).map fun inner =>
          { apiName := field.apiName, secondary := some member.1, tertiary := some inner.1 }

/-- The path of a tuple, unless it is of a sub-field that the message does not have. -/
def FieldDetails.leafOf (field : FieldDetails) (keys : FieldKeys) : Option (List String) :=
  match field.type with
  | .protobufObject _ subFields =>
      (keys.secondary.bind (subFieldNamed subFields)).map fun subField => [keys.apiName, subField.name]
  | .protobufMapOfObject _ subFields =>
      (keys.tertiary.bind (subFieldNamed subFields)).map fun subField =>
        keys.apiName :: (keys.secondary.toList ++ [subField.name])
  | _ => some keys.parts

/-- The sub-fields of the message can be told apart by either name. -/
def FieldDetails.NamesSubFields (field : FieldDetails) : Prop :=
  match field.type with
  | .protobufObject _ subFields =>
      Rows.Keyed Protobuf.Field.jsonName subFields ∧ Rows.Keyed Protobuf.Field.name subFields
  | .protobufMapOfObject _ subFields =>
      Rows.Keyed Protobuf.Field.jsonName subFields ∧ Rows.Keyed Protobuf.Field.name subFields
  | _ => True

theorem namesSubFields : ∀ field ∈ trainingRunApiFields, field.NamesSubFields := by
  simp [trainingRunApiFields, FieldDetails.NamesSubFields, Rows.Keyed, textField, doubleField]

theorem subFieldNamed_iff {subFields : List Protobuf.Field} (keyed : Rows.Keyed Protobuf.Field.jsonName subFields)
    {jsonName : String} {subField : Protobuf.Field} :
    subFieldNamed subFields jsonName = some subField ↔ subField ∈ subFields ∧ subField.jsonName = jsonName :=
  Rows.findKey_iff keyed

theorem jsonItem_isSome {document : Option Json} {key : String} :
    (jsonItem document key).isSome = true ↔ ∃ member ∈ jsonMembers document, member.1 = key := by
  unfold jsonItem jsonMembers
  split
  · rw [Option.isSome_iff_exists]
    constructor
    · rintro ⟨value, found⟩
      exact ⟨_, JsonObject.mem_of_lookup found, rfl⟩
    · rintro ⟨member, isMember, rfl⟩
      rw [← Option.isSome_iff_exists, List.lookup_isSome_iff]
      exact ⟨member, isMember, beq_self_eq_true _⟩
  · simp

namespace FieldDetails

variable {field : FieldDetails} {keys : FieldKeys} {run : StoredRun} {leaf : List String}

theorem HasKeys.apiName (hasKeys : field.HasKeys keys) : keys.apiName = field.apiName := by
  unfold HasKeys at hasKeys
  split at hasKeys
  · rw [hasKeys]
  · rw [hasKeys]
  · obtain ⟨key, rfl⟩ := hasKeys
    rfl
  · obtain ⟨jsonName, rfl⟩ := hasKeys
    rfl
  · obtain ⟨key, jsonName, rfl⟩ := hasKeys
    rfl

theorem hasKeys_of_mem (member : keys ∈ field.storedKeys run) : field.HasKeys keys := by
  unfold storedKeys at member
  unfold HasKeys
  split at member
  · split at member
    · exact List.mem_singleton.mp member
    · cases member
  · split at member
    · exact List.mem_singleton.mp member
    · cases member
  · obtain ⟨stored, _, rfl⟩ := List.mem_map.mp member
    exact ⟨stored.1, rfl⟩
  · obtain ⟨subField, _, rfl⟩ := List.mem_map.mp member
    exact ⟨subField.jsonName, rfl⟩
  · obtain ⟨stored, _, inStored⟩ := List.mem_flatMap.mp member
    obtain ⟨inner, _, rfl⟩ := List.mem_map.mp inStored
    exact ⟨stored.1, inner.1, rfl⟩

theorem hasLeaf_leafOf (names : field.NamesSubFields) (hasKeys : field.HasKeys keys)
    (isLeaf : field.leafOf keys = some leaf) : field.HasLeaf leaf := by
  obtain ⟨apiName, type, _, _, _⟩ := field
  cases type with
  | primitive column =>
      cases hasKeys
      exact (Option.some.inj isLeaf).symm
  | protobufPrimitive jsonName =>
      cases hasKeys
      exact (Option.some.inj isLeaf).symm
  | protobufStruct jsonName =>
      obtain ⟨key, rfl⟩ := hasKeys
      exact ⟨key, (Option.some.inj isLeaf).symm⟩
  | protobufObject jsonName subFields =>
      obtain ⟨subName, rfl⟩ := hasKeys
      obtain ⟨subField, found, rfl⟩ := Option.map_eq_some_iff.mp isLeaf
      exact ⟨subField, ((subFieldNamed_iff names.1).mp found).1, rfl⟩
  | protobufMapOfObject jsonName subFields =>
      obtain ⟨key, subName, rfl⟩ := hasKeys
      obtain ⟨subField, found, rfl⟩ := Option.map_eq_some_iff.mp isLeaf
      exact ⟨key, subField, ((subFieldNamed_iff names.1).mp found).1, rfl⟩

theorem jsonName_eq {subFields : List Protobuf.Field} (jsonNames : Rows.Keyed Protobuf.Field.jsonName subFields)
    (names : Rows.Keyed Protobuf.Field.name subFields) {first second : String} {subField other : Protobuf.Field}
    (found : subFieldNamed subFields first = some subField) (otherFound : subFieldNamed subFields second = some other)
    (sameName : subField.name = other.name) : first = second := by
  obtain ⟨isSubField, hasName⟩ := (subFieldNamed_iff jsonNames).mp found
  obtain ⟨otherIsSubField, otherHasName⟩ := (subFieldNamed_iff jsonNames).mp otherFound
  rw [← hasName, ← otherHasName, names.eq_of_key isSubField otherIsSubField sameName]

/-- Two tuples of a field that have a path have different ones. -/
theorem leafOf_injective (names : field.NamesSubFields) {other : FieldKeys} (hasKeys : field.HasKeys keys)
    (otherHasKeys : field.HasKeys other) (isLeaf : field.leafOf keys = some leaf)
    (otherIsLeaf : field.leafOf other = some leaf) : keys = other := by
  obtain ⟨apiName, type, _, _, _⟩ := field
  cases type with
  | primitive column =>
      cases hasKeys
      cases otherHasKeys
      rfl
  | protobufPrimitive jsonName =>
      cases hasKeys
      cases otherHasKeys
      rfl
  | protobufStruct jsonName =>
      obtain ⟨key, rfl⟩ := hasKeys
      obtain ⟨otherKey, rfl⟩ := otherHasKeys
      have same := isLeaf.trans otherIsLeaf.symm
      cases same
      rfl
  | protobufObject jsonName subFields =>
      obtain ⟨subName, rfl⟩ := hasKeys
      obtain ⟨otherName, rfl⟩ := otherHasKeys
      obtain ⟨subField, found, isPath⟩ := Option.map_eq_some_iff.mp isLeaf
      obtain ⟨otherField, otherFound, isOtherPath⟩ := Option.map_eq_some_iff.mp otherIsLeaf
      have same := isPath.trans isOtherPath.symm
      simp only [List.cons.injEq, and_true, true_and] at same
      rw [jsonName_eq names.1 names.2 found otherFound same]
  | protobufMapOfObject jsonName subFields =>
      obtain ⟨key, subName, rfl⟩ := hasKeys
      obtain ⟨otherKey, otherName, rfl⟩ := otherHasKeys
      obtain ⟨subField, found, isPath⟩ := Option.map_eq_some_iff.mp isLeaf
      obtain ⟨otherField, otherFound, isOtherPath⟩ := Option.map_eq_some_iff.mp otherIsLeaf
      have same := isPath.trans isOtherPath.symm
      simp only [Option.toList, List.singleton_append, List.cons.injEq, and_true, true_and] at same
      rw [jsonName_eq names.1 names.2 found otherFound same.2, same.1]

/-- What a run stores of a field are the paths of the tuples that it stores. -/
theorem mem_leavesOf (names : field.NamesSubFields) :
    leaf ∈ field.leavesOf run ↔ ∃ keys ∈ field.storedKeys run, field.leafOf keys = some leaf := by
  obtain ⟨apiName, type, _, _, _⟩ := field
  cases type with
  | primitive column => 
      cases stored : column.isNotNull run with
      | false => simp [leavesOf, storedKeys, stored]
      | true => simp [leavesOf, storedKeys, leafOf, stored, FieldKeys.parts, eq_comm]
  | protobufPrimitive jsonName =>
      cases stored : (run.trainingRunData.lookup jsonName).isSome with
      | false => simp [leavesOf, storedKeys, stored]
      | true => simp [leavesOf, storedKeys, leafOf, stored, FieldKeys.parts, eq_comm]
  | protobufStruct jsonName =>
      simp only [leavesOf, storedKeys, leafOf, List.mem_map, FieldKeys.parts, Option.some.injEq]
      constructor
      · rintro ⟨member, isMember, rfl⟩
        exact ⟨_, ⟨member, isMember, rfl⟩, rfl⟩
      · rintro ⟨_, ⟨member, isMember, rfl⟩, rfl⟩
        exact ⟨member, isMember, rfl⟩
  | protobufObject jsonName subFields =>
      simp only [leavesOf, storedKeys, leafOf, List.mem_map, List.mem_filter]
      constructor
      · rintro ⟨subField, ⟨isSubField, stored⟩, rfl⟩
        refine ⟨_, ⟨subField, ⟨isSubField, stored⟩, rfl⟩, ?_⟩
        rw [Option.bind_some, (subFieldNamed_iff names.1).mpr ⟨isSubField, rfl⟩, Option.map_some]
      · rintro ⟨_, ⟨subField, ⟨isSubField, stored⟩, rfl⟩, isLeaf⟩
        rw [Option.bind_some, (subFieldNamed_iff names.1).mpr ⟨isSubField, rfl⟩, Option.map_some] at isLeaf
        exact ⟨subField, ⟨isSubField, stored⟩, Option.some.inj isLeaf⟩
  | protobufMapOfObject jsonName subFields =>
      simp only [leavesOf, storedKeys, leafOf, List.mem_flatMap, List.mem_map, List.mem_filter, jsonItem_isSome]
      constructor
      · rintro ⟨member, isMember, subField, ⟨isSubField, inner, isInner, named⟩, rfl⟩
        refine ⟨_, ⟨member, isMember, inner, isInner, rfl⟩, ?_⟩
        rw [Option.bind_some, (subFieldNamed_iff names.1).mpr ⟨isSubField, named.symm⟩, Option.map_some]
        rfl
      · rintro ⟨_, ⟨member, isMember, inner, isInner, rfl⟩, isLeaf⟩
        obtain ⟨subField, found, rfl⟩ := Option.map_eq_some_iff.mp isLeaf
        obtain ⟨isSubField, named⟩ := (subFieldNamed_iff names.1).mp found
        exact ⟨member, isMember, subField, ⟨isSubField, inner, isInner, named.symm⟩, rfl⟩

/-- A tuple that has a path is stored exactly where the path is. -/
theorem mem_storedKeys (isField : field ∈ trainingRunApiFields) (hasKeys : field.HasKeys keys)
    (isLeaf : field.leafOf keys = some leaf) : keys ∈ field.storedKeys run ↔ leaf ∈ storedLeaves run := by
  have names := namesSubFields field isField
  rw [mem_storedLeaves isField (hasLeaf_leafOf names hasKeys isLeaf), mem_leavesOf names]
  constructor
  · exact fun stored => ⟨keys, stored, isLeaf⟩
  · rintro ⟨other, stored, otherIsLeaf⟩
    rwa [leafOf_injective names hasKeys (hasKeys_of_mem stored) isLeaf otherIsLeaf]

end FieldDetails

/-! ### The counts of the columns and objects -/

/-- The runs of a query are those of one client, or those of the clients of one organization. -/
def OfOneClient (clients : List ClientRow) (byOrganization : Bool) (runs : List StoredRun) : Prop :=
  if byOrganization then
    Rows.Keyed ClientRow.id clients ∧ ∃ organizationId, ∀ run ∈ runs, ∃ client ∈ clients,
      client.id = run.clientId ∧ client.organizationId = organizationId
  else
    ∃ clientId, ∀ run ∈ runs, run.clientId = clientId

section Primitive

variable {clients : List ClientRow} {byOrganization : Bool} {runs : List StoredRun}

/-- All runs are one group, if there are any. -/
theorem groupsOf_eq (ofOneClient : OfOneClient clients byOrganization runs) :
    groupsOf clients byOrganization runs = if runs = [] then [] else [runs] := by
  by_cases isEmpty : runs = []
  · rw [if_pos isEmpty, isEmpty]
    cases byOrganization <;> rfl
  rw [if_neg isEmpty]
  cases byOrganization with
  | false =>
      obtain ⟨clientId, ofClient⟩ := ofOneClient
      simp only [groupsOf, Bool.false_eq_true, if_false, Rows.groupBy_of_same isEmpty ofClient, List.map_singleton]
  | true =>
      obtain ⟨keyed, organizationId, ofOrganization⟩ := ofOneClient
      have joined : (runs.flatMap fun run =>
          (clients.filter fun client => client.id = run.clientId).map fun client => (client.organizationId, run)) =
            runs.map fun run => (organizationId, run) := by
        rw [← List.flatMap_singleton' (runs.map fun run => (organizationId, run)), List.flatMap_map]
        apply List.flatMap_congr
        intro run isRun
        obtain ⟨client, isClient, isOwn, inOrganization⟩ := ofOrganization run isRun
        rw [← isOwn, Rows.filterKey_eq keyed isClient, List.map_singleton, inOrganization]
      have grouped : Rows.groupBy Prod.fst (runs.map fun run => (organizationId, run)) =
          [(organizationId, runs.map fun run => (organizationId, run))] := by
        apply Rows.groupBy_of_same
        · simpa using isEmpty
        · simp
      simp only [groupsOf, if_true, joined, grouped, List.map_singleton, List.map_map, Function.comp_def, List.map_id']

/-- One query counts, for each of its tuples, the runs that store it. -/
theorem countPrimitiveFields_eq (ofOneClient : OfOneClient clients byOrganization runs) (fields : List FieldDetails) :
    countPrimitiveFields fields clients byOrganization runs =
      .ok ((fields.flatMap selectablesOf).map fun selectable => (selectable.1, runs.countP selectable.2)) := by
  unfold countPrimitiveFields
  simp only [groupsOf_eq ofOneClient]
  generalize fields.flatMap selectablesOf = selectables
  cases selectables with
  | nil => rfl
  | cons selectable others =>
      cases runs with
      | nil =>
          have zeros : List.replicate (selectable :: others).length 0 = (selectable :: others).map fun _ => 0 := by
            rw [List.map_const']
          simp only [List.isEmpty_cons, Bool.false_eq_true, if_false, if_true, List.map_nil, oneOrNone,
            Raising.ok_bind, Option.getD_none, zeros, List.zip_map', List.countP_nil]
          rfl
      | cons run rest =>
          simp only [List.isEmpty_cons, Bool.false_eq_true, if_false, reduceCtorEq, List.map_cons, List.map_nil,
            oneOrNone, Raising.ok_bind, Option.getD_some, List.zip_cons_cons, List.zip_map']
          rfl

end Primitive

/-! ### The counts of what users define -/

theorem jsonbEach_eq {Fits : Json → Prop} {document : Option Json} (isObject : IsObjectOf Fits document) :
    jsonbEach document = .ok (jsonMembers document) ∧ ((jsonMembers document).map Prod.fst).Nodup ∧
      ∀ member ∈ jsonMembers document, Fits member.2 := by
  match document with
  | none => exact ⟨rfl, List.nodup_nil, by simp [jsonMembers]⟩
  | some (.object members) => exact ⟨rfl, isObject⟩
  | some .null => exact isObject.elim
  | some (.boolean _) => exact isObject.elim
  | some (.number _) => exact isObject.elim
  | some (.string _) => exact isObject.elim
  | some (.array _) => exact isObject.elim

theorem jsonbObjectKeys_eq {value : Json} (isObject : IsObjectOf (fun _ => True) (some value)) :
    jsonbObjectKeys value = .ok ((jsonMembers (some value)).map Prod.fst) ∧
      ((jsonMembers (some value)).map Prod.fst).Nodup := by
  cases value with
  | object members => exact ⟨rfl, isObject.1⟩
  | null => exact isObject.elim
  | boolean _ => exact isObject.elim
  | number _ => exact isObject.elim
  | string _ => exact isObject.elim
  | array _ => exact isObject.elim

namespace FieldDetails

variable {field : FieldDetails} {run : StoredRun} {runs : List StoredRun}

/-- The tuple of a row of the lateral join. -/
def keysOfRow (field : FieldDetails) (row : String × Option String) : FieldKeys :=
  { apiName := field.apiName, secondary := some row.1, tertiary := row.2 }

theorem keysOfRow_injective (field : FieldDetails) : Function.Injective field.keysOfRow := by
  intro first second same
  simp only [keysOfRow, FieldKeys.mk.injEq, Option.some.injEq, true_and] at same
  exact Prod.ext same.1 same.2

/-- The rows of a run are the tuples that it stores, each of them once. -/
theorem userDefinedRows_ok (isUserDefined : field.type.isUserDefined = true)
    (fits : field.type.Fits run.trainingRunData) :
    ∃ rows, userDefinedRows field.type run = .ok rows ∧ rows.map field.keysOfRow = field.storedKeys run ∧
      rows.Nodup := by
  obtain ⟨apiName, type, _, _, _⟩ := field
  cases type with
  | primitive column => cases isUserDefined
  | protobufPrimitive jsonName => cases isUserDefined
  | protobufObject jsonName subFields => cases isUserDefined
  | protobufStruct jsonName =>
      have isObject : IsObjectOf (fun _ => True) (run.trainingRunData.lookup jsonName) := fits
      obtain ⟨read, distinct, _⟩ := jsonbEach_eq isObject
      refine ⟨(jsonMembers (run.trainingRunData.lookup jsonName)).map fun member => (member.1, none), ?_, ?_, ?_⟩
      · simp only [userDefinedRows, read, Raising.ok_bind]
        rfl
      · simp [storedKeys, keysOfRow, Function.comp_def]
      · refine List.Nodup.of_map Prod.fst ?_
        simpa [Function.comp_def] using distinct
  | protobufMapOfObject jsonName subFields =>
      have isObject : IsObjectOf (fun value => IsObjectOf (fun _ => True) (some value))
          (run.trainingRunData.lookup jsonName) := fits
      obtain ⟨read, distinct, objects⟩ := jsonbEach_eq isObject
      refine ⟨(jsonMembers (run.trainingRunData.lookup jsonName)).flatMap fun member =>
        (jsonMembers (some member.2)).map fun inner => (member.1, some inner.1), ?_, ?_, ?_⟩
      · have rows : ((jsonMembers (run.trainingRunData.lookup jsonName)).mapM fun member => do
            let keys ← jsonbObjectKeys member.2
            return keys.map fun key => (member.1, some key)) =
              .ok ((jsonMembers (run.trainingRunData.lookup jsonName)).map fun member =>
                (jsonMembers (some member.2)).map fun inner => (member.1, some inner.1)) := by
          apply Raising.mapM_eq_map
          intro member isMember
          rw [(jsonbObjectKeys_eq (objects member isMember)).1, Raising.ok_bind, List.map_map]
          rfl
        simp only [userDefinedRows, read, Raising.ok_bind, rows]
        rfl
      · simp [storedKeys, keysOfRow, Function.comp_def, List.map_flatMap]
      · have distinctMembers : Rows.Keyed Prod.fst (jsonMembers (run.trainingRunData.lookup jsonName)) := distinct
        have owned : ∀ member ∈ jsonMembers (run.trainingRunData.lookup jsonName),
            ∀ row ∈ (jsonMembers (some member.2)).map fun inner => (member.1, some inner.1), row.1 = member.1 := by
          intro member _ row isRow
          obtain ⟨inner, _, rfl⟩ := List.mem_map.mp isRow
          rfl
        refine Rows.nodup_flatMap distinctMembers ?_ owned
        intro member isMember
        refine List.Nodup.of_map (fun row => row.2.getD "") ?_
        simpa [Function.comp_def] using (jsonbObjectKeys_eq (objects member isMember)).2

end FieldDetails

/-! ### All counts -/

/-- The tuples that the answer has of a field: those of one query, and those that the runs store. -/
def FieldDetails.Expects (field : FieldDetails) (runs : List StoredRun) (keys : FieldKeys) : Prop :=
  keys ∈ (selectablesOf field).map Prod.fst ∨ ∃ run ∈ runs, keys ∈ field.storedKeys run

/-- Each tuple of the fields is counted once, with the number of runs that store it. -/
structure CountsFields (fields : List FieldDetails) (runs : List StoredRun) (counted : List (FieldKeys × ℕ)) :
    Prop where
  nodup : (counted.map Prod.fst).Nodup
  counts : ∀ count ∈ counted, ∃ field ∈ fields, field.HasKeys count.1 ∧
    count.2 = runs.countP (fun run => count.1 ∈ field.storedKeys run) ∧
    (field.type.isUserDefined = true → ∃ run ∈ runs, count.1 ∈ field.storedKeys run)
  complete : ∀ field ∈ fields, ∀ keys, field.Expects runs keys → keys ∈ counted.map Prod.fst

theorem CountsFields.nil (runs : List StoredRun) : CountsFields [] runs [] where
  nodup := List.nodup_nil
  counts := by simp
  complete := by simp

/-- Fields of different names are counted apart. -/
theorem CountsFields.append {first second : List FieldDetails} {runs : List StoredRun}
    {counted others : List (FieldKeys × ℕ)}
    (apart : ∀ field ∈ first, ∀ other ∈ second, field.apiName ≠ other.apiName)
    (counts : CountsFields first runs counted) (otherCounts : CountsFields second runs others) :
    CountsFields (first ++ second) runs (counted ++ others) where
  nodup := by
    rw [List.map_append, List.nodup_append]
    refine ⟨counts.nodup, otherCounts.nodup, ?_⟩
    intro keys isKeys otherKeys isOtherKeys same
    obtain ⟨count, isCount, rfl⟩ := List.mem_map.mp isKeys
    obtain ⟨otherCount, isOtherCount, rfl⟩ := List.mem_map.mp isOtherKeys
    obtain ⟨field, isField, hasKeys, _⟩ := counts.counts count isCount
    obtain ⟨other, isOther, otherHasKeys, _⟩ := otherCounts.counts otherCount isOtherCount
    exact apart field isField other isOther (by rw [← hasKeys.apiName, ← otherHasKeys.apiName, same])
  counts := by
    intro count isCount
    cases List.mem_append.mp isCount with
    | inl inFirst =>
        obtain ⟨field, isField, holds⟩ := counts.counts count inFirst
        exact ⟨field, List.mem_append_left _ isField, holds⟩
    | inr inSecond =>
        obtain ⟨field, isField, holds⟩ := otherCounts.counts count inSecond
        exact ⟨field, List.mem_append_right _ isField, holds⟩
  complete := by
    intro field isField keys expected
    rw [List.map_append, List.mem_append]
    cases List.mem_append.mp isField with
    | inl inFirst => exact .inl (counts.complete field inFirst keys expected)
    | inr inSecond => exact .inr (otherCounts.complete field inSecond keys expected)

/-- Counts of one field after the other. -/
theorem CountsFields.flatten {fields : List FieldDetails} {runs : List StoredRun}
    {counted : List (List (FieldKeys × ℕ))} (keyed : Rows.Keyed FieldDetails.apiName fields)
    (each : List.Forall₂ (fun field counts => CountsFields [field] runs counts) fields counted) :
    CountsFields fields runs counted.flatten := by
  induction each with
  | nil => exact .nil runs
  | cons first _ inductionHypothesis =>
      obtain ⟨fresh, keyedRest⟩ := List.nodup_cons.mp keyed
      refine CountsFields.append ?_ first (inductionHypothesis keyedRest)
      intro field isField other isOther sameName
      rw [List.mem_singleton.mp isField] at sameName
      exact fresh (sameName ▸ List.mem_map_of_mem isOther)

/-- What one query counts of a field are its tuples, each where a run stores it. -/
theorem selectablesOf_counts {field : FieldDetails} {selectable : FieldKeys × (StoredRun → Bool)}
    (isSelectable : selectable ∈ selectablesOf field) :
    field.type.isUserDefined = false ∧ field.HasKeys selectable.1 ∧
      ∀ run, selectable.2 run = true ↔ selectable.1 ∈ field.storedKeys run := by
  obtain ⟨apiName, type, _, _, _⟩ := field
  cases type with
  | primitive column =>
      cases List.mem_singleton.mp isSelectable
      refine ⟨rfl, rfl, fun run => ?_⟩
      cases stored : column.isNotNull run with
      | false => simp [FieldDetails.storedKeys, stored]
      | true => simp [FieldDetails.storedKeys, stored]
  | protobufPrimitive jsonName =>
      cases List.mem_singleton.mp isSelectable
      refine ⟨rfl, rfl, fun run => ?_⟩
      cases stored : (run.trainingRunData.lookup jsonName).isSome with
      | false => simp [FieldDetails.storedKeys, stored]
      | true => simp [FieldDetails.storedKeys, stored]
  | protobufObject jsonName subFields =>
      obtain ⟨subField, isSubField, rfl⟩ := List.mem_map.mp isSelectable
      refine ⟨rfl, ⟨subField.jsonName, rfl⟩, fun run => ?_⟩
      simp only [FieldDetails.storedKeys, List.mem_map, List.mem_filter, FieldKeys.mk.injEq, Option.some.injEq,
        true_and, and_true]
      constructor
      · exact fun stored => ⟨subField, ⟨isSubField, stored⟩, rfl⟩
      · rintro ⟨other, ⟨_, stored⟩, sameName⟩
        rwa [sameName] at stored
  | protobufStruct jsonName => cases isSelectable
  | protobufMapOfObject jsonName subFields => cases isSelectable

theorem selectablesOf_complete {field : FieldDetails} (notUserDefined : field.type.isUserDefined = false)
    {run : StoredRun} {keys : FieldKeys} (stored : keys ∈ field.storedKeys run) :
    keys ∈ (selectablesOf field).map Prod.fst := by
  have hasKeys := FieldDetails.hasKeys_of_mem stored
  obtain ⟨apiName, type, _, _, _⟩ := field
  cases type with
  | primitive column => exact List.mem_singleton.mpr hasKeys
  | protobufPrimitive jsonName => exact List.mem_singleton.mpr hasKeys
  | protobufObject jsonName subFields =>
      obtain ⟨subField, isStored, rfl⟩ := List.mem_map.mp stored
      simp only [selectablesOf, List.map_map]
      exact List.mem_map_of_mem (List.mem_filter.mp isStored).1
  | protobufStruct jsonName => cases notUserDefined
  | protobufMapOfObject jsonName subFields => cases notUserDefined

section AllCounts

variable {clients : List ClientRow} {byOrganization : Bool} {runs : List StoredRun}

theorem getUserDefinedFieldCounts_ok {field : FieldDetails} (isField : field ∈ trainingRunApiFields)
    (isUserDefined : field.type.isUserDefined = true) :
    ∃ counted, getUserDefinedFieldCounts field runs = .ok counted ∧ CountsFields [field] runs counted := by
  choose rowsOf read areKeys once using fun run : StoredRun =>
    FieldDetails.userDefinedRows_ok isUserDefined (run.fits field isField)
  have rows : runs.mapM (userDefinedRows field.type) = .ok (runs.map rowsOf) :=
    Raising.mapM_eq_map fun run _ => read run
  have stored : ∀ run row, field.keysOfRow row ∈ field.storedKeys run ↔ row ∈ rowsOf run := by
    intro run row
    rw [← areKeys run, List.mem_map_of_injective field.keysOfRow_injective]
  have size : ∀ row, ((runs.flatMap rowsOf).filter fun other => other = row).length =
      runs.countP fun run => field.keysOfRow row ∈ field.storedKeys run := by
    intro row
    rw [Rows.length_group_flatMap (fun run _ => once run) row]
    exact List.countP_congr fun run _ => by simp [stored]
  refine ⟨(runs.flatMap rowsOf).dedup.map fun row =>
    (field.keysOfRow row, ((runs.flatMap rowsOf).filter fun other => other = row).length), ?_, ?_, ?_, ?_⟩
  · simp only [getUserDefinedFieldCounts, rows, Raising.ok_bind, ← List.flatMap_def, Rows.groupBy, List.map_id',
      List.map_map]
    rfl
  · rw [List.map_map]
    exact (List.nodup_dedup _).map field.keysOfRow_injective
  · intro count isCount
    obtain ⟨row, isRow, rfl⟩ := List.mem_map.mp isCount
    obtain ⟨run, isRun, inRun⟩ := List.mem_flatMap.mp (List.mem_dedup.mp isRow)
    have isStored := (stored run row).mpr inRun
    exact ⟨field, List.mem_singleton_self field, FieldDetails.hasKeys_of_mem isStored, size row,
      fun _ => ⟨run, isRun, isStored⟩⟩
  · intro other isOther keys expected
    rw [List.mem_singleton.mp isOther] at expected
    rcases expected with inQuery | ⟨run, isRun, isStored⟩
    · obtain ⟨selectable, isSelectable, _⟩ := List.mem_map.mp inQuery
      rw [(selectablesOf_counts isSelectable).1] at isUserDefined
      cases isUserDefined
    · rw [← areKeys run] at isStored
      obtain ⟨row, isRow, rfl⟩ := List.mem_map.mp isStored
      rw [List.map_map]
      exact List.mem_map_of_mem (List.mem_dedup.mpr (List.mem_flatMap.mpr ⟨run, isRun, isRow⟩))

theorem countUserDefinedFields_ok :
    ∃ counted, countUserDefinedFields trainingRunApiFields runs = .ok counted ∧
      CountsFields (trainingRunApiFields.filter fun field => field.type.isUserDefined) runs counted := by
  have each : ∀ field ∈ trainingRunApiFields.filter fun field => field.type.isUserDefined,
      ∃ counted, getUserDefinedFieldCounts field runs = .ok counted ∧ CountsFields [field] runs counted := by
    intro field member
    obtain ⟨isField, isUserDefined⟩ := List.mem_filter.mp member
    exact getUserDefinedFieldCounts_ok isField isUserDefined
  obtain ⟨counted, answers, counts⟩ := Raising.mapM_of_each each
  refine ⟨counted.flatten, ?_, CountsFields.flatten (Rows.keyed_filter apiNames_nodup _) counts⟩
  simp only [countUserDefinedFields, answers, Raising.ok_bind]
  rfl

theorem countPrimitiveFields_ok (ofOneClient : OfOneClient clients byOrganization runs) :
    ∃ counted, countPrimitiveFields trainingRunApiFields clients byOrganization runs = .ok counted ∧
      CountsFields (trainingRunApiFields.filter fun field => !field.type.isUserDefined) runs counted := by
  refine ⟨_, countPrimitiveFields_eq ofOneClient trainingRunApiFields, ?_, ?_, ?_⟩
  · have distinct : ((trainingRunApiFields.flatMap selectablesOf).map Prod.fst).Nodup := by
      decide
    rw [List.map_map]
    exact distinct
  · intro count isCount
    obtain ⟨selectable, isSelectable, rfl⟩ := List.mem_map.mp isCount
    obtain ⟨field, isField, ofField⟩ := List.mem_flatMap.mp isSelectable
    obtain ⟨notUserDefined, hasKeys, stored⟩ := selectablesOf_counts ofField
    refine ⟨field, List.mem_filter.mpr ⟨isField, by simp [notUserDefined]⟩, hasKeys, ?_, ?_⟩
    · exact List.countP_congr fun run _ => by simp [stored]
    · intro isUserDefined
      rw [notUserDefined] at isUserDefined
      cases isUserDefined
  · intro field member keys expected
    obtain ⟨isField, notUserDefined⟩ := List.mem_filter.mp member
    have inQuery : keys ∈ (selectablesOf field).map Prod.fst := by
      rcases expected with inQuery | ⟨run, _, stored⟩
      · exact inQuery
      · exact selectablesOf_complete (by simpa using notUserDefined) stored
    obtain ⟨selectable, ofField, rfl⟩ := List.mem_map.mp inQuery
    rw [List.map_map]
    exact List.mem_map_of_mem (List.mem_flatMap.mpr ⟨field, isField, ofField⟩)

/-- The counts of both kinds of query. -/
theorem counts_ok (ofOneClient : OfOneClient clients byOrganization runs) :
    ∃ primitive userDefined,
      countPrimitiveFields trainingRunApiFields clients byOrganization runs = .ok primitive ∧
        countUserDefinedFields trainingRunApiFields runs = .ok userDefined ∧
        CountsFields trainingRunApiFields runs (primitive ++ userDefined) := by
  obtain ⟨primitive, primitiveRead, primitiveCounts⟩ := countPrimitiveFields_ok ofOneClient
  obtain ⟨userDefined, userDefinedRead, userDefinedCounts⟩ := @countUserDefinedFields_ok runs
  have apart : ∀ field ∈ trainingRunApiFields.filter fun field => !field.type.isUserDefined,
      ∀ other ∈ trainingRunApiFields.filter fun field => field.type.isUserDefined,
        field.apiName ≠ other.apiName := by
    decide
  have counts := CountsFields.append apart primitiveCounts userDefinedCounts
  refine ⟨primitive, userDefined, primitiveRead, userDefinedRead, counts.nodup, ?_, ?_⟩
  · intro count isCount
    obtain ⟨field, isField, holds⟩ := counts.counts count isCount
    rw [List.mem_append, List.mem_filter, List.mem_filter, ← and_or_left] at isField
    exact ⟨field, isField.1, holds⟩
  · intro field isField
    apply counts.complete
    rw [List.mem_append, List.mem_filter, List.mem_filter, ← and_or_left]
    exact ⟨isField, by cases field.type.isUserDefined <;> simp⟩

end AllCounts

/-! ### The fields that are extracted -/

/-- A name that is not the key has no dots. -/
def DefinedField.PlainlyNamed (info : DefinedField) : Prop := info.name = info.key ∨ IsUndotted info.name

/-- The path is one that the answer has: of a column or object, or stored by a run. -/
def Covered (runs : List StoredRun) (leaf : List String) : Prop :=
  ∃ field ∈ trainingRunApiFields, field.HasLeaf leaf ∧
    (field.type.isUserDefined = true → ∃ run ∈ runs, leaf ∈ storedLeaves run)

/-- The extracted fields are those of the paths, glued together, each with the number of runs that store it. -/
structure Extracted (runs : List StoredRun) (leaves : List (List String)) (infos : List DefinedField) : Prop where
  distinct : leaves.Nodup
  fields : infos.map (fun info => (info.key, info.fieldCount)) =
    leaves.map fun leaf => (joinDots leaf, countOf runs leaf)
  named : ∀ info ∈ infos, info.PlainlyNamed
  covers : ∀ leaf, leaf ∈ leaves ↔ Covered runs leaf

theorem readableNames_undotted :
    ∀ field ∈ trainingRunApiFields, field.readableName = none ∨ IsUndotted (field.readableName.getD "") := by
  decide

theorem find_apiName {field : FieldDetails} (isField : field ∈ trainingRunApiFields) :
    trainingRunApiFields.reverse.find? (fun other => decide (other.apiName = field.apiName)) = some field := by
  have keyed : Rows.Keyed FieldDetails.apiName trainingRunApiFields.reverse := by
    decide
  exact (Rows.findKey_iff keyed).mpr ⟨List.mem_reverse.mpr isField, rfl⟩

/-- The path of a tuple of any field. -/
def leafOf (keys : FieldKeys) : Option (List String) :=
  (trainingRunApiFields.reverse.find? fun field => decide (field.apiName = keys.apiName)).bind fun field =>
    field.leafOf keys

theorem leafOf_eq {field : FieldDetails} (isField : field ∈ trainingRunApiFields) {keys : FieldKeys}
    (hasKeys : field.HasKeys keys) : leafOf keys = field.leafOf keys := by
  rw [leafOf, hasKeys.apiName, find_apiName isField, Option.bind_some]

theorem definedFieldOf_named {details : FieldDetails} {apiType : FieldApiType} {keys : FieldKeys}
    {name : Option String} {count : ℕ} (undotted : name = none ∨ IsUndotted (name.getD "")) :
    (definedFieldOf details apiType keys name count).PlainlyNamed := by
  unfold definedFieldOf DefinedField.PlainlyNamed
  simp only
  split
  · exact .inl rfl
  · rename_i nonempty
    cases undotted with
    | inl isNone => 
        rw [isNone] at nonempty
        exact absurd rfl nonempty
    | inr undotted => exact .inr undotted

/-- A field is extracted from each tuple that has a path. -/
theorem extractField_ok {field : FieldDetails} (isField : field ∈ trainingRunApiFields) {count : FieldKeys × ℕ}
    (hasKeys : field.HasKeys count.1) :
    ∃ info, extractField trainingRunApiFields count = .ok info ∧
      info.map (fun info => (info.key, info.fieldCount)) =
        (leafOf count.1).map (fun leaf => (joinDots leaf, count.2)) ∧
      ∀ found ∈ info, found.PlainlyNamed := by
  rw [leafOf_eq isField hasKeys]
  have named := readableNames_undotted field isField
  have found := find_apiName isField
  obtain ⟨keys, size⟩ := count
  rw [← hasKeys.apiName] at found
  simp only [extractField, found]
  obtain ⟨apiName, type, apiType, readableName, _⟩ := field
  cases type with
  | primitive column =>
      refine ⟨_, rfl, rfl, ?_⟩
      intro info isInfo
      cases isInfo
      exact definedFieldOf_named named
  | protobufPrimitive jsonName =>
      refine ⟨_, rfl, rfl, ?_⟩
      intro info isInfo
      cases isInfo
      exact definedFieldOf_named named
  | protobufStruct jsonName =>
      obtain ⟨key, rfl⟩ := hasKeys
      refine ⟨_, rfl, rfl, ?_⟩
      intro info isInfo
      cases isInfo
      exact definedFieldOf_named (.inl rfl)
  | protobufObject jsonName subFields =>
      refine ⟨_, rfl, ?_, ?_⟩
      · simp [FieldDetails.leafOf, Option.map_map, Function.comp_def, definedFieldOf, FieldKeys.parts]
      · intro info isInfo
        obtain ⟨subField, _, rfl⟩ := Option.map_eq_some_iff.mp isInfo
        exact definedFieldOf_named (.inl rfl)
  | protobufMapOfObject jsonName subFields =>
      refine ⟨_, rfl, ?_, ?_⟩
      · simp [FieldDetails.leafOf, Option.map_map, Function.comp_def, definedFieldOf, FieldKeys.parts]
      · intro info isInfo
        obtain ⟨subField, _, rfl⟩ := Option.map_eq_some_iff.mp isInfo
        exact definedFieldOf_named (.inl rfl)

theorem fields_of_extracted {counted : List (FieldKeys × ℕ)} {extracted : List (Option DefinedField)}
    {size : List String → ℕ}
    (each : List.Forall₂ (fun count info => info.map (fun info => (info.key, info.fieldCount)) =
      (leafOf count.1).map fun leaf => (joinDots leaf, size leaf)) counted extracted) :
    extracted.reduceOption.map (fun info => (info.key, info.fieldCount)) =
      ((counted.map Prod.fst).filterMap leafOf).map fun leaf => (joinDots leaf, size leaf) := by
  induction each with
  | nil => rfl
  | @cons count info counts infos same _ inductionHypothesis =>
      rw [List.map_cons, List.filterMap_cons]
      cases isLeaf : leafOf count.1 with
      | none =>
          rw [isLeaf, Option.map_none, Option.map_eq_none_iff] at same
          rw [same, List.reduceOption_cons_of_none]
          exact inductionHypothesis
      | some leaf =>
          rw [isLeaf, Option.map_some] at same
          obtain ⟨found, rfl, isSame⟩ := Option.map_eq_some_iff.mp same
          rw [List.reduceOption_cons_of_some, List.map_cons, List.map_cons, inductionHypothesis, isSame]

theorem leafOf_injective {first second : FieldKeys} {field other : FieldDetails}
    (isField : field ∈ trainingRunApiFields) (isOther : other ∈ trainingRunApiFields)
    (hasKeys : field.HasKeys first) (otherHasKeys : other.HasKeys second) {leaf : List String}
    (isLeaf : leafOf first = some leaf) (isOtherLeaf : leafOf second = some leaf) : first = second := by
  rw [leafOf_eq isField hasKeys] at isLeaf
  rw [leafOf_eq isOther otherHasKeys] at isOtherLeaf
  have names := namesSubFields field isField
  have head := FieldDetails.HasLeaf.head (FieldDetails.hasLeaf_leafOf names hasKeys isLeaf)
  have otherHead := FieldDetails.HasLeaf.head
    (FieldDetails.hasLeaf_leafOf (namesSubFields other isOther) otherHasKeys isOtherLeaf)
  have sameField : field = other :=
    apiNames_nodup.eq_of_key isField isOther (Option.some.inj (head.symm.trans otherHead))
  subst sameField
  exact FieldDetails.leafOf_injective names hasKeys otherHasKeys isLeaf isOtherLeaf

theorem hasKeys_of_selectable {field : FieldDetails} {keys : FieldKeys}
    (isSelectable : keys ∈ (selectablesOf field).map Prod.fst) : field.HasKeys keys := by
  obtain ⟨selectable, ofField, rfl⟩ := List.mem_map.mp isSelectable
  exact (selectablesOf_counts ofField).2.1

/-- Each path of a column or of an object is that of a tuple of the one query. -/
theorem selectable_of_hasLeaf {field : FieldDetails} (names : field.NamesSubFields)
    (notUserDefined : field.type.isUserDefined = false) {leaf : List String} (hasLeaf : field.HasLeaf leaf) :
    ∃ keys ∈ (selectablesOf field).map Prod.fst, field.leafOf keys = some leaf := by
  obtain ⟨apiName, type, _, _, _⟩ := field
  cases type with
  | primitive column =>
      cases hasLeaf
      exact ⟨_, List.mem_singleton_self _, rfl⟩
  | protobufPrimitive jsonName =>
      cases hasLeaf
      exact ⟨_, List.mem_singleton_self _, rfl⟩
  | protobufObject jsonName subFields =>
      obtain ⟨subField, isSubField, rfl⟩ := hasLeaf
      refine ⟨{ apiName := apiName, secondary := some subField.jsonName }, ?_, ?_⟩
      · simp only [selectablesOf, List.map_map]
        exact List.mem_map_of_mem isSubField
      · simp only [FieldDetails.leafOf, Option.bind_some, (subFieldNamed_iff names.1).mpr ⟨isSubField, rfl⟩,
          Option.map_some]
  | protobufStruct jsonName => cases notUserDefined
  | protobufMapOfObject jsonName subFields => cases notUserDefined

theorem expects_of_covered {field : FieldDetails} (isField : field ∈ trainingRunApiFields) {runs : List StoredRun}
    {leaf : List String} (hasLeaf : field.HasLeaf leaf)
    (stored : field.type.isUserDefined = true → ∃ run ∈ runs, leaf ∈ storedLeaves run) :
    ∃ keys, field.HasKeys keys ∧ field.Expects runs keys ∧ field.leafOf keys = some leaf := by
  have names := namesSubFields field isField
  cases isUserDefined : field.type.isUserDefined with
  | false =>
      obtain ⟨keys, inQuery, ofKeys⟩ := selectable_of_hasLeaf names isUserDefined hasLeaf
      exact ⟨keys, hasKeys_of_selectable inQuery, .inl inQuery, ofKeys⟩
  | true =>
      obtain ⟨run, isRun, inRun⟩ := stored isUserDefined
      rw [mem_storedLeaves isField hasLeaf, FieldDetails.mem_leavesOf names] at inRun
      obtain ⟨keys, isKeys, ofKeys⟩ := inRun
      exact ⟨keys, FieldDetails.hasKeys_of_mem isKeys, .inr ⟨run, isRun, isKeys⟩, ofKeys⟩

theorem covered_of_stored {runs : List StoredRun} {run : StoredRun} (isRun : run ∈ runs) {leaf : List String}
    (stored : leaf ∈ storedLeaves run) : Covered runs leaf := by
  obtain ⟨field, isField, ofField⟩ := List.mem_flatMap.mp stored
  exact ⟨field, isField, FieldDetails.hasLeaf_of_mem ofField, fun _ => ⟨run, isRun, stored⟩⟩

/-- The paths of the counted tuples. -/
theorem leaves_of_counts {runs : List StoredRun} {counted : List (FieldKeys × ℕ)}
    (counts : CountsFields trainingRunApiFields runs counted) :
    ((counted.map Prod.fst).filterMap leafOf).Nodup ∧
      ∀ leaf, leaf ∈ (counted.map Prod.fst).filterMap leafOf ↔ Covered runs leaf := by
  have hasKeys : ∀ keys ∈ counted.map Prod.fst, ∃ field ∈ trainingRunApiFields, field.HasKeys keys ∧
      (field.type.isUserDefined = true → ∃ run ∈ runs, keys ∈ field.storedKeys run) := by
    intro keys isKeys
    obtain ⟨count, isCount, rfl⟩ := List.mem_map.mp isKeys
    obtain ⟨field, isField, has, _, stored⟩ := counts.counts count isCount
    exact ⟨field, isField, has, stored⟩
  refine ⟨?_, fun leaf => ⟨?_, ?_⟩⟩
  · rw [List.Nodup, List.pairwise_filterMap]
    refine counts.nodup.imp_of_mem ?_
    intro first second isFirst isSecond apart leaf isLeaf other isOther sameLeaf
    obtain ⟨field, isField, has, _⟩ := hasKeys first isFirst
    obtain ⟨otherField, isOtherField, otherHas, _⟩ := hasKeys second isSecond
    subst sameLeaf
    exact apart (leafOf_injective isField isOtherField has otherHas isLeaf isOther)
  · intro isLeaf
    obtain ⟨keys, isKeys, ofKeys⟩ := List.mem_filterMap.mp isLeaf
    obtain ⟨field, isField, has, stored⟩ := hasKeys keys isKeys
    rw [leafOf_eq isField has] at ofKeys
    refine ⟨field, isField, FieldDetails.hasLeaf_leafOf (namesSubFields field isField) has ofKeys, ?_⟩
    intro isUserDefined
    obtain ⟨run, isRun, inRun⟩ := stored isUserDefined
    exact ⟨run, isRun, (FieldDetails.mem_storedKeys isField has ofKeys).mp inRun⟩
  · rintro ⟨field, isField, hasLeaf, stored⟩
    obtain ⟨keys, has, expected, ofKeys⟩ := expects_of_covered isField hasLeaf stored
    rw [List.mem_filterMap]
    exact ⟨keys, counts.complete field isField keys expected, (leafOf_eq isField has).trans ofKeys⟩

/-- For runs of one client every leaf is extracted, and counted once for each run that has it. -/
theorem extractInfo_counts {clients : List ClientRow} {byOrganization : Bool} {runs : List StoredRun}
    (ofOneClient : OfOneClient clients byOrganization runs) :
    ∃ leaves infos, extractInfo trainingRunApiFields clients byOrganization runs = .ok infos ∧
      Extracted runs leaves infos := by
  obtain ⟨primitive, userDefined, primitiveRead, userDefinedRead, counts⟩ := counts_ok ofOneClient
  have each : ∀ count ∈ primitive ++ userDefined, ∃ info,
      extractField trainingRunApiFields count = .ok info ∧
        (info.map (fun info => (info.key, info.fieldCount)) =
          (leafOf count.1).map (fun leaf => (joinDots leaf, countOf runs leaf)) ∧
        ∀ found ∈ info, found.PlainlyNamed) := by
    intro count isCount
    obtain ⟨field, isField, hasKeys, size, _⟩ := counts.counts count isCount
    obtain ⟨info, extracted, same, named⟩ := extractField_ok isField hasKeys
    refine ⟨info, extracted, ?_, named⟩
    rw [same, leafOf_eq isField hasKeys]
    apply Option.map_congr
    intro leaf isLeaf
    rw [size, countOf]
    congr 1
    exact List.countP_congr fun run _ => by simp [FieldDetails.mem_storedKeys isField hasKeys isLeaf]
  obtain ⟨extracted, read, related⟩ := Raising.mapM_of_each each
  obtain ⟨distinct, covers⟩ := leaves_of_counts counts
  refine ⟨_, extracted.reduceOption, ?_, distinct, ?_, ?_, covers⟩
  · simp only [extractInfo, primitiveRead, userDefinedRead, Raising.ok_bind, read]
    rfl
  · exact fields_of_extracted (related.imp fun _ _ holds => holds.1)
  · intro info isInfo
    rw [List.reduceOption_mem_iff] at isInfo
    obtain ⟨_, _, holds⟩ := Raising.exists_item related isInfo
    exact holds.2 info rfl

end Zigopt.TrainingRuns
