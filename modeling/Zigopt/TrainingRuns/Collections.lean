/-
Module: Zigopt.TrainingRuns.Collections
Layer: Proofs
Purpose: The tags and the files of a run are maps of ids in its document. Adding and removing one of them is an update
  by MERGE. Whatever updates come between, a run has what was said last about it.
Main exports: Collection, parsedFields, ParsedRequest, DocumentOperation, DocumentOperation.apply, hasMember, lastSaid, members_as_last_said
-/
import Std.Data.String.ToNat
import Zigopt.TrainingRuns.MergedLeaves

namespace Zigopt.TrainingRuns

/-! ### Operations on a document -/

/-- The members of a run's document that the server keeps as sets of ids. -/
inductive Collection where
  | tags
  | files
deriving DecidableEq, Repr

/-- `training_run_tags_json_name` and `training_run_files_json_name`. -/
def Collection.jsonName : Collection → String
  | .tags => "t"
  | .files => "u"

/-- The data of an update that sets one member. -/
def memberRequest (collection : Collection) (id : ℕ) (value : Json) : JsonObject :=
  [(collection.jsonName, .object [(toString id, value)])]

/-- The parameters that `TrainingRunRequestParser.parse_params` takes into the data of a run, with the JSON names of
    their fields. -/
def parsedFields : List (String × String) :=
  [("assignments", "a"), ("assignments_meta", "am"), ("assignments_sources", "as"), ("datasets", "d"),
    ("favorite", "f"), ("logs", "l"), ("metadata", "m"), ("dev_metadata", "dm"), ("sys_metadata", "sm"),
    ("model", "o"), ("name", "n"), ("source_code", "c"), ("state", "s"), ("values", "v")]

/-- What the parameters of a request are parsed to, if it has them. -/
structure ParsedRequest where
  parsed : String → Option Json
  keyed : ∀ userName, ∀ value ∈ parsed userName, Keyed value

/-- `add_field` for each parameter that is in the request. -/
def ParsedRequest.json (request : ParsedRequest) : JsonObject :=
  parsedFields.filterMap fun field => (request.parsed field.1).map fun value => (field.2, value)

/-- The operations on one run that touch its document: tags, files and the updates of its data. -/
inductive DocumentOperation where
  | addTag (tagId : ℕ)
  | removeTag (tagId : ℕ)
  | createFile (fileId : ℕ)
  | update (mergeObjects : Bool) (request : ParsedRequest)

namespace DocumentOperation

/-- The update clause of the handler, applied to the document as it is then. -/
def apply (data : JsonObject) : DocumentOperation → JsonObject
  | .addTag tagId => createUpdateClause true (memberRequest .tags tagId (.boolean true)) data
  | .removeTag tagId => createUpdateClause true (memberRequest .tags tagId .null) data
  | .createFile fileId => createUpdateClause true (memberRequest .files fileId (.boolean true)) data
  | .update mergeObjects request => createUpdateClause mergeObjects request.json data

def applyAll (data : JsonObject) (operations : List DocumentOperation) : JsonObject :=
  operations.foldl apply data

/-- Whether the operation adds the member or removes it, if it is about the member at all. -/
def outcome (collection : Collection) (id : ℕ) : DocumentOperation → Option Bool
  | .addTag tagId => if collection = .tags ∧ tagId = id then some true else none
  | .removeTag tagId => if collection = .tags ∧ tagId = id then some false else none
  | .createFile fileId => if collection = .files ∧ fileId = id then some true else none
  | .update _ _ => none

end DocumentOperation

/-- What the last operation about the member says. -/
def lastSaid (collection : Collection) (id : ℕ) (operations : List DocumentOperation) : Option Bool :=
  operations.foldl (fun said operation => (operation.outcome collection id).or said) none

/-- The run is rendered with this tag, or this file. -/
def hasMember (data : JsonObject) (collection : Collection) (id : ℕ) : Bool :=
  (membersOf data collection.jsonName).hasKey (toString id)

/-- The collections that are stored are maps. -/
structure RunDocument (data : JsonObject) : Prop extends StoredDocument data where
  collections : ∀ (collection : Collection) (value : Json), data.lookup collection.jsonName = some value →
    ∃ members, value = .object members

namespace ParsedRequest

variable (request : ParsedRequest)

theorem keys_sublist : (request.json.map Prod.fst).Sublist (parsedFields.map Prod.snd) := by
  rw [json, List.map_filterMap]
  induction parsedFields with
  | nil => exact .slnil
  | cons field rest inductionHypothesis =>
      rw [List.filterMap_cons]
      cases request.parsed field.1 with
      | none => exact inductionHypothesis.cons _
      | some value => exact inductionHypothesis.cons_cons _

theorem json_keyed : Keyed (.object request.json) := by
  refine .object (request.keys_sublist.nodup (by decide)) ?_
  intro member isMember
  obtain ⟨field, _, isField⟩ := List.mem_filterMap.mp isMember
  obtain ⟨value, isParsed, rfl⟩ := Option.map_eq_some_iff.mp isField
  exact request.keyed field.1 value isParsed

theorem mem_parsedFields {member : String × Json} (isMember : member ∈ request.json) :
    member.1 ∈ parsedFields.map Prod.snd :=
  request.keys_sublist.subset (List.mem_map_of_mem isMember)

/-- The keys of a parsed request are printable. -/
theorem printable : ∀ member ∈ request.json, isPrintableKey member.1 = true := by
  have all : ∀ key ∈ parsedFields.map Prod.snd, isPrintableKey key = true := by decide
  exact fun member isMember => all member.1 (request.mem_parsedFields isMember)

/-- The parser takes no tags and no files. -/
theorem noCollection (collection : Collection) : request.json.lookup collection.jsonName = none := by
  rw [List.lookup_eq_none_iff]
  intro member isMember
  rw [bne_iff_ne]
  intro same
  have taken := request.mem_parsedFields isMember
  rw [← same] at taken
  revert taken
  cases collection <;> decide

end ParsedRequest

section Update

variable {data json : JsonObject} {key : String}

mutual

/-- All settings of a value are at or below its path. -/
theorem paths_below (mergeObjects : Bool) (path : List String) (stored : Option Json) :
    ∀ value, ∀ setting ∈ getJsonPathsAndValues mergeObjects path stored value, path <+: setting.1
  | .object members => by
      rw [getJsonPathsAndValues]
      split
      · rw [List.forall_mem_cons]
        refine ⟨List.prefix_rfl, ?_⟩
        intro setting isSetting
        obtain ⟨member, _, isBelow⟩ := members_below mergeObjects path stored members setting isSetting
        exact (List.prefix_append path [member.1]).trans isBelow
      · rw [List.forall_mem_singleton]
  | .null => by rw [getJsonPathsAndValues, List.forall_mem_singleton]
  | .boolean _ => by rw [getJsonPathsAndValues, List.forall_mem_singleton]
  | .number _ => by rw [getJsonPathsAndValues, List.forall_mem_singleton]
  | .string _ => by rw [getJsonPathsAndValues, List.forall_mem_singleton]
  | .array _ => by rw [getJsonPathsAndValues, List.forall_mem_singleton]

theorem members_below (mergeObjects : Bool) (path : List String) (stored : Option Json) :
    ∀ members : JsonObject, ∀ setting ∈ getMembersPathsAndValues mergeObjects path stored members,
      ∃ member ∈ members, path ++ [member.1] <+: setting.1
  | [] => by
      rw [getMembersPathsAndValues]
      exact fun setting isSetting => absurd isSetting List.not_mem_nil
  | (fieldName, value) :: rest => by
      rw [getMembersPathsAndValues, List.forall_mem_append]
      constructor
      · intro setting isSetting
        exact ⟨(fieldName, value), List.mem_cons_self,
          paths_below mergeObjects (path ++ [fieldName]) (storedAt stored fieldName) value setting isSetting⟩
      · intro setting isSetting
        obtain ⟨member, isMember, isBelow⟩ := members_below mergeObjects path stored rest setting isSetting
        exact ⟨member, List.mem_cons_of_mem _ isMember, isBelow⟩

end

theorem lookup_jsonbSet_of_ne {first : String} (apart : key ≠ first) (members : JsonObject) (rest : List String)
    (value : Json) :
    ∃ after, jsonbSet (.object members) (first :: rest) value = .object after ∧
      after.lookup key = members.lookup key := by
  cases rest with
  | nil => exact ⟨_, by rw [jsonbSet], lookup_setMember_of_ne value apart⟩
  | cons second others =>
      rw [jsonbSet]
      · cases members.lookup first with
        | none => exact ⟨members, rfl, rfl⟩
        | some child => exact ⟨_, rfl, lookup_setMember_of_ne _ apart⟩
      · exact List.cons_ne_nil _ _

/-- Settings at and below other members. -/
theorem lookup_setAll {settings : List (List String × Json)}
    (elsewhere : ∀ setting ∈ settings, ∃ first rest, setting.1 = first :: rest ∧ key ≠ first) (data : JsonObject) :
    ∃ after, setAll (.object data) settings = .object after ∧ after.lookup key = data.lookup key := by
  induction settings generalizing data with
  | nil => exact ⟨data, rfl, rfl⟩
  | cons setting rest inductionHypothesis =>
      rw [List.forall_mem_cons] at elsewhere
      obtain ⟨⟨first, others, isPath, apart⟩, later⟩ := elsewhere
      obtain ⟨between, isBetween, unchanged⟩ := lookup_jsonbSet_of_ne apart data others setting.2
      obtain ⟨after, isAfter, same⟩ := inductionHypothesis later between
      refine ⟨after, ?_, same.trans unchanged⟩
      rw [setAll, List.foldl_cons, isPath, isBetween]
      exact isAfter

/-- The paths of a request start with its keys, which are read as they are; what is inside may be read otherwise. -/
theorem rendered_elsewhere (mergeObjects : Bool) {stored : Option Json}
    (printable : ∀ member ∈ json, isPrintableKey member.1 = true) (missing : json.lookup key = none) :
    ∀ setting ∈ (getMembersPathsAndValues mergeObjects [] stored json).map rendered,
      ∃ first rest, setting.1 = first :: rest ∧ key ≠ first := by
  rw [List.forall_mem_map]
  intro setting isSetting
  obtain ⟨member, isMember, rest, isPath⟩ := members_below mergeObjects [] stored json setting isSetting
  rw [List.lookup_eq_none_iff] at missing
  refine ⟨member.1, jsonPathKeys rest, ?_, bne_iff_ne.mp (missing member isMember)⟩
  rw [rendered, ← isPath, List.nil_append, List.singleton_append, jsonPathKeys, List.map_cons, ← jsonPathKeys]
  exact congrArg (· :: jsonPathKeys rest) ((Db.readText_eq_iff (.name member.1)).mpr (printable member isMember))

/-- Stripping takes nothing from what is stored. -/
theorem StoredDocument.lookup_strip (isStored : StoredDocument data) {after : JsonObject}
    (distinct : (after.map Prod.fst).Nodup) (same : after.lookup key = data.lookup key) :
    (stripMembers after).lookup key = data.lookup key := by
  rw [lookup_stripMembers distinct, same]
  cases found : data.lookup key with
  | none => rfl
  | some value =>
      obtain ⟨_, notNull, stripped⟩ := isStored.of_lookup found
      rw [Option.bind_some, strippedMember_of_ne notNull, stripped]

/-- An update leaves the members alone that it does not name. -/
theorem lookup_createUpdateClause (isStored : StoredDocument data) (mergeObjects : Bool) (keyed : Keyed (.object json))
    (printable : ∀ member ∈ json, isPrintableKey member.1 = true) (missing : json.lookup key = none) :
    (createUpdateClause mergeObjects json data).lookup key = data.lookup key := by
  obtain ⟨after, isAfter, same⟩ := lookup_setAll (rendered_elsewhere mergeObjects printable missing) data
  have afterKeyed := isStored.settled mergeObjects keyed isAfter
  rw [createUpdateClause_of_setAll isAfter]
  exact isStored.lookup_strip afterKeyed.distinct same

end Update

/-! ### One member -/

section Members

variable {data : JsonObject} {collection other : Collection} {id otherId : ℕ}

theorem jsonName_injective (same : collection.jsonName = other.jsonName) : collection = other := by
  revert same
  cases collection <;> cases other <;> decide

theorem memberRequest_keyed (collection : Collection) (id : ℕ) {value : Json}
    (scalar : ∀ members, value ≠ .object members) : Keyed (.object (memberRequest collection id value)) := by
  refine .object (List.nodup_singleton _) ?_
  unfold memberRequest
  rw [List.forall_mem_singleton]
  refine .object (List.nodup_singleton _) ?_
  rw [List.forall_mem_singleton]
  exact .other scalar

theorem isPrintableKey_jsonName (collection : Collection) : isPrintableKey collection.jsonName = true := by
  cases collection <;> decide

theorem isPrintableKey_toString (id : ℕ) : isPrintableKey (toString id) = true := by
  have all : ∀ code < 10, Db.isPrintable (Char.ofNat (48 + code)) = true := by decide
  change (toString id).toList.all Db.isPrintable = true
  rw [List.all_eq_true]
  intro character member
  have isDigit : character.isDigit = true := by
    rw [Nat.toString_eq_repr, Nat.toList_repr] at member
    exact Nat.isDigit_of_mem_toDigits (by decide) (by decide) member
  obtain ⟨least, greatest⟩ := Char.isDigit_iff_toNat.mp isDigit
  change 48 ≤ character.toNat at least
  change character.toNat ≤ 57 at greatest
  rw [← Char.ofNat_toNat character, ← Nat.add_sub_cancel' least]
  exact all _ (by omega)

theorem memberRequest_plain (collection : Collection) (id : ℕ) {value : Json}
    (scalar : ∀ members, value ≠ .object members) : PlainRequest (memberRequest collection id value) where
  keyed := memberRequest_keyed collection id scalar
  printable := by
    have noKeys : printableKeys value = true := by
      cases value with
      | object members => exact absurd rfl (scalar members)
      | null | boolean | number | string | array => rw [printableKeys]; simp
    rw [memberRequest, printableMembers, printableKeys, printableMembers, printableMembers, printableMembers,
      isPrintableKey_jsonName, isPrintableKey_toString, noKeys]
    rfl

theorem RunDocument.membersStored (isRun : RunDocument data) (collection : Collection) :
    StoredDocument (membersOf data collection.jsonName) := by
  cases found : data.lookup collection.jsonName with
  | none =>
      rw [membersOf_of_missing found]
      exact .nil
  | some value =>
      obtain ⟨members, rfl⟩ := isRun.collections collection value found
      rw [membersOf_of_lookup found]
      exact isRun.toStoredDocument.inner found

/-- The map with the member set. -/
theorem mergedJson_member (isRun : RunDocument data) (collection : Collection) (id : ℕ) {value : Json}
    (scalar : ∀ members, value ≠ .object members) :
    mergedJson (data.lookup collection.jsonName) (.object [(toString id, value)]) =
      .object (setMember (membersOf data collection.jsonName) (toString id) value) := by
  have whole : ∀ stored, mergedJson stored value = value := by
    intro stored
    cases value with
    | object members => exact absurd rfl (scalar members)
    | null | boolean | number | string | array => rw [mergedJson]
  cases found : data.lookup collection.jsonName with
  | none => rw [membersOf_of_missing found, mergedJson, mergedMembers, mergedMembers, whole]
  | some stored =>
      obtain ⟨members, rfl⟩ := isRun.collections collection stored found
      rw [membersOf_of_lookup found, mergedJson, mergedMembers, mergedMembers, whole]

theorem lookup_memberRequest (isRun : RunDocument data) (collection : Collection) (id : ℕ) {value : Json}
    (scalar : ∀ members, value ≠ .object members) :
    (createUpdateClause true (memberRequest collection id value) data).lookup collection.jsonName =
      some (.object (stripMembers (setMember (membersOf data collection.jsonName) (toString id) value))) := by
  rw [createUpdateClause_eq (memberRequest_plain collection id scalar),
    lookup_stripMembers (nodup_mergedMembers isRun.keyed.distinct _), memberRequest, mergedMembers, mergedMembers,
    lookup_setMember_self, mergedJson_member isRun collection id scalar, Option.bind_some,
    strippedMember_of_ne (by simp), jsonbStripNulls]

theorem lookup_memberRequest_of_ne (isRun : RunDocument data) (apart : other ≠ collection) (id : ℕ) {value : Json}
    (scalar : ∀ members, value ≠ .object members) :
    (createUpdateClause true (memberRequest collection id value) data).lookup other.jsonName =
      data.lookup other.jsonName := by
  apply lookup_createUpdateClause isRun.toStoredDocument true (memberRequest_keyed collection id scalar)
  · rw [memberRequest, List.forall_mem_singleton]
    exact isPrintableKey_jsonName collection
  have apartNames : other.jsonName ≠ collection.jsonName := fun same => apart (jsonName_injective same)
  rw [memberRequest, List.lookup_cons, beq_eq_false_iff_ne.mpr apartNames]
  rfl

/-- Adding or removing one id keeps the collections objects of ids. -/
theorem RunDocument.member (isRun : RunDocument data) (collection : Collection) (id : ℕ) {value : Json}
    (scalar : ∀ members, value ≠ .object members) :
    RunDocument (createUpdateClause true (memberRequest collection id value) data) where
  toStoredDocument := isRun.updated true (memberRequest_keyed collection id scalar)
  collections := by
    intro other stored found
    by_cases same : other = collection
    · rw [same, lookup_memberRequest isRun collection id scalar, Option.some.injEq] at found
      exact ⟨_, found.symm⟩
    · rw [lookup_memberRequest_of_ne isRun same id scalar] at found
      exact isRun.collections other stored found

/-- Setting a member says whether it is there: a null removes it. Other members are not touched. -/
theorem hasMember_memberRequest (isRun : RunDocument data) {value : Json}
    (scalar : ∀ members, value ≠ .object members) :
    hasMember (createUpdateClause true (memberRequest other otherId value) data) collection id =
      if collection = other ∧ otherId = id then (strippedMember value).isSome else hasMember data collection id := by
  by_cases sameCollection : collection = other
  · subst sameCollection
    have members := (isRun.membersStored collection).keyed.distinct
    have lookedUp := lookup_memberRequest isRun collection otherId scalar
    rw [hasMember, membersOf_of_lookup lookedUp, JsonObject.hasKey, lookup_stripMembers (nodup_setMember members _ _)]
    by_cases sameId : otherId = id
    · rw [if_pos ⟨rfl, sameId⟩, sameId, lookup_setMember_self, Option.bind_some]
    · have apart : toString id ≠ toString otherId := fun same => sameId (Nat.repr_injective same).symm
      rw [if_neg (fun both => sameId both.2), lookup_setMember_of_ne value apart, hasMember, JsonObject.hasKey]
      cases found : (membersOf data collection.jsonName).lookup (toString id) with
      | none => rfl
      | some stored =>
          obtain ⟨_, notNull, _⟩ := (isRun.membersStored collection).of_lookup found
          rw [Option.bind_some, strippedMember_of_ne notNull, Option.isSome_some, Option.isSome_some]
  · rw [if_neg (fun both => sameCollection both.1), hasMember, hasMember,
      membersOf_congr (lookup_memberRequest_of_ne isRun sameCollection otherId scalar)]

end Members

/-! ### One operation, and a run of them -/

section Operations

variable {data : JsonObject}

/-- Every operation keeps the collections objects of ids. -/
theorem RunDocument.apply (isRun : RunDocument data) (operation : DocumentOperation) :
    RunDocument (operation.apply data) := by
  cases operation with
  | addTag tagId => exact isRun.member .tags tagId (by simp)
  | removeTag tagId => exact isRun.member .tags tagId (by simp)
  | createFile fileId => exact isRun.member .files fileId (by simp)
  | update mergeObjects request =>
      refine ⟨isRun.updated mergeObjects request.json_keyed, ?_⟩
      intro collection value found
      rw [DocumentOperation.apply, lookup_createUpdateClause isRun.toStoredDocument mergeObjects request.json_keyed
        request.printable (request.noCollection collection)] at found
      exact isRun.collections collection value found

/-- An operation that says nothing about the member leaves it as it is. -/
theorem hasMember_apply (isRun : RunDocument data) (operation : DocumentOperation) (collection : Collection) (id : ℕ) :
    hasMember (operation.apply data) collection id =
      (operation.outcome collection id).getD (hasMember data collection id) := by
  cases operation with
  | addTag tagId =>
      rw [DocumentOperation.apply, hasMember_memberRequest isRun (by simp), DocumentOperation.outcome]
      split <;> rfl
  | removeTag tagId =>
      rw [DocumentOperation.apply, hasMember_memberRequest isRun (by simp), DocumentOperation.outcome]
      split <;> rfl
  | createFile fileId =>
      rw [DocumentOperation.apply, hasMember_memberRequest isRun (by simp), DocumentOperation.outcome]
      split <;> rfl
  | update mergeObjects request =>
      rw [DocumentOperation.apply, hasMember, membersOf_congr (lookup_createUpdateClause isRun.toStoredDocument
        mergeObjects request.json_keyed request.printable (request.noCollection collection))]
      rfl

theorem lastSaid_append (collection : Collection) (id : ℕ) (operations : List DocumentOperation)
    (operation : DocumentOperation) : lastSaid collection id (operations ++ [operation]) =
      (operation.outcome collection id).or (lastSaid collection id operations) := by
  rw [lastSaid, List.foldl_append]
  rfl

theorem RunDocument.applyAll (isRun : RunDocument data) (operations : List DocumentOperation) :
    RunDocument (DocumentOperation.applyAll data operations) := by
  induction operations generalizing data with
  | nil => exact isRun
  | cons operation rest inductionHypothesis => exact inductionHypothesis (isRun.apply operation)

end Operations

/-- In every run of operations, a tag or a file is there exactly if the last operation about it added it, or if there
    was none and it was there before; replacing or merging other data of the run in between does not matter. -/
theorem members_as_last_said {data : JsonObject} (isRun : RunDocument data) (operations : List DocumentOperation)
    (collection : Collection) (id : ℕ) :
    hasMember (DocumentOperation.applyAll data operations) collection id =
      (lastSaid collection id operations).getD (hasMember data collection id) := by
  induction operations using List.reverseRecOn with
  | nil => rfl
  | append_singleton operations operation inductionHypothesis =>
      have isStill := isRun.applyAll operations
      rw [lastSaid_append, DocumentOperation.applyAll, List.foldl_append, List.foldl_cons, List.foldl_nil]
      refine (hasMember_apply isStill operation collection id).trans ?_
      cases operation.outcome collection id with
      | none => exact inductionHypothesis
      | some said => rfl

/-- A run with a tag, which is removed and added again around an update. -/
def taggedRun : JsonObject := [("t", .object [("7", .boolean true)]), ("n", .string "run")]

theorem taggedRun_stored : RunDocument taggedRun where
  keyed := by
    refine .object (by decide) ?_
    unfold taggedRun
    rw [List.forall_mem_cons, List.forall_mem_singleton]
    exact ⟨keyed_of_decide (by decide) (by simp), .other (by simp)⟩
  stripped := by simp [taggedRun, stripMembers, jsonbStripNulls]
  collections := by
    intro collection value found
    cases collection with
    | tags => exact ⟨_, (Option.some.inj found).symm⟩
    | files => cases found

/-- A name, and metadata with an accented key. -/
def renamedRequest : ParsedRequest where
  parsed := fun userName =>
    if userName = "name" then some (.string "renamed")
    else if userName = "metadata" then some (.object [("précision", .number 1)])
    else none
  keyed := by
    intro userName value isParsed
    split at isParsed
    · cases isParsed
      exact .other (by simp)
    · split at isParsed
      · cases isParsed
        exact keyed_of_decide (by decide) (by simp)
      · cases isParsed

/-- The tag is removed, then there are a merge and another tag, and it is added again. -/
theorem members_as_last_said_tagged :
    hasMember (DocumentOperation.applyAll taggedRun
      [.removeTag 7, .update true renamedRequest, .addTag 8, .removeTag 8, .addTag 7]) .tags 7 = true := by
  rw [members_as_last_said taggedRun_stored]
  rfl

end Zigopt.TrainingRuns
