/-
Module: Zigopt.TrainingRuns.MergedLeaves
Layer: Proofs
Purpose: The settings that an update by MERGE makes in the document of a run are a recursive merge: by paths, the
  document is the stored one merged with the request. Updates of different leaves can come in any order, an update
  that comes again changes nothing, and the sets of tags and files are what was said last about each member.
Main exports: StoredDocument, treeOf, requestOf, treeOf_createUpdateClause, merged_leaves, merged_in_any_order,
  merged_again
-/
import Zigopt.Lib.RecursiveMerge
import Zigopt.TrainingRuns.Documents

namespace Zigopt.TrainingRuns

open RecursiveMerge

/-! ### Documents by paths -/

/-- Each object has each key once. -/
inductive Keyed : Json → Prop where
  | object {members : JsonObject} (distinct : (members.map Prod.fst).Nodup)
      (inside : ∀ member ∈ members, Keyed member.2) : Keyed (.object members)
  | other {document : Json} (notObject : ∀ members, document ≠ .object members) : Keyed document

def memberAt : List String → Json → Option Json
  | [], document => some document
  | key :: path, document => (storedAt (some document) key).bind (memberAt path)

def node : Json → Node Json
  | .object _ => .branch
  | document => .leaf document

/-- Of a request: a null removes, and what is put is stripped of the nulls inside. -/
def change : Json → Change Json
  | .object _ => .branch
  | .null => .remove
  | document => .put (jsonbStripNulls document)

/-- The document of a run as the tree that the merge works on. -/
def treeOf (document : Json) : Tree String Json := fun path => (memberAt path document).map node

/-- The parsed request as a tree of changes, where null removes. -/
def requestOf (json : Json) : Request String Json := fun path => (memberAt path json).map change

mutual

/-- All keys under which a merge sets something are read as they are. -/
def printableKeys : Json → Bool
  | .object members => printableMembers members
  | _ => true

def printableMembers : List (String × Json) → Bool
  | [] => true
  | (key, value) :: rest => isPrintableKey key && printableKeys value && printableMembers rest

end

/-- The data of a request by MERGE: each object has each key once, and the keys are printable. -/
structure PlainRequest (json : JsonObject) : Prop where
  keyed : Keyed (.object json)
  printable : printableMembers json = true

/-- The document of a stored run: nulls are stripped whenever it is written. -/
structure StoredDocument (data : JsonObject) : Prop where
  keyed : Keyed (.object data)
  stripped : stripMembers data = data

section Paths

variable {document value : Json} {members data : JsonObject} {key : String}

/-- The members of a keyed document have distinct names. -/
theorem Keyed.distinct (keyed : Keyed (.object members)) : (members.map Prod.fst).Nodup := by
  cases keyed with
  | object distinct _ => exact distinct
  | other notObject => exact absurd rfl (notObject members)

theorem Keyed.inside (keyed : Keyed (.object members)) : ∀ member ∈ members, Keyed member.2 := by
  cases keyed with
  | object _ inside => exact inside
  | other notObject => exact absurd rfl (notObject members)

theorem Keyed.of_lookup (keyed : Keyed (.object members)) (found : members.lookup key = some value) : Keyed value :=
  keyed.inside _ (JsonObject.mem_of_lookup found)

theorem treeOf_nil (document : Json) : treeOf document [] = some (node document) := rfl

theorem below_treeOf (key : String) (document : Json) :
    below key (treeOf document) = (storedAt (some document) key).elim (fun _ => none) treeOf := by
  funext path
  unfold below treeOf
  rw [memberAt]
  cases storedAt (some document) key <;> rfl

theorem below_requestOf (key : String) (json : Json) :
    below key (requestOf json) = (storedAt (some json) key).elim (fun _ => none) requestOf := by
  funext path
  unfold below requestOf
  rw [memberAt]
  cases storedAt (some json) key <;> rfl

theorem storedAt_of_not_object (notObject : ∀ members, document ≠ .object members) :
    storedAt (some document) key = none := by
  cases document with
  | object members => exact absurd rfl (notObject members)
  | null | boolean | number | string | array => rfl

theorem StoredDocument.nil : StoredDocument [] where
  keyed := .object List.nodup_nil fun member isMember => absurd isMember List.not_mem_nil
  stripped := by rw [stripMembers]

/-- What is stored inside is keyed, no null, and stripped itself. -/
theorem StoredDocument.of_lookup (stored : StoredDocument data) (found : data.lookup key = some value) :
    Keyed value ∧ value ≠ .null ∧ jsonbStripNulls value = value := by
  have member := JsonObject.mem_of_lookup found
  exact ⟨stored.keyed.inside _ member, stripMembers_eq_self_iff.mp stored.stripped _ member⟩

theorem StoredDocument.inner (stored : StoredDocument data) (found : data.lookup key = some (.object members)) :
    StoredDocument members := by
  obtain ⟨keyed, _, stripped⟩ := stored.of_lookup found
  rw [jsonbStripNulls, Json.object.injEq] at stripped
  exact ⟨keyed, stripped⟩

end Paths

/-! ### What the settings leave -/

mutual

/-- The value that is stored where a request says this. -/
def mergedJson (stored : Option Json) : Json → Json
  | .object members =>
      match stored with
      | none => .object (mergedMembers [] members)
      | some (.object data) => .object (mergedMembers data members)
      | some other => other
  | .null => .null
  | .boolean value => .boolean value
  | .number value => .number value
  | .string text => .string text
  | .array items => .array items

def mergedMembers (data : JsonObject) : List (String × Json) → JsonObject
  | [] => data
  | (key, value) :: rest => mergedMembers (setMember data key (mergedJson (data.lookup key) value)) rest

end

section Settings

variable {data members : JsonObject} {key : String}

theorem setMember_setMember (data : JsonObject) (key : String) (first second : Json) :
    setMember (setMember data key first) key second = setMember data key second := by
  have stored : (setMember data key first).hasKey key = true := by
    rw [JsonObject.hasKey, lookup_setMember_self, Option.isSome_some]
  rw [setMember, if_pos stored]
  unfold setMember
  split
  · rw [List.map_map]
    apply List.map_congr_left
    intro member _
    dsimp only [Function.comp]
    split
    · rw [if_pos rfl]
    · rfl
  · rename_i missing
    have apart : ∀ member ∈ data, member.1 ≠ key := by
      rw [Bool.not_eq_true, JsonObject.hasKey, Option.isSome_eq_false_iff, Option.isNone_iff_eq_none,
        List.lookup_eq_none_iff] at missing
      intro member isMember same
      exact absurd same.symm (bne_iff_ne.mp (missing member isMember))
    rw [List.map_append, List.map_singleton, if_pos rfl]
    congr 1
    rw [List.map_congr_left fun member isMember => if_neg (apart member isMember)]
    exact List.map_id' data

/-- Settings below a member that has just been set. -/
theorem setAll_setMember {settings : List (List String × Json)} (inside : ∀ setting ∈ settings, setting.1 ≠ [])
    (data : JsonObject) (key : String) (child : Json) :
    setAll (.object (setMember data key child)) (settings.map (under key)) =
      .object (setMember data key (setAll child settings)) := by
  induction settings generalizing child with
  | nil => rfl
  | cons setting rest inductionHypothesis =>
      rw [List.forall_mem_cons] at inside
      rw [List.map_cons, setAll, List.foldl_cons, jsonbSet_under (lookup_setMember_self data key child) inside.1,
        setMember_setMember]
      exact inductionHypothesis inside.2 (jsonbSet child setting.1 setting.2)

theorem jsonbSet_of_not_object {document : Json} (notObject : ∀ members, document ≠ .object members)
    (path : List String) (value : Json) : jsonbSet document path value = document := by
  cases document with
  | object members => exact absurd rfl (notObject members)
  | null | boolean | number | string | array => rw [jsonbSet] <;> simp

theorem setAll_of_not_object {document : Json} (notObject : ∀ members, document ≠ .object members)
    (settings : List (List String × Json)) : setAll document settings = document := by
  induction settings with
  | nil => rfl
  | cons setting rest inductionHypothesis =>
      rw [setAll, List.foldl_cons, jsonbSet_of_not_object notObject]
      exact inductionHypothesis

mutual

theorem paths_under (key : String) (path : List String) (stored : Option Json) :
    ∀ value, getJsonPathsAndValues true (key :: path) stored value =
      (getJsonPathsAndValues true path stored value).map (under key)
  | .object members => by
      rw [getJsonPathsAndValues, getJsonPathsAndValues, if_pos rfl, if_pos rfl, List.map_cons,
        members_under key path stored members]
      rfl
  | .null => by rw [getJsonPathsAndValues, getJsonPathsAndValues, List.map_singleton, under]
  | .boolean _ => by rw [getJsonPathsAndValues, getJsonPathsAndValues, List.map_singleton, under]
  | .number _ => by rw [getJsonPathsAndValues, getJsonPathsAndValues, List.map_singleton, under]
  | .string _ => by rw [getJsonPathsAndValues, getJsonPathsAndValues, List.map_singleton, under]
  | .array _ => by rw [getJsonPathsAndValues, getJsonPathsAndValues, List.map_singleton, under]

theorem members_under (key : String) (path : List String) (stored : Option Json) :
    ∀ members, getMembersPathsAndValues true (key :: path) stored members =
      (getMembersPathsAndValues true path stored members).map (under key)
  | [] => by rw [getMembersPathsAndValues, getMembersPathsAndValues, List.map_nil]
  | (fieldName, value) :: rest => by
      rw [getMembersPathsAndValues, getMembersPathsAndValues, List.map_append, List.cons_append,
        paths_under key (path ++ [fieldName]) (storedAt stored fieldName) value, members_under key path stored rest]

end

mutual

/-- All paths of a value begin with the path of the value. -/
theorem paths_inside (path : List String) (notRoot : path ≠ []) (stored : Option Json) :
    ∀ value, ∀ setting ∈ getJsonPathsAndValues true path stored value, setting.1 ≠ []
  | .object members => by
      rw [getJsonPathsAndValues, if_pos rfl, List.forall_mem_cons]
      exact ⟨notRoot, members_inside path stored members⟩
  | .null => by rw [getJsonPathsAndValues, List.forall_mem_singleton]; exact notRoot
  | .boolean _ => by rw [getJsonPathsAndValues, List.forall_mem_singleton]; exact notRoot
  | .number _ => by rw [getJsonPathsAndValues, List.forall_mem_singleton]; exact notRoot
  | .string _ => by rw [getJsonPathsAndValues, List.forall_mem_singleton]; exact notRoot
  | .array _ => by rw [getJsonPathsAndValues, List.forall_mem_singleton]; exact notRoot

theorem members_inside (path : List String) (stored : Option Json) :
    ∀ members, ∀ setting ∈ getMembersPathsAndValues true path stored members, setting.1 ≠ []
  | [] => by
      rw [getMembersPathsAndValues]
      exact fun setting isSetting => absurd isSetting List.not_mem_nil
  | (fieldName, value) :: rest => by
      rw [getMembersPathsAndValues]
      intro setting isSetting
      rcases List.mem_append.mp isSetting with ofValue | ofRest
      · exact paths_inside (path ++ [fieldName]) (by simp) (storedAt stored fieldName) value setting ofValue
      · exact members_inside path stored rest setting ofRest

end

mutual

/-- The settings of a merge are written where its paths say. -/
theorem paths_printable (path : List String) (above : ∀ key ∈ path, isPrintableKey key = true)
    (stored : Option Json) :
    ∀ value, printableKeys value = true → ∀ setting ∈ getJsonPathsAndValues true path stored value,
      ∀ key ∈ setting.1, isPrintableKey key = true
  | .object members, printable => by
      rw [getJsonPathsAndValues, if_pos rfl, List.forall_mem_cons]
      rw [printableKeys] at printable
      exact ⟨above, members_printable path above stored members printable⟩
  | .null, _ => by rw [getJsonPathsAndValues, List.forall_mem_singleton]; exact above
  | .boolean _, _ => by rw [getJsonPathsAndValues, List.forall_mem_singleton]; exact above
  | .number _, _ => by rw [getJsonPathsAndValues, List.forall_mem_singleton]; exact above
  | .string _, _ => by rw [getJsonPathsAndValues, List.forall_mem_singleton]; exact above
  | .array _, _ => by rw [getJsonPathsAndValues, List.forall_mem_singleton]; exact above

theorem members_printable (path : List String) (above : ∀ key ∈ path, isPrintableKey key = true)
    (stored : Option Json) :
    ∀ members, printableMembers members = true → ∀ setting ∈ getMembersPathsAndValues true path stored members,
      ∀ key ∈ setting.1, isPrintableKey key = true
  | [], _ => by
      rw [getMembersPathsAndValues]
      exact fun setting isSetting => absurd isSetting List.not_mem_nil
  | (fieldName, value) :: rest, printable => by
      rw [printableMembers, Bool.and_eq_true, Bool.and_eq_true] at printable
      obtain ⟨⟨isName, inside⟩, others⟩ := printable
      have aboveValue : ∀ key ∈ path ++ [fieldName], isPrintableKey key = true := by
        rw [List.forall_mem_append, List.forall_mem_singleton]
        exact ⟨above, isName⟩
      rw [getMembersPathsAndValues, List.forall_mem_append]
      exact ⟨paths_printable (path ++ [fieldName]) aboveValue (storedAt stored fieldName) value inside,
        members_printable path above stored rest others⟩

end

mutual

/-- The settings of one member set it to the merged value. -/
theorem setAll_paths (data : JsonObject) (key : String) (stored : Option Json) :
    ∀ value, Keyed value →
      setAll (.object data) (getJsonPathsAndValues true [key] stored value) =
        .object (setMember data key (mergedJson stored value))
  | .object members, keyed => by
      rw [getJsonPathsAndValues, if_pos rfl, setAll, List.foldl_cons, jsonbSet, members_under key [] stored members]
      refine (setAll_setMember (members_inside [] stored members) data key _).trans ?_
      congr 2
      cases stored with
      | none =>
          rw [mergedJson]
          exact setAll_members [] none members keyed.distinct keyed.inside fun _ _ => rfl
      | some document =>
          rw [Option.getD_some]
          cases document with
          | object inner =>
              rw [mergedJson]
              exact setAll_members inner (some (.object inner)) members keyed.distinct keyed.inside fun _ _ => rfl
          | null | boolean | number | string | array =>
              rw [mergedJson]
              · exact setAll_of_not_object (by simp) _
              · simp
  | .null, _ => by rw [getJsonPathsAndValues, mergedJson, setAll, List.foldl_cons, jsonbSet]; rfl
  | .boolean _, _ => by rw [getJsonPathsAndValues, mergedJson, setAll, List.foldl_cons, jsonbSet]; rfl
  | .number _, _ => by rw [getJsonPathsAndValues, mergedJson, setAll, List.foldl_cons, jsonbSet]; rfl
  | .string _, _ => by rw [getJsonPathsAndValues, mergedJson, setAll, List.foldl_cons, jsonbSet]; rfl
  | .array _, _ => by rw [getJsonPathsAndValues, mergedJson, setAll, List.foldl_cons, jsonbSet]; rfl

/-- What was stored under the keys of the request is still there when their turn comes. -/
theorem setAll_members (data : JsonObject) (stored : Option Json) :
    ∀ members, (members.map Prod.fst).Nodup → (∀ member ∈ members, Keyed member.2) →
      (∀ member ∈ members, data.lookup member.1 = storedAt stored member.1) →
      setAll (.object data) (getMembersPathsAndValues true [] stored members) = .object (mergedMembers data members)
  | [], _, _, _ => by rw [getMembersPathsAndValues, mergedMembers]; rfl
  | (key, value) :: rest, distinct, inside, still => by
      rw [List.map_cons, List.nodup_cons] at distinct
      rw [List.forall_mem_cons] at inside still
      rw [getMembersPathsAndValues, setAll_append, List.nil_append, ← still.1,
        setAll_paths data key (data.lookup key) value inside.1, mergedMembers]
      apply setAll_members _ stored rest distinct.2 inside.2
      intro member isMember
      have apart : member.1 ≠ key := by
        intro same
        exact distinct.1 (List.mem_map.mpr ⟨member, isMember, same⟩)
      rw [lookup_setMember_of_ne _ apart]
      exact still.2 member isMember

end

/-- The update leaves the merged members, without their nulls. -/
theorem createUpdateClause_eq {json : JsonObject} (plain : PlainRequest json) (data : JsonObject) :
    createUpdateClause true json data = stripMembers (mergedMembers data json) := by
  apply createUpdateClause_of_setAll
  rw [map_rendered (members_printable [] (List.forall_mem_nil _) _ json plain.printable)]
  exact setAll_members data (some (.object data)) json plain.keyed.distinct plain.keyed.inside fun _ _ => rfl

theorem lookup_mergedMembers (distinct : (members.map Prod.fst).Nodup) (data : JsonObject) (key : String) :
    (mergedMembers data members).lookup key =
      ((members.lookup key).map (mergedJson (data.lookup key))).or (data.lookup key) := by
  induction members generalizing data with
  | nil =>
      rw [mergedMembers]
      rfl
  | cons member rest inductionHypothesis =>
      obtain ⟨other, value⟩ := member
      rw [List.map_cons, List.nodup_cons] at distinct
      rw [mergedMembers, inductionHypothesis distinct.2, List.lookup_cons]
      by_cases same : key = other
      · have unfound : rest.lookup other = none := by
          rw [List.lookup_eq_none_iff]
          intro member isMember
          rw [bne_iff_ne]
          intro again
          exact distinct.1 (List.mem_map.mpr ⟨member, isMember, again.symm⟩)
        rw [same, unfound, lookup_setMember_self, beq_self_eq_true]
        rfl
      · rw [lookup_setMember_of_ne _ same, beq_eq_false_iff_ne.mpr same]

theorem nodup_mergedMembers (distinct : (data.map Prod.fst).Nodup) (members : JsonObject) :
    ((mergedMembers data members).map Prod.fst).Nodup := by
  induction members generalizing data with
  | nil =>
      rw [mergedMembers]
      exact distinct
  | cons member rest inductionHypothesis =>
      rw [mergedMembers]
      exact inductionHypothesis (nodup_setMember distinct _ _)

end Settings

/-! ### The merge by paths -/

/-- The tree of what may be missing. -/
def treeAt (stored : Option Json) : Tree String Json := stored.elim (fun _ => none) treeOf

theorem treeAt_some (value : Json) : treeAt (some value) = treeOf value := rfl

/-- What is stored inside a document. -/
structure StoredValue (value : Json) : Prop where
  keyed : Keyed value
  notNull : value ≠ .null
  stripped : jsonbStripNulls value = value

section Merge

variable {data members : JsonObject} {key : String} {path : List String} {value : Json} {stored : Option Json}

theorem StoredDocument.storedValue (isStored : StoredDocument data) :
    ∀ value ∈ data.lookup key, StoredValue value := by
  intro value found
  obtain ⟨keyed, notNull, stripped⟩ := isStored.of_lookup found
  exact ⟨keyed, notNull, stripped⟩

theorem StoredValue.document (isStored : StoredValue (.object data)) : StoredDocument data where
  keyed := isStored.keyed
  stripped := Json.object.inj (by rw [← jsonbStripNulls]; exact isStored.stripped)

theorem treeOf_cons (key : String) (path : List String) (document : Json) :
    treeOf document (key :: path) = treeAt (storedAt (some document) key) path :=
  congrFun (below_treeOf key document) path

/-- A value that is no object and no null takes the place of what is stored. -/
theorem merge_of_put (notObject : ∀ members, value ≠ .object members) (notNull : value ≠ .null)
    (tree : Tree String Json) : merge (requestOf value) tree = treeOf (jsonbStripNulls value) := by
  have stillNoObject : ∀ members, jsonbStripNulls value ≠ .object members := by
    cases value with
    | object members => exact absurd rfl (notObject members)
    | null => exact absurd rfl notNull
    | boolean | number | string | array => simp [jsonbStripNulls]
  have isLeaf : node (jsonbStripNulls value) = .leaf (jsonbStripNulls value) := by
    cases stripped : jsonbStripNulls value with
    | object members => exact absurd stripped (stillNoObject members)
    | null | boolean | number | string | array => rfl
  have puts : requestOf value [] = some (.put (jsonbStripNulls value)) := by
    cases value with
    | object members => exact absurd rfl (notObject members)
    | null => exact absurd rfl notNull
    | boolean | number | string | array => rfl
  funext path
  cases path with
  | nil => rw [treeOf_nil, merge_nil, puts, mergedHere, isLeaf]
  | cons key path =>
      rw [merge_cons_of_put puts, treeOf_cons, storedAt_of_not_object stillNoObject]
      rfl

theorem merge_of_null (tree : Tree String Json) : merge (requestOf .null) tree = fun _ => none := by
  have removes : requestOf .null [] = some .remove := rfl
  funext path
  cases path with
  | nil => rw [merge_nil, removes, mergedHere]
  | cons key path => exact merge_cons_of_remove removes

/-- What is stored and no object stays where a request has an object. -/
theorem merge_of_kept (notObject : ∀ members, value ≠ .object members) (members : JsonObject) :
    merge (requestOf (.object members)) (treeOf value) = treeOf value := by
  have enters : requestOf (.object members) [] = some .branch := rfl
  have isLeaf : treeOf value [] = some (.leaf value) := by
    cases value with
    | object inner => exact absurd rfl (notObject inner)
    | null | boolean | number | string | array => rfl
  funext path
  cases path with
  | nil => rw [merge_nil, enters, isLeaf, mergedHere, Option.getD_some]
  | cons key path => exact merge_cons_of_leaf enters isLeaf

/-- A request for a missing object is merged into an empty one. -/
theorem merge_of_missing (members : JsonObject) :
    merge (requestOf (.object members)) (treeAt none) = merge (requestOf (.object members)) (treeOf (.object [])) := by
  refine (merge_branch_of_empty rfl rfl ?_).symm
  intro key path
  rw [treeOf_cons]
  rfl

/-- Below a member, if the merge is right for what the request has there. -/
theorem treeOf_mergedMembers_cons (isStored : StoredDocument data) (keyed : Keyed (.object members))
    (right : ∀ value ∈ members.lookup key,
      treeAt (strippedMember (mergedJson (data.lookup key) value)) path =
        merge (requestOf value) (treeAt (data.lookup key)) path) :
    treeOf (.object (stripMembers (mergedMembers data members))) (key :: path) =
      merge (requestOf (.object members)) (treeOf (.object data)) (key :: path) := by
  have isOpen : ∀ value, treeOf (.object data) [] ≠ some (.leaf value) := by
    intro value
    rw [treeOf_nil, node]
    simp
  rw [merge_cons_of_branch rfl isOpen, below_treeOf, below_requestOf, treeOf_cons, storedAt, storedAt, storedAt,
    lookup_stripMembers (nodup_mergedMembers isStored.keyed.distinct members),
    lookup_mergedMembers keyed.distinct]
  cases found : members.lookup key with
  | none =>
      rw [Option.map_none, Option.none_or, Option.elim_none, merge_of_silent rfl]
      cases isThere : data.lookup key with
      | none => rfl
      | some value =>
          obtain ⟨_, notNull, stripped⟩ := isStored.of_lookup isThere
          rw [Option.bind_some, strippedMember_of_ne notNull, stripped]
          rfl
  | some value =>
      rw [Option.map_some, Option.some_or, Option.bind_some, Option.elim_some]
      exact right value found

/-- The cases of what is stored and what the request says, if the merge is right for two objects. -/
theorem treeAt_mergedJson (keyed : Keyed value) (isStored : ∀ document ∈ stored, StoredValue document)
    (right : ∀ data members, StoredDocument data → Keyed (.object members) →
      treeOf (.object (stripMembers (mergedMembers data members))) path =
        merge (requestOf (.object members)) (treeOf (.object data)) path) :
    treeAt (strippedMember (mergedJson stored value)) path = merge (requestOf value) (treeAt stored) path := by
  cases value with
  | null =>
      rw [merge_of_null, mergedJson]
      rfl
  | boolean | number | string | array =>
      rw [merge_of_put (by simp) (by simp), mergedJson, strippedMember_of_ne (by simp)]
      rfl
  | object members =>
      cases stored with
      | none =>
          rw [merge_of_missing, mergedJson, strippedMember_of_ne (by simp), jsonbStripNulls]
          exact right [] members .nil keyed
      | some document =>
          have isStored := isStored document rfl
          cases document with
          | object data =>
              rw [mergedJson, strippedMember_of_ne (by simp), jsonbStripNulls]
              exact right data members isStored.document keyed
          | null => exact absurd rfl isStored.notNull
          | boolean | number | string | array =>
              rw [treeAt_some, merge_of_kept (by simp), mergedJson, strippedMember_of_ne isStored.notNull,
                isStored.stripped, treeAt_some]
              simp

theorem treeOf_mergedMembers (isStored : StoredDocument data) (keyed : Keyed (.object members)) :
    treeOf (.object (stripMembers (mergedMembers data members))) =
      merge (requestOf (.object members)) (treeOf (.object data)) := by
  funext path
  induction path generalizing data members with
  | nil => rfl
  | cons key path inductionHypothesis =>
      apply treeOf_mergedMembers_cons isStored keyed
      intro value found
      exact treeAt_mergedJson (keyed.of_lookup found) isStored.storedValue
        fun data members isStored keyed => inductionHypothesis isStored keyed

/-- The document that a MERGE leaves is the stored one, merged with the request. -/
theorem treeOf_createUpdateClause {json : JsonObject} (isStored : StoredDocument data) (plain : PlainRequest json) :
    treeOf (.object (createUpdateClause true json data)) =
      merge (requestOf (.object json)) (treeOf (.object data)) := by
  rw [createUpdateClause_eq plain]
  exact treeOf_mergedMembers isStored plain.keyed

end Merge

/-! ### A document stays a stored one -/

section Kept

variable {data members : JsonObject} {key : String} {value : Json}

mutual

theorem jsonbStripNulls_again : ∀ value, jsonbStripNulls (jsonbStripNulls value) = jsonbStripNulls value
  | .object members => by rw [jsonbStripNulls, jsonbStripNulls, stripMembers_again members]
  | .array items => by rw [jsonbStripNulls, jsonbStripNulls, stripItems_again items]
  | .null => by rw [jsonbStripNulls, jsonbStripNulls]
  | .boolean _ => by rw [jsonbStripNulls, jsonbStripNulls]
  | .number _ => by rw [jsonbStripNulls, jsonbStripNulls]
  | .string _ => by rw [jsonbStripNulls, jsonbStripNulls]

theorem stripMembers_again : ∀ members, stripMembers (stripMembers members) = stripMembers members
  | [] => by rw [stripMembers, stripMembers]
  | (key, value) :: rest => by
      by_cases isNull : value = .null
      · rw [isNull, stripMembers, stripMembers_again rest]
      · have stillNotNull : jsonbStripNulls value ≠ .null := by
          cases value with
          | null => exact absurd rfl isNull
          | boolean | number | string | array | object => simp [jsonbStripNulls]
        rw [stripMembers_cons_of_ne isNull, stripMembers_cons_of_ne stillNotNull, jsonbStripNulls_again value,
          stripMembers_again rest]

theorem stripItems_again : ∀ items, stripItems (stripItems items) = stripItems items
  | [] => by rw [stripItems, stripItems]
  | item :: rest => by rw [stripItems, stripItems, jsonbStripNulls_again item, stripItems_again rest]

end

mutual

/-- Stripping nulls keeps the keys distinct. -/
theorem Keyed.strip : ∀ value, Keyed value → Keyed (jsonbStripNulls value)
  | .object members, keyed => by
      rw [jsonbStripNulls]
      exact .object (nodup_stripMembers keyed.distinct) (Keyed.stripMembers members keyed.inside)
  | .array _, _ => by rw [jsonbStripNulls]; exact .other (by simp)
  | .null, _ => by rw [jsonbStripNulls]; exact .other (by simp)
  | .boolean _, _ => by rw [jsonbStripNulls]; exact .other (by simp)
  | .number _, _ => by rw [jsonbStripNulls]; exact .other (by simp)
  | .string _, _ => by rw [jsonbStripNulls]; exact .other (by simp)

theorem Keyed.stripMembers : ∀ members : JsonObject, (∀ member ∈ members, Keyed member.2) →
    ∀ member ∈ TrainingRuns.stripMembers members, Keyed member.2
  | [], _ => by
      rw [TrainingRuns.stripMembers]
      exact fun member isMember => absurd isMember List.not_mem_nil
  | (key, value) :: rest, inside => by
      rw [List.forall_mem_cons] at inside
      by_cases isNull : value = .null
      · rw [isNull, TrainingRuns.stripMembers]
        exact Keyed.stripMembers rest inside.2
      · rw [stripMembers_cons_of_ne isNull, List.forall_mem_cons]
        exact ⟨Keyed.strip value inside.1, Keyed.stripMembers rest inside.2⟩

end

/-- Setting a member keeps the keys distinct. -/
theorem Keyed.setMember (keyed : Keyed (.object data)) (valueKeyed : Keyed value) :
    Keyed (.object (setMember data key value)) := by
  refine .object (nodup_setMember keyed.distinct key value) ?_
  unfold TrainingRuns.setMember
  split
  · intro member isMember
    obtain ⟨before, isBefore, rfl⟩ := List.mem_map.mp isMember
    split
    · exact valueKeyed
    · exact keyed.inside before isBefore
  · rw [List.forall_mem_append, List.forall_mem_singleton]
    exact ⟨keyed.inside, valueKeyed⟩

/-- `jsonb_set` leaves an object, whatever the path is. -/
theorem jsonbSet_object (members : JsonObject) (path : List String) (value : Json) :
    ∃ after, jsonbSet (.object members) path value = .object after := by
  cases path with
  | nil => exact ⟨members, by rw [jsonbSet] <;> simp⟩
  | cons first rest =>
      cases rest with
      | nil => exact ⟨_, by rw [jsonbSet]⟩
      | cons second others =>
          rw [jsonbSet]
          · cases members.lookup first with
            | none => exact ⟨members, rfl⟩
            | some child => exact ⟨_, rfl⟩
          · exact List.cons_ne_nil _ _

theorem setAll_object (members : JsonObject) (settings : List (List String × Json)) :
    ∃ after, setAll (.object members) settings = .object after := by
  induction settings generalizing members with
  | nil => exact ⟨members, rfl⟩
  | cons setting rest inductionHypothesis =>
      obtain ⟨between, isBetween⟩ := jsonbSet_object members setting.1 setting.2
      rw [setAll, List.foldl_cons, isBetween]
      exact inductionHypothesis between

/-- `jsonb_set` keeps the keys distinct. -/
theorem Keyed.jsonbSet (path : List String) {document : Json} (keyed : Keyed document) (valueKeyed : Keyed value) :
    Keyed (TrainingRuns.jsonbSet document path value) := by
  induction path generalizing document with
  | nil =>
      rw [TrainingRuns.jsonbSet]
      · exact keyed
      all_goals simp
  | cons first rest inductionHypothesis =>
      cases document with
      | object members =>
          cases rest with
          | nil =>
              rw [TrainingRuns.jsonbSet]
              exact keyed.setMember valueKeyed
          | cons second others =>
              rw [TrainingRuns.jsonbSet]
              · cases found : members.lookup first with
                | none => exact keyed
                | some child => exact keyed.setMember (inductionHypothesis (keyed.of_lookup found))
              · exact List.cons_ne_nil _ _
      | null | boolean | number | string | array =>
          rw [jsonbSet_of_not_object (by simp)]
          exact keyed

mutual

/-- What is set is keyed: it is of the request, or what is stored. -/
theorem paths_keyed (mergeObjects : Bool) (path : List String) (stored : Option Json)
    (storedKeyed : ∀ document ∈ stored, Keyed document) :
    ∀ value, Keyed value → ∀ setting ∈ getJsonPathsAndValues mergeObjects path stored value, Keyed setting.2
  | .object members, keyed => by
      rw [getJsonPathsAndValues]
      split
      · rw [List.forall_mem_cons]
        refine ⟨?_, members_keyed mergeObjects path stored storedKeyed members keyed.inside⟩
        cases stored with
        | none => exact StoredDocument.nil.keyed
        | some document => exact storedKeyed document rfl
      · rw [List.forall_mem_singleton]
        exact keyed
  | .null, keyed => by rw [getJsonPathsAndValues, List.forall_mem_singleton]; exact keyed
  | .boolean _, keyed => by rw [getJsonPathsAndValues, List.forall_mem_singleton]; exact keyed
  | .number _, keyed => by rw [getJsonPathsAndValues, List.forall_mem_singleton]; exact keyed
  | .string _, keyed => by rw [getJsonPathsAndValues, List.forall_mem_singleton]; exact keyed
  | .array _, keyed => by rw [getJsonPathsAndValues, List.forall_mem_singleton]; exact keyed

theorem members_keyed (mergeObjects : Bool) (path : List String) (stored : Option Json)
    (storedKeyed : ∀ document ∈ stored, Keyed document) :
    ∀ members : JsonObject, (∀ member ∈ members, Keyed member.2) →
      ∀ setting ∈ getMembersPathsAndValues mergeObjects path stored members, Keyed setting.2
  | [], _ => by
      rw [getMembersPathsAndValues]
      exact fun setting isSetting => absurd isSetting List.not_mem_nil
  | (fieldName, value) :: rest, inside => by
      rw [List.forall_mem_cons] at inside
      have below : ∀ document ∈ storedAt stored fieldName, Keyed document := by
        intro document found
        cases stored with
        | none => cases found
        | some parent =>
            cases parent with
            | object members => exact (storedKeyed _ rfl).of_lookup found
            | null | boolean | number | string | array => cases found
      rw [getMembersPathsAndValues, List.forall_mem_append]
      exact ⟨paths_keyed mergeObjects (path ++ [fieldName]) (storedAt stored fieldName) below value inside.1,
        members_keyed mergeObjects path stored storedKeyed rest inside.2⟩

end

/-- Settings with distinct keys keep them distinct. -/
theorem Keyed.setAll {settings : List (List String × Json)} (settingsKeyed : ∀ setting ∈ settings, Keyed setting.2)
    {document : Json} (keyed : Keyed document) : Keyed (TrainingRuns.setAll document settings) := by
  induction settings generalizing document with
  | nil => exact keyed
  | cons setting rest inductionHypothesis =>
      rw [List.forall_mem_cons] at settingsKeyed
      exact inductionHypothesis settingsKeyed.2 (keyed.jsonbSet setting.1 settingsKeyed.1)

/-- A document with distinct keys is one that is stored, once its nulls are stripped. -/
theorem StoredDocument.strip (keyed : Keyed (.object data)) : StoredDocument (stripMembers data) where
  keyed := .object (nodup_stripMembers keyed.distinct) (Keyed.stripMembers data keyed.inside)
  stripped := stripMembers_again data

/-- What the settings leave is keyed, however their paths are rendered. -/
theorem StoredDocument.settled (isStored : StoredDocument data) (mergeObjects : Bool) {json after : JsonObject}
    (keyed : Keyed (.object json))
    (isAfter : TrainingRuns.setAll (.object data)
      ((getMembersPathsAndValues mergeObjects [] (some (.object data)) json).map rendered) = .object after) :
    Keyed (.object after) := by
  have settingsKeyed : ∀ setting ∈ (getMembersPathsAndValues mergeObjects [] (some (.object data)) json).map rendered,
      Keyed setting.2 := by
    rw [List.forall_mem_map]
    apply members_keyed mergeObjects [] _ _ json keyed.inside
    intro document found
    cases found
    exact isStored.keyed
  rw [← isAfter]
  exact isStored.keyed.setAll settingsKeyed

/-- An update leaves a stored document. -/
theorem StoredDocument.updated (isStored : StoredDocument data) (mergeObjects : Bool) {json : JsonObject}
    (keyed : Keyed (.object json)) : StoredDocument (createUpdateClause mergeObjects json data) := by
  obtain ⟨after, isAfter⟩ := setAll_object data
    ((getMembersPathsAndValues mergeObjects [] (some (.object data)) json).map rendered)
  rw [createUpdateClause_of_setAll isAfter]
  exact .strip (isStored.settled mergeObjects keyed isAfter)

end Kept

/-! ### Leaf by leaf -/

/-- Nothing that is stored above the path keeps it from being entered. -/
def OpenAbove (data : JsonObject) (path : List String) : Prop :=
  ∀ front, front <+: path → front ≠ path → ∀ value, memberAt front (.object data) = some value →
    ∃ members, value = .object members

/-- A path at which a request has neither an object nor nothing. -/
structure Leaf (json : JsonObject) (path : List String) (value : Json) : Prop where
  isMember : memberAt path (.object json) = some value
  notObject : ∀ members, value ≠ .object members

section Leaves

variable {document value : Json} {data json : JsonObject} {path front : List String}

theorem memberAt_append (front back : List String) (document : Json) :
    memberAt (front ++ back) document = (memberAt front document).bind (memberAt back) := by
  induction front generalizing document with
  | nil => rfl
  | cons key front inductionHypothesis =>
      rw [List.cons_append, memberAt, memberAt, Option.bind_assoc]
      congr 1
      funext inner
      exact inductionHypothesis inner

/-- Above a member there are objects. -/
theorem object_above (isMember : memberAt path document = some value) (isFront : front <+: path)
    (notWhole : front ≠ path) : ∃ members, memberAt front document = some (.object members) := by
  obtain ⟨back, rfl⟩ := isFront
  cases back with
  | nil => exact absurd (List.append_nil front).symm notWhole
  | cons key back =>
      rw [memberAt_append, Option.bind_eq_some_iff] at isMember
      obtain ⟨inner, isInner, below⟩ := isMember
      rw [memberAt] at below
      cases inner with
      | object members => exact ⟨members, isInner⟩
      | null | boolean | number | string | array => cases below

theorem treeOf_eq_leaf : treeOf document path = some (.leaf value) ↔
    memberAt path document = some value ∧ ∀ members, value ≠ .object members := by
  rw [treeOf, Option.map_eq_some_iff]
  constructor
  · rintro ⟨member, isMember, isLeaf⟩
    cases member with
    | object members => cases isLeaf
    | null | boolean | number | string | array =>
        rw [node, Node.leaf.injEq] at isLeaf
        · exact ⟨isLeaf ▸ isMember, by simp [← isLeaf]⟩
        · simp
  · rintro ⟨isMember, notObject⟩
    refine ⟨value, isMember, ?_⟩
    cases value with
    | object members => exact absurd rfl (notObject members)
    | null | boolean | number | string | array => rfl

theorem requestOf_above (isMember : memberAt path document = some value) (isFront : front <+: path)
    (notWhole : front ≠ path) : requestOf document front = some .branch := by
  obtain ⟨members, isObject⟩ := object_above isMember isFront notWhole
  rw [requestOf, isObject]
  rfl

theorem Leaf.reaches (leaf : Leaf json path value) (isOpen : OpenAbove data path) :
    Reaches (requestOf (.object json)) (treeOf (.object data)) path := by
  intro front isFront notWhole
  refine ⟨requestOf_above leaf.isMember isFront notWhole, ?_⟩
  intro inner isLeaf
  obtain ⟨isMember, notObject⟩ := treeOf_eq_leaf.mp isLeaf
  obtain ⟨members, isObject⟩ := isOpen front isFront notWhole inner isMember
  exact notObject members isObject

/-- A leaf of the request that is no null is put. -/
theorem Leaf.put (leaf : Leaf json path value) (notNull : value ≠ .null) :
    requestOf (.object json) path = some (.put (jsonbStripNulls value)) := by
  rw [requestOf, leaf.isMember, Option.map_some, Option.some.injEq]
  cases value with
  | object members => exact absurd rfl (leaf.notObject members)
  | null => exact absurd rfl notNull
  | boolean | number | string | array => rfl

/-- A stored leaf above the path is still there after the merge. -/
theorem leaf_above_kept (leaf : Leaf json path value) (isFront : front <+: path) (notWhole : front ≠ path)
    {stored : Json} (isLeaf : treeOf (.object data) front = some (.leaf stored)) :
    merge (requestOf (.object json)) (treeOf (.object data)) front = some (.leaf stored) := by
  have reaches : Reaches (requestOf (.object json)) (treeOf (.object data)) front := by
    intro higher isHigher notFront
    have isMember := (treeOf_eq_leaf.mp isLeaf).1
    obtain ⟨members, isObject⟩ := object_above isMember isHigher notFront
    have strictlyAbove : higher ≠ path := by
      intro same
      exact notFront (isHigher.eq_of_length_le (same ▸ isFront.length_le))
    refine ⟨requestOf_above leaf.isMember (isHigher.trans isFront) strictlyAbove, ?_⟩
    intro other isOther
    rw [treeOf, isObject, Option.map_some, node] at isOther
    simp at isOther
  rw [merge_of_reaches reaches, requestOf_above leaf.isMember isFront notWhole, isLeaf, mergedHere, Option.getD_some]

/-- Nothing is below a leaf. -/
theorem nothing_below_leaf (isFront : front <+: path) (notWhole : front ≠ path)
    (isLeaf : treeOf document front = some (.leaf value)) : memberAt path document = none := by
  cases isMember : memberAt path document with
  | none => rfl
  | some inner =>
      obtain ⟨members, isObject⟩ := object_above isMember isFront notWhole
      rw [treeOf, isObject, Option.map_some, node] at isLeaf
      simp at isLeaf

theorem treeOf_eq_none : treeOf document path = none ↔ memberAt path document = none := by
  rw [treeOf, Option.map_eq_none_iff]

/-- Where a request has no leaf, it has an object or nothing. -/
theorem requestOf_of_no_leaf (noLeaf : ∀ value, ¬ Leaf json path value) :
    requestOf (.object json) path = none ∨ requestOf (.object json) path = some .branch := by
  cases isMember : memberAt path (.object json) with
  | none => exact .inl (by rw [requestOf, isMember, Option.map_none])
  | some value =>
      cases value with
      | object members => exact .inr (by rw [requestOf, isMember]; rfl)
      | null | boolean | number | string | array => exact absurd ⟨isMember, by simp⟩ (noLeaf _)

/-- A leaf that is in the way. -/
theorem not_openAbove (inTheWay : ¬ OpenAbove data path) :
    ∃ front value, front <+: path ∧ front ≠ path ∧ treeOf (.object data) front = some (.leaf value) := by
  unfold OpenAbove at inTheWay
  push Not at inTheWay
  obtain ⟨front, isFront, notWhole, value, isMember, notObject⟩ := inTheWay
  exact ⟨front, value, isFront, notWhole, treeOf_eq_leaf.mpr ⟨isMember, notObject⟩⟩

end Leaves

/-- A MERGE sets a leaf to the value of the request exactly where nothing that is stored above is in the way; a null
    removes; and every stored leaf that is not at or below a leaf of the request keeps its value. -/
theorem merged_leaves {data json : JsonObject} (isStored : StoredDocument data) (plain : PlainRequest json) :
    (∀ path value, Leaf json path value → value ≠ .null →
      (memberAt path (.object (createUpdateClause true json data)) = some (jsonbStripNulls value) ↔
        OpenAbove data path)) ∧
    (∀ path, Leaf json path .null → memberAt path (.object (createUpdateClause true json data)) = none) ∧
    (∀ path value, Leaf data path value → (∀ front, front <+: path → ∀ other, ¬ Leaf json front other) →
      memberAt path (.object (createUpdateClause true json data)) = some value) := by
  have isMerged := treeOf_createUpdateClause isStored plain
  -- what is in the way of a leaf of the request stays there
  have stays : ∀ path value, Leaf json path value → ¬ OpenAbove data path →
      memberAt path (.object (createUpdateClause true json data)) = none := by
    intro path value leaf inTheWay
    obtain ⟨front, stored, isFront, notWhole, isLeaf⟩ := not_openAbove inTheWay
    have stillLeaf := leaf_above_kept leaf isFront notWhole isLeaf
    rw [← isMerged] at stillLeaf
    exact nothing_below_leaf isFront notWhole stillLeaf
  refine ⟨?_, ?_, ?_⟩
  · intro path value leaf notNull
    constructor
    · intro isSet
      by_contra inTheWay
      rw [stays path value leaf inTheWay] at isSet
      cases isSet
    · intro isOpen
      have isPut := merge_put (leaf.reaches isOpen) (leaf.put notNull)
      rw [← isMerged] at isPut
      exact (treeOf_eq_leaf.mp isPut).1
  · intro path leaf
    by_cases isOpen : OpenAbove data path
    · have removes : requestOf (.object json) path = some .remove := by
        rw [requestOf, leaf.isMember]
        rfl
      have isRemoved := merge_remove (leaf.reaches isOpen) removes
      rw [← isMerged] at isRemoved
      exact treeOf_eq_none.mp isRemoved
    · exact stays path .null leaf isOpen
  · intro path value leaf elsewhere
    have isLeaf : treeOf (.object data) path = some (.leaf value) :=
      treeOf_eq_leaf.mpr ⟨leaf.isMember, leaf.notObject⟩
    have untouched : Untouched (requestOf (.object json)) (treeOf (.object data)) path := by
      constructor
      · exact fun front isFront => requestOf_of_no_leaf (elsewhere front isFront)
      · intro _
        rw [isLeaf]
        simp
    have kept := merge_untouched untouched
    rw [← isMerged, isLeaf] at kept
    exact (treeOf_eq_leaf.mp kept).1

/-- A run with metadata and source code. A request removes the content of the code and sends another hash. -/
def codeRun : JsonObject :=
  [("m", .object [("b", .string "kept")]), ("c", .object [("c", .string "print(1)"), ("g", .string "5f0e")])]

def codeRequest : JsonObject := [("c", .object [("c", .null), ("g", .string "8a1b")]), ("n", .string "run")]

theorem keyed_of_decide {members : JsonObject} (distinct : (members.map Prod.fst).Nodup)
    (scalars : ∀ member ∈ members, ∀ inner, member.2 ≠ .object inner) : Keyed (.object members) :=
  .object distinct fun member isMember => .other (scalars member isMember)

theorem codeRun_stored : StoredDocument codeRun where
  keyed := by
    refine .object (by decide) ?_
    unfold codeRun
    rw [List.forall_mem_cons, List.forall_mem_singleton]
    exact ⟨keyed_of_decide (by decide) (by simp), keyed_of_decide (by decide) (by simp)⟩
  stripped := by simp [codeRun, stripMembers, jsonbStripNulls]

theorem codeRequest_plain : PlainRequest codeRequest where
  keyed := by
    refine .object (by decide) ?_
    unfold codeRequest
    rw [List.forall_mem_cons, List.forall_mem_singleton]
    exact ⟨keyed_of_decide (by decide) (by simp), .other (by simp)⟩
  printable := by decide

/-- The content is gone, the metadata are kept, and the hash is replaced, since the source code is an object. -/
theorem merged_leaves_sourceCode :
    memberAt ["c", "c"] (.object (createUpdateClause true codeRequest codeRun)) = none ∧
    memberAt ["m", "b"] (.object (createUpdateClause true codeRequest codeRun)) = some (.string "kept") ∧
    (memberAt ["c", "g"] (.object (createUpdateClause true codeRequest codeRun)) = some (.string "8a1b") ↔
      OpenAbove codeRun ["c", "g"]) := by
  obtain ⟨put, removed, kept⟩ := merged_leaves codeRun_stored codeRequest_plain
  have isPut := put ["c", "g"] (.string "8a1b") ⟨rfl, by simp⟩ (by simp)
  rw [jsonbStripNulls] at isPut
  refine ⟨removed ["c", "c"] ⟨rfl, by simp⟩, kept ["m", "b"] (.string "kept") ⟨rfl, by simp⟩ ?_, isPut⟩
  rintro front isFront other ⟨isMember, notObject⟩
  have isOne : front ∈ [[], ["m"], ["m", "b"]] := (List.mem_inits front ["m", "b"]).mpr isFront
  simp only [List.mem_cons, List.not_mem_nil, or_false] at isOne
  rcases isOne with rfl | rfl | rfl
  · exact notObject codeRequest (Option.some.inj isMember).symm
  · cases isMember
  · cases isMember

/-! ### Several updates -/

/-- The document after one update by MERGE after the other. -/
def mergeRequests (data : JsonObject) (requests : List JsonObject) : JsonObject :=
  requests.foldl (fun document json => createUpdateClause true json document) data

/-- No leaf of one is at or above a member of the other. -/
def LeavesApart (first second : JsonObject) : Prop :=
  ∀ path one other, memberAt path (.object first) = some one → memberAt path (.object second) = some other →
    (∃ members, one = .object members) ∧ ∃ members, other = .object members

section Several

variable {data json : JsonObject} {requests others : List JsonObject}

theorem LeavesApart.compatible {first second : JsonObject} (apart : LeavesApart first second) :
    Compatible (requestOf (.object first)) (requestOf (.object second)) := by
  intro path one other isOne isOther
  obtain ⟨firstMember, isFirst, rfl⟩ := Option.map_eq_some_iff.mp isOne
  obtain ⟨secondMember, isSecond, rfl⟩ := Option.map_eq_some_iff.mp isOther
  obtain ⟨⟨_, rfl⟩, _, rfl⟩ := apart path firstMember secondMember isFirst isSecond
  exact ⟨rfl, rfl⟩

def requestsOf (requests : List JsonObject) : List (Request String Json) :=
  requests.map fun json => requestOf (.object json)

theorem StoredDocument.mergeRequests (isStored : StoredDocument data)
    (plain : ∀ json ∈ requests, PlainRequest json) : StoredDocument (mergeRequests data requests) := by
  induction requests generalizing data with
  | nil => exact isStored
  | cons json rest inductionHypothesis =>
      rw [List.forall_mem_cons] at plain
      exact inductionHypothesis (isStored.updated true plain.1.keyed) plain.2

theorem treeOf_mergeRequests (isStored : StoredDocument data) (plain : ∀ json ∈ requests, PlainRequest json) :
    treeOf (.object (mergeRequests data requests)) = mergeAll (treeOf (.object data)) (requestsOf requests) := by
  induction requests generalizing data with
  | nil => rfl
  | cons json rest inductionHypothesis =>
      rw [List.forall_mem_cons] at plain
      have later := inductionHypothesis (isStored.updated true plain.1.keyed) plain.2
      rw [treeOf_createUpdateClause isStored plain.1] at later
      exact later

theorem compatible_requestsOf (apart : requests.Pairwise LeavesApart) : (requestsOf requests).Pairwise Compatible :=
  List.pairwise_map.mpr (apart.imp LeavesApart.compatible)

/-- Member by member. -/
theorem leavesApart_of_members {first second : JsonObject}
    (apart : ∀ key, first.lookup key = none ∨ second.lookup key = none ∨
      ∃ firstMembers secondMembers, first.lookup key = some (.object firstMembers) ∧
        second.lookup key = some (.object secondMembers) ∧ LeavesApart firstMembers secondMembers) :
    LeavesApart first second := by
  intro path one other isOne isOther
  cases path with
  | nil =>
      rw [memberAt, Option.some.injEq] at isOne isOther
      exact ⟨⟨first, isOne.symm⟩, second, isOther.symm⟩
  | cons key path =>
      rw [memberAt, storedAt] at isOne isOther
      rcases apart key with missing | missing | ⟨firstMembers, secondMembers, isFirst, isSecond, inside⟩
      · rw [missing] at isOne
        cases isOne
      · rw [missing] at isOther
        cases isOther
      · rw [isFirst] at isOne
        rw [isSecond] at isOther
        exact inside path one other isOne isOther

/-- Being apart is symmetric. -/
theorem LeavesApart.symm {first second : JsonObject} (apart : LeavesApart first second) : LeavesApart second first :=
  fun path one other isOne isOther => (apart path other one isOther isOne).symm

/-- At and above a leaf of one request the other has nothing but objects. -/
theorem LeavesApart.untouched {first second : JsonObject} (apart : LeavesApart first second) {path : List String}
    {value : Json} (leaf : Leaf first path value) {front : List String} (isFront : front <+: path) :
    requestOf (.object second) front = none ∨ requestOf (.object second) front = some .branch := by
  apply requestOf_of_no_leaf
  rintro other ⟨isOther, notObject⟩
  have isMember : ∃ one, memberAt front (.object first) = some one := by
    by_cases whole : front = path
    · exact ⟨value, whole ▸ leaf.isMember⟩
    · obtain ⟨members, isObject⟩ := object_above leaf.isMember isFront whole
      exact ⟨_, isObject⟩
  obtain ⟨one, isOne⟩ := isMember
  obtain ⟨members, isObject⟩ := (apart front one other isOne isOther).2
  exact notObject members isObject

/-- The leaf of a request that comes first is not lost to the ones that come later. -/
theorem leaf_first_kept {rest : List JsonObject} (apart : ∀ other ∈ rest, LeavesApart json other) {path : List String}
    {value : Json} (leaf : Leaf json path value) (notNull : value ≠ .null) (isOpen : OpenAbove data path) :
    mergeAll (treeOf (.object data)) (requestsOf (json :: rest)) path = some (.leaf (jsonbStripNulls value)) := by
  have isPut := merge_put (leaf.reaches isOpen) (leaf.put notNull)
  have untouched : ∀ request ∈ requestsOf rest, ∀ front, front <+: path →
      request front = none ∨ request front = some .branch := by
    intro request isRequest front isFront
    obtain ⟨other, isOther, rfl⟩ := List.mem_map.mp isRequest
    exact (apart other isOther).untouched leaf isFront
  have isThere : merge (requestOf (.object json)) (treeOf (.object data)) path ≠ none := by
    rw [isPut]
    exact Option.some_ne_none _
  exact (mergeAll_untouched untouched isThere).trans isPut

end Several

/-- Updates whose leaves are apart leave the same document in every order in which the database takes them, and none
    of them is lost. -/
theorem merged_in_any_order {data : JsonObject} {requests others : List JsonObject} (isStored : StoredDocument data)
    (plain : ∀ json ∈ requests, PlainRequest json) (apart : requests.Pairwise LeavesApart)
    (sameRequests : requests.Perm others) :
    treeOf (.object (mergeRequests data requests)) = treeOf (.object (mergeRequests data others)) ∧
    ∀ json ∈ requests, ∀ path value, Leaf json path value → value ≠ .null → OpenAbove data path →
      memberAt path (.object (mergeRequests data others)) = some (jsonbStripNulls value) := by
  have othersPlain : ∀ json ∈ others, PlainRequest json :=
    fun json isOther => plain json (sameRequests.mem_iff.mpr isOther)
  rw [treeOf_mergeRequests isStored plain, treeOf_mergeRequests isStored othersPlain]
  refine ⟨mergeAll_perm (compatible_requestsOf apart) (sameRequests.map _) _, ?_⟩
  intro json isRequest path value leaf notNull isOpen
  obtain ⟨early, late, split⟩ := List.append_of_mem (sameRequests.mem_iff.mp isRequest)
  have toFront : others.Perm (json :: (early ++ late)) := by
    rw [split]
    exact List.perm_middle
  have othersApart : (json :: (early ++ late)).Pairwise LeavesApart :=
    apart.perm (sameRequests.trans toFront) LeavesApart.symm
  have sameTree := mergeAll_perm (compatible_requestsOf (apart.perm sameRequests LeavesApart.symm))
    (toFront.map _) (treeOf (.object data))
  have isThere := leaf_first_kept (List.pairwise_cons.mp othersApart).1 leaf notNull isOpen
  rw [requestsOf, ← sameTree] at isThere
  have atPath : treeOf (.object (mergeRequests data others)) path = some (.leaf (jsonbStripNulls value)) := by
    rw [treeOf_mergeRequests isStored othersPlain]
    exact isThere
  exact (treeOf_eq_leaf.mp atPath).1

/-- Requests of two clients for the same run: one reports a value, the other one a state. -/
def valueRequest : JsonObject := [("v", .object [("accuracy", .object [("v", .number 1)])])]

def nameRequest : JsonObject := [("n", .string "run"), ("c", .object [("c", .null)])]

theorem valueRequest_plain : PlainRequest valueRequest where
  keyed := by
    refine .object (by decide) ?_
    unfold valueRequest
    rw [List.forall_mem_singleton]
    refine .object (by decide) ?_
    rw [List.forall_mem_singleton]
    exact keyed_of_decide (by decide) (by simp)
  printable := by decide

theorem nameRequest_plain : PlainRequest nameRequest where
  keyed := by
    refine .object (by decide) ?_
    unfold nameRequest
    rw [List.forall_mem_cons, List.forall_mem_singleton]
    exact ⟨.other (by simp), keyed_of_decide (by decide) (by simp)⟩
  printable := by decide

theorem valueRequest_apart : LeavesApart valueRequest nameRequest := by
  apply leavesApart_of_members
  intro key
  by_cases isValue : key = "v"
  · right
    left
    rw [isValue]
    rfl
  · left
    rw [valueRequest, List.lookup_cons, beq_eq_false_iff_ne.mpr isValue]
    rfl

/-- The document is the same whichever of the two the database takes first. -/
theorem merged_in_any_order_run :
    treeOf (.object (mergeRequests codeRun [valueRequest, nameRequest])) =
      treeOf (.object (mergeRequests codeRun [nameRequest, valueRequest])) := by
  apply (merged_in_any_order codeRun_stored _ _ (List.Perm.swap nameRequest valueRequest [])).1
  · rw [List.forall_mem_cons, List.forall_mem_singleton]
    exact ⟨valueRequest_plain, nameRequest_plain⟩
  · rw [List.pairwise_pair]
    exact valueRequest_apart

/-- An update that comes again, after others whose leaves are apart from its own, changes nothing. -/
theorem merged_again {data json : JsonObject} {requests : List JsonObject} (isStored : StoredDocument data)
    (plain : PlainRequest json) (othersPlain : ∀ other ∈ requests, PlainRequest other)
    (apart : ∀ other ∈ requests, LeavesApart json other) :
    treeOf (.object (createUpdateClause true json (mergeRequests (createUpdateClause true json data) requests))) =
      treeOf (.object (mergeRequests (createUpdateClause true json data) requests)) := by
  have isMerged := isStored.updated true plain.keyed
  have compatible : ∀ other ∈ requestsOf requests, Compatible (requestOf (.object json)) other := by
    intro request isRequest
    obtain ⟨other, isOther, rfl⟩ := List.mem_map.mp isRequest
    exact (apart other isOther).compatible
  rw [treeOf_createUpdateClause (isMerged.mergeRequests othersPlain) plain,
    treeOf_mergeRequests isMerged othersPlain, treeOf_createUpdateClause isStored plain, mergeAll_comm compatible,
    merge_merge_self]

/-- The value is reported again after the other client has sent its name. -/
theorem merged_again_run :
    treeOf (.object (createUpdateClause true valueRequest
        (mergeRequests (createUpdateClause true valueRequest codeRun) [nameRequest]))) =
      treeOf (.object (mergeRequests (createUpdateClause true valueRequest codeRun) [nameRequest])) := by
  apply merged_again codeRun_stored valueRequest_plain
  · rw [List.forall_mem_singleton]
    exact nameRequest_plain
  · rw [List.forall_mem_singleton]
    exact valueRequest_apart

end Zigopt.TrainingRuns
