/-
Module: Zigopt.Lib.Json
Layer: Lib
Purpose: JSON documents as trees, and reading a member of an object the way a dictionary is read: a
  missing member reads as null.
Main exports: Json, JsonObject, JsonObject.get, JsonObject.hasKey, JsonObject.isPresent,
  JsonObject.distinctKeys, JsonObject.merge
-/
import Mathlib.Data.Rat.Defs

/-- A JSON document. Integers and floats are one kind of number. -/
inductive Json where
  | null
  | boolean (value : Bool)
  | number (value : ℚ)
  | string (text : String)
  | array (items : List Json)
  | object (members : List (String × Json))
deriving Repr

/-- The members of a JSON object, in order. -/
abbrev JsonObject := List (String × Json)

namespace JsonObject

/-- `dict.get(key)`. -/
def get (object : JsonObject) (key : String) : Json :=
  (object.lookup key).getD .null

/-- The members that a lookup finds: a dictionary has each key once. -/
def distinctKeys {α : Type} : List (String × α) → List (String × α)
  | [] => []
  | member :: rest => member :: (distinctKeys rest).filter fun other => other.1 ≠ member.1

/-- `{**first, **second}`: a key of both keeps its place and gets the value of the second. -/
def merge (first second : JsonObject) : JsonObject :=
  (first.map fun member => (member.1, (second.lookup member.1).getD member.2)) ++
    second.filter fun member => member.1 ∉ first.map Prod.fst

/-- `key in dict`. -/
def hasKey (object : JsonObject) (key : String) : Bool :=
  (object.lookup key).isSome

/-- `dict.get(key) is not None`. -/
def isPresent (object : JsonObject) (key : String) : Bool :=
  match object.get key with
  | .null => false
  | _ => true

theorem get_eq_null_of_not_hasKey {object : JsonObject} {key : String}
    (missing : object.hasKey key = false) : object.get key = .null := by
  unfold hasKey at missing
  rw [Option.isSome_eq_false_iff, Option.isNone_iff_eq_none] at missing
  simp [get, missing]

theorem lookup_of_mem {α : Type} {members : List (String × α)} (distinct : (members.map Prod.fst).Nodup)
    {key : String} {value : α} (member : (key, value) ∈ members) : members.lookup key = some value := by
  induction members with
  | nil => cases member
  | cons first rest inductionHypothesis =>
      rw [List.map_cons, List.nodup_cons] at distinct
      rcases List.mem_cons.mp member with same | later
      · rw [← same]
        exact List.lookup_cons_self
      · have apart : (key == first.1) = false := by
          rw [beq_eq_false_iff_ne]
          intro same
          exact distinct.1 (same ▸ List.mem_map_of_mem later)
        rw [List.lookup_cons, apart]
        exact inductionHypothesis distinct.2 later

/-- What is found is a member. -/
theorem mem_of_lookup {α : Type} {members : List (String × α)} {key : String} {value : α}
    (found : members.lookup key = some value) : (key, value) ∈ members := by
  obtain ⟨front, back, rfl, _⟩ := List.lookup_eq_some_iff.mp found
  simp

theorem merge_keys (first second : JsonObject) :
    (merge first second).map Prod.fst =
      first.map Prod.fst ++ (second.map Prod.fst).filter fun key => key ∉ first.map Prod.fst := by
  unfold merge
  rw [List.map_append, List.map_map, List.filter_map]
  rfl

theorem nodup_merge {first second : JsonObject} (firstDistinct : (first.map Prod.fst).Nodup)
    (secondDistinct : (second.map Prod.fst).Nodup) : ((merge first second).map Prod.fst).Nodup := by
  rw [merge_keys, List.nodup_append]
  refine ⟨firstDistinct, secondDistinct.filter _, ?_⟩
  intro key inFirst other inSecond same
  have apart := (List.mem_filter.mp inSecond).2
  simp only [decide_eq_true_eq] at apart
  exact apart (same ▸ inFirst)

theorem mem_merge_of_second {first second : JsonObject} (distinct : (second.map Prod.fst).Nodup)
    {key : String} {value : Json} (member : (key, value) ∈ second) : (key, value) ∈ merge first second := by
  unfold merge
  by_cases inFirst : key ∈ first.map Prod.fst
  · obtain ⟨other, isOther, rfl⟩ := List.mem_map.mp inFirst
    apply List.mem_append_left
    refine List.mem_map.mpr ⟨other, isOther, ?_⟩
    rw [lookup_of_mem distinct member, Option.getD_some]
  · apply List.mem_append_right
    exact List.mem_filter.mpr ⟨member, by simpa using inFirst⟩

theorem mem_merge_of_first {first second : JsonObject} {key : String} {value : Json}
    (member : (key, value) ∈ first) (absent : key ∉ second.map Prod.fst) : (key, value) ∈ merge first second := by
  unfold merge
  apply List.mem_append_left
  refine List.mem_map.mpr ⟨(key, value), member, ?_⟩
  have unfound : second.lookup key = none := by
    rw [List.lookup_eq_none_iff]
    intro other isOther
    simp only [bne_iff_ne, ne_eq]
    intro same
    exact absent (same ▸ List.mem_map_of_mem isOther)
  rw [unfound, Option.getD_none]

theorem nodup_distinctKeys {α : Type} (members : List (String × α)) :
    ((distinctKeys members).map Prod.fst).Nodup := by
  induction members with
  | nil => exact List.nodup_nil
  | cons member rest inductionHypothesis =>
      rw [distinctKeys, List.map_cons, List.nodup_cons]
      constructor
      · intro again
        obtain ⟨other, isOther, sameKey⟩ := List.mem_map.mp again
        have differs := (List.mem_filter.mp isOther).2
        simp [sameKey] at differs
      · exact inductionHypothesis.sublist (List.filter_sublist.map _)

end JsonObject
