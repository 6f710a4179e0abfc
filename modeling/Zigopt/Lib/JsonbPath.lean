/-
Module: Zigopt.Lib.JsonbPath
Layer: Lib
Purpose: `jsonb_set` along a path of texts, and the accesses `->` to the same place. A text is a key of an
  object and a position of an array; an access with an integer finds nothing in an object.
Main exports: Sql.jsonbSet, Sql.Access, Sql.PlaceIn, Sql.documentAt, Sql.jsonbSet_place,
  Sql.documentAt_eq_none, Sql.documentFor
-/
import Zigopt.Lib.Sql

namespace Sql

open Comparison

/-- The text that a key of a path is rendered as. -/
def JsonIndex.text : JsonIndex → String
  | .name key => key
  | .position value => value.repr
  | .boolean true => "true"
  | .boolean false => "false"

/-- The member of a key is replaced, or added. -/
def setMember (key : String) (value : Json) : JsonObject → JsonObject
  | [] => [(key, value)]
  | member :: rest => if member.1 = key then (key, value) :: rest else member :: setMember key value rest

/-- A negative position counts from the end. -/
def resolve (length : Nat) (position : ℤ) : ℤ :=
  if 0 ≤ position then position else length + position

/-- The item at a position is replaced; beyond an end of the array, one is added there. -/
def setItem (items : List Json) (position : ℤ) (value : Json) : List Json :=
  if position < 0 then value :: items
  else if position < items.length then items.set position.toNat value
  else items ++ [value]

/-- All but the last step of the path must exist, or nothing changes; a text that is no integer is an error in an
    array. -/
def setPath : List String → Json → Json → Option Json
  | [], document, _ => some document
  | [last], .object members, value => some (.object (setMember last value members))
  | [last], .array items, value =>
      (readInteger last).map fun position => .array (setItem items (resolve items.length position) value)
  | key :: rest, .object members, value =>
      match members.lookup key with
      | some inner => (setPath rest inner value).map fun updated => .object (setMember key updated members)
      | none => some (.object members)
  | key :: rest, .array items, value =>
      (readInteger key).bind fun position =>
        match atIndex items position with
        | some inner => (setPath rest inner value).map fun updated =>
            .array (setItem items (resolve items.length position) updated)
        | none => some (.array items)
  | _, document, _ => some document

/-- `jsonb_set(target, path, value)`; there is no path in a scalar. -/
def jsonbSet (path : List String) (document value : Json) : Option Json :=
  match document with
  | .object members => setPath path (.object members) value
  | .array items => setPath path (.array items) value
  | _ => none

/-- A step into a document: to the member of an object that a key renders as, or to a position of an array. -/
inductive Access where
  | under (index : JsonIndex)
  | at (position : ℤ)
deriving DecidableEq, Repr

namespace Access

/-- What comes after `->`. -/
def index : Access → JsonIndex
  | .under index => index
  | .at position => .position position

def text (access : Access) : String := access.index.text

/-- Objects are accessed by names. -/
def isPlain : Access → Bool
  | .under (.name _) => true
  | .under _ => false
  | .at _ => true

end Access

/-- The document has the place, whose last member may be missing. -/
def PlaceIn : List Access → Json → Prop
  | [], _ => True
  | .under index :: rest, document => ∃ members, document = .object members ∧
      (rest = [] ∨ ∃ inner, members.lookup index.text = some inner ∧ PlaceIn rest inner)
  | .at position :: rest, document => ∃ items, document = .array items ∧
      ∃ inner, atIndex items position = some inner ∧ PlaceIn rest inner

/-- `document -> first -> …`. -/
def documentAt : List JsonIndex → Json → Option Json
  | [], document => some document
  | index :: rest, document => (documentItem document index).bind (documentAt rest)

/-! ### Writing and reading -/

theorem lookup_setMember (key : String) (value : Json) (members : JsonObject) :
    (setMember key value members).lookup key = some value := by
  induction members with
  | nil => simp [setMember]
  | cons member rest inductionHypothesis =>
      unfold setMember
      split
      · simp
      · rename_i other
        rw [List.lookup_cons, beq_false_of_ne (Ne.symm other)]
        exact inductionHypothesis

/-- An item that is found is the one that is replaced. -/
theorem atIndex_setItem {items : List Json} {position : ℤ} {inner : Json}
    (found : atIndex items position = some inner) (value : Json) :
    atIndex (setItem items (resolve items.length position) value) position = some value := by
  unfold atIndex at found
  unfold resolve setItem
  split at found
  · rename_i nonneg
    have small : position.toNat < items.length := (List.getElem?_eq_some_iff.mp found).1
    rw [if_pos nonneg, if_neg (by omega), if_pos (by omega), atIndex, if_pos nonneg, List.getElem?_set_self small]
  · rename_i negative
    split at found
    · rename_i inRange
      have small : (items.length + position).toNat < items.length := (List.getElem?_eq_some_iff.mp found).1
      rw [if_neg negative, if_neg (by omega), if_pos (by omega), atIndex, if_neg negative, List.length_set,
        if_pos inRange, List.getElem?_set_self small]
    · cases found

/-- Where the place is there, it is written, it is there afterwards, and reading by names and positions finds it. -/
theorem setPath_place {accesses : List Access} (nonempty : accesses ≠ []) {document : Json}
    (place : PlaceIn accesses document) (value : Json) :
    ∃ updated, setPath (accesses.map Access.text) document value = some updated ∧ PlaceIn accesses updated ∧
      (accesses.all Access.isPlain = true → documentAt (accesses.map Access.index) updated = some value) := by
  induction accesses generalizing document with
  | nil => exact absurd rfl nonempty
  | cons access rest inductionHypothesis =>
      cases access with
      | under index =>
          obtain ⟨members, rfl, continued⟩ := place
          cases rest with
          | nil =>
              refine ⟨.object (setMember index.text value members), rfl, ⟨_, rfl, .inl rfl⟩, ?_⟩
              intro plain
              cases index with
              | name key =>
                  change ((setMember key value members).lookup key).bind some = some value
                  rw [lookup_setMember]
                  rfl
              | position position => cases plain
              | boolean value => cases plain
          | cons second others =>
              obtain ⟨inner, found, placeInner⟩ := continued.resolve_left (List.cons_ne_nil second others)
              obtain ⟨updated, isSet, placeUpdated, reads⟩ :=
                inductionHypothesis (List.cons_ne_nil second others) placeInner
              refine ⟨.object (setMember index.text updated members), ?_,
                ⟨_, rfl, .inr ⟨updated, lookup_setMember _ _ _, placeUpdated⟩⟩, ?_⟩
              · change (match members.lookup index.text with
                  | some inner => (setPath ((second :: others).map Access.text) inner value).map fun updated =>
                      Json.object (setMember index.text updated members)
                  | none => some (.object members)) = _
                rw [found]
                dsimp only
                rw [isSet]
                rfl
              · intro plain
                rw [List.all_cons, Bool.and_eq_true] at plain
                cases index with
                | name key =>
                    change ((setMember key updated members).lookup key).bind
                      (documentAt ((second :: others).map Access.index)) = some value
                    rw [lookup_setMember]
                    exact reads plain.2
                | position position => cases plain.1
                | boolean flag => cases plain.1
      | «at» position =>
          obtain ⟨items, rfl, inner, found, placeInner⟩ := place
          have readPosition : readInteger (Access.at position).text = some position := readInteger_repr position
          cases rest with
          | nil =>
              refine ⟨.array (setItem items (resolve items.length position) value), ?_,
                ⟨_, rfl, value, atIndex_setItem found value, trivial⟩, ?_⟩
              · change (readInteger (Access.at position).text).map _ = _
                rw [readPosition]
                rfl
              · intro _
                change (atIndex (setItem items (resolve items.length position) value) position).bind some = some value
                rw [atIndex_setItem found]
                rfl
          | cons second others =>
              obtain ⟨updated, isSet, placeUpdated, reads⟩ :=
                inductionHypothesis (List.cons_ne_nil second others) placeInner
              refine ⟨.array (setItem items (resolve items.length position) updated), ?_,
                ⟨_, rfl, updated, atIndex_setItem found updated, placeUpdated⟩, ?_⟩
              · change (readInteger (Access.at position).text).bind _ = _
                rw [readPosition, Option.bind_some, found]
                dsimp only
                rw [isSet]
                rfl
              · intro plain
                rw [List.all_cons, Bool.and_eq_true] at plain
                change (atIndex (setItem items (resolve items.length position) updated) position).bind
                  (documentAt ((second :: others).map Access.index)) = some value
                rw [atIndex_setItem found]
                exact reads plain.2

/-- Writing at a place that exists succeeds, keeps the place, and is read back where the accesses are plain. -/
theorem jsonbSet_place {accesses : List Access} (nonempty : accesses ≠ []) {document : Json}
    (place : PlaceIn accesses document) (value : Json) :
    ∃ updated, jsonbSet (accesses.map Access.text) document value = some updated ∧ PlaceIn accesses updated ∧
      (accesses.all Access.isPlain = true → documentAt (accesses.map Access.index) updated = some value) := by
  obtain ⟨updated, isSet, written⟩ := setPath_place nonempty place value
  refine ⟨updated, ?_, written⟩
  cases accesses with
  | nil => exact absurd rfl nonempty
  | cons access rest =>
      cases access with
      | under index =>
          obtain ⟨members, rfl, _⟩ := place
          exact isSet
      | «at» position =>
          obtain ⟨items, rfl, _⟩ := place
          exact isSet

/-- An integer or a boolean finds nothing in an object. -/
theorem documentAt_eq_none {accesses : List Access} {document : Json} (place : PlaceIn accesses document)
    (notPlain : accesses.all Access.isPlain = false) : documentAt (accesses.map Access.index) document = none := by
  induction accesses generalizing document with
  | nil => cases notPlain
  | cons access rest inductionHypothesis =>
      rw [List.all_cons, Bool.and_eq_false_iff] at notPlain
      cases access with
      | under index =>
          obtain ⟨members, rfl, continued⟩ := place
          cases index with
          | position position => rfl
          | boolean value => rfl
          | name key =>
              have restNotPlain := notPlain.resolve_left (by simp [Access.isPlain])
              have someRest : rest ≠ [] := by
                rintro rfl
                cases restNotPlain
              obtain ⟨inner, found, placeInner⟩ := continued.resolve_left someRest
              change (members.lookup key).bind (documentAt (rest.map Access.index)) = none
              rw [show members.lookup key = some inner from found]
              exact inductionHypothesis placeInner restNotPlain
      | «at» position =>
          obtain ⟨items, rfl, inner, found, placeInner⟩ := place
          change (atIndex items position).bind (documentAt (rest.map Access.index)) = none
          rw [found]
          exact inductionHypothesis placeInner (notPlain.resolve_left (by simp [Access.isPlain]))

/-- A document that has the place. -/
def documentFor : List Access → Json
  | [] => .null
  | .under index :: rest => .object [(index.text, documentFor rest)]
  | .at position :: rest => .array (List.replicate (position.natAbs + 1) (documentFor rest))

theorem placeIn_documentFor (accesses : List Access) : PlaceIn accesses (documentFor accesses) := by
  induction accesses with
  | nil => trivial
  | cons access rest inductionHypothesis =>
      cases access with
      | under index => exact ⟨_, rfl, .inr ⟨documentFor rest, by simp, inductionHypothesis⟩⟩
      | «at» position =>
          refine ⟨_, rfl, documentFor rest, ?_, inductionHypothesis⟩
          unfold atIndex
          rw [List.length_replicate]
          split
          · rw [List.getElem?_replicate, if_pos (by omega)]
          · rw [if_pos (by omega), List.getElem?_replicate, if_pos (by omega)]

end Sql
