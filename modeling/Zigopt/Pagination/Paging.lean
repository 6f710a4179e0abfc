/-
Module: Zigopt.Pagination.Paging
Layer: Pagination
Purpose: `Pager` of pagination/paging.py. A pager sorts its items by key in descending order, keeps the
  ones between the markers, cuts a page of `limit + 1` off one end of them and turns the outermost items
  of the page into the next markers. The same code runs over a list and over a query; a query brings its
  own function for the items between two markers.
Main exports: PagingMarker, PagingRequest, Page, buildMarkerFromFieldValues, fetchPageFromItemList, Pager,
  Pager.fetch
-/
import Mathlib.Data.List.Sort
import Zigopt.Pagination.FieldValue

namespace Zigopt.Pagination

/-- The `type` oneof of the `PagingSymbol` message. -/
inductive PagingSymbol where
  | unset
  | nullValue
  | intValue (value : Int)
  | doubleValue (value : PyFloat)
  | stringValue (value : String)
  | boolValue (value : Bool)
  | timestampValue (microseconds : Int)
deriving DecidableEq, Repr

/-- The `PagingMarker` message. The client sends back the markers it was given, but may send any. -/
structure PagingMarker where
  symbols : List PagingSymbol
deriving DecidableEq, Repr

/-- What ends a fetch without a page. `badParam` is the one a client gets to see. -/
inductive PagerError where
  | typeError
  | valueError (message : String)
  | assertionError
  | indexError
  | databaseError
  | badParam (message : String)
deriving DecidableEq, Repr

/-- `PagingRequest`; a missing marker is `_NO_MARKER`. -/
structure PagingRequest where
  limit : Option Nat := none
  before : Option PagingMarker := none
  after : Option PagingMarker := none
deriving DecidableEq, Repr

/-- The triple that `Pager.fetch` returns. -/
structure Page (α : Type) where
  results : List α
  before : Option PagingMarker
  after : Option PagingMarker
deriving DecidableEq, Repr

/-! ### Markers -/

/-- The range of the `int64` field `int_value`. -/
def InInt64 (value : Int) : Prop := -2 ^ 63 ≤ value ∧ value < 2 ^ 63

instance (value : Int) : Decidable (InInt64 value) :=
  inferInstanceAs (Decidable (_ ∧ _))

/-- Assigning `int_value`: protobuf refuses what does not fit. -/
def setIntValue (value : Int) : Except PagerError PagingSymbol :=
  if InInt64 value then .ok (.intValue value) else .error (.valueError "Value out of range")

/-- One round of the loop in `_build_marker_from_field_values`. An infinite float is no number for
    `is_number`, and falls through all the branches. -/
def buildSymbol : FieldValue → Except PagerError PagingSymbol
  | .null => .ok .nullValue
  | .datetime microseconds => .ok (.timestampValue microseconds)
  | .int value => setIntValue value
  | .float (.finite value) => .ok (.doubleValue (.finite value))
  | .str value => .ok (.stringValue value)
  | .bool value => .ok (.boolValue value)
  | .float .inf => .error (.valueError "Unknown field value: inf")
  | .float .negInf => .error (.valueError "Unknown field value: -inf")

/-- `_build_marker_from_field_values`. -/
def buildMarkerFromFieldValues (fieldValues : Key) : Except PagerError PagingMarker := do
  let symbols ← fieldValues.mapM buildSymbol
  return ⟨symbols⟩

/-- `get_value_of_paging_symbol`. -/
def getValueOfPagingSymbol : PagingSymbol → FieldValue
  | .unset => .null
  | .nullValue => .null
  | .timestampValue microseconds => .datetime microseconds
  | .intValue value => .int value
  | .doubleValue value => .float value
  | .stringValue value => .str value
  | .boolValue value => .bool value

/-- `_get_field_values_from_marker`. -/
def getFieldValuesFromMarker (marker : PagingMarker) : Key :=
  marker.symbols.map getValueOfPagingSymbol

/-- Moving the trailing int of a marker, as `_increment_marker` and `_decrement_marker` do. -/
def shiftMarker (offset : Int) (marker : PagingMarker) : Except PagerError PagingMarker :=
  match marker.symbols.getLast? with
  | none => .error .indexError
  | some (.intValue value) => do
      let symbol ← setIntValue (value + offset)
      return ⟨marker.symbols.dropLast ++ [symbol]⟩
  | some _ => .error .assertionError

/-- `_increment_marker`. -/
def incrementMarker (marker : PagingMarker) : Except PagerError PagingMarker := shiftMarker 1 marker

/-- `_decrement_marker`. -/
def decrementMarker (marker : PagingMarker) : Except PagerError PagingMarker := shiftMarker (-1) marker

/-! ### The page between two markers -/

/-- Python's `<` on sanitized tuples as the pager runs it. -/
def lessThan (first second : List SortValue) : Except PagerError Bool :=
  match tupleLt first second with
  | some answer => .ok answer
  | none => .error .typeError

/-- The key is below `before`, or there is no such marker. -/
def belowMarker (key : Key) : Option PagingMarker → Except PagerError Bool
  | none => .ok true
  | some marker => lessThan (sanitizeNones key) (sanitizeNones (getFieldValuesFromMarker marker))

/-- The key is above `after`, or there is no such marker. -/
def aboveMarker (key : Key) : Option PagingMarker → Except PagerError Bool
  | none => .ok true
  | some marker => lessThan (sanitizeNones (getFieldValuesFromMarker marker)) (sanitizeNones key)

/-- The condition of the comprehension in `_fetch_page_from_item_list`; the bound from `after` is only
    looked at below `before`. -/
def betweenMarkers (key : Key) (before after : Option PagingMarker) : Except PagerError Bool := do
  let below ← belowMarker key before
  if below then aboveMarker key after else .ok false

/-- A comprehension whose condition may raise. -/
def filterOrRaise {α : Type} (condition : α → Except PagerError Bool) : List α → Except PagerError (List α)
  | [] => .ok []
  | item :: items => do
      let kept ← condition item
      let rest ← filterOrRaise condition items
      return if kept then item :: rest else rest

/-- `tail` of zigopt.common. -/
def tail {α : Type} (items : List α) (n : Nat) : List α := items.drop (items.length - n)

variable {α : Type}

/-- `sorted(…, reverse=True)` by sanitized key. Sorting finds the place of every item relative to every
    other one, so it cannot avoid a pair that does not compare: each kind could come before the other
    without changing the answer to any comparison that works. -/
def sortedList (Field : α → Key) (items : List α) : Except PagerError (List α) :=
  if items.Pairwise fun first second =>
      Comparable (sanitizeNones (Field first)) (sanitizeNones (Field second)) then
    .ok (items.insertionSort fun first second =>
      sanitizeNones (Field second) ≤ sanitizeNones (Field first))
  else
    .error .typeError

/-- `_fetch_page_from_item_list`. -/
def fetchPageFromItemList (Field : α → Key) (sortedItems : List α) (limit : Option Nat)
    (before after : Option PagingMarker) (startFromBefore : Bool) : Except PagerError (List α) := do
  let filteredPage ← filterOrRaise (fun item => betweenMarkers (Field item) before after) sortedItems
  return match limit with
    | none => filteredPage
    | some limit => if startFromBefore then filteredPage.take limit else tail filteredPage limit

/-- `_get_markers_from_results`; both markers are built, also when one of them is thrown away. -/
def getMarkersFromResults (Field : α → Key) (first last : α) (startFromBefore hasMore : Bool) :
    Except PagerError (Option PagingMarker × Option PagingMarker) := do
  let minimum ← buildMarkerFromFieldValues (Field last)
  let maximum ← buildMarkerFromFieldValues (Field first)
  return if startFromBefore then
      (if hasMore then some minimum else none, some maximum)
    else
      (some minimum, if hasMore then some maximum else none)

/-- `_get_new_markers`. -/
def getNewMarkers (Field : α → Key) (results : List α) (before after : Option PagingMarker)
    (startFromBefore hasMore : Bool) :
    Except PagerError (Option PagingMarker × Option PagingMarker) :=
  match results with
  | first :: rest =>
      getMarkersFromResults Field first ((first :: rest).getLast (by simp)) startFromBefore hasMore
  | [] =>
      if startFromBefore then do
        return (before, ← before.mapM incrementMarker)
      else do
        return (← after.mapM decrementMarker, after)

/-- `start_from_before`: whether the page starts at `before` and goes down, or at `after` and goes up. -/
def startFromBefore (ascending : Bool) (before after : Option PagingMarker) : Bool :=
  if ascending then before.isSome && after.isNone else before.isSome || after.isNone

/-- The end of `fetch`: markers for the kept results, which go out in the direction asked for. -/
def turnIntoPage (Field : α → Key) (paging : PagingRequest) (ascending : Bool) (results : List α)
    (hasMore : Bool) : Except PagerError (Page α) := do
  let (newBefore, newAfter) ← getNewMarkers Field results paging.before paging.after
    (startFromBefore ascending paging.before paging.after) hasMore
  return ⟨if ascending then results.reverse else results, newBefore, newAfter⟩

/-- What `fetch` makes of the fetched results, which are one more than the limit when there is more. -/
def respond (Field : α → Key) (paging : PagingRequest) (ascending : Bool) (results : List α) :
    Except PagerError (Page α) :=
  let fromBefore := startFromBefore ascending paging.before paging.after
  match paging.limit with
  | some 0 =>
      match results with
      | [] => .ok ⟨[], none, none⟩
      | [extraItem] => do
          let marker ← buildMarkerFromFieldValues (Field extraItem)
          if fromBefore then
            return ⟨[], some (← incrementMarker marker), none⟩
          else
            return ⟨[], none, some (← decrementMarker marker)⟩
      | _ :: _ :: _ => .error .assertionError
  | some limit =>
      turnIntoPage Field paging ascending
        (if fromBefore then results.take limit else tail results limit) (limit + 1 ≤ results.length)
  | none => turnIntoPage Field paging ascending results false

/-- `Pager.__init__`: a pager is over a list, or over a function from a limit and two markers to the
    results between them. -/
inductive Pager (α : Type) where
  | itemList (items : List α)
  | fetchPage (fetch : Option Nat → Option PagingMarker → Option PagingMarker → Except PagerError (List α))

/-- The results before the page is cut to its limit. -/
def Pager.fetchResults (pager : Pager α) (Field : α → Key) (paging : PagingRequest) (ascending : Bool) :
    Except PagerError (List α) :=
  let fetchLimit := paging.limit.map (· + 1)
  match pager with
  | .itemList items => do
      let sortedItems ← sortedList Field items
      fetchPageFromItemList Field sortedItems fetchLimit paging.before paging.after
        (startFromBefore ascending paging.before paging.after)
  | .fetchPage fetch => fetch fetchLimit paging.before paging.after

/-- `Pager.fetch`. -/
def Pager.fetch (pager : Pager α) (Field : α → Key) (paging : PagingRequest) (ascending : Bool) :
    Except PagerError (Page α) := do
  let results ← pager.fetchResults Field paging ascending
  respond Field paging ascending results

end Zigopt.Pagination
