/-
Module: Zigopt.Pagination.EmptyPage
Layer: Pagination
Purpose: Where a page without results leads back to. The marker it returns is moved away from the items, so that the
  way back skips an item that the reader's marker stands on, and one right next to it. A page with limit 0 moves its
  marker the right way, and skips nothing.
Main exports: EndsInId, LeadsBack, ClearOf, Pager.leads_back_iff
-/
import Zigopt.Pagination.QueryAgreement

namespace Zigopt.Pagination

variable {α : Type}

/-! ### Moving the last integer -/

/-- A marker as it is compared. -/
abbrev markerKey (marker : PagingMarker) : List SortValue := sanitizeNones (getFieldValuesFromMarker marker)

theorem shiftMarker_eq_ok {offset : Int} {marker shifted : PagingMarker} :
    shiftMarker offset marker = .ok shifted ↔
      ∃ symbols value, marker.symbols = symbols ++ [.intValue value] ∧ InInt64 (value + offset) ∧
        shifted = ⟨symbols ++ [.intValue (value + offset)]⟩ := by
  constructor
  · intro moved
    rw [shiftMarker] at moved
    cases last : marker.symbols.getLast? with
    | none =>
        rw [last] at moved
        cases moved
    | some symbol =>
        rw [last] at moved
        rcases List.getLast?_eq_some_iff.mp last with ⟨symbols, isSplit⟩
        cases symbol with
        | intValue value =>
            rw [Raising.bind_eq_ok] at moved
            rcases moved with ⟨symbol, isSet, isMoved⟩
            rw [setIntValue] at isSet
            split at isSet
            · rename_i fits
              refine ⟨symbols, value, isSplit, fits, ?_⟩
              rw [← Except.ok.inj isMoved, ← Except.ok.inj isSet, isSplit, List.dropLast_concat]
            · cases isSet
        | _ => cases moved
  · rintro ⟨symbols, value, isSplit, fits, rfl⟩
    rw [shiftMarker, isSplit, List.getLast?_concat]
    simp only [setIntValue, if_pos fits, Raising.ok_bind, List.dropLast_concat]
    rfl

/-- Tuples of one length are compared by their last values only if the others are the same. -/
theorem tupleLt_concat {first second : List SortValue} (sameLength : first.length = second.length)
    (one two : SortValue) :
    tupleLt (first ++ [one]) (second ++ [two]) =
      if first = second then tupleLt [one] [two] else tupleLt first second := by
  induction first generalizing second with
  | nil =>
      cases second with
      | nil => rfl
      | cons value values => cases sameLength
  | cons head rest inductionHypothesis =>
      cases second with
      | nil => cases sameLength
      | cons other others =>
          have shorter : rest.length = others.length := Nat.succ.inj sameLength
          have unfolded : tupleLt (head :: rest) (other :: others) =
              if head = other then tupleLt rest others else head.lt? other := rfl
          rw [List.cons_append, List.cons_append, unfolded, tupleLt, inductionHypothesis shorter]
          by_cases same : head = other
          · simp only [same, if_true, List.cons.injEq, true_and]
          · simp only [same, if_false, List.cons.injEq, false_and]

theorem tupleLt_ids (first second : Int) :
    tupleLt [(FieldValue.int first).sanitize] [(FieldValue.int second).sanitize] = some (decide (first < second)) := by
  have comparable : Comparable [(FieldValue.int first).sanitize] [(FieldValue.int second).sanitize] := by
    unfold Comparable tupleLt
    split
    · rfl
    · rfl
  rw [comparable.tupleLt_eq]
  congr 1
  rw [decide_eq_decide, List.cons_lt_cons_iff]
  simp only [FieldValue.sanitize, SortValue.number_lt_number, lt_self_iff_false, and_false, or_false,
    WithBot.coe_lt_coe, WithTop.coe_lt_coe, Rat.intCast_lt_intCast]

section Ids

variable {first second : List SortValue}

theorem lt_concat_iff (sameLength : first.length = second.length) {one two : Int}
    (comparable : Comparable (first ++ [(FieldValue.int one).sanitize]) (second ++ [(FieldValue.int two).sanitize])) :
    tupleLt (first ++ [(FieldValue.int one).sanitize]) (second ++ [(FieldValue.int two).sanitize]) =
      if first = second then some (decide (one < two)) else some (decide (first < second)) := by
  rw [Comparable, tupleLt_concat sameLength] at comparable
  rw [tupleLt_concat sameLength, tupleLt_ids]
  by_cases same : first = second
  · rw [if_pos same, if_pos same]
  · rw [if_neg same] at comparable
    rw [if_neg same, if_neg same, Comparable.tupleLt_eq comparable]

/-- Between an id and the next one there is no other. -/
theorem tupleLt_next (sameLength : first.length = second.length) {one two : Int}
    (comparable : Comparable (first ++ [(FieldValue.int one).sanitize]) (second ++ [(FieldValue.int two).sanitize])) :
    tupleLt (first ++ [(FieldValue.int one).sanitize]) (second ++ [(FieldValue.int (two + 1)).sanitize]) =
      some (decide (first ++ [(FieldValue.int one).sanitize] ≤ second ++ [(FieldValue.int two).sanitize])) := by
  have reversed := lt_concat_iff sameLength.symm comparable.symm
  rw [comparable.symm.tupleLt_eq] at reversed
  rw [tupleLt_concat sameLength, tupleLt_ids]
  by_cases same : first = second
  · rw [if_pos same.symm, Option.some.injEq, decide_eq_decide] at reversed
    rw [if_pos same, Option.some.injEq, decide_eq_decide, ← not_lt, reversed]
    omega
  · rw [if_neg (Ne.symm same), Option.some.injEq, decide_eq_decide] at reversed
    rw [Comparable, tupleLt_concat sameLength, if_neg same] at comparable
    rw [if_neg same, Comparable.tupleLt_eq comparable, Option.some.injEq, decide_eq_decide, ← not_lt, reversed, not_lt]
    exact ⟨le_of_lt, fun atMost => lt_of_le_of_ne atMost same⟩

theorem tupleLt_previous (sameLength : first.length = second.length) {one two : Int}
    (comparable : Comparable (first ++ [(FieldValue.int one).sanitize]) (second ++ [(FieldValue.int two).sanitize])) :
    tupleLt (first ++ [(FieldValue.int (one - 1)).sanitize]) (second ++ [(FieldValue.int two).sanitize]) =
      some (decide (first ++ [(FieldValue.int one).sanitize] ≤ second ++ [(FieldValue.int two).sanitize])) := by
  have reversed := lt_concat_iff sameLength.symm comparable.symm
  rw [comparable.symm.tupleLt_eq] at reversed
  rw [tupleLt_concat sameLength, tupleLt_ids]
  by_cases same : first = second
  · rw [if_pos same.symm, Option.some.injEq, decide_eq_decide] at reversed
    rw [if_pos same, Option.some.injEq, decide_eq_decide, ← not_lt, reversed]
    omega
  · rw [if_neg (Ne.symm same), Option.some.injEq, decide_eq_decide] at reversed
    rw [Comparable, tupleLt_concat sameLength, if_neg same] at comparable
    rw [if_neg same, Comparable.tupleLt_eq comparable, Option.some.injEq, decide_eq_decide, ← not_lt, reversed, not_lt]
    exact ⟨le_of_lt, fun atMost => lt_of_le_of_ne atMost same⟩

end Ids

/-! ### The items between two markers -/

section Window

variable {Field : α → Key} {items sorted : List α} {before after : Option PagingMarker}

/-- A comparison that raises has no answer. -/
def liesBetween (Field : α → Key) (before after : Option PagingMarker) (item : α) : Bool :=
  match betweenMarkers (Field item) before after with
  | .ok answer => answer
  | .error _ => false

/-- Python can tell of every item whether it lies between the markers. -/
def Answered (Field : α → Key) (before after : Option PagingMarker) (items : List α) : Prop :=
  ∀ item ∈ items, betweenMarkers (Field item) before after = .ok (liesBetween Field before after item)

theorem liesBetween_of_ok {item : α} {answer : Bool} (answered : betweenMarkers (Field item) before after = .ok answer) :
    liesBetween Field before after item = answer := by
  rw [liesBetween, answered]

theorem fetchResults_eq_ok (isSorted : sortedList Field items = .ok sorted) {paging : PagingRequest}
    {ascending : Bool} {results : List α} :
    (Pager.itemList items).fetchResults Field paging ascending = .ok results ↔
      Answered Field paging.before paging.after sorted ∧
        results = Table.cutResults paging.limit (startFromBefore ascending paging.before paging.after)
          (sorted.filter (liesBetween Field paging.before paging.after)) := by
  have kept : Answered Field paging.before paging.after sorted →
      (Pager.itemList items).fetchResults Field paging ascending =
        .ok (Table.cutResults paging.limit (startFromBefore ascending paging.before paging.after)
          (sorted.filter (liesBetween Field paging.before paging.after))) := by
    intro answered
    have filtered := filterOrRaise_eq_filter answered
    simp only [Pager.fetchResults, isSorted, Raising.ok_bind, fetchPageFromItemList, filtered]
    cases paging.limit <;> rfl
  constructor
  · intro fetched
    have answered : Answered Field paging.before paging.after sorted := by
      simp only [Pager.fetchResults, isSorted, Raising.ok_bind, fetchPageFromItemList, Raising.bind_eq_ok] at fetched
      rcases fetched with ⟨filteredPage, filtered, _⟩
      intro item member
      rcases filterOrRaise_answers filtered item member with ⟨answer, isAnswer⟩
      rw [liesBetween_of_ok isAnswer]
      exact isAnswer
    rw [kept answered] at fetched
    exact ⟨answered, (Except.ok.inj fetched).symm⟩
  · rintro ⟨answered, rfl⟩
    exact kept answered

/-- Without a limit, all items between the markers are returned. -/
theorem fetch_unlimited (isSorted : sortedList Field items = .ok sorted)
    (storable : ∀ item ∈ sorted, ∀ value ∈ Field item, Storable value) (ascending : Bool)
    (answered : Answered Field before after sorted)
    (movable : sorted.filter (liesBetween Field before after) = [] → ∃ markers,
      getNewMarkers Field [] before after (startFromBefore ascending before after) false = .ok markers) :
    ∃ page, (Pager.itemList items).fetch Field { before := before, after := after } ascending = .ok page ∧
      page.results = oriented ascending (sorted.filter (liesBetween Field before after)) := by
  have fetched : (Pager.itemList items).fetchResults Field { before := before, after := after } ascending =
      .ok (sorted.filter (liesBetween Field before after)) := (fetchResults_eq_ok isSorted).mpr ⟨answered, rfl⟩
  have responded : (Pager.itemList items).fetch Field { before := before, after := after } ascending =
      turnIntoPage Field { before := before, after := after } ascending
        (sorted.filter (liesBetween Field before after)) false := by
    rw [Pager.fetch, fetched]
    rfl
  rw [responded]
  by_cases empty : sorted.filter (liesBetween Field before after) = []
  · rcases movable empty with ⟨markers, found⟩
    rw [empty, turnIntoPage, found]
    refine ⟨⟨if ascending then [].reverse else [], markers.1, markers.2⟩, rfl, ?_⟩
    cases ascending <;> rfl
  · have storableKept : ∀ item ∈ sorted.filter (liesBetween Field before after), ∀ value ∈ Field item,
        Storable value := fun item member => storable item (List.mem_of_mem_filter member)
    rcases turnIntoPage_of_storable { before := before, after := after } ascending false empty storableKept
      with ⟨page, answeredPage, _⟩
    exact ⟨page, answeredPage, turnIntoPage_results answeredPage⟩

/-- What a page without results was made of, and its markers. -/
theorem empty_page (isSorted : sortedList Field items = .ok sorted) {paging : PagingRequest}
    (positive : paging.limit ≠ some 0) {ascending : Bool} {page : Page α}
    (fetched : (Pager.itemList items).fetch Field paging ascending = .ok page) (empty : page.results = []) :
    Answered Field paging.before paging.after sorted ∧
      sorted.filter (liesBetween Field paging.before paging.after) = [] ∧
      getNewMarkers Field [] paging.before paging.after (startFromBefore ascending paging.before paging.after) false =
        .ok (page.before, page.after) := by
  rw [Pager.fetch, Raising.bind_eq_ok] at fetched
  rcases fetched with ⟨results, isResults, responded⟩
  rcases (fetchResults_eq_ok isSorted).mp isResults with ⟨answered, rfl⟩
  rw [Table.respond_cutResults paging ascending positive] at responded
  have nothing : sorted.filter (liesBetween Field paging.before paging.after) = [] := by
    cases isLimit : paging.limit with
    | none =>
        rw [isLimit] at responded
        have results := turnIntoPage_results responded
        rw [empty] at results
        apply List.eq_nil_of_length_eq_zero
        rw [← Table.length_oriented ascending, ← results]
        rfl
    | some limit =>
        rw [isLimit] at responded
        have results := congrArg List.length (turnIntoPage_results responded)
        rw [empty, Table.length_oriented, Table.length_oriented, List.length_take, Table.length_oriented,
          List.length_nil] at results
        have notZero : limit ≠ 0 := fun zero => positive (by rw [isLimit, zero])
        apply List.eq_nil_of_length_eq_zero
        omega
  refine ⟨answered, nothing, ?_⟩
  have turned : turnIntoPage Field paging ascending [] false = .ok page := by
    rw [nothing] at responded
    cases isLimit : paging.limit with
    | none =>
        rw [isLimit] at responded
        exact responded
    | some limit =>
        rw [isLimit] at responded
        have none : ∀ flag, oriented flag ([] : List α) = [] := by
          intro flag
          cases flag <;> rfl
        simp only [none, List.take_nil, List.length_nil, Nat.not_lt_zero, decide_false] at responded
        exact responded
  rw [turnIntoPage, Raising.bind_eq_ok] at turned
  rcases turned with ⟨⟨newBefore, newAfter⟩, found, made⟩
  rw [found, ← Except.ok.inj made]

end Window

/-! ### What the markers lead back to -/

/-- Items whose keys are tuples of one length that end in an id. -/
structure EndsInId (Field : α → Key) (items : List α) : Prop extends Pageable Field items where
  ended : ∃ n, ∀ item ∈ items, ∃ front id, Field item = front ++ [.int id] ∧ front.length = n

/-- A page returns exactly these items, in key order. -/
def Serves (Field : α → Key) (ascending : Bool) (expected : List α) (page : Page α) : Prop :=
  page.results.Perm expected ∧ InKeyOrder Field ascending page.results

/-- The way back from a page without results, and the way on from a page with limit 0. -/
structure LeadsBack (Field : α → Key) (items : List α) (marker : PagingMarker) : Prop where
  above : ∀ limit ascending page, limit ≠ some 0 →
    (Pager.itemList items).fetch Field { limit := limit, before := some marker } ascending = .ok page →
    page.results = [] → ∃ back next, page.after = some back ∧
      (Pager.itemList items).fetch Field { after := some back } true = .ok next ∧
        Serves Field true (items.filter fun item => markerKey marker ≤ sortKey Field item) next
  below : ∀ limit ascending page, limit ≠ some 0 →
    (Pager.itemList items).fetch Field { limit := limit, after := some marker } ascending = .ok page →
    page.results = [] → ∃ back next, page.before = some back ∧
      (Pager.itemList items).fetch Field { before := some back } false = .ok next ∧
        Serves Field false (items.filter fun item => sortKey Field item ≤ markerKey marker) next
  limitZero : ∀ before after ascending page,
    (Pager.itemList items).fetch Field { limit := some 0, before := before, after := after } ascending = .ok page →
    items.filter (liesBetween Field before after) ≠ [] →
      if startFromBefore ascending before after then
        ∃ on next, page.before = some on ∧
          (Pager.itemList items).fetch Field { before := some on, after := after } ascending = .ok next ∧
            Serves Field ascending (items.filter (liesBetween Field before after)) next
      else
        ∃ on next, page.after = some on ∧
          (Pager.itemList items).fetch Field { before := before, after := some on } ascending = .ok next ∧
            Serves Field ascending (items.filter (liesBetween Field before after)) next

/-- A marker as it comes in: an `int_value` is an `int64`. -/
def PagingMarker.Fits (marker : PagingMarker) : Prop := ∀ value, .intValue value ∈ marker.symbols → InInt64 value

/-- Nothing stands on the marker, or within one id of it, on the side that the items are on. -/
structure ClearOf (Field : α → Key) (items : List α) (symbols : List PagingSymbol) (value : Int) : Prop where
  above : InInt64 (value + 1) →
    (∀ item ∈ items, tupleLt (sortKey Field item) (markerKey ⟨symbols ++ [.intValue value]⟩) = some false) →
    ∀ item ∈ items, tupleLt (markerKey ⟨symbols ++ [.intValue (value + 1)]⟩) (sortKey Field item) = some true
  below : InInt64 (value - 1) →
    (∀ item ∈ items, tupleLt (markerKey ⟨symbols ++ [.intValue value]⟩) (sortKey Field item) = some false) →
    ∀ item ∈ items, tupleLt (sortKey Field item) (markerKey ⟨symbols ++ [.intValue (value - 1)]⟩) = some true

section Back

variable {Field : α → Key} {items sorted : List α}

theorem lessThan_eq_ok {first second : List SortValue} {answer : Bool} :
    lessThan first second = .ok answer ↔ tupleLt first second = some answer := by
  rw [lessThan]
  cases tupleLt first second with
  | none => simp
  | some found => simp

theorem betweenMarkers_before (item : α) (marker : PagingMarker) :
    betweenMarkers (Field item) (some marker) none = lessThan (sortKey Field item) (markerKey marker) := by
  rw [betweenMarkers, belowMarker]
  cases lessThan (sortKey Field item) (markerKey marker) with
  | error failure => rfl
  | ok answer => cases answer <;> rfl

theorem betweenMarkers_after (item : α) (marker : PagingMarker) :
    betweenMarkers (Field item) none (some marker) = lessThan (markerKey marker) (sortKey Field item) := rfl

theorem serves_filter (pageable : Pageable Field items) (perm : sorted.Perm items)
    (descending : CursorTraversal.StrictlyDescending (sortKey Field) sorted) (ascending : Bool) (keep : α → Bool)
    {page : Page α} (results : page.results = oriented ascending (sorted.filter keep)) :
    Serves Field ascending (items.filter keep) page := by
  constructor
  · rw [results]
    apply List.Perm.trans _ (perm.filter keep)
    cases ascending with
    | false => exact List.Perm.refl _
    | true => exact List.reverse_perm _
  · rw [results, ← Table.filter_oriented]
    exact (pageable.inKeyOrder perm descending ascending).filter keep

theorem le_of_tupleLt {first second : List SortValue} (notLess : tupleLt first second = some false) :
    second ≤ first := by
  have decided := tupleLt_eq_some notLess
  exact not_lt.mp (of_decide_eq_false decided.symm)

theorem mapM_some_eq_ok {shift : PagingMarker → Except PagerError PagingMarker} {marker : PagingMarker}
    {moved : Option PagingMarker} (isMoved : (some marker).mapM shift = .ok moved) :
    ∃ back, shift marker = .ok back ∧ moved = some back := by
  rw [Option.mapM_some] at isMoved
  cases found : shift marker with
  | error failure =>
      rw [found] at isMoved
      cases isMoved
  | ok back =>
      rw [found] at isMoved
      exact ⟨back, rfl, (Except.ok.inj isMoved).symm⟩

/-- The page after `before` is empty: all items are at the marker or above it. -/
theorem all_above (isSorted : sortedList Field items = .ok sorted) (perm : sorted.Perm items)
    {limit : Option Nat} (positive : limit ≠ some 0) {marker : PagingMarker} {ascending : Bool} {page : Page α}
    (fetched : (Pager.itemList items).fetch Field { limit := limit, before := some marker } ascending = .ok page)
    (empty : page.results = []) :
    (∀ item ∈ items, tupleLt (sortKey Field item) (markerKey marker) = some false) ∧
      ∃ back, incrementMarker marker = .ok back ∧ page.after = some back := by
  rcases empty_page isSorted positive fetched empty with ⟨answered, nothing, markers⟩
  have fromBefore : startFromBefore ascending (some marker) none = true := by cases ascending <;> rfl
  constructor
  · intro item member
    have inSorted := perm.mem_iff.mpr member
    have outside : liesBetween Field (some marker) none item = false := by
      apply Bool.eq_false_iff.mpr
      intro between
      have kept := List.mem_filter.mpr ⟨inSorted, between⟩
      rw [nothing] at kept
      cases kept
    have answer := answered item inSorted
    rw [outside, betweenMarkers_before] at answer
    exact lessThan_eq_ok.mp answer
  · rw [getNewMarkers, if_pos fromBefore, Raising.bind_eq_ok] at markers
    rcases markers with ⟨moved, isMoved, isMarkers⟩
    rcases mapM_some_eq_ok isMoved with ⟨back, isBack, rfl⟩
    exact ⟨back, isBack, (Prod.mk.inj (Except.ok.inj isMarkers)).2.symm⟩

/-- The page after `after` is empty: all items are at the marker or below it. -/
theorem all_below (isSorted : sortedList Field items = .ok sorted) (perm : sorted.Perm items)
    {limit : Option Nat} (positive : limit ≠ some 0) {marker : PagingMarker} {ascending : Bool} {page : Page α}
    (fetched : (Pager.itemList items).fetch Field { limit := limit, after := some marker } ascending = .ok page)
    (empty : page.results = []) :
    (∀ item ∈ items, tupleLt (markerKey marker) (sortKey Field item) = some false) ∧
      ∃ back, decrementMarker marker = .ok back ∧ page.before = some back := by
  rcases empty_page isSorted positive fetched empty with ⟨answered, nothing, markers⟩
  have fromAfter : startFromBefore ascending none (some marker) = false := by cases ascending <;> rfl
  constructor
  · intro item member
    have inSorted := perm.mem_iff.mpr member
    have outside : liesBetween Field none (some marker) item = false := by
      apply Bool.eq_false_iff.mpr
      intro between
      have kept := List.mem_filter.mpr ⟨inSorted, between⟩
      rw [nothing] at kept
      cases kept
    have answer := answered item inSorted
    rw [outside, betweenMarkers_after] at answer
    exact lessThan_eq_ok.mp answer
  · rw [getNewMarkers, if_neg (by rw [fromAfter]; exact Bool.false_ne_true), Raising.bind_eq_ok] at markers
    rcases markers with ⟨moved, isMoved, isMarkers⟩
    rcases mapM_some_eq_ok isMoved with ⟨back, isBack, rfl⟩
    exact ⟨back, isBack, (Prod.mk.inj (Except.ok.inj isMarkers)).1.symm⟩

theorem shift_back {offset : Int} {marker back : PagingMarker} (fits : marker.Fits)
    (isBack : shiftMarker offset marker = .ok back) : shiftMarker (-offset) back = .ok marker := by
  rcases shiftMarker_eq_ok.mp isBack with ⟨symbols, value, isMarker, _, rfl⟩
  have same : value + offset + -offset = value := by omega
  apply shiftMarker_eq_ok.mpr
  refine ⟨symbols, value + offset, rfl, ?_, ?_⟩
  · rw [same]
    apply fits
    rw [isMarker]
    simp
  · rw [same, ← isMarker]

theorem fetch_above (pageable : Pageable Field items) (isSorted : sortedList Field items = .ok sorted)
    (perm : sorted.Perm items) (descending : CursorTraversal.StrictlyDescending (sortKey Field) sorted)
    {marker back : PagingMarker} (fits : marker.Fits) (isBack : incrementMarker marker = .ok back)
    (notBelow : ∀ item ∈ items, tupleLt (sortKey Field item) (markerKey marker) = some false)
    (clear : ∀ item ∈ items, tupleLt (markerKey back) (sortKey Field item) = some true) :
    ∃ next, (Pager.itemList items).fetch Field { after := some back } true = .ok next ∧
      Serves Field true (items.filter fun item => markerKey marker ≤ sortKey Field item) next := by
  have answers : ∀ item ∈ sorted, betweenMarkers (Field item) none (some back) = .ok true :=
    fun item member => lessThan_eq_ok.mpr (clear item (perm.mem_iff.mp member))
  have answered : Answered Field none (some back) sorted := by
    intro item member
    rw [liesBetween_of_ok (answers item member)]
    exact answers item member
  have sameFilter : sorted.filter (liesBetween Field none (some back)) =
      sorted.filter fun item => markerKey marker ≤ sortKey Field item := by
    apply List.filter_congr
    intro item member
    rw [liesBetween_of_ok (answers item member)]
    exact (decide_eq_true (le_of_tupleLt (notBelow item (perm.mem_iff.mp member)))).symm
  have movable : sorted.filter (liesBetween Field none (some back)) = [] → ∃ markers,
      getNewMarkers Field [] none (some back) (startFromBefore true none (some back)) false = .ok markers := by
    intro _
    refine ⟨(some marker, some back), ?_⟩
    have returned : (some back).mapM decrementMarker = .ok (some marker) := by
      rw [Option.mapM_some, decrementMarker, shift_back fits isBack]
      rfl
    have fromAfter : startFromBefore true none (some back) = false := rfl
    rw [getNewMarkers, fromAfter, if_neg Bool.false_ne_true, returned]
    rfl
  have storable : ∀ item ∈ sorted, ∀ value ∈ Field item, Storable value :=
    fun item member => pageable.storable item (perm.mem_iff.mp member)
  rcases fetch_unlimited isSorted storable true answered movable with ⟨next, fetched, results⟩
  rw [sameFilter] at results
  exact ⟨next, fetched, serves_filter pageable perm descending true _ results⟩

theorem fetch_below (pageable : Pageable Field items) (isSorted : sortedList Field items = .ok sorted)
    (perm : sorted.Perm items) (descending : CursorTraversal.StrictlyDescending (sortKey Field) sorted)
    {marker back : PagingMarker} (fits : marker.Fits) (isBack : decrementMarker marker = .ok back)
    (notAbove : ∀ item ∈ items, tupleLt (markerKey marker) (sortKey Field item) = some false)
    (clear : ∀ item ∈ items, tupleLt (sortKey Field item) (markerKey back) = some true) :
    ∃ next, (Pager.itemList items).fetch Field { before := some back } false = .ok next ∧
      Serves Field false (items.filter fun item => sortKey Field item ≤ markerKey marker) next := by
  have answers : ∀ item ∈ sorted, betweenMarkers (Field item) (some back) none = .ok true := by
    intro item member
    rw [betweenMarkers_before]
    exact lessThan_eq_ok.mpr (clear item (perm.mem_iff.mp member))
  have answered : Answered Field (some back) none sorted := by
    intro item member
    rw [liesBetween_of_ok (answers item member)]
    exact answers item member
  have sameFilter : sorted.filter (liesBetween Field (some back) none) =
      sorted.filter fun item => sortKey Field item ≤ markerKey marker := by
    apply List.filter_congr
    intro item member
    rw [liesBetween_of_ok (answers item member)]
    exact (decide_eq_true (le_of_tupleLt (notAbove item (perm.mem_iff.mp member)))).symm
  have movable : sorted.filter (liesBetween Field (some back) none) = [] → ∃ markers,
      getNewMarkers Field [] (some back) none (startFromBefore false (some back) none) false = .ok markers := by
    intro _
    refine ⟨(some back, some marker), ?_⟩
    have returned : (some back).mapM incrementMarker = .ok (some marker) := by
      have moved := shift_back fits isBack
      rw [Int.neg_neg] at moved
      rw [Option.mapM_some, incrementMarker, moved]
      rfl
    have fromBefore : startFromBefore false (some back) none = true := rfl
    rw [getNewMarkers, fromBefore, if_pos rfl, returned]
    rfl
  have storable : ∀ item ∈ sorted, ∀ value ∈ Field item, Storable value :=
    fun item member => pageable.storable item (perm.mem_iff.mp member)
  rcases fetch_unlimited isSorted storable false answered movable with ⟨next, fetched, results⟩
  rw [sameFilter] at results
  exact ⟨next, fetched, serves_filter pageable perm descending false _ results⟩

theorem unlimited_results (isSorted : sortedList Field items = .ok sorted) {before after : Option PagingMarker}
    {ascending : Bool} {page : Page α}
    (fetched : (Pager.itemList items).fetch Field { before := before, after := after } ascending = .ok page) :
    Answered Field before after sorted ∧
      page.results = oriented ascending (sorted.filter (liesBetween Field before after)) := by
  rw [Pager.fetch, Raising.bind_eq_ok] at fetched
  rcases fetched with ⟨results, isResults, responded⟩
  rcases (fetchResults_eq_ok isSorted).mp isResults with ⟨answered, rfl⟩
  exact ⟨answered, turnIntoPage_results responded⟩

theorem between_of_results (isSorted : sortedList Field items = .ok sorted) {before after : Option PagingMarker}
    {ascending : Bool} {page : Page α}
    (fetched : (Pager.itemList items).fetch Field { before := before, after := after } ascending = .ok page)
    {item : α} (member : item ∈ page.results) : betweenMarkers (Field item) before after = .ok true := by
  rcases unlimited_results isSorted fetched with ⟨answered, results⟩
  rw [results, Table.mem_oriented, List.mem_filter] at member
  rw [answered item member.1, member.2]

theorem clear_above (isSorted : sortedList Field items = .ok sorted) (perm : sorted.Perm items)
    (pageable : Pageable Field items) {marker back : PagingMarker} (isBack : incrementMarker marker = .ok back)
    (leads : LeadsBack Field items marker)
    (notBelow : ∀ item ∈ items, tupleLt (sortKey Field item) (markerKey marker) = some false) :
    ∀ item ∈ items, tupleLt (markerKey back) (sortKey Field item) = some true := by
  have answers : ∀ item ∈ sorted, betweenMarkers (Field item) (some marker) none = .ok false := by
    intro item member
    rw [betweenMarkers_before]
    exact lessThan_eq_ok.mpr (notBelow item (perm.mem_iff.mp member))
  have answered : Answered Field (some marker) none sorted := by
    intro item member
    rw [liesBetween_of_ok (answers item member)]
    exact answers item member
  have nothing : sorted.filter (liesBetween Field (some marker) none) = [] := by
    apply List.filter_eq_nil_iff.mpr
    intro item member
    rw [liesBetween_of_ok (answers item member)]
    exact Bool.false_ne_true
  have movable : sorted.filter (liesBetween Field (some marker) none) = [] → ∃ markers,
      getNewMarkers Field [] (some marker) none (startFromBefore false (some marker) none) false = .ok markers := by
    intro _
    refine ⟨(some marker, some back), ?_⟩
    have moved : (some marker).mapM incrementMarker = .ok (some back) := by
      rw [Option.mapM_some, isBack]
      rfl
    have fromBefore : startFromBefore false (some marker) none = true := rfl
    rw [getNewMarkers, fromBefore, if_pos rfl, moved]
    rfl
  have storable : ∀ item ∈ sorted, ∀ value ∈ Field item, Storable value :=
    fun item member => pageable.storable item (perm.mem_iff.mp member)
  rcases fetch_unlimited isSorted storable false answered movable with ⟨page, fetched, results⟩
  rw [nothing] at results
  have noLimit : (none : Option Nat) ≠ some 0 := (Option.some_ne_none 0).symm
  rcases leads.above none false page noLimit fetched results with ⟨other, next, isOther, fetchedNext, served, _⟩
  rcases (all_above isSorted perm noLimit fetched results).2 with ⟨same, isSame, isAfter⟩
  rw [isBack] at isSame
  rw [← Except.ok.inj isSame, isOther, Option.some.injEq] at isAfter
  subst isAfter
  intro item member
  have listed : item ∈ next.results := by
    apply served.mem_iff.mpr
    exact List.mem_filter.mpr ⟨member, decide_eq_true (le_of_tupleLt (notBelow item member))⟩
  exact lessThan_eq_ok.mp (between_of_results isSorted fetchedNext listed)

theorem clear_below (isSorted : sortedList Field items = .ok sorted) (perm : sorted.Perm items)
    (pageable : Pageable Field items) {marker back : PagingMarker} (isBack : decrementMarker marker = .ok back)
    (leads : LeadsBack Field items marker)
    (notAbove : ∀ item ∈ items, tupleLt (markerKey marker) (sortKey Field item) = some false) :
    ∀ item ∈ items, tupleLt (sortKey Field item) (markerKey back) = some true := by
  have answers : ∀ item ∈ sorted, betweenMarkers (Field item) none (some marker) = .ok false :=
    fun item member => lessThan_eq_ok.mpr (notAbove item (perm.mem_iff.mp member))
  have answered : Answered Field none (some marker) sorted := by
    intro item member
    rw [liesBetween_of_ok (answers item member)]
    exact answers item member
  have nothing : sorted.filter (liesBetween Field none (some marker)) = [] := by
    apply List.filter_eq_nil_iff.mpr
    intro item member
    rw [liesBetween_of_ok (answers item member)]
    exact Bool.false_ne_true
  have movable : sorted.filter (liesBetween Field none (some marker)) = [] → ∃ markers,
      getNewMarkers Field [] none (some marker) (startFromBefore false none (some marker)) false = .ok markers := by
    intro _
    refine ⟨(some back, some marker), ?_⟩
    have moved : (some marker).mapM decrementMarker = .ok (some back) := by
      rw [Option.mapM_some, isBack]
      rfl
    have fromAfter : startFromBefore false none (some marker) = false := rfl
    rw [getNewMarkers, fromAfter, if_neg Bool.false_ne_true, moved]
    rfl
  have storable : ∀ item ∈ sorted, ∀ value ∈ Field item, Storable value :=
    fun item member => pageable.storable item (perm.mem_iff.mp member)
  rcases fetch_unlimited isSorted storable false answered movable with ⟨page, fetched, results⟩
  rw [nothing] at results
  have noLimit : (none : Option Nat) ≠ some 0 := (Option.some_ne_none 0).symm
  rcases leads.below none false page noLimit fetched results with ⟨other, next, isOther, fetchedNext, served, _⟩
  rcases (all_below isSorted perm noLimit fetched results).2 with ⟨same, isSame, isBefore⟩
  rw [isBack] at isSame
  rw [← Except.ok.inj isSame, isOther, Option.some.injEq] at isBefore
  subst isBefore
  intro item member
  have listed : item ∈ next.results := by
    apply served.mem_iff.mpr
    exact List.mem_filter.mpr ⟨member, decide_eq_true (le_of_tupleLt (notAbove item member))⟩
  have between := between_of_results isSorted fetchedNext listed
  rw [betweenMarkers_before] at between
  exact lessThan_eq_ok.mp between

end Back

/-! ### A page with limit 0 -/

section LimitZero

variable {Field : α → Key} {items sorted : List α} {before after : Option PagingMarker}

/-- The marker is made of the one item that was fetched. -/
theorem limitZero_page (isSorted : sortedList Field items = .ok sorted) {ascending : Bool} {page : Page α}
    (fetched : (Pager.itemList items).fetch Field { limit := some 0, before := before, after := after } ascending =
      .ok page) (nonempty : sorted.filter (liesBetween Field before after) ≠ []) :
    Answered Field before after sorted ∧
      if startFromBefore ascending before after then
        ∃ marker on, buildMarkerFromFieldValues (Field (List.head _ nonempty)) = .ok marker ∧
          incrementMarker marker = .ok on ∧ page.before = some on
      else
        ∃ marker on, buildMarkerFromFieldValues (Field (List.getLast _ nonempty)) = .ok marker ∧
          decrementMarker marker = .ok on ∧ page.after = some on := by
  rw [Pager.fetch, Raising.bind_eq_ok] at fetched
  rcases fetched with ⟨results, isResults, responded⟩
  rcases (fetchResults_eq_ok isSorted).mp isResults with ⟨answered, rfl⟩
  refine ⟨answered, ?_⟩
  generalize sorted.filter (liesBetween Field before after) = window at nonempty responded
  cases fromBefore : startFromBefore ascending before after with
  | true =>
      cases window with
      | nil => exact absurd rfl nonempty
      | cons first rest =>
          simp only [respond, Table.cutResults, fromBefore, if_true, List.take_succ_cons, List.take_zero,
            Raising.bind_eq_ok] at responded
          rcases responded with ⟨marker, built, on, moved, made⟩
          rw [← Except.ok.inj made]
          exact ⟨marker, on, built, moved, rfl⟩
  | false =>
      have last : tail window 1 = [window.getLast nonempty] := by
        have reversed := tail_reverse window.reverse 1
        rw [List.reverse_reverse] at reversed
        rw [reversed, List.take_one, List.head?_reverse, List.getLast?_eq_some_getLast nonempty]
        rfl
      simp only [respond, Table.cutResults, fromBefore, Bool.false_eq_true, if_false, last,
        Raising.bind_eq_ok] at responded
      rcases responded with ⟨marker, built, on, moved, made⟩
      rw [← Except.ok.inj made]
      exact ⟨marker, on, built, moved, rfl⟩

theorem markerKey_of_build {key front : Key} {id offset : Int} {marker on : PagingMarker}
    (storable : ∀ value ∈ key, Storable value) (isKey : key = front ++ [.int id])
    (built : buildMarkerFromFieldValues key = .ok marker) (moved : shiftMarker offset marker = .ok on) :
    markerKey on = sanitizeNones front ++ [(FieldValue.int (id + offset)).sanitize] := by
  rcases buildMarker_of_storable storable with ⟨other, builtOther, reads⟩
  rw [built] at builtOther
  rw [← Except.ok.inj builtOther, isKey] at reads
  rcases shiftMarker_eq_ok.mp moved with ⟨symbols, value, isMarker, _, rfl⟩
  rw [getFieldValuesFromMarker, isMarker, List.map_append] at reads
  rcases List.append_inj' reads rfl with ⟨sameFront, sameId⟩
  have isId : value = id := by
    rw [List.map_singleton, List.singleton_inj] at sameId
    exact FieldValue.int.inj sameId
  rw [markerKey, getFieldValuesFromMarker, List.map_append, sameFront, isId, sanitizeNones, List.map_append]
  rfl

theorem sortKey_of_isKey {item : α} {front : Key} {id : Int} (isKey : Field item = front ++ [.int id]) :
    sortKey Field item = sanitizeNones front ++ [(FieldValue.int id).sanitize] := by
  rw [sortKey, isKey, sanitizeNones, List.map_append]
  rfl

/-- Below the next id are exactly the items up to this one. -/
theorem belowMarker_next (endsInId : EndsInId Field items) {item extra : α} (member : item ∈ items)
    (extraMember : extra ∈ items) {marker on : PagingMarker}
    (built : buildMarkerFromFieldValues (Field extra) = .ok marker) (moved : incrementMarker marker = .ok on) :
    belowMarker (Field item) (some on) = .ok (decide (sortKey Field item ≤ sortKey Field extra)) := by
  rcases endsInId.ended with ⟨n, ended⟩
  rcases ended item member with ⟨front, id, isKey, length⟩
  rcases ended extra extraMember with ⟨extraFront, extraId, isExtra, extraLength⟩
  have isNext := markerKey_of_build (endsInId.storable extra extraMember) isExtra built moved
  have comparable := endsInId.comparable_of_mem member extraMember
  have sameLength : (sanitizeNones front).length = (sanitizeNones extraFront).length := by
    rw [sanitizeNones, sanitizeNones, List.length_map, List.length_map, length, extraLength]
  rw [sortKey_of_isKey isKey, sortKey_of_isKey isExtra] at comparable
  apply lessThan_eq_ok.mpr
  change tupleLt (sortKey Field item) (markerKey on) = _
  rw [isNext, sortKey_of_isKey isKey, sortKey_of_isKey isExtra]
  exact tupleLt_next sameLength comparable

/-- Above the previous id are exactly the items from this one on. -/
theorem aboveMarker_previous (endsInId : EndsInId Field items) {item extra : α} (member : item ∈ items)
    (extraMember : extra ∈ items) {marker on : PagingMarker}
    (built : buildMarkerFromFieldValues (Field extra) = .ok marker) (moved : decrementMarker marker = .ok on) :
    aboveMarker (Field item) (some on) = .ok (decide (sortKey Field extra ≤ sortKey Field item)) := by
  rcases endsInId.ended with ⟨n, ended⟩
  rcases ended item member with ⟨front, id, isKey, length⟩
  rcases ended extra extraMember with ⟨extraFront, extraId, isExtra, extraLength⟩
  have isPrevious := markerKey_of_build (endsInId.storable extra extraMember) isExtra built moved
  have comparable := endsInId.comparable_of_mem extraMember member
  have sameLength : (sanitizeNones extraFront).length = (sanitizeNones front).length := by
    rw [sanitizeNones, sanitizeNones, List.length_map, List.length_map, length, extraLength]
  rw [sortKey_of_isKey isKey, sortKey_of_isKey isExtra] at comparable
  apply lessThan_eq_ok.mpr
  change tupleLt (markerKey on) (sortKey Field item) = _
  rw [isPrevious, sortKey_of_isKey isKey, sortKey_of_isKey isExtra]
  exact tupleLt_previous sameLength comparable

theorem belowMarker_of_le {bound : Option PagingMarker} {item extra : α} {answer : Bool}
    (answered : belowMarker (Field item) bound = .ok answer) (extraBelow : belowMarker (Field extra) bound = .ok true)
    (atMost : sortKey Field item ≤ sortKey Field extra) : answer = true := by
  cases bound with
  | none => exact (Except.ok.inj answered).symm
  | some marker =>
      rw [tupleLt_eq_some (lessThan_eq_ok.mp answered)]
      have below := tupleLt_eq_some (lessThan_eq_ok.mp extraBelow)
      exact decide_eq_true (lt_of_le_of_lt atMost (of_decide_eq_true below.symm))

theorem aboveMarker_of_le {bound : Option PagingMarker} {item extra : α} {answer : Bool}
    (answered : aboveMarker (Field item) bound = .ok answer) (extraAbove : aboveMarker (Field extra) bound = .ok true)
    (atLeast : sortKey Field extra ≤ sortKey Field item) : answer = true := by
  cases bound with
  | none => exact (Except.ok.inj answered).symm
  | some marker =>
      rw [tupleLt_eq_some (lessThan_eq_ok.mp answered)]
      have above := tupleLt_eq_some (lessThan_eq_ok.mp extraAbove)
      exact decide_eq_true (lt_of_lt_of_le (of_decide_eq_true above.symm) atLeast)

theorem betweenMarkers_eq_ok {item : α} {answer : Bool} (answered : betweenMarkers (Field item) before after = .ok answer) :
    ∃ below, belowMarker (Field item) before = .ok below ∧
      if below then aboveMarker (Field item) after = .ok answer else answer = false := by
  rw [betweenMarkers, Raising.bind_eq_ok] at answered
  rcases answered with ⟨below, isBelow, rest⟩
  refine ⟨below, isBelow, ?_⟩
  cases below with
  | true => exact rest
  | false => exact (Except.ok.inj rest).symm

section Window

variable (endsInId : EndsInId Field items) (perm : sorted.Perm items) (answered : Answered Field before after sorted)
  {extra : α} {marker on : PagingMarker}

include endsInId perm answered

/-- Going down from the topmost item again asks for the same items. -/
theorem between_next (inWindow : extra ∈ sorted.filter (liesBetween Field before after))
    (topmost : ∀ item ∈ sorted.filter (liesBetween Field before after), sortKey Field item ≤ sortKey Field extra)
    (built : buildMarkerFromFieldValues (Field extra) = .ok marker) (moved : incrementMarker marker = .ok on)
    {item : α} (member : item ∈ sorted) :
    betweenMarkers (Field item) (some on) after = .ok (liesBetween Field before after item) := by
  rcases List.mem_filter.mp inWindow with ⟨extraMember, extraBetween⟩
  have next := belowMarker_next endsInId (perm.mem_iff.mp member) (perm.mem_iff.mp extraMember) built moved
  rw [betweenMarkers, next, Raising.ok_bind]
  by_cases atMost : sortKey Field item ≤ sortKey Field extra
  · rw [if_pos (decide_eq_true atMost)]
    have extraAnswered := answered extra extraMember
    rw [extraBetween] at extraAnswered
    rcases betweenMarkers_eq_ok extraAnswered with ⟨extraIsBelow, extraBelow, extraRest⟩
    rcases betweenMarkers_eq_ok (answered item member) with ⟨isBelow, below, rest⟩
    cases extraIsBelow with
    | false => cases extraRest
    | true =>
        rw [belowMarker_of_le below extraBelow atMost, if_pos rfl] at rest
        exact rest
  · rw [if_neg (by simpa using atMost)]
    have outside : liesBetween Field before after item = false := by
      apply Bool.eq_false_iff.mpr
      intro between
      exact atMost (topmost item (List.mem_filter.mpr ⟨member, between⟩))
    rw [outside]

/-- Going up from the lowest item again asks for the same items. -/
theorem between_previous (inWindow : extra ∈ sorted.filter (liesBetween Field before after))
    (lowest : ∀ item ∈ sorted.filter (liesBetween Field before after), sortKey Field extra ≤ sortKey Field item)
    (built : buildMarkerFromFieldValues (Field extra) = .ok marker) (moved : decrementMarker marker = .ok on)
    {item : α} (member : item ∈ sorted) :
    betweenMarkers (Field item) before (some on) = .ok (liesBetween Field before after item) := by
  rcases List.mem_filter.mp inWindow with ⟨extraMember, extraBetween⟩
  have previous := aboveMarker_previous endsInId (perm.mem_iff.mp member) (perm.mem_iff.mp extraMember) built moved
  rcases betweenMarkers_eq_ok (answered item member) with ⟨isBelow, below, rest⟩
  rw [betweenMarkers, below, Raising.ok_bind]
  cases isBelow with
  | false =>
      rw [if_neg Bool.false_ne_true] at rest
      rw [if_neg Bool.false_ne_true, rest]
  | true =>
      rw [if_pos rfl] at rest
      rw [if_pos rfl, previous]
      by_cases atLeast : sortKey Field extra ≤ sortKey Field item
      · have extraAnswered := answered extra extraMember
        rw [extraBetween] at extraAnswered
        rcases betweenMarkers_eq_ok extraAnswered with ⟨extraIsBelow, extraBelow, extraRest⟩
        cases extraIsBelow with
        | false => cases extraRest
        | true => rw [decide_eq_true atLeast, aboveMarker_of_le rest extraRest atLeast]
      · have outside : liesBetween Field before after item = false := by
          apply Bool.eq_false_iff.mpr
          intro between
          exact atLeast (lowest item (List.mem_filter.mpr ⟨member, between⟩))
        rw [decide_eq_false atLeast, outside]

end Window

theorem fetch_same_window (pageable : Pageable Field items) (isSorted : sortedList Field items = .ok sorted)
    (perm : sorted.Perm items) (descending : CursorTraversal.StrictlyDescending (sortKey Field) sorted)
    (nonempty : sorted.filter (liesBetween Field before after) ≠ []) {newBefore newAfter : Option PagingMarker}
    (same : ∀ item ∈ sorted,
      betweenMarkers (Field item) newBefore newAfter = .ok (liesBetween Field before after item)) (ascending : Bool) :
    ∃ next, (Pager.itemList items).fetch Field { before := newBefore, after := newAfter } ascending = .ok next ∧
      Serves Field ascending (items.filter (liesBetween Field before after)) next := by
  have answered : Answered Field newBefore newAfter sorted := by
    intro item member
    rw [liesBetween_of_ok (same item member)]
    exact same item member
  have sameFilter : sorted.filter (liesBetween Field newBefore newAfter) =
      sorted.filter (liesBetween Field before after) := by
    apply List.filter_congr
    intro item member
    exact liesBetween_of_ok (same item member)
  have storable : ∀ item ∈ sorted, ∀ value ∈ Field item, Storable value :=
    fun item member => pageable.storable item (perm.mem_iff.mp member)
  rcases fetch_unlimited isSorted storable ascending answered
    (fun empty => absurd (sameFilter.symm.trans empty) nonempty) with ⟨next, fetched, results⟩
  rw [sameFilter] at results
  exact ⟨next, fetched, serves_filter pageable perm descending ascending _ results⟩

theorem limitZero_leads_on (endsInId : EndsInId Field items) {ascending : Bool} {page : Page α}
    (fetched : (Pager.itemList items).fetch Field { limit := some 0, before := before, after := after } ascending =
      .ok page) (more : items.filter (liesBetween Field before after) ≠ []) :
    if startFromBefore ascending before after then
      ∃ on next, page.before = some on ∧
        (Pager.itemList items).fetch Field { before := some on, after := after } ascending = .ok next ∧
          Serves Field ascending (items.filter (liesBetween Field before after)) next
    else
      ∃ on next, page.after = some on ∧
        (Pager.itemList items).fetch Field { before := before, after := some on } ascending = .ok next ∧
          Serves Field ascending (items.filter (liesBetween Field before after)) next := by
  rcases endsInId.exists_sorted with ⟨sorted, isSorted, perm, descending⟩
  have nonempty : sorted.filter (liesBetween Field before after) ≠ [] := by
    intro empty
    have permFiltered := perm.filter (liesBetween Field before after)
    rw [empty] at permFiltered
    exact more (List.nil_perm.mp permFiltered)
  have windowDescending : CursorTraversal.StrictlyDescending (sortKey Field)
      (sorted.filter (liesBetween Field before after)) := descending.filter _
  rcases limitZero_page isSorted fetched nonempty with ⟨answered, markers⟩
  cases fromBefore : startFromBefore ascending before after with
  | true =>
      rw [fromBefore, if_pos rfl] at markers
      rcases markers with ⟨marker, on, built, moved, isBefore⟩
      have topmost : ∀ item ∈ sorted.filter (liesBetween Field before after),
          sortKey Field item ≤ sortKey Field (List.head _ nonempty) :=
        fun item member => windowDescending.le_head nonempty member
      rcases fetch_same_window endsInId.toPageable isSorted perm descending nonempty
        (fun item => between_next endsInId perm answered (List.head_mem nonempty) topmost built moved) ascending
        with ⟨next, fetchedNext, served⟩
      rw [if_pos rfl]
      exact ⟨on, next, isBefore, fetchedNext, served⟩
  | false =>
      rw [fromBefore, if_neg Bool.false_ne_true] at markers
      rcases markers with ⟨marker, on, built, moved, isAfter⟩
      have lowest : ∀ item ∈ sorted.filter (liesBetween Field before after),
          sortKey Field (List.getLast _ nonempty) ≤ sortKey Field item :=
        fun item member => windowDescending.getLast_le nonempty member
      rcases fetch_same_window endsInId.toPageable isSorted perm descending nonempty
        (fun item => between_previous endsInId perm answered (List.getLast_mem nonempty) lowest built moved) ascending
        with ⟨next, fetchedNext, served⟩
      rw [if_neg Bool.false_ne_true]
      exact ⟨on, next, isAfter, fetchedNext, served⟩

end LimitZero

/-! ### Main results -/

/-- A page without results leads back exactly if nothing stands within one id of its marker. -/
theorem Pager.leads_back_iff (Field : α → Key) (items : List α) (endsInId : EndsInId Field items)
    (marker : PagingMarker) (fits : marker.Fits) :
    LeadsBack Field items marker ↔
      ∀ symbols value, marker.symbols = symbols ++ [.intValue value] → ClearOf Field items symbols value := by
  rcases endsInId.exists_sorted with ⟨sorted, isSorted, perm, descending⟩
  constructor
  · rintro leads symbols value isMarker
    have sameMarker : marker = ⟨symbols ++ [.intValue value]⟩ := congrArg PagingMarker.mk isMarker
    constructor
    · intro fitsNext notBelow
      have isBack : incrementMarker marker = .ok ⟨symbols ++ [.intValue (value + 1)]⟩ :=
        shiftMarker_eq_ok.mpr ⟨symbols, value, isMarker, fitsNext, rfl⟩
      rw [← sameMarker] at notBelow
      exact clear_above isSorted perm endsInId.toPageable isBack leads notBelow
    · intro fitsPrevious notAbove
      have isBack : decrementMarker marker = .ok ⟨symbols ++ [.intValue (value - 1)]⟩ :=
        shiftMarker_eq_ok.mpr ⟨symbols, value, isMarker, fitsPrevious, rfl⟩
      rw [← sameMarker] at notAbove
      exact clear_below isSorted perm endsInId.toPageable isBack leads notAbove
  · intro clear
    constructor
    · intro limit ascending page positive fetched empty
      rcases all_above isSorted perm positive fetched empty with ⟨notBelow, back, isBack, isAfter⟩
      have away : ∀ item ∈ items, tupleLt (markerKey back) (sortKey Field item) = some true := by
        rcases shiftMarker_eq_ok.mp isBack with ⟨symbols, value, isMarker, fitsNext, rfl⟩
        have sameMarker : marker = ⟨symbols ++ [.intValue value]⟩ := congrArg PagingMarker.mk isMarker
        rw [sameMarker] at notBelow
        exact (clear symbols value isMarker).above fitsNext notBelow
      rcases fetch_above endsInId.toPageable isSorted perm descending fits isBack notBelow away
        with ⟨next, fetchedNext, served⟩
      exact ⟨back, next, isAfter, fetchedNext, served⟩
    · intro limit ascending page positive fetched empty
      rcases all_below isSorted perm positive fetched empty with ⟨notAbove, back, isBack, isBefore⟩
      have away : ∀ item ∈ items, tupleLt (sortKey Field item) (markerKey back) = some true := by
        rcases shiftMarker_eq_ok.mp isBack with ⟨symbols, value, isMarker, fitsPrevious, rfl⟩
        have sameMarker : marker = ⟨symbols ++ [.intValue value]⟩ := congrArg PagingMarker.mk isMarker
        rw [sameMarker] at notAbove
        exact (clear symbols value isMarker).below fitsPrevious notAbove
      rcases fetch_below endsInId.toPageable isSorted perm descending fits isBack notAbove away
        with ⟨next, fetchedNext, served⟩
      exact ⟨back, next, isBefore, fetchedNext, served⟩
    · intro before after ascending page fetched more
      exact limitZero_leads_on endsInId fetched more

/-- Two items that are away from the marker, and above it. -/
theorem Pager.leads_back_gap :
    PagingMarker.Fits ⟨[.intValue 4]⟩ ∧ LeadsBack id [([.int 9] : Key), [.int 6]] ⟨[.intValue 4]⟩ := by
  have endsInId : EndsInId id [([.int 9] : Key), [.int 6]] := by
    refine ⟨⟨?_, by decide +kernel, by decide⟩, 0, ?_⟩
    · simp [Key.pyEq, FieldValue.pyEq, FieldValue.sanitize]
    · simp
  have fits : PagingMarker.Fits ⟨[.intValue 4]⟩ := by
    intro value member
    simp only [List.mem_singleton, PagingSymbol.intValue.injEq] at member
    rw [member]
    decide
  refine ⟨fits, (Pager.leads_back_iff id _ endsInId _ fits).mpr ?_⟩
  intro symbols value isMarker
  rcases @List.append_inj' _ [] _ _ _ isMarker rfl with ⟨rfl, sameId⟩
  rw [List.singleton_inj, PagingSymbol.intValue.injEq] at sameId
  subst sameId
  constructor
  · intro _ _
    decide +kernel
  · intro _ impossible
    exact absurd (impossible [.int 9] (by decide)) (by decide +kernel)

/-- The item that the marker stands on is skipped on the way back. -/
theorem Pager.skips_back :
    ¬∀ (items : List Key) (marker : PagingMarker), EndsInId id items → LeadsBack id items marker := by
  intro leads
  have endsInId : EndsInId id [([.int 5] : Key)] := by
    refine ⟨⟨by simp, by decide +kernel, by decide⟩, 0, ?_⟩
    simp
  have back := (leads _ ⟨[.intValue 5]⟩ endsInId).above none false ⟨[], some ⟨[.intValue 5]⟩, some ⟨[.intValue 6]⟩⟩
    nofun (by decide +kernel) rfl
  rcases back with ⟨marker, next, isBack, fetched, served, _⟩
  obtain rfl := Option.some.inj isBack
  have isNext : (Pager.itemList [([.int 5] : Key)]).fetch id { after := some ⟨[.intValue 6]⟩ } true =
      .ok ⟨[], some ⟨[.intValue 5]⟩, some ⟨[.intValue 6]⟩⟩ := by decide +kernel
  rw [isNext] at fetched
  rw [← Except.ok.inj fetched] at served
  exact absurd served.length_eq (by decide +kernel)

end Zigopt.Pagination
