/-
Module: Zigopt.Pagination.QueryAgreement
Layer: Pagination
Purpose: When the query pager answers with the same page and markers as the list pager over the same
  rows. A row that a NULL comparison hides, and a text that the collation of the database sorts elsewhere,
  have to lie behind the page for both pagers, and they have to agree on whether there is more; the bounds
  have to fit the columns, which the list pager does not check, and Python has to be able to compare the
  keys, which SQL always can.
Main exports: Table.Disputed, Table.Agreement, QueryPager.fetchPage_eq_listPage_iff, QueryPager.traversal_of_noNull
-/
import Zigopt.Pagination.Query

namespace Zigopt.Pagination

open CursorTraversal
open Sql (Collation)

variable {α : Type}

/-! ### Failures

Comparing raises `TypeError`, the query refuses bounds with errors of its own, and building or moving
a marker raises neither.
-/

theorem comparable_of_lessThan {first second : List SortValue} {answer : Bool}
    (compared : lessThan first second = .ok answer) : Comparable first second := by
  rw [lessThan] at compared
  split at compared
  · rename_i decided
    rw [Comparable, decided]
    rfl
  · cases compared

theorem lessThan_error {first second : List SortValue} {failure : PagerError}
    (failed : lessThan first second = .error failure) : failure = .typeError := by
  rw [lessThan] at failed
  split at failed
  · cases failed
  · exact (Except.error.inj failed).symm

theorem filterOrRaise_answers {condition : α → Except PagerError Bool} {items kept : List α}
    (filtered : filterOrRaise condition items = .ok kept) :
    ∀ item ∈ items, ∃ answer, condition item = .ok answer := by
  induction items generalizing kept with
  | nil => simp
  | cons item items inductionHypothesis =>
      rw [filterOrRaise, Raising.bind_eq_ok] at filtered
      obtain ⟨answer, answered, filtered⟩ := filtered
      rw [Raising.bind_eq_ok] at filtered
      obtain ⟨rest, filteredRest, -⟩ := filtered
      intro other member
      rcases List.mem_cons.mp member with rfl | later
      · exact ⟨answer, answered⟩
      · exact inductionHypothesis filteredRest other later

theorem filterOrRaise_error {condition : α → Except PagerError Bool} {items : List α}
    {failure : PagerError} (failed : filterOrRaise condition items = .error failure) :
    ∃ item ∈ items, condition item = .error failure := by
  induction items with
  | nil => cases failed
  | cons item items inductionHypothesis =>
      rw [filterOrRaise, Raising.bind_eq_error] at failed
      rcases failed with atHead | ⟨answer, -, later⟩
      · exact ⟨item, List.mem_cons_self, atHead⟩
      · rw [Raising.bind_eq_error] at later
        rcases later with inTail | ⟨rest, -, impossible⟩
        · obtain ⟨other, member, raised⟩ := inductionHypothesis inTail
          exact ⟨other, List.mem_cons_of_mem _ member, raised⟩
        · cases impossible

/-- The failures of code that builds and moves markers. -/
def PagerError.OfMarker : PagerError → Prop
  | .valueError _ => True
  | .assertionError => True
  | .indexError => True
  | _ => False

theorem setIntValue_error {value : Int} {failure : PagerError}
    (failed : setIntValue value = .error failure) : failure.OfMarker := by
  rw [setIntValue] at failed
  split at failed
  · cases failed
  · rw [← Except.error.inj failed]
    trivial

theorem buildMarker_error {key : Key} {failure : PagerError}
    (failed : buildMarkerFromFieldValues key = .error failure) : failure.OfMarker := by
  rw [buildMarkerFromFieldValues, Raising.bind_eq_error] at failed
  rcases failed with inSymbols | ⟨_, -, impossible⟩
  · obtain ⟨value, -, raised⟩ := Raising.mapM_eq_error inSymbols
    by_cases storable : Storable value
    · obtain ⟨symbol, built, -⟩ := buildSymbol_of_storable storable
      rw [built] at raised
      cases raised
    · obtain ⟨message, built⟩ := buildSymbol_of_not_storable storable
      rw [built] at raised
      rw [← Except.error.inj raised]
      trivial
  · cases impossible

theorem shiftMarker_error {offset : Int} {marker : PagingMarker} {failure : PagerError}
    (failed : shiftMarker offset marker = .error failure) : failure.OfMarker := by
  rw [shiftMarker] at failed
  split at failed
  · rw [← Except.error.inj failed]
    trivial
  · rw [Raising.bind_eq_error] at failed
    rcases failed with outOfRange | ⟨_, -, impossible⟩
    · exact setIntValue_error outOfRange
    · cases impossible
  · rw [← Except.error.inj failed]
    trivial

theorem optionShift_error {shift : PagingMarker → Except PagerError PagingMarker}
    (ofMarker : ∀ marker failure, shift marker = .error failure → failure.OfMarker)
    {marker : Option PagingMarker} {failure : PagerError} (failed : marker.mapM shift = .error failure) :
    failure.OfMarker := by
  cases marker with
  | none => cases failed
  | some found =>
      cases shifted : shift found with
      | ok next => simp [shifted] at failed
      | error other =>
          simp [shifted] at failed
          rw [← failed]
          exact ofMarker found other shifted

theorem turnIntoPage_error {Field : α → Key} {paging : PagingRequest} {ascending hasMore : Bool}
    {results : List α} {failure : PagerError}
    (failed : turnIntoPage Field paging ascending results hasMore = .error failure) :
    failure.OfMarker := by
  rw [turnIntoPage, Raising.bind_eq_error] at failed
  rcases failed with inMarkers | ⟨_, -, impossible⟩
  · cases results with
    | nil =>
        rw [getNewMarkers] at inMarkers
        split at inMarkers
        · rw [Raising.bind_eq_error] at inMarkers
          rcases inMarkers with raised | ⟨_, -, impossible⟩
          · exact optionShift_error (fun _ _ => shiftMarker_error) raised
          · cases impossible
        · rw [Raising.bind_eq_error] at inMarkers
          rcases inMarkers with raised | ⟨_, -, impossible⟩
          · exact optionShift_error (fun _ _ => shiftMarker_error) raised
          · cases impossible
    | cons first rest =>
        rw [getNewMarkers, getMarkersFromResults, Raising.bind_eq_error] at inMarkers
        rcases inMarkers with raised | ⟨_, -, inMarkers⟩
        · exact buildMarker_error raised
        · rw [Raising.bind_eq_error] at inMarkers
          rcases inMarkers with raised | ⟨_, -, impossible⟩
          · exact buildMarker_error raised
          · cases impossible
  · cases impossible

theorem respond_error {Field : α → Key} {paging : PagingRequest} {ascending : Bool} {results : List α}
    {failure : PagerError} (positive : paging.limit ≠ some 0)
    (failed : respond Field paging ascending results = .error failure) : failure.OfMarker := by
  unfold respond at failed
  split at failed
  · rename_i isZero
    exact False.elim (positive isZero)
  · exact turnIntoPage_error failed
  · exact turnIntoPage_error failed

theorem turnIntoPage_results {Field : α → Key} {paging : PagingRequest} {ascending hasMore : Bool}
    {results : List α} {page : Page α}
    (answered : turnIntoPage Field paging ascending results hasMore = .ok page) :
    page.results = oriented ascending results := by
  rw [turnIntoPage, Raising.bind_eq_ok] at answered
  obtain ⟨⟨before, after⟩, -, made⟩ := answered
  rw [← Except.ok.inj made]
  rfl

/-- The marker in the direction of the search is there exactly if there is more. -/
theorem turnIntoPage_of_storable {Field : α → Key} (paging : PagingRequest) (ascending hasMore : Bool)
    {results : List α} (nonempty : results ≠ [])
    (storable : ∀ item ∈ results, ∀ value ∈ Field item, Storable value) :
    ∃ page, turnIntoPage Field paging ascending results hasMore = .ok page ∧
      (if startFromBefore ascending paging.before paging.after then page.before else page.after).isSome =
        hasMore := by
  obtain ⟨minimum, maximum, -, -, markers⟩ :=
    getNewMarkers_of_storable nonempty storable paging.before paging.after
      (startFromBefore ascending paging.before paging.after) hasMore
  rw [turnIntoPage, markers]
  refine ⟨_, rfl, ?_⟩
  cases startFromBefore ascending paging.before paging.after <;> cases hasMore <;> rfl

/-- The kept results and whether there are more can be read off the page. -/
theorem turnIntoPage_eq_iff {Field : α → Key} {paging : PagingRequest} {ascending : Bool}
    {first second : List α} {firstMore secondMore : Bool}
    (storable : ∀ item ∈ first, ∀ value ∈ Field item, Storable value)
    (storableSecond : ∀ item ∈ second, ∀ value ∈ Field item, Storable value)
    (noneMore : first = [] → firstMore = false) (noneMoreSecond : second = [] → secondMore = false) :
    turnIntoPage Field paging ascending first firstMore =
        turnIntoPage Field paging ascending second secondMore ↔
      first = second ∧ firstMore = secondMore := by
  constructor
  · intro same
    have sameKept : ∀ {page}, turnIntoPage Field paging ascending first firstMore = .ok page →
        first = second := by
      intro page answered
      have results := turnIntoPage_results answered
      rw [same] at answered
      have resultsSecond := turnIntoPage_results answered
      have orientedSame : oriented ascending first = oriented ascending second :=
        results.symm.trans resultsSecond
      rw [← oriented_oriented ascending first, orientedSame, oriented_oriented]
    by_cases empty : first = []
    · by_cases emptySecond : second = []
      · exact ⟨by rw [empty, emptySecond], by rw [noneMore empty, noneMoreSecond emptySecond]⟩
      · obtain ⟨page, answered, -⟩ := turnIntoPage_of_storable paging ascending secondMore
          emptySecond storableSecond
        have kept := sameKept (same.trans answered)
        exact False.elim (emptySecond (by rw [← kept, empty]))
    · obtain ⟨page, answered, more⟩ := turnIntoPage_of_storable paging ascending firstMore
          empty storable
      have kept := sameKept answered
      obtain ⟨other, answeredOther, moreOther⟩ := turnIntoPage_of_storable paging ascending
          secondMore (fun isEmpty => empty (kept.trans isEmpty)) storableSecond
      rw [same, answeredOther] at answered
      obtain rfl := Except.ok.inj answered
      exact ⟨kept, more.symm.trans moreOther⟩
  · rintro ⟨rfl, rfl⟩
    rfl

namespace Table

/-! ### The condition -/

/-- The row is between the markers for the list pager, which reads NULL as infinity. -/
def between (table : Table α) (paging : PagingRequest) (row : α) : Bool :=
  match betweenMarkers (table.Field row) paging.before paging.after with
  | .ok answer => answer
  | .error _ => false

/-- The row is between the markers for the query, with no NULL in the way. -/
def visible (table : Table α) (collation : Collation) (paging : PagingRequest) (row : α) : Bool :=
  passes collation (paging.before.map getFieldValuesFromMarker) (paging.after.map getFieldValuesFromMarker)
    (table.Field row)

/-- In the direction in which a page is searched the first row comes before the second in memory. -/
def precedes (table : Table α) (fromBefore : Bool) (row other : α) : Bool :=
  if fromBefore then sortKey table.Field other < sortKey table.Field row
  else sortKey table.Field row < sortKey table.Field other

/-- The same for ORDER BY. -/
def precedesInQuery (table : Table α) (collation : Collation) (fromBefore : Bool) (row other : α) : Bool :=
  !orderedBefore collation fromBefore fromBefore (table.Field other) (table.Field row)

/-- One pager has the row between the markers and the other has not, or they order it differently against
    another row that both have there. -/
def Disputed (table : Table α) (collation : Collation) (paging : PagingRequest) (fromBefore : Bool) (row : α) :
    Prop :=
  table.visible collation paging row ≠ table.between paging row ∨
    table.visible collation paging row = true ∧ table.between paging row = true ∧
      ∃ other ∈ table.rows, table.visible collation paging other = true ∧ table.between paging other = true ∧
        table.precedesInQuery collation fromBefore row other ≠ table.precedes fromBefore row other

/-- Each symbol of the marker holds a value its column is compared with. -/
def MarkerFits (table : Table α) (marker : PagingMarker) : Prop :=
  List.Forall₂ (fun column value => column.compares value = true) table.columns
    (getFieldValuesFromMarker marker)

/-- Every comparison the list pager makes is one that Python can make. -/
structure PythonCompares (table : Table α) (paging : PagingRequest) : Prop where
  rows : table.rows.Pairwise fun first second =>
    Comparable (sortKey table.Field first) (sortKey table.Field second)
  before : ∀ marker, paging.before = some marker → ∀ row ∈ table.rows,
    Comparable (sortKey table.Field row) (sanitizeNones (getFieldValuesFromMarker marker))
  after : ∀ marker, paging.after = some marker → ∀ row ∈ table.rows,
    (∀ bound, paging.before = some bound →
      sortKey table.Field row < sanitizeNones (getFieldValuesFromMarker bound)) →
    Comparable (sanitizeNones (getFieldValuesFromMarker marker)) (sortKey table.Field row)

/-- The disputed row is behind `limit` rows wherever a pager has it between the markers. -/
structure Behind (table : Table α) (collation : Collation) (paging : PagingRequest) (fromBefore : Bool) (limit : Nat)
    (row : α) : Prop where
  inQuery : table.visible collation paging row = true → limit ≤ table.rows.countP fun other =>
    table.visible collation paging other && table.precedesInQuery collation fromBefore other row
  inMemory : table.between paging row = true → limit ≤ table.rows.countP fun other =>
    table.between paging other && table.precedes fromBefore other row

/-- The condition on rows and markers under which both pagers give the same answer. -/
structure Agreement (table : Table α) (collation : Collation) (paging : PagingRequest) (ascending : Bool) : Prop where
  beforeFits : ∀ marker, paging.before = some marker → table.MarkerFits marker
  afterFits : ∀ marker, paging.after = some marker → table.MarkerFits marker
  compares : table.PythonCompares paging
  disputesBehind : ∀ row ∈ table.rows,
    table.Disputed collation paging (startFromBefore ascending paging.before paging.after) row →
    ∃ limit, paging.limit = some limit ∧
      table.Behind collation paging (startFromBefore ascending paging.before paging.after) limit row
  sameMore : ∀ limit, paging.limit = some limit →
    (limit < table.rows.countP (table.visible collation paging) ↔ limit < table.rows.countP (table.between paging))

/-! ### Rows of a table -/

/-- The fields of a row are values that Postgres stores. -/
theorem storable (table : Table α) : ∀ row ∈ table.rows, ∀ value ∈ table.Field row, Storable value := by
  intro row member value valueMember
  have typed := table.typed row member
  obtain ⟨index, bound, rfl⟩ := List.getElem_of_mem valueMember
  have inColumns : index < table.columns.length := by
    rw [typed.length_eq]
    exact bound
  have holds := typed.get inColumns bound
  exact storable_of_holds holds

theorem compares_of_typed (table : Table α) {row : α} (member : row ∈ table.rows) :
    List.Forall₂ (fun column value => column.compares value = true) table.columns (table.Field row) :=
  (table.typed row member).imp fun _ _ holds => ColumnType.compares_of_holds holds

/-- Rows that Python can sort can be paged through: their ids tell their keys apart. -/
theorem pageable (table : Table α) (compares : table.rows.Pairwise fun first second =>
      Comparable (sortKey table.Field first) (sortKey table.Field second)) :
    Pageable table.Field table.rows := by
  refine ⟨?_, compares, table.storable⟩
  apply table.uniqueId.imp_of_mem
  intro first second memberFirst memberSecond differ same
  obtain ⟨id, hasId⟩ := table.hasId first memberFirst
  obtain ⟨otherId, hasOtherId⟩ := table.hasId second memberSecond
  have lasts : FieldValue.pyEq (.int id) (.int otherId) := by
    have reversed := List.rel_reverse same
    rw [List.getLast?_eq_head?_reverse] at hasId hasOtherId
    cases reversedKey : (table.Field first).reverse with
    | nil =>
        rw [reversedKey] at hasId
        cases hasId
    | cons value values =>
        cases reversedOther : (table.Field second).reverse with
        | nil =>
            rw [reversedOther] at hasOtherId
            cases hasOtherId
        | cons other others =>
            rw [reversedKey] at hasId
            rw [reversedOther] at hasOtherId
            rw [reversedKey, reversedOther] at reversed
            obtain rfl : value = .int id := by simpa using hasId
            obtain rfl : other = .int otherId := by simpa using hasOtherId
            cases reversed with
            | cons head _ => exact head
  have sameId : id = otherId := by
    have sanitized := lasts.2
    simpa [FieldValue.sanitize] using sanitized
  rw [hasId, hasOtherId, sameId] at differ
  exact differ rfl

/-! ### What both pagers fetch -/

/-- The rows of one page and one more, cut off a list in descending order. -/
def cutResults (limit : Option Nat) (fromBefore : Bool) (rows : List α) : List α :=
  match limit with
  | none => rows
  | some limit => if fromBefore then rows.take (limit + 1) else tail rows (limit + 1)

theorem betweenMarkers_of_compares (table : Table α) {paging : PagingRequest}
    (compares : table.PythonCompares paging) {row : α} (member : row ∈ table.rows) :
    betweenMarkers (table.Field row) paging.before paging.after = .ok (table.between paging row) := by
  have answers : ∃ answer, betweenMarkers (table.Field row) paging.before paging.after = .ok answer := by
    cases afterIs : paging.after with
    | none =>
        cases beforeIs : paging.before with
        | none => exact ⟨true, rfl⟩
        | some bound =>
            have below := lessThan_of_comparable (compares.before bound beforeIs row member)
            simp only [betweenMarkers, belowMarker, aboveMarker, below, Raising.ok_bind]
            split
            · exact ⟨true, rfl⟩
            · exact ⟨false, rfl⟩
    | some marker =>
        cases beforeIs : paging.before with
        | none =>
            have above := lessThan_of_comparable (compares.after marker afterIs row member
              (fun bound given => by rw [beforeIs] at given; cases given))
            exact ⟨_, above⟩
        | some bound =>
            have below := lessThan_of_comparable (compares.before bound beforeIs row member)
            simp only [betweenMarkers, belowMarker, aboveMarker, below, Raising.ok_bind]
            split
            · rename_i isBelow
              have above := lessThan_of_comparable (compares.after marker afterIs row member (by
                intro other given
                rw [beforeIs] at given
                obtain rfl := Option.some.inj given
                exact of_decide_eq_true isBelow))
              exact ⟨_, above⟩
            · exact ⟨false, rfl⟩
  obtain ⟨answer, found⟩ := answers
  rw [between, found]

theorem listResults (table : Table α) {paging : PagingRequest} (compares : table.PythonCompares paging)
    {sorted : List α} (isSorted : sortedList table.Field table.rows = .ok sorted)
    (perm : sorted.Perm table.rows) (ascending : Bool) :
    (Pager.itemList table.rows).fetchResults table.Field paging ascending =
      .ok (cutResults paging.limit (startFromBefore ascending paging.before paging.after)
        (sorted.filter (table.between paging))) := by
  have kept : filterOrRaise (fun row => betweenMarkers (table.Field row) paging.before paging.after)
      sorted = .ok (sorted.filter (table.between paging)) := by
    apply filterOrRaise_eq_filter
    intro row member
    exact table.betweenMarkers_of_compares compares (perm.mem_iff.mp member)
  simp only [Pager.fetchResults, isSorted, Raising.ok_bind, fetchPageFromItemList, kept]
  cases paging.limit <;> rfl

theorem markerFits_iff (table : Table α) (marker : PagingMarker) :
    table.MarkerFits marker ↔ table.columns.length = marker.symbols.length ∧
      boundFits table.columns (some (getFieldValuesFromMarker marker)) = true := by
  rw [MarkerFits, List.forall₂_iff_zip]
  simp [boundFits, getFieldValuesFromMarker, List.all_eq_true]

/-- Bounds that fit the columns are the values of their markers. -/
theorem bound_of_fits (table : Table α) {marker : Option PagingMarker}
    (fits : ∀ found, marker = some found → table.MarkerFits found) :
    marker.mapM (markerToRhs table.columns) = .ok (marker.map getFieldValuesFromMarker) ∧
      boundFits table.columns (marker.map getFieldValuesFromMarker) = true := by
  cases marker with
  | none => exact ⟨rfl, rfl⟩
  | some found =>
      obtain ⟨sameLength, compared⟩ := (table.markerFits_iff found).mp (fits found rfl)
      constructor
      · simp [markerToRhs, sameLength]
      · exact compared

/-- A bound that the code or the database does not refuse fits the columns. -/
theorem fits_of_bound (table : Table α) {marker : Option PagingMarker} {bound : Option Key}
    (translated : marker.mapM (markerToRhs table.columns) = .ok bound)
    (accepted : boundFits table.columns bound = true) :
    ∀ found, marker = some found → table.MarkerFits found := by
  rintro found rfl
  apply (table.markerFits_iff found).mpr
  by_cases sameLength : table.columns.length = found.symbols.length
  · simp [markerToRhs, sameLength] at translated
    have isBound : some (getFieldValuesFromMarker found) = bound := by
      simpa [Functor.map, Except.map] using translated
    rw [← isBound] at accepted
    exact ⟨sameLength, accepted⟩
  · simp [markerToRhs, sameLength] at translated

theorem bound_error (table : Table α) {marker : Option PagingMarker} {failure : PagerError}
    (failed : marker.mapM (markerToRhs table.columns) = .error failure) :
    failure = .badParam "Invalid paging marker" := by
  cases marker with
  | none => cases failed
  | some found =>
      by_cases sameLength : table.columns.length = found.symbols.length
      · simp [markerToRhs, sameLength] at failed
      · simp [markerToRhs, sameLength] at failed
        simpa [Functor.map, Except.map] using failed.symm

/-! ### Rows in the order of a key -/

section Keys

variable {κ : Type} [LinearOrder κ] {key : α → κ} {rows sorted : List α}

/-- The order of a search: from the largest key down or from the smallest one up. -/
def searchOrder (key : α → κ) (fromBefore : Bool) (first second : α) : Prop :=
  if fromBefore then key second ≤ key first else key first ≤ key second

instance (key : α → κ) (fromBefore : Bool) : DecidableRel (searchOrder key fromBefore) :=
  fun first second => inferInstanceAs (Decidable (if fromBefore then key second ≤ key first
    else key first ≤ key second))

theorem searchOrder_total (key : α → κ) (fromBefore : Bool) : Std.Total (searchOrder key fromBefore) := by
  constructor
  intro first second
  cases fromBefore with
  | false => exact le_total _ _
  | true => exact le_total _ _

theorem searchOrder_trans (key : α → κ) (fromBefore : Bool) : IsTrans α (searchOrder key fromBefore) := by
  constructor
  intro first second third one two
  cases fromBefore with
  | false => exact le_trans one two
  | true => exact le_trans two one

/-- Strictly descending rows read in the direction of a search. -/
theorem oriented_searchOrder (descending : StrictlyDescending key rows) (fromBefore : Bool) :
    (oriented (!fromBefore) rows).Pairwise (searchOrder key fromBefore) := by
  cases fromBefore with
  | true => exact descending.imp fun below => le_of_lt below
  | false =>
      apply List.pairwise_reverse.mpr
      exact descending.imp fun below => le_of_lt below

theorem eq_of_key_eq (descending : StrictlyDescending key sorted) {first second : α} (memberFirst : first ∈ sorted)
    (memberSecond : second ∈ sorted) (sameKey : key first = key second) : first = second := by
  by_contra different
  have symmetric : Std.Symm fun one two => key one ≠ key two := ⟨fun _ _ differ => differ.symm⟩
  have distinct : sorted.Pairwise fun one two => key one ≠ key two := descending.imp fun below => below.ne'
  exact distinct.forall memberFirst memberSecond different sameKey

/-- Rows with different keys can be sorted. -/
theorem exists_descending (distinct : rows.Pairwise fun first second => key first ≠ key second) :
    ∃ sorted : List α, sorted.Perm rows ∧ StrictlyDescending key sorted := by
  let descending (first second : α) : Prop := key second ≤ key first
  have perm : (rows.insertionSort descending).Perm rows := List.perm_insertionSort _ _
  refine ⟨rows.insertionSort descending, perm, ?_⟩
  have total : Std.Total descending := ⟨fun first second => le_total _ _⟩
  have transitive : IsTrans α descending := ⟨fun _ _ _ one two => le_trans two one⟩
  have weakly : (rows.insertionSort descending).Pairwise descending := List.pairwise_insertionSort _ _
  have stillDistinct := perm.symm.pairwise distinct fun different => Ne.symm different
  exact weakly.and stillDistinct |>.imp fun both => lt_of_le_of_ne both.1 (Ne.symm both.2)

/-- Sorting what is kept of the rows keeps the same of the sorted rows. -/
theorem insertionSort_filter (perm : sorted.Perm rows) (descending : StrictlyDescending key sorted)
    (fromBefore : Bool) (keep : α → Bool) {order : α → α → Bool}
    (isOrder : ∀ first ∈ rows, ∀ second ∈ rows, order first second = true ↔ searchOrder key fromBefore first second) :
    (rows.filter keep).insertionSort (fun first second => order first second) =
      oriented (!fromBefore) (sorted.filter keep) := by
  have sameOrder : ∀ first ∈ rows.filter keep, ∀ second ∈ rows.filter keep,
      order first second = true ↔ searchOrder key fromBefore first second :=
    fun first memberFirst second memberSecond =>
      isOrder first (List.mem_of_mem_filter memberFirst) second (List.mem_of_mem_filter memberSecond)
  have bySearchOrder := List.map_insertionSort _ (searchOrder key fromBefore) id (rows.filter keep) sameOrder
  rw [List.map_id, List.map_id] at bySearchOrder
  rw [bySearchOrder]
  have total := searchOrder_total key fromBefore
  have trans := searchOrder_trans key fromBefore
  have permKept : ((rows.filter keep).insertionSort (searchOrder key fromBefore)).Perm
      (oriented (!fromBefore) (sorted.filter keep)) := by
    apply (List.perm_insertionSort _ _).trans
    apply (perm.symm.filter keep).trans
    cases fromBefore with
    | true => exact .refl _
    | false => exact (List.reverse_perm _).symm
  have keptDescending : StrictlyDescending key (sorted.filter keep) := descending.filter keep
  apply List.Perm.eq_of_pairwise ?_ (List.pairwise_insertionSort _ _)
    (oriented_searchOrder keptDescending fromBefore) permKept
  intro first second memberFirst memberSecond oneWay otherWay
  have sameKey : key first = key second := by
    cases fromBefore with
    | true => exact le_antisymm otherWay oneWay
    | false => exact le_antisymm oneWay otherWay
  have inFirst : first ∈ sorted :=
    perm.mem_iff.mpr (List.mem_of_mem_filter ((List.mem_insertionSort _).mp memberFirst))
  have inSecond : second ∈ sorted := perm.mem_iff.mpr
    (List.mem_of_mem_filter ((List.mem_insertionSort _).mp (permKept.mem_iff.mpr memberSecond)))
  exact eq_of_key_eq descending inFirst inSecond sameKey

/-- The strict order of a search sorts the rows. -/
theorem sortedBy_oriented (descending : StrictlyDescending key sorted) (fromBefore : Bool) {before : α → α → Bool}
    (isBefore : ∀ first ∈ sorted, ∀ second ∈ sorted, before first second = true ↔
      if fromBefore then key second < key first else key first < key second) :
    SortedBy before (oriented (!fromBefore) sorted) where
  pairwise := by
    have strict : ∀ {first second : α}, first ∈ sorted → second ∈ sorted → (before first second = true) →
        before second first = false := by
      intro first second memberFirst memberSecond isFirst
      rw [← Bool.not_eq_true, isBefore second memberSecond first memberFirst]
      rw [isBefore first memberFirst second memberSecond] at isFirst
      cases fromBefore with
      | true => exact lt_asymm isFirst
      | false => exact lt_asymm isFirst
    cases fromBefore with
    | true =>
        apply List.Pairwise.imp_of_mem _ descending
        intro first second memberFirst memberSecond below
        have isFirst := (isBefore first memberFirst second memberSecond).mpr below
        exact ⟨isFirst, strict memberFirst memberSecond isFirst⟩
    | false =>
        apply List.pairwise_reverse.mpr
        apply List.Pairwise.imp_of_mem _ descending
        intro first second memberFirst memberSecond below
        have isFirst := (isBefore second memberSecond first memberFirst).mpr below
        exact ⟨isFirst, strict memberSecond memberFirst isFirst⟩
  irrefl := by
    intro row member
    have inSorted : row ∈ sorted := by
      cases fromBefore with
      | true => exact member
      | false => exact List.mem_reverse.mp member
    rw [← Bool.not_eq_true, isBefore row inSorted row inSorted]
    cases fromBefore with
    | true => exact lt_irrefl _
    | false => exact lt_irrefl _

end Keys

section Query

variable {collation : Collation}

theorem length_eq_of_mem (table : Table α) {row other : α} (member : row ∈ table.rows) (isOther : other ∈ table.rows) :
    (table.Field row).length = (table.Field other).length :=
  (table.typed row member).length_eq.symm.trans (table.typed other isOther).length_eq

/-- The ids tell the rows apart in the query too. -/
theorem queryKeys_distinct (table : Table α) : table.rows.Pairwise fun first second =>
    queryKey collation (table.Field first) ≠ queryKey collation (table.Field second) := by
  apply table.uniqueId.imp_of_mem
  intro first second memberFirst memberSecond differ same
  obtain ⟨id, hasId⟩ := table.hasId first memberFirst
  obtain ⟨otherId, hasOtherId⟩ := table.hasId second memberSecond
  have lasts := congrArg List.getLast? same
  rw [queryKey, queryKey, List.getLast?_map, List.getLast?_map, hasId, hasOtherId, Option.map_some, Option.map_some,
    Option.some.injEq, queryValue_eq_iff_of_ne (by simp) (by simp)] at lasts
  have sameId : id = otherId := by simpa [FieldValue.sanitize] using lasts
  rw [hasId, hasOtherId, sameId] at differ
  exact differ rfl

variable [Deterministic collation]

theorem orderedBefore_iff (table : Table α) (fromBefore : Bool) : ∀ first ∈ table.rows, ∀ second ∈ table.rows,
    (orderedBefore collation fromBefore fromBefore (table.Field first) (table.Field second) = true ↔
      searchOrder (fun row => queryKey collation (table.Field row)) fromBefore first second) := by
  intro first memberFirst second memberSecond
  rw [orderedBefore_eq fromBefore (table.length_eq_of_mem memberFirst memberSecond)]
  cases fromBefore with
  | false => simp [searchOrder]
  | true => simp [searchOrder]

theorem precedesInQuery_iff (table : Table α) (fromBefore : Bool) : ∀ first ∈ table.rows, ∀ second ∈ table.rows,
    (table.precedesInQuery collation fromBefore first second = true ↔
      if fromBefore then queryKey collation (table.Field second) < queryKey collation (table.Field first)
      else queryKey collation (table.Field first) < queryKey collation (table.Field second)) := by
  intro first memberFirst second memberSecond
  rw [precedesInQuery, orderedBefore_eq fromBefore (table.length_eq_of_mem memberSecond memberFirst)]
  cases fromBefore with
  | false => simp
  | true => simp

theorem selectRows_eq (table : Table α) {sorted : List α} (perm : sorted.Perm table.rows)
    (descending : StrictlyDescending (fun row => queryKey collation (table.Field row)) sorted)
    (limit : Option Nat) (before after : Option Key) (fromBefore : Bool) :
    selectRows collation table (limit.map (· + 1)) before after fromBefore false =
      cutResults limit fromBefore (sorted.filter fun row => passes collation before after (table.Field row)) := by
  have ordered := insertionSort_filter perm descending fromBefore
    (fun row => passes collation before after (table.Field row)) (table.orderedBefore_iff fromBefore)
  simp only [selectRows, Bool.xor_false, ordered]
  generalize sorted.filter (fun row => passes collation before after (table.Field row)) = kept
  cases limit with
  | none => cases fromBefore <;> simp [oriented, cutResults]
  | some limit => cases fromBefore <;> simp [oriented, cutResults, tail, List.reverse_take]

theorem queryResults (table : Table α) {paging : PagingRequest}
    (beforeFits : ∀ marker, paging.before = some marker → table.MarkerFits marker)
    (afterFits : ∀ marker, paging.after = some marker → table.MarkerFits marker)
    {sorted : List α} (perm : sorted.Perm table.rows)
    (descending : StrictlyDescending (fun row => queryKey collation (table.Field row)) sorted) (ascending : Bool) :
    getPageResults collation table (paging.limit.map (· + 1)) paging.before paging.after ascending false =
      .ok (cutResults paging.limit (startFromBefore ascending paging.before paging.after)
        (sorted.filter (table.visible collation paging))) := by
  obtain ⟨beforeBound, beforeAccepted⟩ := table.bound_of_fits beforeFits
  obtain ⟨afterBound, afterAccepted⟩ := table.bound_of_fits afterFits
  have accepted : boundFits table.columns (paging.before.map getFieldValuesFromMarker) = true ∧
      boundFits table.columns (paging.after.map getFieldValuesFromMarker) = true :=
    ⟨beforeAccepted, afterAccepted⟩
  simp only [getPageResults, beforeBound, afterBound, Raising.ok_bind, if_pos accepted]
  rw [table.selectRows_eq perm descending]
  rfl

end Query

/-- A query that answers had bounds that fit. -/
theorem markersFit_of_queryResults (table : Table α) {collation : Collation} {limit : Option Nat}
    {before after : Option PagingMarker} {ascending nullsDescendant : Bool} {results : List α}
    (fetched : getPageResults collation table limit before after ascending nullsDescendant = .ok results) :
    (∀ marker, before = some marker → table.MarkerFits marker) ∧
      ∀ marker, after = some marker → table.MarkerFits marker := by
  rw [getPageResults, Raising.bind_eq_ok] at fetched
  obtain ⟨beforeBound, translated, fetched⟩ := fetched
  rw [Raising.bind_eq_ok] at fetched
  obtain ⟨afterBound, translatedAfter, fetched⟩ := fetched
  by_cases accepted : boundFits table.columns beforeBound ∧ boundFits table.columns afterBound
  · exact ⟨table.fits_of_bound translated accepted.1, table.fits_of_bound translatedAfter accepted.2⟩
  · rw [if_neg accepted] at fetched
    cases fetched

/-- What the query raises, the list pager never raises while it fetches. -/
theorem queryError (table : Table α) {collation : Collation} {limit : Option Nat}
    {before after : Option PagingMarker} {ascending nullsDescendant : Bool} {failure : PagerError}
    (failed : getPageResults collation table limit before after ascending nullsDescendant = .error failure) :
    failure = .badParam "Invalid paging marker" ∨ failure = .databaseError := by
  rw [getPageResults, Raising.bind_eq_error] at failed
  rcases failed with atBefore | ⟨beforeBound, -, failed⟩
  · exact .inl (table.bound_error atBefore)
  · rw [Raising.bind_eq_error] at failed
    rcases failed with atAfter | ⟨afterBound, -, failed⟩
    · exact .inl (table.bound_error atAfter)
    · by_cases accepted : boundFits table.columns beforeBound ∧ boundFits table.columns afterBound
      · rw [if_pos accepted] at failed
        cases failed
      · rw [if_neg accepted] at failed
        right
        simpa using failed.symm

/-- A list pager that fetches anything could compare all it had to. -/
theorem compares_of_listResults (table : Table α) {paging : PagingRequest} {ascending : Bool}
    {results : List α}
    (fetched : (Pager.itemList table.rows).fetchResults table.Field paging ascending = .ok results) :
    table.PythonCompares paging := by
  simp only [Pager.fetchResults, Raising.bind_eq_ok, fetchPageFromItemList] at fetched
  obtain ⟨sorted, isSorted, filteredPage, filtered, -⟩ := fetched
  rw [sortedList] at isSorted
  split at isSorted
  · rename_i rowsCompare
    have perm : sorted.Perm table.rows := by
      rw [← Except.ok.inj isSorted]
      exact List.perm_insertionSort _ _
    have answers : ∀ row ∈ table.rows, ∃ answer,
        betweenMarkers (table.Field row) paging.before paging.after = .ok answer :=
      fun row member => filterOrRaise_answers filtered row (perm.mem_iff.mpr member)
    refine ⟨rowsCompare, ?_, ?_⟩
    · intro marker given row member
      obtain ⟨answer, answered⟩ := answers row member
      rw [betweenMarkers, given, Raising.bind_eq_ok] at answered
      obtain ⟨below, compared, -⟩ := answered
      exact comparable_of_lessThan compared
    · intro marker given row member isBelow
      obtain ⟨answer, answered⟩ := answers row member
      rw [betweenMarkers, given, Raising.bind_eq_ok] at answered
      obtain ⟨below, compared, answered⟩ := answered
      have holds : below = true := by
        cases beforeIs : paging.before with
        | none =>
            rw [beforeIs] at compared
            exact (Except.ok.inj compared).symm
        | some bound =>
            rw [beforeIs] at compared
            have decided := lessThan_of_comparable (comparable_of_lessThan compared)
            rw [belowMarker, decided] at compared
            rw [← Except.ok.inj compared]
            exact decide_eq_true (isBelow bound beforeIs)
      rw [if_pos holds] at answered
      exact comparable_of_lessThan answered
  · cases isSorted

theorem listError (table : Table α) {paging : PagingRequest} {ascending : Bool} {failure : PagerError}
    (failed : (Pager.itemList table.rows).fetchResults table.Field paging ascending = .error failure) :
    failure = .typeError := by
  simp only [Pager.fetchResults, Raising.bind_eq_error, fetchPageFromItemList] at failed
  rcases failed with unsorted | ⟨sorted, -, unfiltered | ⟨_, -, impossible⟩⟩
  · rw [sortedList] at unsorted
    split at unsorted
    · cases unsorted
    · exact (Except.error.inj unsorted).symm
  · obtain ⟨row, -, raised⟩ := filterOrRaise_error unfiltered
    rw [betweenMarkers, Raising.bind_eq_error] at raised
    rcases raised with atBefore | ⟨below, -, atAfter⟩
    · cases beforeIs : paging.before with
      | none =>
          rw [beforeIs] at atBefore
          cases atBefore
      | some bound =>
          rw [beforeIs] at atBefore
          exact lessThan_error atBefore
    · split at atAfter
      · cases afterIs : paging.after with
        | none =>
            rw [afterIs] at atAfter
            cases atAfter
        | some bound =>
            rw [afterIs] at atAfter
            exact lessThan_error atAfter
      · cases atAfter
  · cases impossible

/-! ### Disputed rows -/

/-- Answering with rows cut from a list in descending order. -/
theorem respond_cutResults {Field : α → Key} (paging : PagingRequest) (ascending : Bool)
    (positive : paging.limit ≠ some 0) (rows : List α) :
    respond Field paging ascending
        (cutResults paging.limit (startFromBefore ascending paging.before paging.after) rows) =
      match paging.limit with
      | none => turnIntoPage Field paging ascending rows false
      | some limit => turnIntoPage Field paging ascending
          (oriented (!startFromBefore ascending paging.before paging.after)
            ((oriented (!startFromBefore ascending paging.before paging.after) rows).take limit))
          (limit < rows.length) := by
  unfold respond
  cases limitIs : paging.limit with
  | none => rfl
  | some limit =>
      cases limit with
      | zero => exact False.elim (positive limitIs)
      | succ limit =>
          have shorter : limit + 1 ≤ limit + 1 + 1 := Nat.le_succ _
          cases startFromBefore ascending paging.before paging.after with
          | true =>
              simp only [cutResults, oriented, Bool.not_true, if_true, List.take_take,
                Nat.min_eq_left shorter]
              congr 1
              simp only [List.length_take, decide_eq_decide]
              omega
          | false =>
              simp only [cutResults, oriented, Bool.not_false, Bool.false_eq_true, if_true, if_false]
              have cut : tail (tail rows (limit + 1 + 1)) (limit + 1) = (rows.reverse.take (limit + 1)).reverse := by
                rw [← tail_reverse, List.reverse_reverse]
                simp only [tail, List.length_drop, List.drop_drop]
                congr 1
                omega
              rw [cut]
              congr 1
              simp only [tail, List.length_drop, decide_eq_decide]
              omega

theorem length_oriented (ascending : Bool) (rows : List α) :
    (oriented ascending rows).length = rows.length := by
  cases ascending <;> simp [oriented]

theorem filter_oriented (ascending : Bool) (keep : α → Bool) (rows : List α) :
    (oriented ascending rows).filter keep = oriented ascending (rows.filter keep) := by
  cases ascending <;> simp [oriented]

theorem mem_oriented {ascending : Bool} {rows : List α} {row : α} :
    row ∈ oriented ascending rows ↔ row ∈ rows := by
  cases ascending <;> simp [oriented]

theorem oriented_perm (ascending : Bool) (rows : List α) : (oriented ascending rows).Perm rows := by
  cases ascending with
  | true => exact List.reverse_perm _
  | false => exact .refl _

theorem oriented_inj {ascending : Bool} {one two : List α} :
    oriented ascending one = oriented ascending two ↔ one = two := by
  constructor
  · intro same
    rw [← oriented_oriented ascending one, same, oriented_oriented]
  · rintro rfl
    rfl

section Pages

variable {table : Table α} {collation : Collation} {paging : PagingRequest} {sorted inQuery : List α}

theorem mem_oriented_filter (perm : sorted.Perm table.rows) {ascending : Bool} {keep : α → Bool} {row : α} :
    row ∈ oriented ascending (sorted.filter keep) ↔ row ∈ table.rows ∧ keep row = true := by
  rw [mem_oriented, List.mem_filter, perm.mem_iff]

theorem countP_oriented_filter (perm : sorted.Perm table.rows) (ascending : Bool) (keep count : α → Bool) :
    (oriented ascending (sorted.filter keep)).countP count = table.rows.countP fun row => keep row && count row := by
  rw [((oriented_perm ascending _).trans (perm.filter keep)).countP_eq, List.countP_filter]
  exact List.countP_congr fun row _ => by rw [Bool.and_comm]

theorem length_filter_perm (perm : sorted.Perm table.rows) (keep : α → Bool) :
    (sorted.filter keep).length = table.rows.countP keep := by
  rw [(perm.filter keep).length_eq, List.countP_eq_length_filter]

/-- The rows that are disputed are those about which the two sorted lists differ. -/
theorem disputed_iff (perm : sorted.Perm table.rows) (permQuery : inQuery.Perm table.rows) (fromBefore : Bool)
    (row : α) :
    CursorTraversal.Disputed (table.precedesInQuery collation fromBefore) (table.precedes fromBefore)
        (oriented (!fromBefore) (inQuery.filter (table.visible collation paging)))
        (oriented (!fromBefore) (sorted.filter (table.between paging))) row ↔
      row ∈ table.rows ∧ table.Disputed collation paging fromBefore row := by
  simp only [CursorTraversal.Disputed, mem_oriented_filter perm, mem_oriented_filter permQuery, Table.Disputed]
  constructor
  · rintro (oneSided | ⟨⟨member, isVisible⟩, ⟨-, isBetween⟩, other, ⟨isOther, otherVisible⟩, ⟨-, otherBetween⟩, differ⟩)
    · by_cases member : row ∈ table.rows
      · refine ⟨member, .inl ?_⟩
        intro same
        simp [member, same] at oneSided
      · simp [member] at oneSided
    · exact ⟨member, .inr ⟨isVisible, isBetween, other, isOther, otherVisible, otherBetween, differ⟩⟩
  · rintro ⟨member, oneSided | ⟨isVisible, isBetween, other, isOther, otherVisible, otherBetween, differ⟩⟩
    · left
      cases isVisible : table.visible collation paging row <;> cases isBetween : table.between paging row <;>
        simp_all
    · exact .inr ⟨⟨member, isVisible⟩, ⟨member, isBetween⟩, other, ⟨isOther, otherVisible⟩, ⟨isOther, otherBetween⟩,
        differ⟩

theorem sortedBy_memory (descending : StrictlyDescending (sortKey table.Field) sorted) (fromBefore : Bool)
    (keep : α → Bool) : SortedBy (table.precedes fromBefore) (oriented (!fromBefore) (sorted.filter keep)) := by
  have keptDescending : StrictlyDescending (sortKey table.Field) (sorted.filter keep) := descending.filter keep
  apply sortedBy_oriented keptDescending
  intro first _ second _
  cases fromBefore <;> simp [precedes]

variable [Deterministic collation]

theorem sortedBy_query (permQuery : inQuery.Perm table.rows)
    (descendingQuery : StrictlyDescending (fun row => queryKey collation (table.Field row)) inQuery)
    (fromBefore : Bool) (keep : α → Bool) :
    SortedBy (table.precedesInQuery collation fromBefore) (oriented (!fromBefore) (inQuery.filter keep)) := by
  have keptDescending : StrictlyDescending (fun row => queryKey collation (table.Field row)) (inQuery.filter keep) :=
    descendingQuery.filter keep
  apply sortedBy_oriented keptDescending
  intro first memberFirst second memberSecond
  exact table.precedesInQuery_iff fromBefore first (permQuery.mem_iff.mp (List.mem_of_mem_filter memberFirst)) second
    (permQuery.mem_iff.mp (List.mem_of_mem_filter memberSecond))

/-- The pages hold the same rows exactly if all disputed rows are behind them. -/
theorem same_page_iff (perm : sorted.Perm table.rows) (permQuery : inQuery.Perm table.rows)
    (descending : StrictlyDescending (sortKey table.Field) sorted)
    (descendingQuery : StrictlyDescending (fun row => queryKey collation (table.Field row)) inQuery)
    (fromBefore : Bool) (limit : Nat) :
    (oriented (!fromBefore) (inQuery.filter (table.visible collation paging))).take limit =
        (oriented (!fromBefore) (sorted.filter (table.between paging))).take limit ↔
      ∀ row ∈ table.rows, table.Disputed collation paging fromBefore row →
        table.Behind collation paging fromBefore limit row := by
  rw [same_take_iff (sortedBy_query permQuery descendingQuery fromBefore _) (sortedBy_memory descending fromBefore _)]
  simp only [disputed_iff perm permQuery, mem_oriented_filter perm, mem_oriented_filter permQuery,
    countP_oriented_filter perm, countP_oriented_filter permQuery]
  constructor
  · intro behind row member disputed
    obtain ⟨inQuery, inMemory⟩ := behind row ⟨member, disputed⟩
    exact ⟨fun isVisible => inQuery ⟨member, isVisible⟩, fun isBetween => inMemory ⟨member, isBetween⟩⟩
  · rintro behind row ⟨member, disputed⟩
    have isBehind := behind row member disputed
    exact ⟨fun isVisible => isBehind.inQuery isVisible.2, fun isBetween => isBehind.inMemory isBetween.2⟩

/-- Without a limit the results are the same exactly if nothing is disputed. -/
theorem same_results_iff (perm : sorted.Perm table.rows) (permQuery : inQuery.Perm table.rows)
    (descending : StrictlyDescending (sortKey table.Field) sorted)
    (descendingQuery : StrictlyDescending (fun row => queryKey collation (table.Field row)) inQuery)
    (fromBefore : Bool) :
    inQuery.filter (table.visible collation paging) = sorted.filter (table.between paging) ↔
      ∀ row ∈ table.rows, ¬ table.Disputed collation paging fromBefore row := by
  have whole := eq_iff_undisputed (sortedBy_query permQuery descendingQuery fromBefore (table.visible collation paging))
    (sortedBy_memory descending fromBefore (table.between paging))
  rw [oriented_inj] at whole
  rw [whole]
  simp only [disputed_iff perm permQuery, not_and]

/-- With both sides fetched, the pages agree exactly if no disputed row shows. -/
theorem respond_eq_iff {ascending : Bool} (positive : paging.limit ≠ some 0) (perm : sorted.Perm table.rows)
    (permQuery : inQuery.Perm table.rows) (descending : StrictlyDescending (sortKey table.Field) sorted)
    (descendingQuery : StrictlyDescending (fun row => queryKey collation (table.Field row)) inQuery) :
    respond table.Field paging ascending (cutResults paging.limit
          (startFromBefore ascending paging.before paging.after)
          (inQuery.filter (table.visible collation paging))) =
        respond table.Field paging ascending (cutResults paging.limit
          (startFromBefore ascending paging.before paging.after)
          (sorted.filter (table.between paging))) ↔
      (∀ row ∈ table.rows,
        table.Disputed collation paging (startFromBefore ascending paging.before paging.after) row →
        ∃ limit, paging.limit = some limit ∧
          table.Behind collation paging (startFromBefore ascending paging.before paging.after) limit row) ∧
      ∀ limit, paging.limit = some limit →
        (limit < table.rows.countP (table.visible collation paging) ↔
          limit < table.rows.countP (table.between paging)) := by
  have storableOf : ∀ rows : List α, rows.Perm table.rows → ∀ keep : α → Bool, ∀ row ∈ rows.filter keep,
      ∀ value ∈ table.Field row, Storable value := fun rows isPerm keep row member =>
    table.storable row (isPerm.mem_iff.mp (List.mem_of_mem_filter member))
  rw [respond_cutResults paging ascending positive, respond_cutResults paging ascending positive]
  cases limitIs : paging.limit with
  | none =>
      simp only [turnIntoPage_eq_iff (storableOf _ permQuery _) (storableOf _ perm _) (fun _ => rfl) (fun _ => rfl),
        and_true, reduceCtorEq, false_and, exists_false, false_implies, implies_true]
      exact same_results_iff perm permQuery descending descendingQuery _
  | some limit =>
      have positiveLimit : 0 < limit := Nat.pos_of_ne_zero fun zero => positive (by rw [limitIs, zero])
      generalize startFromBefore ascending paging.before paging.after = fromBefore
      have storablePage : ∀ rows : List α, rows.Perm table.rows → ∀ keep : α → Bool, ∀ row ∈ oriented (!fromBefore)
          ((oriented (!fromBefore) (rows.filter keep)).take limit), ∀ value ∈ table.Field row,
          Storable value := by
        intro rows isPerm keep row member
        exact storableOf rows isPerm keep row (mem_oriented.mp (List.mem_of_mem_take (mem_oriented.mp member)))
      have emptyPage : ∀ rows : List α, oriented (!fromBefore) ((oriented (!fromBefore) rows).take limit) = [] →
          decide (limit < rows.length) = false := by
        intro rows empty
        have noRows := congrArg List.length empty
        rw [length_oriented, List.length_take, length_oriented, List.length_nil] at noRows
        apply decide_eq_false
        omega
      simp only [turnIntoPage_eq_iff (storablePage _ permQuery _) (storablePage _ perm _) (emptyPage _) (emptyPage _),
        oriented_inj, decide_eq_decide, Option.some.injEq, exists_eq_left', forall_eq']
      rw [same_page_iff perm permQuery descending descendingQuery fromBefore limit, length_filter_perm perm,
        length_filter_perm permQuery]

end Pages

end Table

/-- The query pager answers as the list pager over the same rows does exactly if the markers fit the
    columns, Python can compare the keys it has to, every row that a NULL comparison hides or that the
    collation sorts elsewhere lies behind the page, and there is more for both or for none. -/
theorem QueryPager.agrees_iff (collation : Collation) [Deterministic collation] (table : Table α)
    (paging : PagingRequest) (ascending : Bool) (positive : paging.limit ≠ some 0) :
    QueryPager.fetchPage collation table paging ascending false = table.listPage paging ascending ↔
      table.Agreement collation paging ascending := by
  have isQuery : QueryPager.fetchPage collation table paging ascending false =
      (getPageResults collation table (paging.limit.map (· + 1)) paging.before paging.after ascending false >>=
        respond table.Field paging ascending) := rfl
  have isList : table.listPage paging ascending =
      ((Pager.itemList table.rows).fetchResults table.Field paging ascending >>=
        respond table.Field paging ascending) := rfl
  have agreed : (∀ marker, paging.before = some marker → table.MarkerFits marker) →
      (∀ marker, paging.after = some marker → table.MarkerFits marker) → table.PythonCompares paging →
      (QueryPager.fetchPage collation table paging ascending false = table.listPage paging ascending ↔
        table.Agreement collation paging ascending) := by
    intro beforeFits afterFits compares
    obtain ⟨sorted, isSorted, perm, descending⟩ := (table.pageable compares.rows).exists_sorted
    obtain ⟨inQuery, permQuery, descendingQuery⟩ := Table.exists_descending (@Table.queryKeys_distinct α collation table)
    rw [isQuery, isList, table.queryResults beforeFits afterFits permQuery descendingQuery,
      table.listResults compares isSorted perm, Raising.ok_bind, Raising.ok_bind,
      Table.respond_eq_iff positive perm permQuery descending descendingQuery]
    constructor
    · rintro ⟨disputesBehind, sameMore⟩
      exact ⟨beforeFits, afterFits, compares, disputesBehind, sameMore⟩
    · intro agreement
      exact ⟨agreement.disputesBehind, agreement.sameMore⟩
  constructor
  · intro same
    rw [isQuery, isList] at same
    cases listed : (Pager.itemList table.rows).fetchResults table.Field paging ascending with
    | error failure =>
        -- Only the list pager compares in Python.
        rw [listed, Raising.error_bind, table.listError listed, Raising.bind_eq_error] at same
        rcases same with queryFailed | ⟨results, -, responded⟩
        · rcases table.queryError queryFailed with isBadParam | isDatabaseError
          · cases isBadParam
          · cases isDatabaseError
        · exact False.elim (respond_error positive responded)
    | ok rows =>
        have compares := table.compares_of_listResults listed
        cases queried : getPageResults collation table (paging.limit.map (· + 1)) paging.before paging.after
            ascending false with
        | error failure =>
            -- Only the query refuses its bounds.
            rw [listed, queried, Raising.error_bind, Raising.ok_bind] at same
            have ofMarker := respond_error positive same.symm
            rcases table.queryError queried with rfl | rfl
            · exact False.elim ofMarker
            · exact False.elim ofMarker
        | ok results =>
            obtain ⟨beforeFits, afterFits⟩ := table.markersFit_of_queryResults queried
            rw [← isQuery, ← isList] at same
            exact (agreed beforeFits afterFits compares).mp same
  · intro agreement
    exact (agreed agreement.beforeFits agreement.afterFits agreement.compares).mpr agreement

/-! ### Traversals -/

/-- No marker yet, or one that holds the key of a row. -/
def Table.Cursor (table : Table α) (cursor : Option PagingMarker) : Prop :=
  ∀ marker, cursor = some marker → ∃ row ∈ table.rows, getFieldValuesFromMarker marker = table.Field row

/-- The query behind a `QueryPager`. -/
def Table.queryPager (table : Table α) (collation : Collation) (ascending : Bool) : Pager α :=
  .fetchPage fun limit before after => getPageResults collation table limit before after ascending false

/-- A traversal of which each page agrees is that of the list pager: it ends, and it visits each row once. -/
theorem QueryPager.traversal_of_agreement (collation : Collation) [Deterministic collation] (table : Table α)
    (limit : Nat) (positive : 0 < limit) (ascending : Bool)
    (agrees : ∀ cursor, table.Cursor cursor →
      table.Agreement collation (pagingRequest (some limit) ascending cursor) ascending) :
    ∃ pages, Run ((table.queryPager collation ascending).nextPage table.Field (some limit) ascending) none pages ∧
      pages.flatten.Perm table.rows ∧ InKeyOrder table.Field ascending pages.flatten := by
  have started : table.Cursor none := fun marker impossible => by cases impossible
  have pageable := table.pageable (agrees none started).compares.rows
  obtain ⟨sorted, isSorted, perm, descending⟩ := pageable.exists_sorted
  obtain ⟨n, rfl⟩ : ∃ n, limit = n + 1 := Nat.exists_eq_succ_of_ne_zero (Nat.pos_iff_ne_zero.mp positive)
  have memberOriented : ∀ row, row ∈ oriented ascending sorted → row ∈ table.rows :=
    fun row member => perm.mem_iff.mp (Table.mem_oriented.mp member)
  have samePage : ∀ cursor rest, Pageable.Stands table.Field (oriented ascending sorted) cursor rest →
      (table.queryPager collation ascending).nextPage table.Field (some (n + 1)) ascending cursor =
        (Pager.itemList table.rows).nextPage table.Field (some (n + 1)) ascending cursor := by
    intro cursor rest stands
    have keyOfRow : table.Cursor cursor := by
      rintro marker rfl
      obtain ⟨-, front, row, split, reads⟩ := stands
      exact ⟨row, memberOriented row (by rw [split]; simp), reads⟩
    have positiveLimit : (pagingRequest (some (n + 1)) ascending cursor).limit ≠ some 0 := by
      cases ascending <;> simp [pagingRequest]
    have samePages := (QueryPager.agrees_iff collation table _ ascending positiveLimit).mpr (agrees cursor keyOfRow)
    unfold Pager.nextPage
    exact congrArg (· >>= _) samePages
  have slices := (pageable.slices isSorted perm descending n ascending).congr samePage
  have start : Pageable.Stands table.Field (oriented ascending sorted) none (oriented ascending sorted) := rfl
  obtain ⟨pages, run, flat, -⟩ := slices.exists_run (Nat.succ_pos n) start
  refine ⟨pages, run, ?_, ?_⟩
  · rw [flat]
    cases ascending with
    | false => exact perm
    | true => exact (List.reverse_perm sorted).trans perm
  · rw [flat]
    exact pageable.inKeyOrder perm descending ascending

/-- Two rows, of which the one that sorts first has a NULL. -/
def nullTable : Table Key where
  columns := [.double, .bigint]
  rows := [[.null, .int 1], [.float (.finite 5), .int 2]]
  Field := id
  typed := by
    intro row member
    simp only [List.mem_cons, List.not_mem_nil, or_false] at member
    rcases member with rfl | rfl
    · exact .cons trivial (.cons (by simp [ColumnType.Holds, InInt64]) .nil)
    · exact .cons trivial (.cons (by simp [ColumnType.Holds, InInt64]) .nil)
  hasId := by simp
  uniqueId := by simp

/-- The collation `C`. -/
def byCodePoints : Collation := fun first second => first < second

instance : Deterministic byCodePoints where
  trichotomous := by
    intro first second notBefore notAfter
    simp only [byCodePoints, decide_eq_true_eq, not_lt] at notBefore notAfter
    exact le_antisymm notAfter notBefore
  irrefl := by
    intro text
    simp [byCodePoints]
  trans := by
    intro first second third one two
    simp only [byCodePoints, decide_eq_true_eq] at one two ⊢
    exact lt_trans one two

/-- A collation that looks at the case of letters last. -/
def caseLast : Collation := fun first second =>
  first.toLower < second.toLower ∨ first.toLower = second.toLower ∧ first < second

def textTable : Table Key where
  columns := [.text, .bigint]
  rows := [[.str "a", .int 1], [.str "B", .int 2]]
  Field := id
  typed := by
    intro row member
    simp only [List.mem_cons, List.not_mem_nil, or_false] at member
    rcases member with rfl | rfl
    · exact .cons trivial (.cons (by simp [ColumnType.Holds, InInt64]) .nil)
    · exact .cons trivial (.cons (by simp [ColumnType.Holds, InInt64]) .nil)
  hasId := by simp
  uniqueId := by simp

/-- In memory the capital letter comes first. -/
example : (QueryPager.fetchPage caseLast textTable { limit := some 1 } true false).map Page.results =
      .ok [[.str "a", .int 1]] ∧
    (textTable.listPage { limit := some 1 } true).map Page.results = .ok [[.str "B", .int 2]] := by
  decide +kernel

/-! ### Tables without NULL -/

namespace Table

/-- No sort column of any row is NULL. -/
def NoNull (table : Table α) : Prop := ∀ row ∈ table.rows, FieldValue.null ∉ table.Field row

/-- The collation orders the texts of the sort columns by code points. -/
def TextsAlike (table : Table α) (collation : Collation) : Prop :=
  ∀ row ∈ table.rows, ∀ other ∈ table.rows, ∀ one two, .str one ∈ table.Field row → .str two ∈ table.Field other →
    (collation one two = true ↔ one < two)

variable {table : Table α} {collation : Collation} {row other : α}

/-- Without nulls any two sort keys are comparable. -/
theorem NoNull.comparable (noNull : table.NoNull) (member : row ∈ table.rows) (memberOther : other ∈ table.rows) :
    Comparable (sortKey table.Field row) (sortKey table.Field other) :=
  comparable_of_noNull (table.compares_of_typed member) (table.compares_of_typed memberOther) (noNull row member)
    (noNull other memberOther)

theorem NoNull.compares (noNull : table.NoNull) : table.rows.Pairwise fun first second =>
    Comparable (sortKey table.Field first) (sortKey table.Field second) := by
  apply List.pairwise_of_forall_mem_list
  intro first memberFirst second memberSecond
  exact noNull.comparable memberFirst memberSecond

theorem passes_iff {before after : Option Key} {fields : Key} : passes collation before after fields = true ↔
    (∀ bound, before = some bound → sqlLess collation fields bound = some true) ∧
      ∀ bound, after = some bound → sqlLess collation bound fields = some true := by
  cases before <;> cases after <;> simp [passes]

theorem betweenMarkers_eq_true_iff {key : Key} {before after : Option PagingMarker} :
    betweenMarkers key before after = .ok true ↔
      belowMarker key before = .ok true ∧ aboveMarker key after = .ok true := by
  rw [betweenMarkers, Raising.bind_eq_ok]
  constructor
  · rintro ⟨below, isBelow, rest⟩
    cases below with
    | false => cases rest
    | true => exact ⟨isBelow, rest⟩
  · rintro ⟨isBelow, isAbove⟩
    exact ⟨true, isBelow, isAbove⟩

section Alike

variable [Deterministic collation] (noNull : table.NoNull) (alike : table.TextsAlike collation)

include noNull alike

theorem NoNull.queryKey_lt_iff (member : row ∈ table.rows) (memberOther : other ∈ table.rows) :
    queryKey collation (table.Field row) < queryKey collation (table.Field other) ↔
      sortKey table.Field row < sortKey table.Field other :=
  Pagination.queryKey_lt_iff (table.length_eq_of_mem member memberOther) (noNull row member)
    (noNull other memberOther) (alike row member other memberOther)

theorem NoNull.precedesInQuery_eq (fromBefore : Bool) (member : row ∈ table.rows) (memberOther : other ∈ table.rows) :
    table.precedesInQuery collation fromBefore row other = table.precedes fromBefore row other := by
  rw [Bool.eq_iff_iff, table.precedesInQuery_iff fromBefore row member other memberOther,
    noNull.queryKey_lt_iff alike member memberOther, noNull.queryKey_lt_iff alike memberOther member]
  cases fromBefore <;> simp [precedes]

/-- A comparison with the key of a row is known, and it is that of Python. -/
theorem NoNull.sqlLess_iff (member : row ∈ table.rows) (memberOther : other ∈ table.rows) :
    sqlLess collation (table.Field row) (table.Field other) = some true ↔
      lessThan (sortKey table.Field row) (sortKey table.Field other) = .ok true := by
  rw [sqlLess_of_noNull (table.length_eq_of_mem member memberOther) (noNull row member) (noNull other memberOther),
    noNull.queryKey_lt_iff alike member memberOther, lessThan_of_comparable (noNull.comparable member memberOther)]
  simp

/-- A marker that holds the key of a row has the same rows on its sides for both pagers. -/
theorem NoNull.visible_eq {paging : PagingRequest}
    (before : ∀ marker, paging.before = some marker →
      ∃ row ∈ table.rows, getFieldValuesFromMarker marker = table.Field row)
    (after : ∀ marker, paging.after = some marker →
      ∃ row ∈ table.rows, getFieldValuesFromMarker marker = table.Field row) (compares : table.PythonCompares paging)
    (member : row ∈ table.rows) : table.visible collation paging row = table.between paging row := by
  have below : (∀ bound, paging.before.map getFieldValuesFromMarker = some bound →
      sqlLess collation (table.Field row) bound = some true) ↔
        belowMarker (table.Field row) paging.before = .ok true := by
    cases beforeIs : paging.before with
    | none => exact iff_of_true (fun bound impossible => by cases impossible) rfl
    | some marker =>
        obtain ⟨other, memberOther, reads⟩ := before marker beforeIs
        simp only [Option.map_some, Option.some.injEq, forall_eq', belowMarker, reads]
        exact noNull.sqlLess_iff alike member memberOther
  have above : (∀ bound, paging.after.map getFieldValuesFromMarker = some bound →
      sqlLess collation bound (table.Field row) = some true) ↔
        aboveMarker (table.Field row) paging.after = .ok true := by
    cases afterIs : paging.after with
    | none => exact iff_of_true (fun bound impossible => by cases impossible) rfl
    | some marker =>
        obtain ⟨other, memberOther, reads⟩ := after marker afterIs
        simp only [Option.map_some, Option.some.injEq, forall_eq', aboveMarker, reads]
        exact noNull.sqlLess_iff alike memberOther member
  have isBetween := table.betweenMarkers_of_compares compares member
  rw [Bool.eq_iff_iff, visible, passes_iff, below, above, ← betweenMarkers_eq_true_iff, isBetween, Except.ok.injEq]

/-- A marker that holds the key of a row puts no NULL in the way. -/
theorem NoNull.agreement {paging : PagingRequest} {ascending : Bool}
    (before : ∀ marker, paging.before = some marker →
      ∃ row ∈ table.rows, getFieldValuesFromMarker marker = table.Field row)
    (after : ∀ marker, paging.after = some marker →
      ∃ row ∈ table.rows, getFieldValuesFromMarker marker = table.Field row) :
    table.Agreement collation paging ascending := by
  have fits : ∀ {marker}, (∃ row ∈ table.rows, getFieldValuesFromMarker marker = table.Field row) →
      table.MarkerFits marker := by
    rintro marker ⟨row, member, reads⟩
    rw [MarkerFits, reads]
    exact table.compares_of_typed member
  have compares : table.PythonCompares paging := by
    refine ⟨noNull.compares, ?_, ?_⟩
    · intro marker given row member
      obtain ⟨other, memberOther, reads⟩ := before marker given
      rw [reads]
      exact noNull.comparable member memberOther
    · intro marker given row member _
      obtain ⟨other, memberOther, reads⟩ := after marker given
      rw [reads]
      exact noNull.comparable memberOther member
  have sameRows : ∀ row ∈ table.rows, table.visible collation paging row = table.between paging row :=
    fun row member => noNull.visible_eq alike before after compares member
  refine ⟨fun marker given => fits (before marker given), fun marker given => fits (after marker given), compares,
    ?_, ?_⟩
  · rintro row member (differ | ⟨-, -, other, memberOther, -, -, differ⟩)
    · exact absurd (sameRows row member) differ
    · exact absurd (noNull.precedesInQuery_eq alike _ member memberOther) differ
  · intro limit _
    rw [List.countP_congr fun row member => by rw [sameRows row member]]

end Alike

end Table

/-- Rows without NULL, and with texts that the collation orders as Python does, are each visited once. -/
theorem QueryPager.traversal_of_noNull (collation : Collation) [Deterministic collation] (table : Table α)
    (noNull : table.NoNull) (alike : table.TextsAlike collation) (limit : Nat) (positive : 0 < limit)
    (ascending : Bool) :
    ∃ pages, Run ((table.queryPager collation ascending).nextPage table.Field (some limit) ascending) none pages ∧
      pages.flatten.Perm table.rows ∧ InKeyOrder table.Field ascending pages.flatten := by
  apply QueryPager.traversal_of_agreement collation table limit positive ascending
  intro cursor keyOfRow
  apply noNull.agreement alike
  · cases ascending with
    | false => exact keyOfRow
    | true => simp [pagingRequest]
  · cases ascending with
    | false => simp [pagingRequest]
    | true => exact keyOfRow

end Zigopt.Pagination
