/-
Module: Zigopt.Pagination.PagerTraversal
Layer: Pagination
Purpose: Following the markers of a list pager visits every item once, in key order. In the descending
  direction the traversal follows `before`, in the ascending one `after`. Two things stop a pager that
  the distinctness of its keys does not rule out: Python cannot sort keys whose kinds differ in one
  position, and a marker cannot hold every value (an int outside int64, an infinite float).
Main exports: Storable, Pageable, Pager.nextPage, Pager.traversal_complete
-/
import Mathlib.Data.List.Pairwise
import Zigopt.Lib.CursorTraversal
import Zigopt.Pagination.Paging

namespace Zigopt.Pagination

open CursorTraversal

/-! ### Values that a marker can hold -/

/-- `_build_marker_from_field_values` finds a symbol for the value. -/
def Storable : FieldValue → Prop
  | .int value => InInt64 value
  | .float .inf => False
  | .float .negInf => False
  | _ => True

instance : DecidablePred Storable
  | .null => .isTrue trivial
  | .int value => inferInstanceAs (Decidable (InInt64 value))
  | .float (.finite _) => .isTrue trivial
  | .float .inf => .isFalse id
  | .float .negInf => .isFalse id
  | .str _ => .isTrue trivial
  | .bool _ => .isTrue trivial
  | .datetime _ => .isTrue trivial

theorem buildSymbol_of_storable {value : FieldValue} (storable : Storable value) :
    ∃ symbol, buildSymbol value = .ok symbol ∧ getValueOfPagingSymbol symbol = value := by
  cases value with
  | null => exact ⟨_, rfl, rfl⟩
  | int number =>
      have fits : InInt64 number := storable
      exact ⟨.intValue number, by simp [buildSymbol, setIntValue, fits], rfl⟩
  | float number =>
      cases number with
      | finite rational => exact ⟨_, rfl, rfl⟩
      | inf => exact False.elim storable
      | negInf => exact False.elim storable
  | str text => exact ⟨_, rfl, rfl⟩
  | bool flag => exact ⟨_, rfl, rfl⟩
  | datetime microseconds => exact ⟨_, rfl, rfl⟩

/-- A value without a symbol makes the whole marker fail. -/
theorem buildSymbol_of_not_storable {value : FieldValue} (missing : ¬ Storable value) :
    ∃ message, buildSymbol value = .error (.valueError message) := by
  cases value with
  | int number =>
      have tooLarge : ¬ InInt64 number := missing
      exact ⟨"Value out of range", by simp [buildSymbol, setIntValue, tooLarge]⟩
  | float number =>
      cases number with
      | finite rational => exact False.elim (missing trivial)
      | inf => exact ⟨_, rfl⟩
      | negInf => exact ⟨_, rfl⟩
  | null => exact False.elim (missing trivial)
  | str text => exact False.elim (missing trivial)
  | bool flag => exact False.elim (missing trivial)
  | datetime microseconds => exact False.elim (missing trivial)

/-- A marker built from a key reads back as that key, `None` included. -/
theorem buildMarker_of_storable {key : Key} (storable : ∀ value ∈ key, Storable value) :
    ∃ marker, buildMarkerFromFieldValues key = .ok marker ∧ getFieldValuesFromMarker marker = key := by
  have symbols : ∃ symbols, key.mapM buildSymbol = .ok symbols ∧
      symbols.map getValueOfPagingSymbol = key := by
    induction key with
    | nil => exact ⟨[], rfl, rfl⟩
    | cons value values inductionHypothesis =>
        obtain ⟨symbol, built, reads⟩ := buildSymbol_of_storable (storable value List.mem_cons_self)
        obtain ⟨rest, builtRest, readsRest⟩ :=
          inductionHypothesis fun other member => storable other (List.mem_cons_of_mem _ member)
        refine ⟨symbol :: rest, ?_, ?_⟩
        · rw [List.mapM_cons, built, builtRest]
          rfl
        · rw [List.map_cons, reads, readsRest]
  obtain ⟨list, built, reads⟩ := symbols
  refine ⟨⟨list⟩, ?_, reads⟩
  rw [buildMarkerFromFieldValues, built]
  rfl

/-! ### Sorting and filtering without errors -/

variable {α : Type}

/-- The key as it is compared. -/
abbrev sortKey (Field : α → Key) (item : α) : List SortValue := sanitizeNones (Field item)

theorem Comparable.refl (key : List SortValue) : Comparable key key := by
  induction key with
  | nil => rfl
  | cons value values inductionHypothesis =>
      unfold Comparable at inductionHypothesis ⊢
      simpa [tupleLt] using inductionHypothesis

theorem lessThan_of_comparable {first second : List SortValue}
    (comparable : Comparable first second) : lessThan first second = .ok (decide (first < second)) := by
  rw [lessThan, comparable.tupleLt_eq]

theorem filterOrRaise_eq_filter {condition : α → Except PagerError Bool} {keep : α → Bool}
    {items : List α} (answers : ∀ item ∈ items, condition item = .ok (keep item)) :
    filterOrRaise condition items = .ok (items.filter keep) := by
  induction items with
  | nil => rfl
  | cons item rest inductionHypothesis =>
      have tailOk := inductionHypothesis fun other member => answers other (List.mem_cons_of_mem _ member)
      rw [filterOrRaise, answers item List.mem_cons_self, tailOk, List.filter_cons]
      rfl

/-- Items that a pager can page through in full: keys are pairwise distinct and pairwise comparable,
    and markers can be built from them. -/
structure Pageable (Field : α → Key) (items : List α) : Prop where
  distinct : items.Pairwise fun first second => ¬ Key.pyEq (Field first) (Field second)
  comparable : items.Pairwise fun first second => Comparable (sortKey Field first) (sortKey Field second)
  storable : ∀ item ∈ items, ∀ value ∈ Field item, Storable value

/-- Infinity, the one value `None` is confused with, does not fit into a marker. -/
theorem sanitize_eq_top_iff {value : FieldValue} (storable : Storable value) :
    value.sanitize = .number ⊤ ↔ value = .null := by
  cases value with
  | float number =>
      cases number with
      | finite rational => simp [FieldValue.sanitize]
      | inf => exact False.elim storable
      | negInf => exact False.elim storable
  | _ => simp [FieldValue.sanitize]

theorem pyEq_of_sanitize_eq {first second : FieldValue} (storableFirst : Storable first)
    (storableSecond : Storable second) (same : first.sanitize = second.sanitize) :
    first.pyEq second := by
  refine ⟨?_, same⟩
  rw [← sanitize_eq_top_iff storableFirst, ← sanitize_eq_top_iff storableSecond, same]

theorem Key.pyEq_of_sortKey_eq {first second : Key} (storableFirst : ∀ value ∈ first, Storable value)
    (storableSecond : ∀ value ∈ second, Storable value)
    (same : sanitizeNones first = sanitizeNones second) : Key.pyEq first second := by
  induction first generalizing second with
  | nil =>
      cases second with
      | nil => exact .nil
      | cons value values => simp [sanitizeNones] at same
  | cons value values inductionHypothesis =>
      cases second with
      | nil => simp [sanitizeNones] at same
      | cons other others =>
          simp only [sanitizeNones, List.map_cons, List.cons.injEq] at same
          refine .cons ?_ ?_
          · exact pyEq_of_sanitize_eq (storableFirst value List.mem_cons_self)
              (storableSecond other List.mem_cons_self) same.1
          · exact inductionHypothesis
              (fun inner member => storableFirst inner (List.mem_cons_of_mem _ member))
              (fun inner member => storableSecond inner (List.mem_cons_of_mem _ member)) same.2

namespace Pageable

variable {Field : α → Key} {items : List α}

/-- Any two listed items compare, an item with itself included. -/
theorem comparable_of_mem (pageable : Pageable Field items) {first second : α}
    (memberFirst : first ∈ items) (memberSecond : second ∈ items) :
    Comparable (sortKey Field first) (sortKey Field second) := by
  let compares (one two : α) : Prop := Comparable (sortKey Field one) (sortKey Field two)
  have symmetric : Std.Symm compares := ⟨fun _ _ compared => compared.symm⟩
  have pairwise : items.Pairwise compares := pageable.comparable
  have reflexive : ∀ item ∈ items, compares item item := fun item _ => Comparable.refl _
  have all := pairwise.forall_of_forall reflexive memberFirst memberSecond
  exact all

theorem sortKeys_distinct (pageable : Pageable Field items) :
    items.Pairwise fun first second => sortKey Field first ≠ sortKey Field second := by
  refine pageable.distinct.imp_of_mem ?_
  intro first second memberFirst memberSecond distinct same
  exact distinct (Key.pyEq_of_sortKey_eq (pageable.storable first memberFirst)
    (pageable.storable second memberSecond) same)

/-- The pager's sorted list is strictly descending. -/
theorem exists_sorted (pageable : Pageable Field items) :
    ∃ sorted, sortedList Field items = .ok sorted ∧ sorted.Perm items ∧
      StrictlyDescending (sortKey Field) sorted := by
  let descending (first second : α) : Prop := sortKey Field second ≤ sortKey Field first
  have perm : (items.insertionSort descending).Perm items := List.perm_insertionSort _ _
  refine ⟨items.insertionSort descending, if_pos pageable.comparable, perm, ?_⟩
  have total : Std.Total descending := ⟨fun first second => le_total _ _⟩
  have transitive : IsTrans α descending := ⟨fun _ _ _ one two => le_trans two one⟩
  have weakly : (items.insertionSort descending).Pairwise descending :=
    List.pairwise_insertionSort _ _
  have distinct : (items.insertionSort descending).Pairwise fun first second =>
      sortKey Field first ≠ sortKey Field second :=
    perm.symm.pairwise pageable.sortKeys_distinct fun different => Ne.symm different
  exact weakly.and distinct |>.imp fun both => lt_of_le_of_ne both.1 (Ne.symm both.2)

end Pageable

/-! ### One page of a traversal

A page going up is a page going down read backwards, so both directions are proved at once on the list
oriented in the direction of the traversal.
-/

/-- The request that follows one marker: `before` going down, `after` going up. -/
def pagingRequest (limit : Option Nat) (ascending : Bool) (cursor : Option PagingMarker) :
    PagingRequest :=
  if ascending then { limit := limit, after := cursor } else { limit := limit, before := cursor }

/-- A page together with the marker a client follows from it. -/
def Pager.nextPage (pager : Pager α) (Field : α → Key) (limit : Option Nat) (ascending : Bool)
    (cursor : Option PagingMarker) : Except PagerError (List α × Option PagingMarker) := do
  let page ← pager.fetch Field (pagingRequest limit ascending cursor) ascending
  return (page.results, if ascending then page.after else page.before)

/-- A list in descending order, read in the direction of a traversal. -/
def oriented (ascending : Bool) (items : List α) : List α :=
  if ascending then items.reverse else items

theorem oriented_oriented (ascending : Bool) (items : List α) :
    oriented ascending (oriented ascending items) = items := by
  cases ascending <;> simp [oriented]

theorem tail_reverse (items : List α) (n : Nat) : tail items.reverse n = (items.take n).reverse := by
  rw [tail, List.reverse_take, List.length_reverse]

theorem getNewMarkers_of_storable {Field : α → Key} {results : List α} (nonempty : results ≠ [])
    (storable : ∀ item ∈ results, ∀ value ∈ Field item, Storable value)
    (before after : Option PagingMarker) (fromBefore hasMore : Bool) :
    ∃ minimum maximum,
      getFieldValuesFromMarker minimum = Field (results.getLast nonempty) ∧
      getFieldValuesFromMarker maximum = Field (results.head nonempty) ∧
      getNewMarkers Field results before after fromBefore hasMore =
        .ok (if fromBefore then (if hasMore then some minimum else none, some maximum)
          else (some minimum, if hasMore then some maximum else none)) := by
  cases results with
  | nil => exact False.elim (nonempty rfl)
  | cons first rest =>
      obtain ⟨minimum, builtMinimum, readsMinimum⟩ :=
        buildMarker_of_storable (storable _ (List.getLast_mem nonempty))
      obtain ⟨maximum, builtMaximum, readsMaximum⟩ :=
        buildMarker_of_storable (storable first List.mem_cons_self)
      refine ⟨minimum, maximum, readsMinimum, readsMaximum, ?_⟩
      rw [getNewMarkers, getMarkersFromResults, builtMinimum, builtMaximum]
      rfl

section Response

variable {Field : α → Key} {rest : List α} {n : Nat}

/-- The fetched results fit the page: they are all returned and there is nothing to follow. -/
theorem respond_fits (ascending : Bool) {cursor : Option PagingMarker}
    (storable : ∀ item ∈ rest, ∀ value ∈ Field item, Storable value)
    (start : rest = [] → cursor = none) (short : rest.length ≤ n + 1) :
    ∃ page, respond Field (pagingRequest (some (n + 1)) ascending cursor) ascending
        (oriented ascending rest) = .ok page ∧
      page.results = rest ∧ (if ascending then page.after else page.before) = none := by
  have noMore : ¬ n + 1 + 1 ≤ rest.length := by omega
  cases ascending with
  | false =>
      have kept : rest.take (n + 1) = rest := List.take_of_length_le short
      by_cases empty : rest = []
      · subst empty
        obtain rfl := start rfl
        exact ⟨⟨[], none, none⟩, rfl, rfl, rfl⟩
      · obtain ⟨minimum, maximum, -, -, markers⟩ :=
          getNewMarkers_of_storable empty storable cursor none true false
        refine ⟨⟨rest, none, some maximum⟩, ?_, rfl, rfl⟩
        simp [respond, turnIntoPage, pagingRequest, oriented, startFromBefore, noMore, kept, markers, bind,
          Except.bind, pure, Except.pure]
  | true =>
      have kept : tail rest.reverse (n + 1) = rest.reverse := by
        rw [tail_reverse, List.take_of_length_le short]
      by_cases empty : rest = []
      · subst empty
        obtain rfl := start rfl
        refine ⟨⟨[], none, none⟩, ?_, rfl, rfl⟩
        simp [respond, turnIntoPage, pagingRequest, oriented, startFromBefore, tail, getNewMarkers, pure,
          Except.pure, bind, Except.bind]
      · have reversedNonempty : rest.reverse ≠ [] := by simpa using empty
        obtain ⟨minimum, maximum, -, -, markers⟩ :=
          getNewMarkers_of_storable reversedNonempty
            (fun item member => storable item (List.mem_reverse.mp member)) none cursor false false
        refine ⟨⟨rest, some minimum, none⟩, ?_, rfl, rfl⟩
        simp [respond, turnIntoPage, pagingRequest, oriented, startFromBefore, noMore, kept, markers, bind,
          Except.bind, pure, Except.pure]

/-- One result more than the limit was fetched: the page ends before it, and the marker to follow is
    the key of the last item on the page. -/
theorem respond_cuts (ascending : Bool) (cursor : Option PagingMarker)
    (storable : ∀ item ∈ rest, ∀ value ∈ Field item, Storable value) (long : n + 1 < rest.length) :
    ∃ page next, respond Field (pagingRequest (some (n + 1)) ascending cursor) ascending
        (oriented ascending (rest.take (n + 2))) = .ok page ∧
      page.results = rest.take (n + 1) ∧
      (if ascending then page.after else page.before) = some next ∧
      getFieldValuesFromMarker next = Field (rest.get ⟨n, Nat.lt_of_succ_lt long⟩) := by
  have more : n + 1 + 1 ≤ rest.length := long
  have cut : (rest.take (n + 2)).take (n + 1) = rest.take (n + 1) := by
    rw [List.take_take, Nat.min_eq_left (Nat.le_succ _)]
  have nonempty : rest.take (n + 1) ≠ [] := by
    intro empty
    have length := congrArg List.length empty
    simp only [List.length_take, List.length_nil] at length
    omega
  have edge : (rest.take (n + 1)).getLast nonempty = rest.get ⟨n, Nat.lt_of_succ_lt long⟩ := by
    rw [List.get_eq_getElem, List.getLast_eq_getElem, List.getElem_take]
    congr 1
    simp only [List.length_take]
    omega
  have storableKept : ∀ item ∈ rest.take (n + 1), ∀ value ∈ Field item, Storable value :=
    fun item member => storable item (List.mem_of_mem_take member)
  cases ascending with
  | false =>
      obtain ⟨minimum, maximum, readsMinimum, -, markers⟩ :=
        getNewMarkers_of_storable nonempty storableKept cursor none true true
      refine ⟨⟨rest.take (n + 1), some minimum, some maximum⟩, minimum, ?_, rfl, rfl, ?_⟩
      · simp only [respond, turnIntoPage, pagingRequest, oriented, startFromBefore]
        simp [more, cut, markers, bind, Except.bind, pure, Except.pure]
      · rw [readsMinimum, edge]
  | true =>
      have reversedNonempty : (rest.take (n + 1)).reverse ≠ [] := by simpa using nonempty
      obtain ⟨minimum, maximum, -, readsMaximum, markers⟩ :=
        getNewMarkers_of_storable reversedNonempty
          (fun item member => storableKept item (List.mem_reverse.mp member)) none cursor false true
      refine ⟨⟨rest.take (n + 1), some minimum, some maximum⟩, maximum, ?_, rfl, rfl, ?_⟩
      · simp only [respond, turnIntoPage, pagingRequest, oriented, startFromBefore]
        simp [more, tail_reverse, cut, markers, bind, Except.bind, pure, Except.pure]
      · rw [readsMaximum, List.head_reverse, edge]

/-- Without a limit there is nothing to follow. -/
theorem respond_unlimited (ascending : Bool)
    (storable : ∀ item ∈ rest, ∀ value ∈ Field item, Storable value) :
    ∃ page, respond Field (pagingRequest none ascending none) ascending
        (oriented ascending rest) = .ok page ∧
      page.results = rest ∧ (if ascending then page.after else page.before) = none := by
  by_cases empty : rest = []
  · subst empty
    refine ⟨⟨[], none, none⟩, ?_, rfl, by cases ascending <;> rfl⟩
    cases ascending <;> rfl
  · have nonempty : oriented ascending rest ≠ [] := by
      cases ascending <;> simpa [oriented] using empty
    have storableOriented : ∀ item ∈ oriented ascending rest, ∀ value ∈ Field item, Storable value := by
      intro item member
      refine storable item ?_
      cases ascending <;> simpa [oriented] using member
    obtain ⟨minimum, maximum, -, -, markers⟩ :=
      getNewMarkers_of_storable nonempty storableOriented none none (!ascending) false
    cases ascending with
    | false =>
        refine ⟨⟨rest, none, some maximum⟩, ?_, rfl, rfl⟩
        simp only [oriented, Bool.not_false, Bool.false_eq_true, if_false] at markers
        simp [respond, turnIntoPage, pagingRequest, oriented, startFromBefore, markers, bind, Except.bind, pure,
          Except.pure]
    | true =>
        refine ⟨⟨rest, some minimum, none⟩, ?_, rfl, rfl⟩
        simp only [oriented, Bool.not_true, if_true] at markers
        simp [respond, turnIntoPage, pagingRequest, oriented, startFromBefore, markers, bind, Except.bind, pure,
          Except.pure]

end Response

/-! ### The traversal -/

namespace Pageable

variable {Field : α → Key} {items sorted : List α}

/-- Where a cursor stands in the list read in the direction of the traversal: the empty cursor before
    all of it, a marker behind the item whose key it holds, with something left. -/
def Stands (Field : α → Key) (inOrder : List α) : Option PagingMarker → List α → Prop
  | none, rest => rest = inOrder
  | some marker, rest => rest ≠ [] ∧
      ∃ front item, inOrder = front ++ item :: rest ∧ getFieldValuesFromMarker marker = Field item

theorem Stands.suffix {inOrder rest : List α} {cursor : Option PagingMarker}
    (stands : Stands Field inOrder cursor rest) : rest <:+ inOrder := by
  cases cursor with
  | none => exact stands ▸ List.suffix_refl rest
  | some marker =>
      obtain ⟨-, front, item, rfl, -⟩ := stands
      exact ⟨front ++ [item], by simp⟩

/-- The filter of one page keeps what lies behind the cursor, in descending order. -/
theorem filter_behind (pageable : Pageable Field items) (perm : sorted.Perm items)
    (descending : StrictlyDescending (sortKey Field) sorted) (limit : Option Nat) (ascending : Bool)
    {cursor : Option PagingMarker} {rest : List α}
    (stands : Stands Field (oriented ascending sorted) cursor rest) :
    filterOrRaise (fun item => betweenMarkers (Field item)
        (pagingRequest limit ascending cursor).before (pagingRequest limit ascending cursor).after)
      sorted = .ok (oriented ascending rest) := by
  cases cursor with
  | none =>
      obtain rfl : rest = oriented ascending sorted := stands
      rw [oriented_oriented]
      have kept : filterOrRaise (fun item => betweenMarkers (Field item) none none) sorted =
          .ok (sorted.filter fun _ => true) := filterOrRaise_eq_filter fun _ _ => rfl
      rw [List.filter_true] at kept
      cases ascending <;> exact kept
  | some marker =>
      obtain ⟨-, front, item, split, reads⟩ := stands
      have member : item ∈ sorted := by
        have inOrder : item ∈ oriented ascending sorted := by simp [split]
        cases ascending <;> simpa [oriented] using inOrder
      have compares : ∀ other ∈ sorted, Comparable (sortKey Field other) (sortKey Field item) :=
        fun other memberOther =>
          pageable.comparable_of_mem (perm.mem_iff.mp memberOther) (perm.mem_iff.mp member)
      cases ascending with
      | false =>
          have kept : filterOrRaise (fun other => betweenMarkers (Field other) (some marker) none)
              sorted = .ok (sorted.filter fun other => sortKey Field other < sortKey Field item) := by
            refine filterOrRaise_eq_filter fun other memberOther => ?_
            have below := lessThan_of_comparable (compares other memberOther)
            simp only [betweenMarkers, belowMarker, aboveMarker, reads, below, bind, Except.bind]
            cases decide (sortKey Field other < sortKey Field item) <;> rfl
          have behind : sorted = front ++ item :: rest := split
          rw [behind] at descending
          refine kept.trans ?_
          rw [behind, filter_key_lt_append descending]
          rfl
      | true =>
          have kept : filterOrRaise (fun other => betweenMarkers (Field other) none (some marker))
              sorted = .ok (sorted.filter fun other => sortKey Field item < sortKey Field other) := by
            refine filterOrRaise_eq_filter fun other memberOther => ?_
            have above := lessThan_of_comparable (compares other memberOther).symm
            simp only [betweenMarkers, belowMarker, aboveMarker, reads, bind, Except.bind, if_true]
            exact above
          have behind : sorted = rest.reverse ++ item :: front.reverse := by
            have reversed : sorted.reverse = front ++ item :: rest := split
            rw [← List.reverse_reverse sorted, reversed]
            simp
          rw [behind] at descending
          refine kept.trans ?_
          rw [behind, filter_lt_key_append descending]
          rfl

theorem fetchResults_behind (pageable : Pageable Field items) (isSorted : sortedList Field items = .ok sorted)
    (perm : sorted.Perm items) (descending : StrictlyDescending (sortKey Field) sorted)
    (limit : Option Nat) (ascending : Bool) {cursor : Option PagingMarker} {rest : List α}
    (stands : Stands Field (oriented ascending sorted) cursor rest) :
    (Pager.itemList items).fetchResults Field (pagingRequest limit ascending cursor) ascending =
      .ok (oriented ascending (match limit with | none => rest | some n => rest.take (n + 1))) := by
  have behind := filter_behind pageable perm descending limit ascending stands
  simp only [Pager.fetchResults, isSorted, fetchPageFromItemList, behind, bind, Except.bind]
  cases limit with
  | none => cases ascending <;> rfl
  | some n =>
      cases ascending with
      | false => simp [pagingRequest, startFromBefore, oriented, pure, Except.pure]
      | true => simp [pagingRequest, startFromBefore, oriented, tail_reverse, pure, Except.pure]

/-- Each fetch of a traversal cuts one page off what is left. -/
theorem slices (pageable : Pageable Field items) (isSorted : sortedList Field items = .ok sorted)
    (perm : sorted.Perm items) (descending : StrictlyDescending (sortKey Field) sorted) (n : Nat)
    (ascending : Bool) :
    Slices ((Pager.itemList items).nextPage Field (some (n + 1)) ascending) (n + 1)
      (Stands Field (oriented ascending sorted)) := by
  have storableRest : ∀ {cursor rest}, Stands Field (oriented ascending sorted) cursor rest →
      ∀ item ∈ rest, ∀ value ∈ Field item, Storable value := by
    intro cursor rest stands item member
    have listed : item ∈ oriented ascending sorted := stands.suffix.subset member
    have inSorted : item ∈ sorted := by cases ascending <;> simpa [oriented] using listed
    exact pageable.storable item (perm.mem_iff.mp inSorted)
  constructor
  · intro cursor rest stands short
    have start : rest = [] → cursor = none := by
      intro empty
      cases cursor with
      | none => rfl
      | some marker => exact False.elim (stands.1 empty)
    obtain ⟨page, responded, results, followed⟩ :=
      respond_fits ascending (storableRest stands) start short
    have fetched := fetchResults_behind pageable isSorted perm descending (some (n + 1)) ascending stands
    simp only [List.take_of_length_le (Nat.le_succ_of_le short)] at fetched
    simp only [Pager.nextPage, Pager.fetch, fetched, bind, Except.bind, responded]
    simp [pure, Except.pure, results, followed]
  · intro cursor rest stands long
    obtain ⟨page, next, responded, results, followed, reads⟩ :=
      respond_cuts ascending cursor (storableRest stands) long
    have fetched := fetchResults_behind pageable isSorted perm descending (some (n + 1)) ascending stands
    refine ⟨next, ?_, ?_, ?_⟩
    · simp only [Pager.nextPage, Pager.fetch, fetched, bind, Except.bind, responded]
      simp [pure, Except.pure, results, followed]
    · intro nothing
      have length := congrArg List.length nothing
      simp only [List.length_drop, List.length_nil] at length
      omega
    · obtain ⟨front, split⟩ := stands.suffix
      refine ⟨front ++ rest.take n, rest.get ⟨n, Nat.lt_of_succ_lt long⟩, ?_, reads⟩
      rw [← split, List.append_assoc, List.get_eq_getElem, ← List.drop_eq_getElem_cons,
        List.take_append_drop]

end Pageable

/-- In Python's own comparison every earlier item is the smaller one going up and the larger one going
    down. -/
def InKeyOrder (Field : α → Key) (ascending : Bool) (items : List α) : Prop :=
  items.Pairwise fun earlier later =>
    if ascending then tupleLt (sortKey Field earlier) (sortKey Field later) = some true
    else tupleLt (sortKey Field later) (sortKey Field earlier) = some true

theorem Pageable.inKeyOrder {Field : α → Key} {items sorted : List α} (pageable : Pageable Field items)
    (perm : sorted.Perm items) (descending : StrictlyDescending (sortKey Field) sorted)
    (ascending : Bool) : InKeyOrder Field ascending (oriented ascending sorted) := by
  have smaller : sorted.Pairwise fun earlier later =>
      tupleLt (sortKey Field later) (sortKey Field earlier) = some true := by
    refine List.Pairwise.imp_of_mem ?_ descending
    intro earlier later memberEarlier memberLater below
    have comparable := pageable.comparable_of_mem (perm.mem_iff.mp memberLater)
      (perm.mem_iff.mp memberEarlier)
    rw [comparable.tupleLt_eq, decide_eq_true below]
  cases ascending with
  | false => simpa [InKeyOrder, oriented] using smaller
  | true => simpa [InKeyOrder, oriented, List.pairwise_reverse] using smaller

/-- Following the markers of a list pager, in either direction and with any positive limit, ends, and
    the pages put together are the items in key order, each of them once. Without a limit there is one
    page. -/
theorem Pager.traversal_complete (Field : α → Key) (items : List α) (pageable : Pageable Field items)
    (limit : Option Nat) (positive : limit ≠ some 0) (ascending : Bool) :
    ∃ pages, Run ((Pager.itemList items).nextPage Field limit ascending) none pages ∧
      (∀ other, Run ((Pager.itemList items).nextPage Field limit ascending) none other → other = pages) ∧
      pages.flatten.Perm items ∧ InKeyOrder Field ascending pages.flatten ∧
      (∀ n, limit = some n → ∀ page ∈ pages, page.length ≤ n) ∧
      (limit = none → pages = [pages.flatten]) := by
  obtain ⟨sorted, isSorted, perm, descending⟩ := pageable.exists_sorted
  have permOriented : (oriented ascending sorted).Perm items := by
    cases ascending with
    | false => exact perm
    | true => exact (List.reverse_perm sorted).trans perm
  have order := pageable.inKeyOrder perm descending ascending
  have start : Pageable.Stands Field (oriented ascending sorted) none (oriented ascending sorted) := rfl
  cases limit with
  | none =>
      have storable : ∀ item ∈ oriented ascending sorted, ∀ value ∈ Field item, Storable value :=
        fun item member => pageable.storable item (permOriented.mem_iff.mp member)
      obtain ⟨page, responded, results, followed⟩ := respond_unlimited ascending storable
      have fetched := pageable.fetchResults_behind isSorted perm descending none ascending start
      have answered : (Pager.itemList items).nextPage Field none ascending none =
          .ok (oriented ascending sorted, none) := by
        simp only [Pager.nextPage, Pager.fetch, fetched, bind, Except.bind, responded]
        simp [pure, Except.pure, results, followed]
      have run := Run.last answered
      refine ⟨[oriented ascending sorted], run, fun other fetchedOther => fetchedOther.deterministic run,
        ?_, ?_, by simp, by simp⟩
      · simpa using permOriented
      · simpa using order
  | some n =>
      obtain ⟨m, rfl⟩ : ∃ m, n = m + 1 := Nat.exists_eq_succ_of_ne_zero fun zero => positive (by rw [zero])
      obtain ⟨pages, run, flat, sizes⟩ :=
        (pageable.slices isSorted perm descending m ascending).exists_run (Nat.succ_pos m) start
      refine ⟨pages, run, fun other fetchedOther => fetchedOther.deterministic run, ?_, ?_, ?_, by simp⟩
      · rw [flat]
        exact permOriented
      · rw [flat]
        exact order
      · intro bound same page member
        obtain rfl := Option.some.inj same
        exact sizes page member

/-- Five items with a `None` among their keys, two a page. -/
theorem Pager.traversal_complete_five :
    ∃ pages, Run ((Pager.itemList [([.null, .int 2] : Key), [.int 7, .int 1], [.null, .int 3],
        [.float (.finite (1 / 2)), .int 4], [.bool true, .int 5]]).nextPage id (some 2) true) none pages ∧
      pages.flatten.Perm [([.null, .int 2] : Key), [.int 7, .int 1], [.null, .int 3],
        [.float (.finite (1 / 2)), .int 4], [.bool true, .int 5]] := by
  have pageable : Pageable id [([.null, .int 2] : Key), [.int 7, .int 1], [.null, .int 3],
      [.float (.finite (1 / 2)), .int 4], [.bool true, .int 5]] := by
    constructor
    · simp [Key.pyEq, FieldValue.pyEq, FieldValue.sanitize]
    · decide +kernel
    · decide
  obtain ⟨pages, run, -, perm, -⟩ :=
    Pager.traversal_complete id _ pageable (some 2) (by decide) true
  exact ⟨pages, run, perm⟩

/-- Keys that are distinct and end in an int are not enough. A `None` next to a string does not sort,
    and an id of `2 ^ 63` does not fit into the marker that every nonempty page builds. -/
theorem Pager.no_traversal_of_distinct_keys :
    ¬ (∀ items : List Key, (items.Pairwise fun first second => ¬ Key.pyEq first second) →
        (∀ key ∈ items, ∃ id, key.getLast? = some (.int id)) →
        ∃ pages, Run ((Pager.itemList items).nextPage id (some 1) false) none pages) ∧
      ∀ pages, ¬ Run ((Pager.itemList [([.int (2 ^ 63)] : Key)]).nextPage id (some 1) false) none pages := by
  have unsorted : (Pager.itemList [([.null, .int 1] : Key), [.str "a", .int 2]]).nextPage id
      (some 1) false none = .error .typeError := by decide
  have unstorable : (Pager.itemList [([.int (2 ^ 63)] : Key)]).nextPage id (some 1) false none =
      .error (.valueError "Value out of range") := by decide
  constructor
  · intro traversed
    have distinct : [([.null, .int 1] : Key), [.str "a", .int 2]].Pairwise
        fun first second => ¬ Key.pyEq first second := by
      simp [Key.pyEq, FieldValue.pyEq]
    obtain ⟨pages, run⟩ := traversed _ distinct (by simp)
    cases run with
    | last fetched =>
        rw [unsorted] at fetched
        cases fetched
    | more fetched _ =>
        rw [unsorted] at fetched
        cases fetched
  · intro pages run
    cases run with
    | last fetched =>
        rw [unstorable] at fetched
        cases fetched
    | more fetched _ =>
        rw [unstorable] at fetched
        cases fetched

end Zigopt.Pagination
